import WideColumn.Collection.List
import WideColumn.Collection.Map
import WideColumn.Collection.Set
import WideColumn.Config
import WideColumn.Document
import WideColumn.MarshalClass
import WideColumn.Proofs.Collection.Contents
import WideColumn.Proofs.Hash
import WideColumn.Proofs.Order.Value
import WideColumn.Proofs.Wire.Faithful
import WideColumn.Scalar.Text
import WideColumn.TypeName
import WideColumn.Value.Arithmetic
import WideColumn.Value.Content
import WideColumn.Value.Text
import WideColumn.Wire.Encoding
import WideColumn.Proofs.Wire.Limits
import WideColumn.Proofs.Collection.Request
import WideColumn.Proofs.Collection.Unread
import WideColumn.Proofs.Collection.Program
import WideColumn.Proofs.Collection.Change
import WideColumn.Proofs.Collection.Walk
import WideColumn.Proofs.Collection.Extensional
import WideColumn.Proofs.Wire.Admission
import WideColumn.Proofs.ClassReference.Grammar
import WideColumn.Proofs.ClassReference.Meaning
import WideColumn.Proofs.Ledger.Basic
import WideColumn.Proofs.Ledger.Run
import WideColumn.Proofs.Ledger.Map
import WideColumn.Proofs.Ledger.Set
import WideColumn.Proofs.TwosComplement
import WideColumn.Proofs.Numeral
import WideColumn.Proofs.Wire.Calls
import WideColumn.Proofs.Decimal.Arithmetic
import WideColumn.Proofs.Decimal.Literal
import WideColumn.Proofs.Decimal.Text
import WideColumn.Proofs.Timestamp
import WideColumn.Proofs.TimeUuid
import WideColumn.Proofs.Integer.Text
import WideColumn.Proofs.Integer.Root
import WideColumn.Proofs.Integer.Narrowing
import WideColumn.Proofs.Collection.Handover
import WideColumn.Proofs.Decimal.Truncation
import WideColumn.Proofs.Wire.Upgrade
import WideColumn.Proofs.Collection.InPlace
import WideColumn.Proofs.ClassReference.Spacing
import WideColumn.Proofs.Binary.Truncation
import WideColumn.Proofs.TypeName
import WideColumn.Proofs.Uuid
import WideColumn.Proofs.Inet
import WideColumn.Proofs.Scalar.Text
