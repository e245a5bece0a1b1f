import WideColumn.Arithmetic
import WideColumn.Binary.Text
import WideColumn.Blob
import WideColumn.DataType
import WideColumn.Uuid
import WideColumn.Wire.Protocol
/-!
Everything that can be refused, by cause, with the kind and the wording of each refusal.
-/

namespace WideColumn

inductive ErrorKind where
  | invalidArgument | divideByZero | range | serialization | unsupportedType | configuration
  deriving DecidableEq

namespace ErrorKind

/-- What a message of the kind begins with. -/
def heading : ErrorKind → String
  | invalidArgument => "Invalid argument: "
  | divideByZero => "Divide by zero: "
  | range => "Range error: "
  | serialization => "Serialization error: "
  | unsupportedType => "Unsupported type: "
  | configuration => "Configuration error: "

end ErrorKind

inductive ErrorCategory where
  | argument | arithmetic | serialization | type | configuration
  deriving DecidableEq

def ErrorCategory.name : ErrorCategory → String
  | .argument => "Argument"
  | .arithmetic => "Arithmetic"
  | .serialization => "Serialization"
  | .type => "Type"
  | .configuration => "Configuration"

def ErrorKind.category : ErrorKind → ErrorCategory
  | .invalidArgument => .argument
  | .divideByZero | .range => .arithmetic
  | .serialization => .serialization
  | .unsupportedType => .type
  | .configuration => .configuration

/-- A place in a collection that takes values of one type. -/
inductive Slot where
  | element | key | value
  deriving DecidableEq

def Slot.name : Slot → String
  | .element => "element"
  | .key => "key"
  | .value => "value"

/-- Why a request is refused. -/
inductive Error where
  | arithmetic (cause : ArithmeticError)
  /-- The second operand has another type than the first. -/
  | otherOperand (expected actual : ScalarType)
  /-- Arithmetic on something that has none, given by the name of its type. -/
  | notNumeric (typeName : String)
  /-- A text that denotes no value of the type. -/
  | unreadable (type : ScalarType) (text : String)
  /-- A double that stands for no value of the type. -/
  | unfitDouble (type : ScalarType) (x : Double)
  /-- An integer that is no value of the type. -/
  | unfitInteger (type : ScalarType) (n : Int)
  /-- A value to be made one of a type that does not accept it. -/
  | unaccepted (target actual : ScalarType)
  /-- A text for `ascii` with a byte above 127, first at `offset`. -/
  | notAscii (offset : Nat)
  | badHex (text : String) (cause : HexError)
  | badUuid (text : String) (cause : UuidError)
  /-- An identifier of another version where one of version 1 is called for. -/
  | notTimeBased (id : Uuid)
  /-- A number of bytes that no address has. -/
  | addressLength (count : Nat)
  /-- An instant that does not fit 64 bits of milliseconds. -/
  | instantOutside
  /-- An instant in milliseconds beyond the calendar. -/
  | undated (millis : Int)
  /-- Null offered to a collection. -/
  | nullInside (slot : Slot)
  /-- A value offered to a slot whose type is known by name only. -/
  | customSlot (slot : Slot) (name typeName : String)
  /-- A value offered to a slot of another type. -/
  | wrongType (slot : Slot) (declared : DataType) (typeName : String)
  /-- A name that no scalar type has. -/
  | unknownType (name : String)
  /-- A text that is no class reference. -/
  | notClassReference (text : String)
  /-- A known class with a wrong number of parameters, with its whole reference. -/
  | parameterCount (className : String) (expected : Nat) (reference : String)
  /-- Bytes asked for in a type known by name only. -/
  | customBytes (name : String)
  | nullBytes (declared : DataType)
  /-- Bytes asked for a value in another type. -/
  | mismatchedBytes (typeName : String) (declared : DataType)
  /-- A collection on the wire that has all its elements already. -/
  | full (shape : Shape) (count : Nat)
  /-- A collection on the wire closed with a wrong number of elements. -/
  | incomplete (shape : Shape) (expected actual : Nat)
  /-- A count or length that its field does not hold. -/
  | tooLong (length : Nat) (protocol : Protocol)
  /-- Another refusal that broke off the writing of a collection. -/
  | brokenOff (cause : Error)
  /-- The number of decimals is set above the most that is allowed. -/
  | tooPrecise (limit : Nat)
  /-- A refusal by a receiver of values, in its own words. -/
  | rejected (kind : ErrorKind) (words : String)

namespace Error

def kind : Error → ErrorKind
  | arithmetic .divisionByZero | arithmetic .moduloByZero => .divideByZero
  | arithmetic _ | instantOutside | undated _ => .range
  | otherOperand .. | notNumeric _ | unreadable .. | unfitDouble .. | unfitInteger .. | unaccepted ..
  | notAscii _ | badHex .. | badUuid .. | notTimeBased _ | addressLength _ | nullInside _ | customSlot .. | wrongType .. => .invalidArgument
  | unknownType _ | notClassReference _ | parameterCount .. | customBytes _ => .unsupportedType
  | nullBytes _ | mismatchedBytes .. | full .. | incomplete .. | tooLong .. | brokenOff _ => .serialization
  | tooPrecise _ => .configuration
  | rejected kind _ => kind

/-- One thing called for, another found. -/
def expected (wanted found : String) : String := "expected " ++ wanted ++ ", got " ++ found

/-- What a text of a scalar type should have been. -/
def wantedText : ScalarType → String
  | .decimal => "a decimal string"
  | .varint => "a numeric string"
  | .timestamp => "a timestamp string"
  | .inet => "an IP address"
  | type => s!"a valid {type.name} string"

/-- What a double for a scalar type should have been. -/
def wantedDouble : ScalarType → String
  | .decimal | .varint => "a finite double"
  | type => s!"a double within the {type.name} range"

/-- The wording of failed arithmetic. -/
def arithmeticDetail : ArithmeticError → String
  | .divisionByZero => "Cannot divide by zero"
  | .moduloByZero => "Cannot modulo by zero"
  | .tooBig => "Value is too big"
  | .noAbsoluteValue => "Value doesn\x27t exist"
  | .negativeRoot => "Cannot take a square root of a negative number"
  | .scalesApart a b => s!"scales {a} and {b} are too far apart"
  | .scaleOverflow => "scale overflow"
  | .scaleTooWide scale => s!"scale {scale} does not fit in 32 bits"

def detail : Error → String
  | arithmetic cause => arithmeticDetail cause
  | otherOperand wanted found => expected s!"an instance of {wanted.name}" found.name
  | notNumeric typeName => expected "a numeric value" typeName
  | unreadable type text => expected (wantedText type) (Text.quoted text)
  | unfitDouble type x => expected (wantedDouble type) x.shortest
  | unfitInteger type n => expected s!"a value within the {type.name} range" s!"{n}"
  | unaccepted target actual => expected target.name actual.name
  | notAscii offset => s!"ascii value contains a non-ASCII byte at offset {offset}"
  | badHex text cause => s!"invalid blob hex {Text.quoted text}: {cause.message}"
  | badUuid text cause => s!"invalid uuid {Text.quoted text}: {cause.message}"
  | notTimeBased id => expected "a version 1 uuid" s!"version {id.version} uuid {id.text}"
  | addressLength count => expected "4 or 16 address bytes" s!"{count}"
  | instantOutside => "timestamp out of range"
  | undated millis => s!"timestamp {millis} is not representable"
  | nullInside slot => s!"Invalid {slot.name}: null is not supported inside collections"
  | customSlot slot name typeName => s!"Invalid {slot.name}: custom type {name} cannot hold {typeName}"
  | wrongType slot declared typeName => s!"Invalid {slot.name}: expected {declared.name}, got {typeName}"
  | unknownType name => name
  | notClassReference text => s!"invalid validator: {text}"
  | parameterCount className wanted reference => s!"{className} expects {wanted} parameter(s): {reference}"
  | customBytes name => name
  | nullBytes declared => s!"cannot encode null as {declared.name}"
  | mismatchedBytes typeName declared => s!"cannot encode {typeName} as {declared.name}"
  | full shape count => s!"{shape.name} already holds {count} elements"
  | incomplete shape wanted found => s!"{shape.name} expected {wanted} elements, got {found}"
  | tooLong length protocol => s!"length {length} exceeds the {protocol.name} limit of {protocol.fieldMax}"
  | brokenOff cause => cause.kind.heading ++ detail cause
  | tooPrecise limit => s!"float_precision must be at most {limit}"
  | rejected _ words => words

def message (e : Error) : String := e.kind.heading ++ e.detail

def category (e : Error) : ErrorCategory := e.kind.category

/-- A refusal met while a collection is written: one that is not about writing or types is wrapped. -/
def whileWriting (e : Error) : Error :=
  match e.kind with
  | .serialization | .unsupportedType => e
  | _ => brokenOff e

end Error

end WideColumn
