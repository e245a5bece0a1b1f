import WideColumn.Scalar.Arithmetic
import WideColumn.Value.Basic
/-!
Arithmetic of values, which only single values of numeric types have.
-/

namespace WideColumn.Value

def binary (op : BinaryOp) : Value → Value → Except Error Value
  | scalar a, scalar b => (Scalar.binary op a b).map scalar
  | scalar _, b => .error (.notNumeric b.typeName)
  | a, _ => .error (.notNumeric a.typeName)

def unary (op : UnaryOp) : Value → Except Error Value
  | scalar a => (Scalar.unary op a).map scalar
  | a => .error (.notNumeric a.typeName)

end WideColumn.Value
