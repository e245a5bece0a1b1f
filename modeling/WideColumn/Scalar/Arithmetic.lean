import WideColumn.Decimal.Arithmetic
import WideColumn.Decimal.Conversion
import WideColumn.Scalar.Basic
import WideColumn.Varint
/-!
Arithmetic and conversions of single values. Both operands must be of one numeric type.
-/

namespace WideColumn.Scalar

/-- The refusal of two operands that are not of one numeric type. -/
def operandError (a b : Scalar) : Error :=
  if a.type.isNumeric then .otherOperand a.type b.type else .notNumeric a.type.name

/-- The result of an operation on numbers, as a value. -/
def ofResult {α : Type} (make : α → Scalar) (r : Except ArithmeticError α) : Except Error Scalar :=
  (r.map make).mapError .arithmetic

def binary (op : BinaryOp) : Scalar → Scalar → Except Error Scalar
  | int a, int b => ofResult int (Integer.binary op a b)
  | bigint a, bigint b => ofResult bigint (Integer.binary op a b)
  | counter a, counter b => ofResult counter (Integer.binary op a b)
  | float a, float b => ofResult float (Binary.binary op a b)
  | double a, double b => ofResult double (Binary.binary op a b)
  | decimal a, decimal b => ofResult decimal (Decimal.binary op a b)
  | varint a, varint b => ofResult varint (Varint.binary op a b)
  | a, b => .error (operandError a b)

def unary (op : UnaryOp) : Scalar → Except Error Scalar
  | int a => ofResult int (Integer.unary op a)
  | bigint a => ofResult bigint (Integer.unary op a)
  | counter a => ofResult counter (Integer.unary op a)
  | float a => ofResult float (Binary.unary op a)
  | double a => ofResult double (Binary.unary op a)
  | decimal a => ofResult decimal (Decimal.unary op a)
  | varint a => ofResult varint (Varint.unary op a)
  | a => .error (.notNumeric a.type.name)

/-- The value cut off to an integer of 64 bits; an instant is its milliseconds. -/
def toInt64 : Scalar → Except Error Int
  | int a => .ok a.toInt
  | bigint a | counter a => .ok a.toInt
  | float a => a.toInt64.mapError .arithmetic
  | double a => a.toInt64.mapError .arithmetic
  | decimal a => a.toInt64.mapError .arithmetic
  | varint a => (Varint.toInt64 a).mapError .arithmetic
  | timestamp a => .ok a.value
  | a => .error (.notNumeric a.type.name)

/-- The double nearest to the value. -/
def toDouble : Scalar → Except Error Double
  | int a => .ok (Integer.toDouble a)
  | bigint a | counter a => .ok (Integer.toDouble a)
  | float a => .ok (Binary.convert a)
  | double a => .ok a
  | decimal a => .ok a.toDouble
  | varint a => .ok (Varint.toDouble a)
  | a => .error (.notNumeric a.type.name)

end WideColumn.Scalar
