/-!
What can go wrong in arithmetic, whatever the kind of number.
-/

namespace WideColumn

/-- The operations on two numbers. -/
inductive BinaryOp where
  | add | sub | mul | div | modulo
  deriving DecidableEq

/-- The operations on one number. -/
inductive UnaryOp where
  | abs | neg | sqrt
  deriving DecidableEq

/-- Why an operation on numbers has no result. -/
inductive ArithmeticError where
  /-- Division by a zero. -/
  | divisionByZero
  /-- Remainder by a zero. -/
  | moduloByZero
  /-- The result lies outside the kind of number. -/
  | tooBig
  /-- The least number of a fixed width has no absolute value. -/
  | noAbsoluteValue
  /-- Square root of a number below zero. -/
  | negativeRoot
  /-- Two decimals whose scales are too far apart to be brought to one. -/
  | scalesApart (a b : Int)
  /-- The scale of a product is not a scale. -/
  | scaleOverflow
  /-- A scale of a quotient, a root or a literal that is not one. -/
  | scaleTooWide (scale : Int)
  deriving DecidableEq

end WideColumn
