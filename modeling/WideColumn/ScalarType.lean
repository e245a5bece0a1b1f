/-!
The sixteen types of single values, in the order of their first description.
-/

namespace WideColumn

inductive ScalarType where
  | ascii | bigint | blob | boolean | counter | decimal | double | float | int | text | timestamp | uuid
  | varchar | varint | timeuuid | inet
  deriving DecidableEq

namespace ScalarType

def all : List ScalarType :=
  [ascii, bigint, blob, boolean, counter, decimal, double, float, int, text, timestamp, uuid, varchar, varint,
    timeuuid, inet]

def name : ScalarType → String
  | ascii => "ascii"
  | bigint => "bigint"
  | blob => "blob"
  | boolean => "boolean"
  | counter => "counter"
  | decimal => "decimal"
  | double => "double"
  | float => "float"
  | int => "int"
  | text => "text"
  | timestamp => "timestamp"
  | uuid => "uuid"
  | varchar => "varchar"
  | varint => "varint"
  | timeuuid => "timeuuid"
  | inet => "inet"

/-- The type with a given name, in lower case. -/
def ofName? (name : String) : Option ScalarType := all.find? (·.name == name)

theorem ofName?_name (t : ScalarType) : ofName? t.name = some t := by
  cases t <;> decide

def rank (t : ScalarType) : Nat := all.idxOf t

/-- Whether values of the type have arithmetic. -/
def isNumeric : ScalarType → Bool
  | int | bigint | counter | float | double | decimal | varint => true
  | _ => false

def isTextual : ScalarType → Bool
  | ascii | text | varchar => true
  | _ => false

/-- Whether a value of type `other` may stand where `declared` is called for. The types `text` and `varchar`
stand for each other, and either may stand for `ascii`, whose content is checked then. -/
def accepts (declared other : ScalarType) : Bool :=
  declared == other ||
    match declared, other with
    | text, varchar | varchar, text | ascii, varchar | ascii, text => true
    | _, _ => false

end ScalarType

end WideColumn
