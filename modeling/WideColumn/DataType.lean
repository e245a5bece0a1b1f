import WideColumn.ScalarType
/-!
Types of values: the scalar types, lists, sets and maps of any types, and types known by name only.
-/

namespace WideColumn

inductive DataType where
  | scalar (type : ScalarType)
  | list (element : DataType)
  | set (element : DataType)
  | map (key value : DataType)
  | custom (name : String)
  deriving DecidableEq

namespace DataType

/-- The name of a type; one known by name only has that name as it stands. -/
def name : DataType → String
  | scalar t => t.name
  | list e => "list<" ++ e.name ++ ">"
  | set e => "set<" ++ e.name ++ ">"
  | map k v => "map<" ++ k.name ++ ", " ++ v.name ++ ">"
  | custom n => n

/-- The scalar type with a given name. Other types are not read by name. -/
def ofName? (name : String) : Option DataType := (ScalarType.ofName? name).map scalar

def asScalar? : DataType → Option ScalarType
  | scalar t => some t
  | _ => none

/-- Whether the type is one of lists, sets or maps. -/
def isCollection : DataType → Bool
  | list _ | set _ | map _ _ => true
  | _ => false

/-- Place of the outermost form in the order of types. -/
def formRank : DataType → Nat
  | scalar _ => 0
  | list _ => 1
  | set _ => 2
  | map _ _ => 3
  | custom _ => 4

/-- By outermost form, then by the parts from left to right. -/
def order : DataType → DataType → Ordering
  | scalar a, scalar b => compare a.rank b.rank
  | list a, list b => order a b
  | set a, set b => order a b
  | map k v, map l w => (order k l).then (order v w)
  | custom a, custom b => compare a b
  | a, b => compare a.formRank b.formRank

end DataType

end WideColumn
