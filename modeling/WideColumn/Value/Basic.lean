import WideColumn.Collection.Cursor
import WideColumn.DataType
import WideColumn.Scalar.Basic
/-!
Values: null, single values, and collections of values. A collection has types for its entries, the entries
in order, a cursor, and its hash as long as that is known.
-/

namespace WideColumn

/-- A list over a type of entries. -/
structure TypedList (α : Type) where
  elementType : DataType
  elements : List α
  cursor : Cursor
  /-- The hash of the elements, if it was computed since they last changed. -/
  knownHash : Option UInt32

/-- A set over a type of entries, in the order of their insertion. -/
structure TypedSet (α : Type) where
  elementType : DataType
  elements : List α
  cursor : Cursor
  /-- The hash of the elements, if it was computed since they last changed. -/
  knownHash : Option UInt32

/-- A map over a type of keys and values, in the order in which the keys came in. -/
structure TypedMap (α : Type) where
  keyType : DataType
  valueType : DataType
  entries : List (α × α)
  cursor : Cursor
  /-- The hash of the entries, if it was computed since they last changed. -/
  knownHash : Option UInt32

/-- A value. Null is the absent value and never stands in a collection. -/
inductive Value where
  | null
  | scalar (value : Scalar)
  | list (value : TypedList Value)
  | set (value : TypedSet Value)
  | map (value : TypedMap Value)

def TypedList.empty {α : Type} (elementType : DataType) : TypedList α := ⟨elementType, [], .start, none⟩

def TypedSet.empty {α : Type} (elementType : DataType) : TypedSet α := ⟨elementType, [], .start, none⟩

def TypedMap.empty {α : Type} (keyType valueType : DataType) : TypedMap α :=
  ⟨keyType, valueType, [], .start, none⟩

namespace Value

/-- The type of a value; null has none. -/
def type? : Value → Option DataType
  | null => none
  | scalar s => some (.scalar s.type)
  | list l => some (.list l.elementType)
  | set s => some (.set s.elementType)
  | map m => some (.map m.keyType m.valueType)

/-- The name of the type of a value, or `null`. -/
def typeName (v : Value) : String := v.type?.elim "null" DataType.name

def isNull : Value → Bool
  | null => true
  | _ => false

def asScalar? : Value → Option Scalar
  | scalar s => some s
  | _ => none

def asList? : Value → Option (TypedList Value)
  | list l => some l
  | _ => none

def asSet? : Value → Option (TypedSet Value)
  | set s => some s
  | _ => none

def asMap? : Value → Option (TypedMap Value)
  | map m => some m
  | _ => none

def asText? (v : Value) : Option String := v.asScalar? >>= Scalar.asText?

end Value

end WideColumn
