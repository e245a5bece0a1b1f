import WideColumn.Value.Basic
/-!
Collections handed over entry by entry: the entries with their declared types, and receivers that take them
one at a time and may refuse.
-/

namespace WideColumn

/-- A receiver of entries with states `σ`: what it answers to an entry, and its state then. -/
abbrev Receiver (σ : Type) := σ → DataType → Value → Except Error Unit × σ

namespace Receiver

variable {σ : Type}

/-- Hands entries to a receiver until it refuses one. A refusal that is not about writing or types is reported
as a failure to write. -/
def feed (r : Receiver σ) : σ → List (DataType × Value) → Except Error Unit × σ
  | s, [] => (.ok (), s)
  | s, (t, v) :: rest =>
    match r s t v with
    | (.ok (), s) => feed r s rest
    | (.error e, s) => (.error e.whileWriting, s)

end Receiver

def TypedList.stream (l : TypedList Value) : List (DataType × Value) := l.elements.map (l.elementType, ·)

def TypedSet.stream (s : TypedSet Value) : List (DataType × Value) := s.elements.map (s.elementType, ·)

/-- Each key, followed by its value. -/
def TypedMap.stream (m : TypedMap Value) : List (DataType × Value) :=
  m.entries.flatMap fun (k, v) => [(m.keyType, k), (m.valueType, v)]

/-- The entries of a collection with their declared types, in order; other values have none. -/
def Value.stream : Value → List (DataType × Value)
  | list l => l.stream
  | set s => s.stream
  | map m => m.stream
  | _ => []

end WideColumn
