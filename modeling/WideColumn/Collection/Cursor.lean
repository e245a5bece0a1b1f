/-!
A place in a sequence that survives changes of the sequence.
-/

namespace WideColumn

/-- A place in a sequence. It is detached while the entry it stood on is gone and its place is taken by the
entry that followed. -/
structure Cursor where
  position : Nat
  detached : Bool
  deriving DecidableEq

namespace Cursor

def start : Cursor := ⟨0, false⟩

/-- The place, if a sequence of the given length has an entry there. -/
def index? (c : Cursor) (length : Nat) : Option Nat := if c.position < length then some c.position else none

/-- Moves to the next entry; a detached cursor stands on it already. -/
def advance (c : Cursor) : Cursor :=
  if c.detached then ⟨c.position, false⟩ else ⟨c.position + 1, false⟩

/-- The cursor after the entry at place `i` is gone. -/
def afterRemoval (c : Cursor) (i : Nat) : Cursor :=
  if i < c.position then ⟨c.position - 1, c.detached⟩
  else if i = c.position then ⟨c.position, true⟩
  else c

end Cursor

end WideColumn
