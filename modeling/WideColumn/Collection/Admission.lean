import WideColumn.Value.Content
/-!
Entry into a collection: which values a slot of a given type takes, and in what form.
-/

namespace WideColumn

/-- A value as it enters a slot of the declared type, or the reason why it may not. Single values are recast to
the declared type, other values must have exactly that type. -/
def admitted (declared : DataType) (slot : Slot) (v : Value) : Except Error Value :=
  match declared, v with
  | _, .null => .error (.nullInside slot)
  | .custom name, v => .error (.customSlot slot name v.typeName)
  | .scalar t, .scalar s =>
    if t.accepts s.type then (s.recast t).map .scalar else .error (.wrongType slot declared v.typeName)
  | declared, v => if v.type? = some declared then .ok v else .error (.wrongType slot declared v.typeName)

/-- Place of the first value that compares equal to `v`. -/
def placeOf? (v : Value) (vs : List Value) : Option Nat :=
  let c := v.content
  vs.findIdx? fun e => e.content.order c == .eq

end WideColumn
