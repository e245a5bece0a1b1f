import WideColumn.Proofs.Wire.Limits
import WideColumn.Value.Text
/-!
# Requests

Everything that can be asked of a value, what it answers and what becomes of it. A
request that is not one of its kind of collection is answered with nothing and leaves
the value as it is.
-/

namespace WideColumn

/-- A request whose arguments are of type `α`: values, or what stands for values. -/
inductive Request (α : Type) where
  -- changes
  | add (v : α)
  | set (k v : α)
  | removeAt (i : Nat)
  | remove (v : α)
  -- moves
  | clear
  | rewind
  | advance
  /-- The hash of what a path of places leads to, which becomes known. -/
  | hash (path : List Nat)
  -- questions to collections
  | size
  | get (i : Nat)
  /-- The value under a key of a map. -/
  | lookup (k : α)
  | find (v : α)
  | contains (v : α)
  | valid
  | key
  | current
  | bytes (p : Protocol)
  -- questions to any value
  | type
  | entries
  | order (v : α)
  | encode (p : Protocol) (t : DataType)
  | text (places : Nat)

/-- What is answered. -/
inductive Reply where
  | done
  | flag (b : Bool)
  | number (n : Nat)
  | place (i : Option Nat)
  | value (v : Option Value)
  | entries (es : List (DataType × Value))
  | type (t : Option DataType)
  | order (o : Ordering)
  | bytes (bs : Bytes)
  | text (s : String)
  | hash (h : Option UInt32)

namespace Request

def map {α β : Type} (f : α → β) : Request α → Request β
  | add v => add (f v)
  | set k v => set (f k) (f v)
  | removeAt i => removeAt i
  | remove v => remove (f v)
  | clear => clear
  | rewind => rewind
  | advance => advance
  | hash path => hash path
  | size => size
  | get i => get i
  | lookup k => lookup (f k)
  | find v => find (f v)
  | contains v => contains (f v)
  | valid => valid
  | key => key
  | current => current
  | bytes p => bytes p
  | type => type
  | entries => entries
  | order v => order (f v)
  | encode p t => encode p t
  | text places => text places

theorem map_map {α β γ : Type} (f : α → β) (g : β → γ) (r : Request α) : (r.map f).map g = r.map fun a => g (f a) := by
  cases r <;> rfl

/-- Whether a hash is read. -/
def isRead {α : Type} : Request α → Bool
  | hash _ => true
  | _ => false

/-- The operation that is asked for; a question asks for none. -/
def operation? : Request Value → Option Operation
  | add v => some (.add v)
  | set k v => some (.set k v)
  | removeAt i => some (.removeAt i)
  | remove v => some (.remove v)
  | clear => some .clear
  | rewind => some .rewind
  | advance => some .advance
  | _ => none

end Request

/-! ## Answers -/

def TypedList.answer (l : TypedList Value) : Request Value → Except Error Reply
  | .add v => (l.add v).map fun _ => .done
  | .removeAt i => .ok (.value (l.remove i).1)
  | .size => .ok (.number l.size)
  | .get i => .ok (.value (l.get? i))
  | .find v => (l.find v).map .place
  | .contains v => (l.contains v).map .flag
  | .valid => .ok (.flag l.valid)
  | .key => .ok (.place l.key?)
  | .current => .ok (.value l.current?)
  | .bytes p => (l.toBytes p).map .bytes
  | _ => .ok .done

def TypedSet.answer (s : TypedSet Value) : Request Value → Except Error Reply
  | .add v => (s.add v).map fun r => .flag r.1
  | .remove v => (s.remove v).map fun r => .flag r.1
  | .size => .ok (.number s.size)
  | .contains v => (s.contains v).map .flag
  | .valid => .ok (.flag s.valid)
  | .key => .ok (.place s.key?)
  | .current => .ok (.value s.current?)
  | .bytes p => (s.toBytes p).map .bytes
  | _ => .ok .done

def TypedMap.answer (m : TypedMap Value) : Request Value → Except Error Reply
  | .set k v => (m.set k v).map fun _ => .done
  | .remove k => (m.remove k).map fun r => .flag r.1
  | .size => .ok (.number m.size)
  | .lookup k => (m.get k).map .value
  | .contains k => (m.contains k).map .flag
  | .valid => .ok (.flag m.valid)
  | .key => .ok (.value m.key?)
  | .current => .ok (.value m.current?)
  | .bytes p => (m.toBytes p).map .bytes
  | _ => .ok .done

namespace Value

/-- What a path of places leads to from the value: places in lists and sets, and in maps
even places for keys and odd ones for values. -/
def within? : List Nat → Value → Option Value
  | [], v => some v
  | i :: path, v => v.stream[i]? >>= fun e => within? path e.2

/-- The answer of a collection as one of its form. -/
def formAnswer : Value → Request Value → Except Error Reply
  | list l, r => l.answer r
  | set s, r => s.answer r
  | map m, r => m.answer r
  | _, _ => .ok .done

def answer (v : Value) : Request Value → Except Error Reply
  | .type => .ok (.type v.type?)
  | .entries => .ok (.entries v.stream)
  | .order w => .ok (.order (v.order w))
  | .encode p t => (v.encode p t).map .bytes
  | .text places => .ok (.text (v.format places))
  | .hash path => .ok (.hash ((v.within? path).map fun w => w.readHash.1))
  | r => v.formAnswer r

/-- What becomes of a value by a request. -/
def after (v : Value) : Request Value → Value
  | .hash path => v.readAt path
  | r => r.operation?.elim v v.step

theorem after_of_operation {v : Value} {r : Request Value} (hr : r.isRead = false) :
    v.after r = r.operation?.elim v v.step := by
  cases r with
  | hash path => cases hr
  | _ => rfl

theorem Reachable.within {v w : Value} (hv : v.Reachable) {path : List Nat} (h : v.within? path = some w) :
    w.Reachable := by
  induction path generalizing v with
  | nil => cases h; exact hv
  | cons i path ih =>
    obtain ⟨e, he, h⟩ := Option.bind_eq_some_iff.1 h
    exact ih (.entry hv (List.mem_of_getElem? he)) h

end Value

end WideColumn
