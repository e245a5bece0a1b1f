import WideColumn.Proofs.Collection.Request
/-!
# Collections changed in place

An operation that works on a collection in place could leave it half changed when it is
refused on the way, or forget a hash for nothing. `Store` is a collection as it lies in
memory, with everything that an operation could touch, and operations are programs over
it, step by step (`EStateM` keeps what was done before a refusal). They answer and do
what the operations on collections do (`Held.perform_eq`), and only an answer that tells
of a change stands beside one (`Held.perform_cases`).
-/

namespace WideColumn

/-- The entries of a collection, its cursor, the hash that was computed last, and whether
that is out of date. -/
structure Store (α : Type) where
  row : List α
  cursor : Cursor
  dirty : Bool
  hash : UInt32

namespace Store

variable {α : Type}

/-- The hash, unless it is out of date. -/
def knownHash (s : Store α) : Option UInt32 := if s.dirty then none else some s.hash

@[simp]
theorem knownHash_of_dirty (row : List α) (c : Cursor) (h : UInt32) : knownHash ⟨row, c, true, h⟩ = none := rfl

/-! ## Steps -/

/-- Whether a slot takes a value, and in what form. Nothing is touched. -/
def check (declared : DataType) (slot : Slot) (v : Value) : EStateM Error (Store α) Value :=
  ofExcept (admitted declared slot v)

def push (a : α) : EStateM Error (Store α) Unit := modify fun s => { s with row := s.row ++ [a] }

def strike (i : Nat) : EStateM Error (Store α) Unit := modify fun s => { s with row := s.row.eraseIdx i }

def moveCursor (i : Nat) : EStateM Error (Store α) Unit := modify fun s => { s with cursor := s.cursor.afterRemoval i }

def invalidate : EStateM Error (Store α) Unit := modify fun s => { s with dirty := true }

/-- Place of the entry with a key equal to an admitted one. -/
def locate (key : α → Value) (k : Value) : EStateM Error (Store α) (Option Nat) := do
  return placeOf? k ((← get).row.map key)

/-- Takes out the entry with a key equal to an admitted one, and tells where it stood. -/
def strikeKey (key : α → Value) (k : Value) : EStateM Error (Store α) (Option Nat) := do
  let place ← locate key k
  if let some i := place then strike i
  return place

/-- Puts in an admitted value unless an equal one is there, and tells whether it did. -/
def pushNew (v : Value) : EStateM Error (Store Value) Bool := do
  match ← locate id v with
  | some _ => return false
  | none =>
    push v
    return true

/-- Puts an admitted value under an admitted key, which is there already or is put in. -/
def write (k v : Value) : EStateM Error (Store (Value × Value)) Unit := do
  match ← locate Prod.fst k with
  | some i => modify fun s => { s with row := s.row.modify i fun e => (e.1, v) }
  | none => push (k, v)

/-! ## Operations -/

/-- On a list: puts a value at the end. -/
def append (t : DataType) (v : Value) : EStateM Error (Store Value) Unit := do
  let v ← check t .element v
  push v
  invalidate

/-- On a list: place of the first element that compares equal. -/
def find (t : DataType) (v : Value) : EStateM Error (Store Value) (Option Nat) := do
  let v ← check t .element v
  locate id v

/-- On a list: takes out the element at a place. -/
def removeAt (i : Nat) : EStateM Error (Store Value) (Option Value) := do
  match (← get).row[i]? with
  | none => return none
  | some v =>
    strike i
    moveCursor i
    invalidate
    return some v

/-- On a set: puts in a value unless an equal one is there. -/
def insert (t : DataType) (v : Value) : EStateM Error (Store Value) Bool := do
  let v ← check t .element v
  let inserted ← pushNew v
  if inserted then invalidate
  return inserted

/-- On a map: sets the value under a key. -/
def set (keyType valueType : DataType) (k v : Value) : EStateM Error (Store (Value × Value)) Unit := do
  let k ← check keyType .key k
  let v ← check valueType .value v
  write k v
  invalidate

/-- On a map: the value under a key. -/
def get? (keyType : DataType) (k : Value) : EStateM Error (Store (Value × Value)) (Option Value) := do
  let k ← check keyType .key k
  let place ← locate Prod.fst k
  let row := (← get).row
  return place >>= fun i => row[i]?.map (·.2)

/-- On a set or a map: whether there is an entry with a key that compares equal. -/
def contains (key : α → Value) (t : DataType) (slot : Slot) (k : Value) : EStateM Error (Store α) Bool := do
  let k ← check t slot k
  return (← locate key k).isSome

/-- On a set or a map: takes out the entry with a key that compares equal. -/
def remove (key : α → Value) (t : DataType) (slot : Slot) (k : Value) : EStateM Error (Store α) Bool := do
  let k ← check t slot k
  match ← strikeKey key k with
  | some i =>
    moveCursor i
    invalidate
    return true
  | none => return false

theorem run_append (t : DataType) (v : Value) (s : Store Value) :
    (append t v).run s = match admitted t .element v with
      | .ok w => .ok () { s with row := s.row ++ [w], dirty := true }
      | .error e => .error e s := by
  unfold append check
  cases admitted t .element v <;> rfl

theorem run_find (t : DataType) (v : Value) (s : Store Value) :
    (find t v).run s = match admitted t .element v with
      | .ok w => .ok (placeOf? w s.row) s
      | .error e => .error e s := by
  unfold find check
  cases admitted t .element v with
  | error e => rfl
  | ok w => simp [locate, ofExcept]

theorem run_removeAt (i : Nat) (s : Store Value) :
    (removeAt i).run s = match s.row[i]? with
      | some v => .ok (some v) ⟨s.row.eraseIdx i, s.cursor.afterRemoval i, true, s.hash⟩
      | none => .ok none s := by
  simp only [removeAt]
  cases h : s.row[i]? <;> simp [h, strike, moveCursor, invalidate]

theorem run_insert (t : DataType) (v : Value) (s : Store Value) :
    (insert t v).run s = match admitted t .element v with
      | .ok w =>
        match placeOf? w s.row with
        | some _ => .ok false s
        | none => .ok true { s with row := s.row ++ [w], dirty := true }
      | .error e => .error e s := by
  unfold insert check
  cases admitted t .element v with
  | error e => rfl
  | ok w => cases h : placeOf? w s.row <;> simp [pushNew, locate, ofExcept, push, invalidate, h]

theorem run_set (t u : DataType) (k v : Value) (s : Store (Value × Value)) :
    (set t u k v).run s = match admitted t .key k, admitted u .value v with
      | .ok k, .ok v =>
        match placeOf? k (s.row.map (·.1)) with
        | some i => .ok () { s with row := s.row.modify i fun e => (e.1, v), dirty := true }
        | none => .ok () { s with row := s.row ++ [(k, v)], dirty := true }
      | .error e, _ => .error e s
      | .ok _, .error e => .error e s := by
  unfold set check
  cases admitted t .key k with
  | error e => rfl
  | ok k =>
    cases admitted u .value v with
    | error e => rfl
    | ok v => cases h : placeOf? k (s.row.map (·.1)) <;> simp [write, locate, ofExcept, push, invalidate, h]

theorem run_get? (t : DataType) (k : Value) (s : Store (Value × Value)) :
    (get? t k).run s = match admitted t .key k with
      | .ok k => .ok (placeOf? k (s.row.map (·.1)) >>= fun i => s.row[i]?.map (·.2)) s
      | .error e => .error e s := by
  unfold get? check
  cases admitted t .key k with
  | error e => rfl
  | ok k => simp [locate, ofExcept]

theorem run_contains (key : α → Value) (t : DataType) (slot : Slot) (k : Value) (s : Store α) :
    (contains key t slot k).run s = match admitted t slot k with
      | .ok k => .ok (placeOf? k (s.row.map key)).isSome s
      | .error e => .error e s := by
  unfold contains check
  cases admitted t slot k with
  | error e => rfl
  | ok k => simp [locate, ofExcept]

theorem run_remove (key : α → Value) (t : DataType) (slot : Slot) (k : Value) (s : Store α) :
    (remove key t slot k).run s = match admitted t slot k with
      | .ok k =>
        match placeOf? k (s.row.map key) with
        | some i => .ok true ⟨s.row.eraseIdx i, s.cursor.afterRemoval i, true, s.hash⟩
        | none => .ok false s
      | .error e => .error e s := by
  unfold remove check
  cases admitted t slot k with
  | error e => rfl
  | ok k => cases h : placeOf? k (s.row.map key) <;> simp [strikeKey, locate, ofExcept, strike, moveCursor, invalidate, h]

/-! ## Changes -/

/-- A program that leaves the store as it is when it is refused, and also when what it
gives is not of the kind `P`. -/
def ChangesOnly {β : Type} (program : EStateM Error (Store α) β) (P : β → Prop) : Prop :=
  ∀ s, (∃ e, program.run s = .error e s) ∨ (∃ b, program.run s = .ok b s) ∨ ∃ b s', program.run s = .ok b s' ∧ P b

/-- A check in front of a program: what it refuses has not been touched yet. -/
theorem ChangesOnly.check {β : Type} {t : DataType} {slot : Slot} {v : Value} {P : β → Prop}
    {program : Value → EStateM Error (Store α) β} (h : ∀ w, ChangesOnly (program w) P) :
    ChangesOnly (Store.check t slot v >>= program) P := by
  intro s
  unfold Store.check
  cases admitted t slot v with
  | error e => exact .inl ⟨e, rfl⟩
  | ok w => exact h w s

theorem changesOnly_append (t : DataType) (v : Value) : ChangesOnly (append t v) fun _ => True :=
  .check fun _ _ => .inr (.inr ⟨(), _, rfl, trivial⟩)

theorem changesOnly_find (t : DataType) (v : Value) : ChangesOnly (find t v) fun _ => False :=
  .check fun _ _ => .inr (.inl ⟨_, rfl⟩)

theorem changesOnly_removeAt (i : Nat) : ChangesOnly (removeAt i) fun v => v.isSome = true := by
  intro s
  rw [run_removeAt]
  cases s.row[i]? with
  | none => exact .inr (.inl ⟨none, rfl⟩)
  | some v => exact .inr (.inr ⟨some v, _, rfl, rfl⟩)

theorem changesOnly_insert (t : DataType) (v : Value) : ChangesOnly (insert t v) fun inserted => inserted = true := by
  refine .check fun w s => ?_
  cases h : placeOf? w s.row with
  | some i => exact .inr (.inl ⟨false, by simp [pushNew, locate, h]⟩)
  | none =>
    refine .inr (.inr ⟨true, { s with row := s.row ++ [w], dirty := true }, ?_, rfl⟩)
    simp [pushNew, locate, push, invalidate, h]

theorem changesOnly_set (t u : DataType) (k v : Value) : ChangesOnly (set t u k v) fun _ => True := by
  refine .check fun k => .check fun v s => .inr (.inr ⟨(), ?_⟩)
  cases h : placeOf? k (s.row.map (·.1)) <;> simp [write, locate, push, invalidate, h]

theorem changesOnly_get? (t : DataType) (k : Value) : ChangesOnly (get? t k) fun _ => False :=
  .check fun _ _ => .inr (.inl ⟨_, rfl⟩)

theorem changesOnly_contains (key : α → Value) (t : DataType) (slot : Slot) (k : Value) :
    ChangesOnly (contains key t slot k) fun _ => False :=
  .check fun _ _ => .inr (.inl ⟨_, rfl⟩)

theorem changesOnly_remove (key : α → Value) (t : DataType) (slot : Slot) (k : Value) :
    ChangesOnly (remove key t slot k) fun removed => removed = true := by
  refine .check fun k s => ?_
  cases h : placeOf? k (s.row.map key) with
  | some i =>
    refine .inr (.inr ⟨true, ⟨s.row.eraseIdx i, s.cursor.afterRemoval i, true, s.hash⟩, ?_, rfl⟩)
    simp [strikeKey, locate, strike, moveCursor, invalidate, h]
  | none => exact .inr (.inl ⟨false, by simp [strikeKey, locate, h]⟩)

end Store

/-- A list, set or map in memory. -/
inductive Held where
  | list (element : DataType) (s : Store Value)
  | set (element : DataType) (s : Store Value)
  | map (key value : DataType) (s : Store (Value × Value))

/-- An operation on the entries of a collection that can be refused or find nothing. -/
inductive EntryRequest where
  | add (v : Value)
  | set (k v : Value)
  | removeAt (i : Nat)
  | remove (v : Value)
  | find (v : Value)
  | contains (v : Value)
  | lookup (k : Value)

namespace EntryRequest

def request : EntryRequest → Request Value
  | add v => .add v
  | set k v => .set k v
  | removeAt i => .removeAt i
  | remove v => .remove v
  | find v => .find v
  | contains v => .contains v
  | lookup k => .lookup k

/-- Whether something is only asked. -/
def isQuestion : EntryRequest → Bool
  | find _ | contains _ | lookup _ => true
  | _ => false

end EntryRequest

namespace Held

/-- The collection as a value. -/
def value : Held → Value
  | list t s => .list ⟨t, s.row, s.cursor, s.knownHash⟩
  | set t s => .set ⟨t, s.row, s.cursor, s.knownHash⟩
  | map k v s => .map ⟨k, v, s.row, s.cursor, s.knownHash⟩

/-- The answer of a program over a store, and what is held after it. -/
def run {α β : Type} (hold : Store α → Held) (reply : β → Reply) (program : EStateM Error (Store α) β) (s : Store α) :
    Except Error Reply × Held :=
  match program.run s with
  | .ok b s => (.ok (reply b), hold s)
  | .error e s => (.error e, hold s)

/-- The answer to a request, and what is held after it. As for values, a request that is
not one of the form is answered with nothing. -/
def perform : Held → EntryRequest → Except Error Reply × Held
  | list t s, .add v => run (list t) (fun _ => .done) (Store.append t v) s
  | list t s, .removeAt i => run (list t) .value (Store.removeAt i) s
  | list t s, .find v => run (list t) .place (Store.find t v) s
  | list t s, .contains v => run (list t) (fun i => .flag i.isSome) (Store.find t v) s
  | set t s, .add v => run (set t) .flag (Store.insert t v) s
  | set t s, .remove v => run (set t) .flag (Store.remove id t .element v) s
  | set t s, .contains v => run (set t) .flag (Store.contains id t .element v) s
  | map t u s, .set k v => run (map t u) (fun _ => .done) (Store.set t u k v) s
  | map t u s, .remove k => run (map t u) .flag (Store.remove Prod.fst t .key k) s
  | map t u s, .contains k => run (map t u) .flag (Store.contains Prod.fst t .key k) s
  | map t u s, .lookup k => run (map t u) .value (Store.get? t k) s
  | h, _ => (.ok .done, h)

section

attribute [local simp] EntryRequest.request Request.operation? Value.answer Value.formAnswer Value.after Value.step
  Except.map Except.toOption

theorem perform_list (t : DataType) (s : Store Value) (r : EntryRequest) :
    ((list t s).perform r).1 = (list t s).value.answer r.request ∧
      ((list t s).perform r).2.value = (list t s).value.after r.request := by
  cases r with
  | add v =>
    simp only [perform, run, Store.run_append, value]
    cases h : admitted t .element v <;> simp [TypedList.answer, TypedList.add, h]
  | removeAt i =>
    simp only [perform, run, Store.run_removeAt, value]
    cases h : s.row[i]? <;> simp [TypedList.answer, TypedList.remove, h]
  | find v =>
    simp only [perform, run, Store.run_find, value]
    cases h : admitted t .element v <;> simp [TypedList.answer, TypedList.find, h]
  | contains v =>
    simp only [perform, run, Store.run_find, value]
    cases h : admitted t .element v <;> simp [TypedList.answer, TypedList.contains, TypedList.find, h]
  | set | remove | lookup => simp [perform, value, TypedList.answer]

theorem perform_set (t : DataType) (s : Store Value) (r : EntryRequest) :
    ((set t s).perform r).1 = (set t s).value.answer r.request ∧
      ((set t s).perform r).2.value = (set t s).value.after r.request := by
  cases r with
  | add v =>
    simp only [perform, run, Store.run_insert, value]
    cases h : admitted t .element v with
    | error e => simp [TypedSet.answer, TypedSet.add, h]
    | ok w => cases hp : placeOf? w s.row <;> simp [TypedSet.answer, TypedSet.add, h, hp]
  | remove v =>
    simp only [perform, run, Store.run_remove, List.map_id, value]
    cases h : admitted t .element v with
    | error e => simp [TypedSet.answer, TypedSet.remove, h]
    | ok w => cases hp : placeOf? w s.row <;> simp [TypedSet.answer, TypedSet.remove, h, hp]
  | contains v =>
    simp only [perform, run, Store.run_contains, List.map_id, value]
    cases h : admitted t .element v <;> simp [TypedSet.answer, TypedSet.contains, h]
  | set | removeAt | find | lookup => simp [perform, value, TypedSet.answer]

theorem perform_map (t u : DataType) (s : Store (Value × Value)) (r : EntryRequest) :
    ((map t u s).perform r).1 = (map t u s).value.answer r.request ∧
      ((map t u s).perform r).2.value = (map t u s).value.after r.request := by
  cases r with
  | set k v =>
    simp only [perform, run, Store.run_set, value]
    cases hk : admitted t .key k with
    | error e => simp [TypedMap.answer, TypedMap.set, hk, bind, Except.bind]
    | ok k =>
      cases hv : admitted u .value v with
      | error e => simp [TypedMap.answer, TypedMap.set, hk, hv, Except.ok_bind]
      | ok v =>
        cases hp : placeOf? k (s.row.map (·.1)) <;>
          simp [TypedMap.answer, TypedMap.set, TypedMap.placeOfKey?, TypedMap.keys, hk, hv, hp, Except.ok_bind]
  | remove k =>
    simp only [perform, run, Store.run_remove, value]
    cases hk : admitted t .key k with
    | error e => simp [TypedMap.answer, TypedMap.remove, hk]
    | ok k =>
      cases hp : placeOf? k (s.row.map (·.1)) <;>
        simp [TypedMap.answer, TypedMap.remove, TypedMap.placeOfKey?, TypedMap.keys, hk, hp]
  | contains k =>
    simp only [perform, run, Store.run_contains, value]
    cases hk : admitted t .key k <;>
      simp [TypedMap.answer, TypedMap.contains, TypedMap.placeOfKey?, TypedMap.keys, hk]
  | lookup k =>
    simp only [perform, run, Store.run_get?, value]
    cases hk : admitted t .key k <;> simp [TypedMap.answer, TypedMap.get, TypedMap.placeOfKey?, TypedMap.keys, hk]
  | add | removeAt | find => simp [perform, value, TypedMap.answer]

end

/-- In place the answers are the same, and so is what becomes of the collection. -/
theorem perform_eq (h : Held) (r : EntryRequest) :
    (h.perform r).1 = h.value.answer r.request ∧ (h.perform r).2.value = h.value.after r.request := by
  cases h with
  | list t s => exact perform_list t s r
  | set t s => exact perform_set t s r
  | map t u s => exact perform_map t u s r

theorem run_cases {α β : Type} {hold : Store α → Held} {reply : β → Reply} {program : EStateM Error (Store α) β}
    {P : β → Prop} (h : Store.ChangesOnly program P) (s : Store α) :
    (run hold reply program s).2 = hold s ∨ ∃ b, P b ∧ (run hold reply program s).1 = .ok (reply b) := by
  unfold run
  rcases h s with ⟨e, hs⟩ | ⟨b, hs⟩ | ⟨b, s', hs, hb⟩ <;> rw [hs]
  · exact .inl rfl
  · exact .inl rfl
  · exact .inr ⟨b, hb, rfl⟩

/-- Nothing whatever has changed unless a change was asked for and the answer tells of one. -/
theorem perform_cases (h : Held) (r : EntryRequest) :
    (h.perform r).2 = h ∨ r.isQuestion = false ∧ ((h.perform r).1 = .ok .done ∨ (h.perform r).1 = .ok (.flag true) ∨
      ∃ v, (h.perform r).1 = .ok (.value (some v))) := by
  cases h with
  | list t s =>
    cases r with
    | add v =>
      rcases run_cases (Store.changesOnly_append t v) s with h | ⟨_, -, h⟩
      · exact .inl h
      · exact .inr ⟨rfl, .inl h⟩
    | removeAt i =>
      rcases run_cases (Store.changesOnly_removeAt i) s with h | ⟨v, hv, h⟩
      · exact .inl h
      · obtain ⟨v, rfl⟩ := Option.isSome_iff_exists.1 hv
        exact .inr ⟨rfl, .inr (.inr ⟨v, h⟩)⟩
    | find v | contains v => exact .inl ((run_cases (Store.changesOnly_find t v) s).resolve_right (by simp))
    | set | remove | lookup => exact .inl rfl
  | set t s =>
    cases r with
    | add v =>
      rcases run_cases (Store.changesOnly_insert t v) s with h | ⟨_, rfl, h⟩
      · exact .inl h
      · exact .inr ⟨rfl, .inr (.inl h)⟩
    | remove v =>
      rcases run_cases (Store.changesOnly_remove id t .element v) s with h | ⟨_, rfl, h⟩
      · exact .inl h
      · exact .inr ⟨rfl, .inr (.inl h)⟩
    | contains v => exact .inl ((run_cases (Store.changesOnly_contains id t .element v) s).resolve_right (by simp))
    | set | removeAt | find | lookup => exact .inl rfl
  | map t u s =>
    cases r with
    | set k v =>
      rcases run_cases (Store.changesOnly_set t u k v) s with h | ⟨_, -, h⟩
      · exact .inl h
      · exact .inr ⟨rfl, .inl h⟩
    | remove k =>
      rcases run_cases (Store.changesOnly_remove Prod.fst t .key k) s with h | ⟨_, rfl, h⟩
      · exact .inl h
      · exact .inr ⟨rfl, .inr (.inl h)⟩
    | contains k => exact .inl ((run_cases (Store.changesOnly_contains Prod.fst t .key k) s).resolve_right (by simp))
    | lookup k => exact .inl ((run_cases (Store.changesOnly_get? t k) s).resolve_right (by simp))
    | add | removeAt | find => exact .inl rfl

/-- Every collection lies in memory in some way. -/
theorem exists_value_eq {c : Value} {s : Shape} (h : c.shape? = some s) : ∃ held : Held, held.value = c := by
  have known (k : Option UInt32) : ∃ dirty hash, (if dirty = true then none else some hash) = k := by
    cases k with
    | none => exact ⟨true, 0, rfl⟩
    | some hash => exact ⟨false, hash, rfl⟩
  cases c with
  | null | scalar => cases h
  | list l =>
    obtain ⟨dirty, hash, hk⟩ := known l.knownHash
    exact ⟨list l.elementType ⟨l.elements, l.cursor, dirty, hash⟩, by simp [value, Store.knownHash, hk]⟩
  | set u =>
    obtain ⟨dirty, hash, hk⟩ := known u.knownHash
    exact ⟨set u.elementType ⟨u.elements, u.cursor, dirty, hash⟩, by simp [value, Store.knownHash, hk]⟩
  | map m =>
    obtain ⟨dirty, hash, hk⟩ := known m.knownHash
    exact ⟨map m.keyType m.valueType ⟨m.entries, m.cursor, dirty, hash⟩, by simp [value, Store.knownHash, hk]⟩

/-- A value that a slot does not take is refused after its key was taken, and nothing has
happened to the map, whether the key is in it or not. -/
theorem perform_set_of_refused {t u : DataType} {k v k' : Value} {e : Error} (hk : admitted t .key k = .ok k')
    (hv : admitted u .value v = .error e) (s : Store (Value × Value)) :
    (map t u s).perform (.set k v) = (.error e, map t u s) := by
  simp only [perform, run, Store.run_set, hk, hv]

/-- However a collection lies in memory, operations that work on it in place answer and do
what the operations on values do. When one is refused, finds that an equal element is
there, or finds nothing to remove, every part of what was in memory is what it was; and
questions never change any of it. -/
theorem refusal_changes_nothing :
    (∀ c s, Value.shape? c = some s → ∃ h : Held, h.value = c) ∧
    ∀ (h : Held) (r : EntryRequest),
      ((h.perform r).1 = h.value.answer r.request ∧ (h.perform r).2.value = h.value.after r.request) ∧
      ((∃ e, (h.perform r).1 = .error e) ∨ (h.perform r).1 = .ok (.flag false) ∨ (h.perform r).1 = .ok (.value none) →
        (h.perform r).2 = h) ∧
      (r.isQuestion = true → (h.perform r).2 = h) ∧
      ∀ t u s k v k' e, h = map t u s → r = .set k v → admitted t .key k = .ok k' → admitted u .value v = .error e →
        h.perform r = (.error e, h) := by
  refine ⟨fun c s => exists_value_eq, fun h r => ⟨perform_eq h r, ?_, ?_, ?_⟩⟩
  · intro hanswer
    rcases perform_cases h r with hsame | ⟨-, hdone | hflag | ⟨v, hvalue⟩⟩
    · exact hsame
    · simp [hdone] at hanswer
    · simp [hflag] at hanswer
    · simp [hvalue] at hanswer
  · intro hquestion
    rcases perform_cases h r with hsame | ⟨hchange, -⟩
    · exact hsame
    · rw [hquestion] at hchange
      cases hchange
  · rintro t u s k v k' e rfl rfl hk hv
    exact perform_set_of_refused hk hv s

/-- A map that holds 1 under the key a, with the cursor behind its entry and a hash that is
not out of date. -/
def lettered : Held :=
  map (.scalar .text) (.scalar .int) ⟨[(.scalar (.text "a"), .scalar (.int 1))], ⟨1, false⟩, false, 7⟩

/-- A set that holds 2 and 1, with the cursor on the place of an element that is gone and a hash
from before that. -/
def numbered : Held := set (.scalar .int) ⟨[.scalar (.int 2), .scalar (.int 1)], ⟨1, true⟩, true, 7⟩

/-- Neither under the key that is there nor under another one can null be set, what is not
there is not removed, and what is there is not added. -/
theorem refusal_changes_nothing_lettered :
    lettered.perform (.set (.scalar (.text "a")) .null) = (.error (.nullInside .value), lettered) ∧
    lettered.perform (.set (.scalar (.text "b")) .null) = (.error (.nullInside .value), lettered) ∧
    lettered.perform (.remove (.scalar (.text "b"))) = (.ok (.flag false), lettered) ∧
    lettered.perform (.contains (.scalar (.text "a"))) = (.ok (.flag true), lettered) ∧
    numbered.perform (.add (.scalar (.int 1))) = (.ok (.flag false), numbered) := by
  obtain ⟨-, main⟩ := refusal_changes_nothing
  have key (c : String) : admitted (.scalar .text) .key (.scalar (.text c)) = .ok (.scalar (.text c)) := rfl
  have present : (lettered.perform (.contains (.scalar (.text "a")))).1 = .ok (.flag true) := by rfl
  have absent : (lettered.perform (.remove (.scalar (.text "b")))).1 = .ok (.flag false) := by rfl
  have duplicate : (numbered.perform (.add (.scalar (.int 1)))).1 = .ok (.flag false) := by rfl
  refine ⟨?_, ?_, Prod.ext absent ?_, Prod.ext present ?_, Prod.ext duplicate ?_⟩
  · exact (main lettered _).2.2.2 _ _ _ _ _ _ _ rfl rfl (key "a") rfl
  · exact (main lettered _).2.2.2 _ _ _ _ _ _ _ rfl rfl (key "b") rfl
  · exact (main lettered _).2.1 (.inr (.inl absent))
  · exact (main lettered _).2.2.1 rfl
  · exact (main numbered _).2.1 (.inr (.inl duplicate))

end Held

end WideColumn
