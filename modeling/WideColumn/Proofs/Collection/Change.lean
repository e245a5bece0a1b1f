import WideColumn.Proofs.Collection.Request
import WideColumn.Proofs.Order.Value
/-!
# What operations do to the row of entries

The entries of a collection stand in a row, each with a mark: an element of a list or
a set, a key of a map. An operation leaves the row as it is, moves the cursor, puts one
entry at the end, takes one out, or takes out all of them (`Change`); marks and cursor
follow the same change (`Value.step_follows_change`). What depends on nothing else is
said of changes, for all three forms of collections at once.
-/

namespace WideColumn

open Value

/-! ## Search -/

theorem placeOf?_isSome_iff {v : Value} {vs : List Value} :
    (placeOf? v vs).isSome = true ↔ v.content ∈ vs.map content := by
  unfold placeOf?
  rw [List.findIdx?_isSome, List.any_eq_true, List.mem_map]
  refine exists_congr fun w => and_congr_right fun _ => ?_
  rw [beq_iff_eq, w.content.lawfulAt_order.eq_iff]

theorem placeOf?_eq_none_iff {v : Value} {vs : List Value} : placeOf? v vs = none ↔ v.content ∉ vs.map content := by
  rw [← placeOf?_isSome_iff, Bool.not_eq_true, Option.isSome_eq_false_iff, Option.isNone_iff_eq_none]

theorem placeOf?_congr {a b : Value} (h : a.content = b.content) (vs : List Value) : placeOf? a vs = placeOf? b vs := by
  unfold placeOf?
  rw [h]

/-- Where a value is replaced, the key that was there first stays. -/
theorem TypedMap.keys_modify (m : TypedMap Value) (i : Nat) (v : Value) :
    ((m.entries.modify i fun e => (e.1, v)).map fun e => e.1) = m.keys := by
  apply map_modify_eq
  intro e
  rfl

/-! ## Changes -/

/-- What happens to a row of entries and the cursor in it. -/
inductive Change where
  | keep
  | append (mark : Value)
  | erase (i : Nat)
  | clear
  | rewind
  | advance

namespace Change

/-- The row after a change, where an entry that comes in is made from its mark. -/
def on {α : Type} (f : Value → α) (row : List α) : Change → List α
  | append x => row ++ [f x]
  | erase i => row.eraseIdx i
  | clear => []
  | _ => row

def cursor (c : Cursor) : Change → Cursor
  | erase i => c.afterRemoval i
  | clear | rewind => .start
  | advance => c.advance
  | _ => c

/-- Whether the cursor is sent somewhere else. -/
def isMove : Change → Bool
  | clear | rewind | advance => true
  | _ => false

theorem map_on {α β : Type} (f : Value → α) (g : α → β) (row : List α) (change : Change) :
    (change.on f row).map g = change.on (fun x => g (f x)) (row.map g) := by
  cases change <;> simp [on, List.eraseIdx_map]

end Change

namespace Value

/-- The marks of the entries in their row. -/
def marks : Value → List Value
  | list l => l.elements
  | set s => s.elements
  | map m => m.keys
  | _ => []

def cursor : Value → Cursor
  | list l => l.cursor
  | set s => s.cursor
  | map m => m.cursor
  | _ => .start

/-- What an operation does to the row of entries. It does nothing if it is refused, if an
equal element is there or no such element, or if it only puts a value under a key
that is there. -/
def change : Value → Operation → Change
  | list l, .add v =>
    match admitted l.elementType .element v with
    | .ok w => .append w
    | .error _ => .keep
  | list l, .removeAt i => if i < l.elements.length then .erase i else .keep
  | set s, .add v =>
    match admitted s.elementType .element v with
    | .ok w => if (placeOf? w s.elements).isSome then .keep else .append w
    | .error _ => .keep
  | set s, .remove v =>
    match admitted s.elementType .element v with
    | .ok w => (placeOf? w s.elements).elim .keep .erase
    | .error _ => .keep
  | map m, .set k v =>
    match admitted m.keyType .key k, admitted m.valueType .value v with
    | .ok k', .ok _ => if (m.placeOfKey? k').isSome then .keep else .append k'
    | _, _ => .keep
  | map m, .remove k =>
    match admitted m.keyType .key k with
    | .ok k' => (m.placeOfKey? k').elim .keep .erase
    | .error _ => .keep
  | list _, .clear | set _, .clear | map _, .clear => .clear
  | list _, .rewind | set _, .rewind | map _, .rewind => .rewind
  | list _, .advance | set _, .advance | map _, .advance => .advance
  | _, _ => .keep

/-- All that an operation can do to the row. -/
inductive Outcome (v : Value) : Operation → Change → Prop
  | keep (op : Operation) : Outcome v op .keep
  | append (op : Operation) {w : Value} : (v.asList? = none → w.content ∉ v.marks.map content) → Outcome v op (.append w)
  | erase (op : Operation) (i : Nat) : Outcome v op (.erase i)
  | clear : Outcome v .clear .clear
  | rewind : Outcome v .rewind .rewind
  | advance : Outcome v .advance .advance

theorem Outcome.elim_erase {v : Value} {op : Operation} (i : Option Nat) : Outcome v op (i.elim .keep .erase) := by
  cases i with
  | none => exact .keep op
  | some i => exact .erase op i

theorem Outcome.append_of_absent {v w : Value} {op : Operation} :
    Outcome v op (if (placeOf? w v.marks).isSome then .keep else .append w) := by
  split
  · exact .keep op
  · rename_i absent
    rw [placeOf?_isSome_iff] at absent
    exact .append op fun _ => absent

theorem outcome_change (v : Value) (op : Operation) : Outcome v op (v.change op) := by
  cases v with
  | list l =>
    cases op with
    | add v =>
      simp only [change]
      split
      · exact .append _ (by simp [asList?])
      · exact .keep _
    | removeAt i =>
      simp only [change]
      split
      · exact .erase _ i
      · exact .keep _
    | clear => exact .clear
    | rewind => exact .rewind
    | advance => exact .advance
    | _ => exact .keep _
  | set s =>
    cases op with
    | add v =>
      simp only [change]
      split
      · exact .append_of_absent
      · exact .keep _
    | remove v =>
      simp only [change]
      split
      · exact .elim_erase _
      · exact .keep _
    | clear => exact .clear
    | rewind => exact .rewind
    | advance => exact .advance
    | _ => exact .keep _
  | map m =>
    cases op with
    | set k v =>
      simp only [change]
      split
      · exact .append_of_absent
      · exact .keep _
    | remove k =>
      simp only [change]
      split
      · exact .elim_erase _
      · exact .keep _
    | clear => exact .clear
    | rewind => exact .rewind
    | advance => exact .advance
    | _ => exact .keep _
  | _ => exact .keep _

/-- What is no collection has no entries, and its cursor does not move. -/
theorem change_advance (v : Value) : v.change .advance = .advance ∨ v.marks = [] ∧ v.cursor = .start := by
  cases v with
  | list | set | map => exact .inl rfl
  | _ => exact .inr ⟨rfl, rfl⟩

/-- The second value is the first one after the change, as far as marks and cursor go. -/
structure Follows (change : Change) (v v' : Value) : Prop where
  marks_eq : v'.marks = change.on id v.marks
  cursor_eq : v'.cursor = change.cursor v.cursor

theorem follows_list (l : TypedList Value) (op : Operation) : Follows ((list l).change op) (list l) ((list l).step op) := by
  cases op with
  | add v =>
    simp only [step, change, TypedList.add]
    cases admitted l.elementType .element v with
    | error e => exact ⟨rfl, rfl⟩
    | ok w => exact ⟨rfl, rfl⟩
  | removeAt i =>
    simp only [step, change, TypedList.remove]
    by_cases h : i < l.elements.length
    · rw [List.getElem?_eq_getElem h, if_pos h]
      exact ⟨rfl, rfl⟩
    · rw [List.getElem?_eq_none (Nat.not_lt.1 h), if_neg h]
      exact ⟨rfl, rfl⟩
  | _ => exact ⟨rfl, rfl⟩

theorem follows_set (s : TypedSet Value) (op : Operation) : Follows ((set s).change op) (set s) ((set s).step op) := by
  cases op with
  | add v =>
    simp only [step, change, TypedSet.add]
    cases admitted s.elementType .element v with
    | error e => exact ⟨rfl, rfl⟩
    | ok w =>
      simp only [bind, Except.bind]
      cases placeOf? w s.elements with
      | none => exact ⟨rfl, rfl⟩
      | some i => exact ⟨rfl, rfl⟩
  | remove v =>
    simp only [step, change, TypedSet.remove]
    cases admitted s.elementType .element v with
    | error e => exact ⟨rfl, rfl⟩
    | ok w =>
      simp only [bind, Except.bind]
      cases placeOf? w s.elements with
      | none => exact ⟨rfl, rfl⟩
      | some i => exact ⟨rfl, rfl⟩
  | _ => exact ⟨rfl, rfl⟩

theorem follows_map (m : TypedMap Value) (op : Operation) : Follows ((map m).change op) (map m) ((map m).step op) := by
  cases op with
  | set k v =>
    simp only [step, change, TypedMap.set]
    cases admitted m.keyType .key k with
    | error e => exact ⟨rfl, rfl⟩
    | ok k' =>
      cases admitted m.valueType .value v with
      | error e => exact ⟨rfl, rfl⟩
      | ok v' =>
        simp only [bind, Except.bind]
        cases m.placeOfKey? k' with
        | none => exact ⟨List.map_append, rfl⟩
        | some i => exact ⟨m.keys_modify i v', rfl⟩
  | remove k =>
    simp only [step, change, TypedMap.remove]
    cases admitted m.keyType .key k with
    | error e => exact ⟨rfl, rfl⟩
    | ok k' =>
      simp only [bind, Except.bind]
      cases m.placeOfKey? k' with
      | none => exact ⟨rfl, rfl⟩
      | some i => exact ⟨(List.eraseIdx_map ..).symm, rfl⟩
  | _ => exact ⟨rfl, rfl⟩

/-- Marks and cursor go through the same change. -/
theorem step_follows_change (v : Value) (op : Operation) : Follows (v.change op) v (v.step op) := by
  cases v with
  | list l => exact follows_list l op
  | set s => exact follows_set s op
  | map m => exact follows_map m op
  | _ => exact ⟨rfl, rfl⟩

/-! ## Reading hashes -/

theorem marks_bare (v : Value) : v.bare.marks = v.marks.map bare := by
  cases v <;> simp [bare, bareElements_eq, bareEntries_eq, marks, TypedMap.keys]

theorem cursor_unread (v : Value) : v.unread.cursor = v.cursor := by
  cases v <;> simp [cursor, TypedList.unread, TypedSet.unread, TypedMap.unread]

theorem marks_readAt (path : List Nat) (v : Value) : (v.readAt path).marks.map bare = v.marks.map bare := by
  rw [← marks_bare, bare_readAt, marks_bare]

theorem cursor_readAt (path : List Nat) (v : Value) : (v.readAt path).cursor = v.cursor := by
  rw [← cursor_unread, unread_readAt, cursor_unread]

end Value

/-! ## Requests to the row of entries -/

namespace Request

/-- What is done to the row of entries. Questions and readings of hashes do nothing. -/
def change (r : Request Value) (v : Value) : Change := r.operation?.elim .keep v.change

/-- Whether the request sends the cursor somewhere else. -/
def isMove : Request Value → Bool
  | clear | rewind | advance => true
  | _ => false

end Request

/-- Only what sends the cursor somewhere else does so. -/
theorem Request.isMove_change {r : Request Value} (hr : r.isMove = false) (v : Value) : (r.change v).isMove = false := by
  unfold change
  cases hop : r.operation? with
  | none => rfl
  | some op =>
    have outcome := outcome_change v op
    rw [Option.elim_some]
    cases hc : v.change op with
    | keep | append | erase => rfl
    | _ =>
      -- the operation that does this is the one that was asked for
      rw [hc] at outcome
      cases outcome
      cases r with
      | clear | rewind | advance => cases hr
      | _ => cases hop

/-- What a request does to the entries, apart from the hashes that are known in them, and to the cursor. -/
theorem Value.row_after (v : Value) (r : Request Value) :
    (v.after r).marks.map bare = (r.change v).on bare (v.marks.map bare) ∧
      (v.after r).cursor = (r.change v).cursor v.cursor := by
  by_cases hr : r.isRead = true
  · cases r with
    | hash path => exact ⟨marks_readAt path v, cursor_readAt path v⟩
    | _ => cases hr
  · rw [after_of_operation (by simpa using hr), Request.change]
    cases r.operation? with
    | none => exact ⟨rfl, rfl⟩
    | some op =>
      obtain ⟨marks, cursor⟩ := step_follows_change v op
      refine ⟨?_, cursor⟩
      rw [Option.elim_some, Option.elim_some, marks, Change.map_on]
      rfl

namespace Value

/-- Whether an entry stands under the cursor. -/
def valid : Value → Bool
  | list l => l.valid
  | set s => s.valid
  | map m => m.valid
  | _ => false

/-- The element or the key under the cursor. -/
def mark? : Value → Option Value
  | list l => l.current?
  | set s => s.current?
  | map m => m.key?
  | _ => none

theorem index?_bind_getElem? {α : Type} (c : Cursor) (row : List α) :
    (c.index? row.length >>= fun i => row[i]?) = row[c.position]? := by
  unfold Cursor.index?
  split
  · rfl
  · rename_i h
    rw [List.getElem?_eq_none (Nat.not_lt.1 h)]
    rfl

theorem isSome_index? {α : Type} (c : Cursor) (row : List α) :
    (c.index? row.length).isSome = row[c.position]?.isSome := by
  rw [← index?_bind_getElem?]
  unfold Cursor.index?
  split
  · rename_i h
    simp [h]
  · rfl

theorem mark?_eq (v : Value) : v.mark? = v.marks[v.cursor.position]? := by
  cases v with
  | list l => exact index?_bind_getElem? l.cursor l.elements
  | set s => exact index?_bind_getElem? s.cursor s.elements
  | map m =>
    rw [mark?, TypedMap.key?, TypedMap.entry?, TypedMap.size, index?_bind_getElem?, marks, TypedMap.keys, List.getElem?_map]
    rfl
  | _ => rfl

theorem valid_eq (v : Value) : v.valid = v.mark?.isSome := by
  rw [mark?_eq]
  cases v with
  | list l => exact isSome_index? l.cursor l.elements
  | set s => exact isSome_index? s.cursor s.elements
  | map m =>
    rw [marks, TypedMap.keys, List.getElem?_map, Option.isSome_map]
    exact isSome_index? m.cursor m.entries
  | _ => rfl

end Value

end WideColumn
