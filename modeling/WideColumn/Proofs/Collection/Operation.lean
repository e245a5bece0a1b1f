import Mathlib
import WideColumn.Collection.List
import WideColumn.Collection.Map
import WideColumn.Collection.Set
import WideColumn.Proofs.Collection.Admission
import WideColumn.Proofs.Value.Parts
/-!
# What operations do to collections

A collection comes about from an empty one by operations, by reading hashes, of
itself or of what stands in it, and by copying (`Value.Reachable`). Nothing is said
about the operations one by one where it can be helped: every operation is an
`Edit`, which lets entries go, lets in admitted ones, and forgets the known hash
unless the entries are what they were.
-/

namespace WideColumn

/-! ## The operations -/

theorem TypedList.add_cases {l l' : TypedList Value} {v : Value} (h : l.add v = .ok l') :
    ∃ w, admitted l.elementType .element v = .ok w ∧ l' = { l with elements := l.elements ++ [w], knownHash := none } := by
  unfold add at h
  obtain ⟨w, hw, h⟩ := Except.bind_eq_ok_iff.1 h
  exact ⟨w, hw, (Except.pure_eq_ok_iff.1 h).symm⟩

/-- To put several values at the end is to put them there one after the other. -/
theorem TypedList.addAll_eq_foldlM (l : TypedList Value) (vs : List Value) : l.addAll vs = vs.foldlM add l := by
  induction vs generalizing l with
  | nil => rfl
  | cons v vs ih =>
    rw [List.foldlM_cons, addAll, List.mapM_cons, add]
    cases admitted l.elementType .element v with
    | error e => rfl
    | ok w =>
      rw [Except.ok_bind, Except.ok_bind]
      change _ = vs.foldlM add _
      rw [← ih, addAll]
      cases vs.mapM (admitted l.elementType .element) with
      | error e => rfl
      | ok ws => cases ws <;> simp [bind, Except.bind, pure, Except.pure]

theorem TypedSet.add_cases {s : TypedSet Value} {v : Value} {r : Bool × TypedSet Value} (h : s.add v = .ok r) :
    ∃ w, admitted s.elementType .element v = .ok w ∧
      ((∃ i, placeOf? w s.elements = some i ∧ r = (false, s)) ∨
        placeOf? w s.elements = none ∧ r = (true, { s with elements := s.elements ++ [w], knownHash := none })) := by
  unfold add at h
  obtain ⟨w, hw, h⟩ := Except.bind_eq_ok_iff.1 h
  refine ⟨w, hw, ?_⟩
  cases hp : placeOf? w s.elements with
  | some i => rw [hp] at h; cases h; exact .inl ⟨i, rfl, rfl⟩
  | none => rw [hp] at h; cases h; exact .inr ⟨rfl, rfl⟩

theorem TypedSet.remove_cases {s : TypedSet Value} {v : Value} {r : Bool × TypedSet Value} (h : s.remove v = .ok r) :
    ∃ w, admitted s.elementType .element v = .ok w ∧
      ((∃ i, placeOf? w s.elements = some i ∧ r = (true,
          { s with elements := s.elements.eraseIdx i, cursor := s.cursor.afterRemoval i, knownHash := none })) ∨
        placeOf? w s.elements = none ∧ r = (false, s)) := by
  unfold remove at h
  obtain ⟨w, hw, h⟩ := Except.bind_eq_ok_iff.1 h
  refine ⟨w, hw, ?_⟩
  cases hp : placeOf? w s.elements with
  | some i => rw [hp] at h; cases h; exact .inl ⟨i, rfl, rfl⟩
  | none => rw [hp] at h; cases h; exact .inr ⟨rfl, rfl⟩

theorem TypedMap.set_cases {m m' : TypedMap Value} {k v : Value} (h : m.set k v = .ok m') :
    ∃ k' v', admitted m.keyType .key k = .ok k' ∧ admitted m.valueType .value v = .ok v' ∧
      ((∃ i, m.placeOfKey? k' = some i ∧
          m' = { m with entries := m.entries.modify i fun e => (e.1, v'), knownHash := none }) ∨
        m.placeOfKey? k' = none ∧ m' = { m with entries := m.entries ++ [(k', v')], knownHash := none }) := by
  unfold set at h
  obtain ⟨k', hk, h⟩ := Except.bind_eq_ok_iff.1 h
  obtain ⟨v', hv, h⟩ := Except.bind_eq_ok_iff.1 h
  refine ⟨k', v', hk, hv, ?_⟩
  cases hp : m.placeOfKey? k' with
  | some i => rw [hp] at h; cases h; exact .inl ⟨i, rfl, rfl⟩
  | none => rw [hp] at h; cases h; exact .inr ⟨rfl, rfl⟩

theorem TypedMap.remove_cases {m : TypedMap Value} {k : Value} {r : Bool × TypedMap Value} (h : m.remove k = .ok r) :
    ∃ k', admitted m.keyType .key k = .ok k' ∧
      ((∃ i, m.placeOfKey? k' = some i ∧ r = (true,
          { m with entries := m.entries.eraseIdx i, cursor := m.cursor.afterRemoval i, knownHash := none })) ∨
        m.placeOfKey? k' = none ∧ r = (false, m)) := by
  unfold remove at h
  obtain ⟨k', hk, h⟩ := Except.bind_eq_ok_iff.1 h
  refine ⟨k', hk, ?_⟩
  cases hp : m.placeOfKey? k' with
  | some i => rw [hp] at h; cases h; exact .inl ⟨i, rfl, rfl⟩
  | none => rw [hp] at h; cases h; exact .inr ⟨rfl, rfl⟩

/-- An operation on a collection, with what is handed to it. -/
inductive Operation where
  /-- At the end of a list, or into a set. -/
  | add (v : Value)
  /-- A value under a key of a map. -/
  | set (k v : Value)
  /-- Of a list, by its place. -/
  | removeAt (i : Nat)
  /-- Of a set by an equal element, of a map by an equal key. -/
  | remove (v : Value)
  | clear
  | rewind
  | advance

/-- The values that are handed to an operation. -/
def Operation.given : Operation → List Value
  | add v | remove v => [v]
  | set k v => [k, v]
  | removeAt _ | clear | rewind | advance => []

namespace Value

/-- The hash of a collection, if it is known. -/
def knownHash? : Value → Option UInt32
  | list l => l.knownHash
  | set s => s.knownHash
  | map m => m.knownHash
  | _ => none

/-- A value after an operation on it. It stays as it was if the operation is refused, or
is not one of its kind of collection. -/
def step : Value → Operation → Value
  | list l, .add v => list ((l.add v).toOption.getD l)
  | list l, .removeAt i => list (l.remove i).2
  | list l, .clear => list l.clear
  | list l, .rewind => list l.rewind
  | list l, .advance => list l.advance
  | set s, .add v => set (((s.add v).map (·.2)).toOption.getD s)
  | set s, .remove v => set (((s.remove v).map (·.2)).toOption.getD s)
  | set s, .clear => set s.clear
  | set s, .rewind => set s.rewind
  | set s, .advance => set s.advance
  | map m, .set k v => map ((m.set k v).toOption.getD m)
  | map m, .remove k => map (((m.remove k).map (·.2)).toOption.getD m)
  | map m, .clear => map m.clear
  | map m, .rewind => map m.rewind
  | map m, .advance => map m.advance
  | v, _ => v

/-- A value after the hash of something within it was read. The path leads there by
places; in a map keys have even places and values odd ones. -/
def readAt : List Nat → Value → Value
  | [], v => v.readHash.2
  | i :: path, list l => list { l with elements := l.elements.modify i (readAt path) }
  | i :: path, set s => set { s with elements := s.elements.modify i (readAt path) }
  | i :: path, map m =>
    map { m with
      entries := m.entries.modify (i / 2) fun e => if i % 2 = 0 then (readAt path e.1, e.2) else (e.1, readAt path e.2) }
  | _ :: _, v => v

/-- The values that a program can have. A copy of a value is the same value again, with
its cursor and the hashes known in it. -/
inductive Reachable : Value → Prop
  | null : Reachable null
  | scalar (s : Scalar) : Reachable (scalar s)
  | list (t : DataType) : Reachable (list (.empty t))
  | set (t : DataType) : Reachable (set (.empty t))
  | map (k v : DataType) : Reachable (map (.empty k v))
  | step {v : Value} (op : Operation) : Reachable v → (∀ x ∈ op.given, Reachable x) → Reachable (v.step op)
  | read {v : Value} (path : List Nat) : Reachable v → Reachable (v.readAt path)
  | entry {v : Value} {t : DataType} {w : Value} : Reachable v → (t, w) ∈ v.stream → Reachable w

theorem Reachable.add {v x : Value} (hv : v.Reachable) (hx : x.Reachable) : (v.step (.add x)).Reachable :=
  .step _ hv (by simpa [Operation.given] using hx)

/-! ## Edits -/

/-- What any operation may do to a value. -/
structure Edit (given : List Value) (v v' : Value) : Prop where
  type_eq : v'.type? = v.type?
  /-- An entry was there before, or it is one of the given values as it was admitted. -/
  entries : ∀ t w, (t, w) ∈ v'.stream → (t, w) ∈ v.stream ∨ ∃ slot, ∃ x ∈ given, admitted t slot x = .ok w
  hash : v'.knownHash? = none ∨ v'.knownHash? = v.knownHash? ∧ v'.content = v.content

theorem Edit.refl (given : List Value) (v : Value) : Edit given v v :=
  ⟨rfl, fun _ _ h => .inl h, .inr ⟨rfl, rfl⟩⟩

theorem edit_list {given : List Value} {l l' : TypedList Value} (ht : l'.elementType = l.elementType)
    (he : ∀ w ∈ l'.elements, w ∈ l.elements ∨ ∃ slot, ∃ x ∈ given, admitted l.elementType slot x = .ok w)
    (hh : l'.knownHash = none ∨ l'.knownHash = l.knownHash ∧ l'.elements = l.elements) :
    Edit given (list l) (list l') where
  type_eq := by rw [type?, type?, ht]
  entries t w h := by
    obtain ⟨rfl, hw⟩ := mem_stream_list.1 h
    rw [ht, mem_stream_list]
    exact (he w hw).imp_left fun hw => ⟨rfl, hw⟩
  hash := by
    rcases hh with hn | ⟨hk, he⟩
    · exact .inl hn
    · exact .inr ⟨hk, by rw [content_list, content_list, ht, he]⟩

theorem edit_set {given : List Value} {s s' : TypedSet Value} (ht : s'.elementType = s.elementType)
    (he : ∀ w ∈ s'.elements, w ∈ s.elements ∨ ∃ slot, ∃ x ∈ given, admitted s.elementType slot x = .ok w)
    (hh : s'.knownHash = none ∨ s'.knownHash = s.knownHash ∧ s'.elements = s.elements) :
    Edit given (set s) (set s') where
  type_eq := by rw [type?, type?, ht]
  entries t w h := by
    obtain ⟨rfl, hw⟩ := mem_stream_set.1 h
    rw [ht, mem_stream_set]
    exact (he w hw).imp_left fun hw => ⟨rfl, hw⟩
  hash := by
    rcases hh with hn | ⟨hk, he⟩
    · exact .inl hn
    · exact .inr ⟨hk, by rw [content_set, content_set, ht, he]⟩

theorem edit_map {given : List Value} {m m' : TypedMap Value} (hk : m'.keyType = m.keyType)
    (hv : m'.valueType = m.valueType)
    (he : ∀ e ∈ m'.entries,
      ((∃ e₀ ∈ m.entries, e₀.1 = e.1) ∨ ∃ slot, ∃ x ∈ given, admitted m.keyType slot x = .ok e.1) ∧
      ((∃ e₀ ∈ m.entries, e₀.2 = e.2) ∨ ∃ slot, ∃ x ∈ given, admitted m.valueType slot x = .ok e.2))
    (hh : m'.knownHash = none ∨ m'.knownHash = m.knownHash ∧ m'.entries = m.entries) :
    Edit given (map m) (map m') where
  type_eq := by rw [type?, type?, hk, hv]
  entries t w h := by
    obtain ⟨e, he', ⟨rfl, rfl⟩ | ⟨rfl, rfl⟩⟩ := mem_stream_map.1 h
    · rcases (he e he').1 with ⟨e₀, h₀, hkey⟩ | hnew
      · exact .inl (mem_stream_map.2 ⟨e₀, h₀, .inl ⟨hk, hkey.symm⟩⟩)
      · exact .inr (hk ▸ hnew)
    · rcases (he e he').2 with ⟨e₀, h₀, hvalue⟩ | hnew
      · exact .inl (mem_stream_map.2 ⟨e₀, h₀, .inr ⟨hv, hvalue.symm⟩⟩)
      · exact .inr (hv ▸ hnew)
  hash := by
    rcases hh with hn | ⟨hn, he⟩
    · exact .inl hn
    · exact .inr ⟨hn, by rw [content_map, content_map, hk, hv, he]⟩

theorem edit_list_step (l : TypedList Value) (op : Operation) : Edit op.given (list l) ((list l).step op) := by
  cases op with
  | add v =>
    rcases Except.toOption_getD_cases (l.add v) l with h | h
    · rw [step, h]
      exact .refl ..
    · obtain ⟨w, hw, h⟩ := TypedList.add_cases h
      rw [step, h]
      refine edit_list rfl (fun x hx => ?_) (.inl rfl)
      rcases List.mem_append.1 hx with hx | hx
      · exact .inl hx
      · exact .inr ⟨_, v, by simp [Operation.given], List.mem_singleton.1 hx ▸ hw⟩
  | removeAt i =>
    rw [step, TypedList.remove]
    split
    · exact edit_list rfl (fun _ hx => .inl (List.mem_of_mem_eraseIdx hx)) (.inl rfl)
    · exact .refl ..
  | clear => exact edit_list rfl (fun _ hx => by cases hx) (.inl rfl)
  | rewind => exact edit_list rfl (fun _ => .inl) (.inr ⟨rfl, rfl⟩)
  | advance => exact edit_list rfl (fun _ => .inl) (.inr ⟨rfl, rfl⟩)
  | _ => exact .refl ..

theorem edit_set_step (s : TypedSet Value) (op : Operation) : Edit op.given (set s) ((set s).step op) := by
  cases op with
  | add v =>
    rcases Except.toOption_getD_cases ((s.add v).map (·.2)) s with h | h
    · rw [step, h]
      exact .refl ..
    · obtain ⟨_, h, h'⟩ := Except.map_eq_ok_iff.1 h
      obtain ⟨w, hw, ⟨i, -, rfl⟩ | ⟨-, rfl⟩⟩ := TypedSet.add_cases h
      · rw [step, ← h']
        exact .refl ..
      · rw [step, ← h']
        refine edit_set rfl (fun x hx => ?_) (.inl rfl)
        rcases List.mem_append.1 hx with hx | hx
        · exact .inl hx
        · exact .inr ⟨_, v, by simp [Operation.given], List.mem_singleton.1 hx ▸ hw⟩
  | remove v =>
    rcases Except.toOption_getD_cases ((s.remove v).map (·.2)) s with h | h
    · rw [step, h]
      exact .refl ..
    · obtain ⟨_, h, h'⟩ := Except.map_eq_ok_iff.1 h
      obtain ⟨w, -, ⟨i, -, rfl⟩ | ⟨-, rfl⟩⟩ := TypedSet.remove_cases h
      · rw [step, ← h']
        exact edit_set rfl (fun _ hx => .inl (List.mem_of_mem_eraseIdx hx)) (.inl rfl)
      · rw [step, ← h']
        exact .refl ..
  | clear => exact edit_set rfl (fun _ hx => by cases hx) (.inl rfl)
  | rewind => exact edit_set rfl (fun _ => .inl) (.inr ⟨rfl, rfl⟩)
  | advance => exact edit_set rfl (fun _ => .inl) (.inr ⟨rfl, rfl⟩)
  | _ => exact .refl ..

theorem edit_map_step (m : TypedMap Value) (op : Operation) : Edit op.given (map m) ((map m).step op) := by
  cases op with
  | set k v =>
    rcases Except.toOption_getD_cases (m.set k v) m with h | h
    · rw [step, h]
      exact .refl ..
    · obtain ⟨k', v', hk, hv, h⟩ := TypedMap.set_cases h
      have key : ∃ slot, ∃ x ∈ [k, v], admitted m.keyType slot x = .ok k' := ⟨_, k, by simp, hk⟩
      have value : ∃ slot, ∃ x ∈ [k, v], admitted m.valueType slot x = .ok v' := ⟨_, v, by simp, hv⟩
      rcases h with ⟨i, -, h⟩ | ⟨-, h⟩ <;> rw [step, h]
      · -- the key that was there first stays, only the value is new
        refine edit_map rfl rfl (fun e he => ?_) (.inl rfl)
        obtain ⟨e₀, h₀, rfl | rfl⟩ := mem_of_mem_modify he
        · exact ⟨.inl ⟨e, h₀, rfl⟩, .inl ⟨e, h₀, rfl⟩⟩
        · exact ⟨.inl ⟨e₀, h₀, rfl⟩, .inr value⟩
      · refine edit_map rfl rfl (fun e he => ?_) (.inl rfl)
        rcases List.mem_append.1 he with he | he
        · exact ⟨.inl ⟨e, he, rfl⟩, .inl ⟨e, he, rfl⟩⟩
        · obtain rfl := List.mem_singleton.1 he
          exact ⟨.inr key, .inr value⟩
  | remove k =>
    rcases Except.toOption_getD_cases ((m.remove k).map (·.2)) m with h | h
    · rw [step, h]
      exact .refl ..
    · obtain ⟨_, h, h'⟩ := Except.map_eq_ok_iff.1 h
      obtain ⟨k', -, ⟨i, -, rfl⟩ | ⟨-, rfl⟩⟩ := TypedMap.remove_cases h
      · rw [step, ← h']
        refine edit_map rfl rfl (fun e he => ?_) (.inl rfl)
        have he := List.mem_of_mem_eraseIdx he
        exact ⟨.inl ⟨e, he, rfl⟩, .inl ⟨e, he, rfl⟩⟩
      · rw [step, ← h']
        exact .refl ..
  | clear => exact edit_map rfl rfl (fun _ he => by cases he) (.inl rfl)
  | rewind => exact edit_map rfl rfl (fun e he => ⟨.inl ⟨e, he, rfl⟩, .inl ⟨e, he, rfl⟩⟩) (.inr ⟨rfl, rfl⟩)
  | advance => exact edit_map rfl rfl (fun e he => ⟨.inl ⟨e, he, rfl⟩, .inl ⟨e, he, rfl⟩⟩) (.inr ⟨rfl, rfl⟩)
  | _ => exact .refl ..

/-- Every operation is an edit, accepted or refused. -/
theorem edit_step (v : Value) (op : Operation) : Edit op.given v (v.step op) := by
  cases v with
  | list l => exact edit_list_step l op
  | set s => exact edit_set_step s op
  | map m => exact edit_map_step m op
  | _ => exact .refl ..

/-! ## Reading hashes -/

attribute [local simp] readHash

theorem readHash_of_known {v : Value} {h : UInt32} (hv : v.knownHash? = some h) : v.readHash = (h, v) := by
  cases v with
  | list l => obtain ⟨t, vs, c, _⟩ := l; cases hv; rw [readHash]
  | set s => obtain ⟨t, vs, c, _⟩ := s; cases hv; rw [readHash]
  | map m => obtain ⟨k, v, es, c, _⟩ := m; cases hv; rw [readHash]
  | _ => cases hv

theorem readHash_list {l : TypedList Value} (h : (list l).knownHash? = none) :
    (list l).readHash.1 = Hash.mixAll 0 (l.elements.map fun v => v.readHash.1) ∧
      (list l).readHash.2 =
        list { l with elements := l.elements.map fun v => v.readHash.2, knownHash := some (list l).readHash.1 } := by
  obtain ⟨t, vs, c, _⟩ := l
  cases h
  simp [readElementHashes_eq, Function.comp_def]

theorem readHash_set {s : TypedSet Value} (h : (set s).knownHash? = none) :
    (set s).readHash.1 =
        Hash.mixAll 0 (((s.elements.map fun v => (v.readHash.2.content, v.readHash.1)).mergeSort
          fun a b => (a.1.order b.1).isLE).map (·.2)) ∧
      (set s).readHash.2 =
        set { s with elements := s.elements.map fun v => v.readHash.2, knownHash := some (set s).readHash.1 } := by
  obtain ⟨t, vs, c, _⟩ := s
  cases h
  simp [readElementHashes_eq, Function.comp_def]

theorem readHash_map {m : TypedMap Value} (h : (map m).knownHash? = none) :
    (map m).readHash.1 = Hash.mixAll 0 (m.entries.flatMap fun e => [e.1.readHash.1, e.2.readHash.1]) ∧
      (map m).readHash.2 =
        map { m with
          entries := m.entries.map fun e => (e.1.readHash.2, e.2.readHash.2)
          knownHash := some (map m).readHash.1 } := by
  obtain ⟨k, v, es, c, _⟩ := m
  cases h
  simp [readEntryHashes_eq, Function.comp_def, List.flatMap_map]

/-- A hash that is known afterwards is the one that was read. -/
theorem knownHash?_readHash {v : Value} {h : UInt32} (hv : v.readHash.2.knownHash? = some h) : h = v.readHash.1 := by
  cases hk : v.knownHash? with
  | some =>
    rw [readHash_of_known hk] at hv ⊢
    exact Option.some.inj (hv.symm.trans hk)
  | none =>
    cases v with
    | null => cases hv
    | scalar s => rw [readHash] at hv; cases hv
    | list l => rw [(readHash_list hk).2] at hv; exact (Option.some.inj hv).symm
    | set s => rw [(readHash_set hk).2] at hv; exact (Option.some.inj hv).symm
    | map m => rw [(readHash_map hk).2] at hv; exact (Option.some.inj hv).symm

theorem mem_stream_readHash {v : Value} {t : DataType} {w : Value} (h : (t, w) ∈ v.readHash.2.stream) :
    ∃ x, (t, x) ∈ v.stream ∧ (w = x ∨ w = x.readHash.2) := by
  cases hk : v.knownHash? with
  | some =>
    rw [readHash_of_known hk] at h
    exact ⟨w, h, .inl rfl⟩
  | none =>
    cases v with
    | null => cases h
    | scalar s => rw [readHash] at h; cases h
    | list l =>
      rw [(readHash_list hk).2, mem_stream_list] at h
      obtain ⟨rfl, hw⟩ := h
      obtain ⟨x, hx, rfl⟩ := List.mem_map.1 hw
      exact ⟨x, mem_stream_list.2 ⟨rfl, hx⟩, .inr rfl⟩
    | set s =>
      rw [(readHash_set hk).2, mem_stream_set] at h
      obtain ⟨rfl, hw⟩ := h
      obtain ⟨x, hx, rfl⟩ := List.mem_map.1 hw
      exact ⟨x, mem_stream_set.2 ⟨rfl, hx⟩, .inr rfl⟩
    | map m =>
      rw [(readHash_map hk).2, mem_stream_map] at h
      obtain ⟨e, he, hw⟩ := h
      obtain ⟨x, hx, rfl⟩ := List.mem_map.1 he
      rcases hw with ⟨rfl, rfl⟩ | ⟨rfl, rfl⟩
      · exact ⟨x.1, mem_stream_map.2 ⟨x, hx, .inl ⟨rfl, rfl⟩⟩, .inr rfl⟩
      · exact ⟨x.2, mem_stream_map.2 ⟨x, hx, .inr ⟨rfl, rfl⟩⟩, .inr rfl⟩

/-- Reading a hash changes nothing but which hashes are known. -/
@[simp]
theorem unread_readHash (v : Value) : v.readHash.2.unread = v.unread := by
  induction v using induction with
  | h v ih =>
    cases hk : v.knownHash? with
    | some => rw [readHash_of_known hk]
    | none =>
      -- the hash becomes known here and, by induction, nothing else happens within
      cases v with
      | null => rfl
      | scalar s => rw [readHash]
      | list l =>
        have elements : ∀ w ∈ l.elements, w.readHash.2.unread = w.unread := fun w hw => ih _ w (mem_stream_list.2 ⟨rfl, hw⟩)
        rw [(readHash_list hk).2]
        simpa [TypedList.unread] using elements
      | set s =>
        have elements : ∀ w ∈ s.elements, w.readHash.2.unread = w.unread := fun w hw => ih _ w (mem_stream_set.2 ⟨rfl, hw⟩)
        rw [(readHash_set hk).2]
        simpa [TypedSet.unread] using elements
      | map m =>
        have entries : ∀ k x, (k, x) ∈ m.entries → k.readHash.2.unread = k.unread ∧ x.readHash.2.unread = x.unread :=
          fun k x he => ⟨ih _ k (mem_stream_map.2 ⟨_, he, .inl ⟨rfl, rfl⟩⟩),
            ih _ x (mem_stream_map.2 ⟨_, he, .inr ⟨rfl, rfl⟩⟩)⟩
        rw [(readHash_map hk).2]
        simpa [TypedMap.unread] using entries

@[simp]
theorem bare_readHash (v : Value) : v.readHash.2.bare = v.bare :=
  bare_eq_of_unread_eq (unread_readHash v)

@[simp]
theorem content_readHash (v : Value) : v.readHash.2.content = v.content :=
  content_eq_of_bare_eq (bare_readHash v)

theorem mem_stream_readAt_cons {v : Value} {i : Nat} {path : List Nat} {t : DataType} {w : Value}
    (h : (t, w) ∈ (v.readAt (i :: path)).stream) : ∃ x, (t, x) ∈ v.stream ∧ (w = x ∨ w = x.readAt path) := by
  cases v with
  | null | scalar s => cases h
  | list l =>
    obtain ⟨rfl, hw⟩ := mem_stream_list.1 h
    obtain ⟨x, hx, h⟩ := mem_of_mem_modify hw
    exact ⟨x, mem_stream_list.2 ⟨rfl, hx⟩, h⟩
  | set s =>
    obtain ⟨rfl, hw⟩ := mem_stream_set.1 h
    obtain ⟨x, hx, h⟩ := mem_of_mem_modify hw
    exact ⟨x, mem_stream_set.2 ⟨rfl, hx⟩, h⟩
  | map m =>
    obtain ⟨e, he, hw⟩ := mem_stream_map.1 h
    obtain ⟨x, hx, he⟩ := mem_of_mem_modify he
    have key : (m.keyType, x.1) ∈ (map m).stream := mem_stream_map.2 ⟨x, hx, .inl ⟨rfl, rfl⟩⟩
    have value : (m.valueType, x.2) ∈ (map m).stream := mem_stream_map.2 ⟨x, hx, .inr ⟨rfl, rfl⟩⟩
    have parts : (e.1 = x.1 ∨ e.1 = x.1.readAt path) ∧ (e.2 = x.2 ∨ e.2 = x.2.readAt path) := by
      rcases he with rfl | rfl
      · exact ⟨.inl rfl, .inl rfl⟩
      · split
        · exact ⟨.inr rfl, .inl rfl⟩
        · exact ⟨.inl rfl, .inr rfl⟩
    rcases hw with ⟨rfl, rfl⟩ | ⟨rfl, rfl⟩
    · exact ⟨x.1, key, parts.1⟩
    · exact ⟨x.2, value, parts.2⟩

@[simp]
theorem unread_readAt (path : List Nat) (v : Value) : (v.readAt path).unread = v.unread := by
  induction path generalizing v with
  | nil => exact unread_readHash v
  | cons i path ih =>
    cases v with
    | null => rfl
    | scalar s => rfl
    | list l => rw [readAt, unread_list, unread_list, TypedList.unread, TypedList.unread, map_modify_eq ih]
    | set s => rw [readAt, unread_set, unread_set, TypedSet.unread, TypedSet.unread, map_modify_eq ih]
    | map m =>
      rw [readAt, unread_map, unread_map, TypedMap.unread, TypedMap.unread, map_modify_eq]
      intro e
      split
      · rw [ih]
      · rw [ih]

@[simp]
theorem bare_readAt (path : List Nat) (v : Value) : (v.readAt path).bare = v.bare :=
  bare_eq_of_unread_eq (unread_readAt path v)

@[simp]
theorem content_readAt (path : List Nat) (v : Value) : (v.readAt path).content = v.content :=
  content_eq_of_bare_eq (bare_readAt path v)

theorem knownHash?_readAt_cons (i : Nat) (path : List Nat) (v : Value) :
    (v.readAt (i :: path)).knownHash? = v.knownHash? := by
  cases v <;> rfl

end Value

end WideColumn
