import WideColumn.Proofs.Collection.Change
import WideColumn.Proofs.Collection.Contents
import WideColumn.Proofs.Hash
/-!
# Sets by their elements

No two elements of a set are equal, and no two keys of a map, in any value that a program
can have and at any depth in it (`Value.Distinct`), so a set is the same as another if
it has as many elements and each of them is in the other. Then either can stand for
the other wherever an element or a key is looked for (`Value.Interchangeable`).
-/

namespace WideColumn

open Value

theorem TypedSet.contains_eq_true_iff {s : TypedSet Value} {v : Value} :
    s.contains v = .ok true ↔ ∃ w, admitted s.elementType .element v = .ok w ∧ w.content ∈ s.elements.map content := by
  unfold contains
  rw [Except.bind_eq_ok_iff]
  simp only [Except.pure_eq_ok_iff, placeOf?_isSome_iff]

theorem TypedMap.contains_eq_true_iff {m : TypedMap Value} {k : Value} :
    m.contains k = .ok true ↔ ∃ k', admitted m.keyType .key k = .ok k' ∧ k'.content ∈ m.keys.map content := by
  unfold contains placeOfKey?
  rw [Except.bind_eq_ok_iff]
  simp only [Except.pure_eq_ok_iff, placeOf?_isSome_iff]

/-! ## Distinct entries -/

namespace Value

/-- Something holds of a value and of all that stands in it. -/
def Throughout (P : Value → Prop) (v : Value) : Prop := P v ∧ ∀ t w, Inside v t w → P w

section Throughout

variable {P : Value → Prop} {v : Value}

theorem throughout_iff : Throughout P v ↔ P v ∧ ∀ t w, (t, w) ∈ v.stream → Throughout P w := by
  unfold Throughout
  rw [forall_inside_iff]

theorem throughout_bare (hP : ∀ v, P v.bare ↔ P v) (v : Value) : Throughout P v.bare ↔ Throughout P v := by
  induction v using induction with
  | h v ih =>
    rw [throughout_iff, throughout_iff, hP, stream_bare]
    apply and_congr_right
    intro _
    constructor
    · intro h t w hw
      exact (ih t w hw).1 (h t w.bare (List.mem_map.2 ⟨(t, w), hw, rfl⟩))
    · intro h t w hw
      obtain ⟨⟨u, x⟩, hx, heq⟩ := List.mem_map.1 hw
      obtain ⟨rfl, rfl⟩ := Prod.mk.inj heq
      exact (ih u x hx).2 (h u x hx)

/-- What holds of values without entries, is kept by operations and has nothing to do with
cursors and known hashes holds throughout all values that a program can have. -/
theorem Reachable.throughout (hempty : ∀ v, v.marks = [] → P v) (hstep : ∀ v op, P v → P (v.step op))
    (hbare : ∀ v, P v.bare ↔ P v) (h : v.Reachable) : Throughout P v := by
  have leaf {v : Value} (hm : v.marks = []) (hs : v.stream = []) : Throughout P v :=
    throughout_iff.2 ⟨hempty v hm, fun t w hw => by rw [hs] at hw; cases hw⟩
  induction h with
  | null | scalar | list | set | map => exact leaf rfl rfl
  | step op _ _ ihv ihg =>
    refine throughout_iff.2 ⟨hstep _ op ihv.1, ?_⟩
    intro t w hw
    rcases (edit_step _ op).entries t w hw with hw | ⟨slot, x, hx, ha⟩
    · exact (throughout_iff.1 ihv).2 t w hw
    · rcases admitted_cases ha with ⟨_, _, _, -, -, -, -, rfl⟩ | ⟨-, -, rfl⟩
      · exact leaf rfl rfl
      · exact ihg w hx
  | read path _ ih =>
    rw [← throughout_bare hbare, bare_readAt, throughout_bare hbare]
    exact ih
  | entry _ hw ih => exact (throughout_iff.1 ih).2 _ _ hw

end Throughout

/-- No two elements of the set are equal, and no two keys of the map. -/
def Distinct (v : Value) : Prop := v.asList? = none → (v.marks.map content).Nodup

theorem distinct_bare (v : Value) : v.bare.Distinct ↔ v.Distinct := by
  have form : v.bare.asList? = none ↔ v.asList? = none := by cases v <;> simp [bare, asList?]
  have marks : v.bare.marks.map content = v.marks.map content := by
    rw [marks_bare, List.map_map]
    apply List.map_congr_left
    intro w _
    exact content_bare w
  unfold Distinct
  rw [form, marks]

theorem distinct_step (v : Value) (op : Operation) (h : v.Distinct) : (v.step op).Distinct := by
  intro hs
  have hv : v.asList? = none := by
    cases v with
    | list l => cases op <;> cases hs
    | _ => rfl
  have kept : (v.marks.map content).Nodup := h hv
  rw [(step_follows_change v op).marks_eq, Change.map_on]
  cases hc : v.change op with
  | append w =>
    rw [Change.on, List.nodup_append]
    refine ⟨kept, List.nodup_singleton _, ?_⟩
    intro c hmem d hd heq
    rw [List.mem_singleton.1 hd] at heq
    have outcome := outcome_change v op
    rw [hc] at outcome
    cases outcome with
    | append _ absent => exact absent hv (heq ▸ hmem)
  | erase i => exact kept.sublist (List.eraseIdx_sublist ..)
  | clear => exact List.nodup_nil
  | _ => exact kept

/-- However sets and maps came about, and whatever stands in them, their elements and keys
are distinct. -/
theorem Reachable.distinct {v : Value} (h : v.Reachable) : Throughout Distinct v := by
  apply h.throughout _ distinct_step distinct_bare
  intro v hm _
  rw [hm]
  exact List.nodup_nil

/-! ## Extensionality -/

/-- Sets are equal if one has as many elements as the other, and those are in the other. -/
theorem order_eq_iff_of_subset {s u : TypedSet Value} (hs : (set s).Reachable) (ht : s.elementType = u.elementType) :
    (set s).order (set u) = .eq ↔ s.size = u.size ∧ ∀ v ∈ s.elements, u.contains v = .ok true := by
  have stored : ∀ v ∈ s.elements, Stored u.elementType v := by
    intro v hv
    rw [← ht]
    exact hs.typed _ v (.entry (mem_stream_set.2 ⟨rfl, hv⟩))
  have distinct : (s.elements.map content).Nodup := hs.distinct.1 rfl
  have members : (∀ v ∈ s.elements, u.contains v = .ok true) ↔ s.elements.map content ⊆ u.elements.map content := by
    rw [List.subset_def, List.forall_mem_map]
    refine forall₂_congr fun v hv => ?_
    rw [TypedSet.contains_eq_true_iff, (stored v hv).admitted_eq]
    simp
  have size (s : TypedSet Value) : s.size = (s.elements.map content).length := by rw [List.length_map, TypedSet.size]
  rw [order_eq_iff, content_set, content_set, ht, members, size, size]
  constructor
  · intro h
    have same : Content.sorted (s.elements.map content) = Content.sorted (u.elements.map content) := by
      injection h
    have perm : (s.elements.map content).Perm (u.elements.map content) :=
      ((List.mergeSort_perm ..).symm.trans (.of_eq same)).trans (List.mergeSort_perm ..)
    exact ⟨perm.length_eq, perm.subset⟩
  · rintro ⟨hsize, hsub⟩
    have perm : (s.elements.map content).Perm (u.elements.map content) :=
      (distinct.subperm hsub).perm_of_length_le hsize.ge
    rw [Content.sorted_eq_of_perm perm]

/-! ## One for the other -/

/-- What is equal is equal once it is admitted, and refused for the same reason. -/
theorem admitted_congr {a b : Value} (h : a.content = b.content) (t : DataType) (slot : Slot) :
    (admitted t slot a).map content = (admitted t slot b).map content := by
  have collection (hn : a ≠ null) (hs : a.asScalar? = none) (hn' : b ≠ null) (hs' : b.asScalar? = none) :
      (admitted t slot a).map content = (admitted t slot b).map content := by
    have type : a.type? = b.type? := type?_eq_of_content_eq h
    have misfit : a.misfit t slot = b.misfit t slot := by simp [misfit, typeName, type]
    rw [admitted_collection hn hs, admitted_collection hn' hs', type, misfit]
    split
    · exact congrArg Except.ok h
    · rfl
  cases a with
  | null =>
    cases b with
    | null => rfl
    | _ => cases h
  | scalar s =>
    cases b with
    | scalar s' => cases h; rfl
    | _ => cases h
  | _ =>
    cases b with
    | null | scalar => cases h
    | _ => exact collection (by simp) rfl (by simp) rfl

/-- Wherever the first value is used as an element of a set or as a key of a map, the
second one can be used as well: what is answered is the same, and so is what becomes
of the set or the map, up to equality. After the first, the second is a duplicate. -/
structure Interchangeable (a b : Value) : Prop where
  add : ∀ o : TypedSet Value,
    (o.add a).map (fun r => (r.1, (Value.set r.2).content)) = (o.add b).map fun r => (r.1, (Value.set r.2).content)
  contains : ∀ o : TypedSet Value, o.contains a = o.contains b
  remove : ∀ o : TypedSet Value, o.remove a = o.remove b
  duplicate : ∀ (o : TypedSet Value) r, o.add a = .ok r → r.2.add b = .ok (false, r.2)
  set : ∀ (m : TypedMap Value) v,
    (m.set a v).map (fun m => (Value.map m).content) = (m.set b v).map fun m => (Value.map m).content
  get : ∀ m : TypedMap Value, m.get a = m.get b
  containsKey : ∀ m : TypedMap Value, m.contains a = m.contains b
  removeKey : ∀ m : TypedMap Value, m.remove a = m.remove b
  sameKey : ∀ (m : TypedMap Value) v m', m.set a v = .ok m' → m'.contains b = .ok true ∧
    ∀ w, m'.set b w = m'.set a w ∧ ∀ m'', m'.set b w = .ok m'' → m''.keys = m'.keys

end Value

/-! Where equal values are given, the same comes about. -/

section

variable {a b : Value} (h : a.content = b.content)

include h

theorem TypedSet.add_congr (o : TypedSet Value) :
    (o.add a).map (fun r => (r.1, (Value.set r.2).content)) = (o.add b).map fun r => (r.1, (Value.set r.2).content) := by
  unfold add
  rw [Except.map_bind, Except.map_bind]
  apply Except.bind_congr_of_map (admitted_congr h o.elementType .element)
  intro w x hwx
  rw [placeOf?_congr hwx]
  cases placeOf? x o.elements with
  | none => simp [pure, Except.pure, Except.map, hwx]
  | some i => rfl

theorem TypedSet.contains_congr (o : TypedSet Value) : o.contains a = o.contains b := by
  unfold contains
  apply Except.bind_congr_of_map (admitted_congr h o.elementType .element)
  intro w x hwx
  rw [placeOf?_congr hwx]

theorem TypedSet.remove_congr (o : TypedSet Value) : o.remove a = o.remove b := by
  unfold remove
  apply Except.bind_congr_of_map (admitted_congr h o.elementType .element)
  intro w x hwx
  rw [placeOf?_congr hwx]

theorem TypedMap.set_congr (m : TypedMap Value) (v : Value) :
    (m.set a v).map (fun m => (Value.map m).content) = (m.set b v).map fun m => (Value.map m).content := by
  unfold set
  rw [Except.map_bind, Except.map_bind]
  apply Except.bind_congr_of_map (admitted_congr h m.keyType .key)
  intro k l hkl
  rw [Except.map_bind, Except.map_bind]
  apply Except.bind_congr_ok
  intro w _
  rw [placeOfKey?, placeOfKey?, placeOf?_congr hkl]
  cases placeOf? l m.keys with
  | none => simp [pure, Except.pure, Except.map, hkl]
  | some i => rfl

theorem TypedMap.get_congr (m : TypedMap Value) : m.get a = m.get b := by
  unfold get
  apply Except.bind_congr_of_map (admitted_congr h m.keyType .key)
  intro k l hkl
  rw [placeOfKey?, placeOfKey?, placeOf?_congr hkl]

theorem TypedMap.contains_congr (m : TypedMap Value) : m.contains a = m.contains b := by
  unfold contains
  apply Except.bind_congr_of_map (admitted_congr h m.keyType .key)
  intro k l hkl
  rw [placeOfKey?, placeOfKey?, placeOf?_congr hkl]

theorem TypedMap.remove_congr (m : TypedMap Value) : m.remove a = m.remove b := by
  unfold remove
  apply Except.bind_congr_of_map (admitted_congr h m.keyType .key)
  intro k l hkl
  rw [placeOfKey?, placeOfKey?, placeOf?_congr hkl]

end

/-! What is in a set or a map is a duplicate there. -/

theorem TypedSet.contains_after_add {s : TypedSet Value} {v : Value} {r : Bool × TypedSet Value} (h : s.add v = .ok r) :
    r.2.contains v = .ok true := by
  obtain ⟨w, hw, ⟨i, hi, rfl⟩ | ⟨-, rfl⟩⟩ := add_cases h
  · exact contains_eq_true_iff.2 ⟨w, hw, placeOf?_isSome_iff.1 (by rw [hi, Option.isSome_some])⟩
  · exact contains_eq_true_iff.2 ⟨w, hw, by simp⟩

theorem TypedSet.add_of_contains {s : TypedSet Value} {v : Value} (h : s.contains v = .ok true) :
    s.add v = .ok (false, s) := by
  obtain ⟨w, hw, hmem⟩ := contains_eq_true_iff.1 h
  obtain ⟨i, hi⟩ := Option.isSome_iff_exists.1 (placeOf?_isSome_iff.2 hmem)
  simp [add, hw, hi, bind, Except.bind, pure, Except.pure]

theorem TypedMap.contains_after_set {m m' : TypedMap Value} {k v : Value} (h : m.set k v = .ok m') :
    m'.contains k = .ok true := by
  obtain ⟨k', v', hk, -, ⟨i, hi, rfl⟩ | ⟨-, rfl⟩⟩ := set_cases h
  · refine contains_eq_true_iff.2 ⟨k', hk, ?_⟩
    rw [TypedMap.keys, keys_modify]
    exact placeOf?_isSome_iff.1 (by rw [← placeOfKey?, hi, Option.isSome_some])
  · exact contains_eq_true_iff.2 ⟨k', hk, by simp [keys]⟩

/-- A key that is there stays, in its place and its form. -/
theorem TypedMap.keys_of_set {m m' : TypedMap Value} {k v : Value} (hk : m.contains k = .ok true) (h : m.set k v = .ok m') :
    m'.keys = m.keys := by
  obtain ⟨k', hk', hmem⟩ := contains_eq_true_iff.1 hk
  obtain ⟨l, v', hl, -, ⟨i, -, rfl⟩ | ⟨hi, -⟩⟩ := set_cases h
  · exact m.keys_modify i v'
  · obtain rfl := Except.ok.inj (hk'.symm.trans hl)
    exact absurd hmem (placeOf?_eq_none_iff.1 hi)

theorem TypedMap.set_eq_of_contains {a b : Value} (h : a.content = b.content) {m : TypedMap Value}
    (ha : m.contains a = .ok true) (v : Value) : m.set b v = m.set a v := by
  obtain ⟨k, hk, hmem⟩ := contains_eq_true_iff.1 ha
  obtain ⟨l, hl, -⟩ := contains_eq_true_iff.1 (m.contains_congr h ▸ ha)
  have hkl : k.content = l.content := by
    have same := admitted_congr h m.keyType .key
    rw [hk, hl] at same
    exact Except.ok.inj same
  obtain ⟨i, hi⟩ := Option.isSome_iff_exists.1 (placeOf?_isSome_iff.2 hmem)
  have hj : placeOf? l m.keys = some i := by rw [← placeOf?_congr hkl, hi]
  simp only [set, placeOfKey?, hk, hl, hi, hj, bind, Except.bind]

namespace Value

theorem interchangeable {a b : Value} (h : a.content = b.content) : Interchangeable a b where
  add := TypedSet.add_congr h
  contains := TypedSet.contains_congr h
  remove := TypedSet.remove_congr h
  duplicate o r hr := TypedSet.add_of_contains ((r.2.contains_congr h).symm.trans (TypedSet.contains_after_add hr))
  set := TypedMap.set_congr h
  get := TypedMap.get_congr h
  containsKey := TypedMap.contains_congr h
  removeKey := TypedMap.remove_congr h
  sameKey m v m' hm := by
    have ha : m'.contains a = .ok true := TypedMap.contains_after_set hm
    have hb : m'.contains b = .ok true := (m'.contains_congr h).symm.trans ha
    exact ⟨hb, fun w => ⟨TypedMap.set_eq_of_contains h ha w, fun m'' hw => TypedMap.keys_of_set hb hw⟩⟩

/-- Two sets over the same type are equal if and only if they have as many elements and
those of one are in the other, whichever way round. Then they have the same hash, they
are accepted wherever sets over that type are, and there one can stand for the other. -/
theorem set_extensional {s u : TypedSet Value} (hs : (set s).Reachable) (hu : (set u).Reachable)
    (ht : s.elementType = u.elementType) :
    ((set s).order (set u) = .eq ↔ s.size = u.size ∧ ∀ v ∈ s.elements, u.contains v = .ok true) ∧
    ((set s).order (set u) = .eq ↔ s.size = u.size ∧ ∀ v ∈ u.elements, s.contains v = .ok true) ∧
    (∀ slot, admitted (.set s.elementType) slot (set s) = .ok (set s) ∧
      admitted (.set s.elementType) slot (set u) = .ok (set u)) ∧
    ((set s).order (set u) = .eq → (set s).readHash.1 = (set u).readHash.1 ∧
      Interchangeable (set s) (set u) ∧ Interchangeable (set u) (set s)) := by
  refine ⟨order_eq_iff_of_subset hs ht, ?_, ?_, ?_⟩
  · rw [order_eq_iff, eq_comm, ← order_eq_iff, order_eq_iff_of_subset hu ht.symm, eq_comm]
  · intro slot
    constructor
    · rw [admitted_collection (by simp) rfl, type?, if_pos rfl]
    · rw [admitted_collection (by simp) rfl, type?, ht, if_pos rfl]
  · intro h
    have same : (set s).content = (set u).content := order_eq_iff.1 h
    refine ⟨?_, interchangeable same, interchangeable same.symm⟩
    rw [hs.coherent.readHash_eq, hu.coherent.readHash_eq, hash, hash, same]

/-- Two numbers, in the order in which they came in. -/
def couple (m n : BitVec 32) : TypedSet Value := ⟨.scalar .int, [scalar (.int m), scalar (.int n)], .start, none⟩

theorem set_extensional_couple : (set (couple 1 2)).order (set (couple 2 1)) = .eq ∧
    (set (couple 1 2)).readHash.1 = (set (couple 2 1)).readHash.1 ∧
    Interchangeable (set (couple 1 2)) (set (couple 2 1)) := by
  have up : (set (couple 1 2)).Reachable := ((Reachable.set (.scalar .int)).add (.scalar (.int 1))).add (.scalar (.int 2))
  have down : (set (couple 2 1)).Reachable := ((Reachable.set (.scalar .int)).add (.scalar (.int 2))).add (.scalar (.int 1))
  have subset : ∀ v ∈ (couple 1 2).elements, (couple 2 1).contains v = .ok true := by
    intro v hv
    rcases List.mem_pair.1 hv with rfl | rfl
    · rfl
    · rfl
  have equal := (set_extensional up down rfl).1.2 ⟨rfl, subset⟩
  obtain ⟨hash, interchangeable, -⟩ := (set_extensional up down rfl).2.2.2 equal
  exact ⟨equal, hash, interchangeable⟩

end Value

end WideColumn
