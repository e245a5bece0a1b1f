import WideColumn.Proofs.Collection.Operation
import WideColumn.Proofs.Order.Value
/-!
# Hashes agree with equality

A hash that is read is the hash of the content, whether it was known before, in the
value or in anything within it, or not: known hashes are right in every value that a
program can have (`Value.Coherent`). Equal values have the same content, so they
have the same hash, and a table of hashes finds a value wherever a search for an
equal one does.
-/

namespace WideColumn

/-- To sort contents by themselves and take their hashes is to take the hashes of what
was sorted. -/
theorem Content.map_hash_sorted (cs : List Content) :
    ((cs.map fun c => (c, c.hash)).mergeSort fun a b => (a.1.order b.1).isLE).map (·.2) = (sorted cs).map hash := by
  -- pairs are compared by their contents alone, so each hash stays with the content it is of
  have pairs : (sorted cs).map (fun c => (c, c.hash)) =
      (cs.map fun c => (c, c.hash)).mergeSort fun a b => (a.1.order b.1).isLE := by
    rw [sorted]
    apply List.map_mergeSort
    intros
    rfl
  rw [← pairs, List.map_map]
  rfl

namespace Value

theorem hash_list (l : TypedList Value) : (list l).hash = Hash.mixAll 0 (l.elements.map hash) := by
  rw [hash, content_list, Content.hash, Content.elementHashes_eq, List.map_map]
  rfl

theorem hash_set (s : TypedSet Value) :
    (set s).hash = Hash.mixAll 0 ((Content.sorted (s.elements.map content)).map Content.hash) := by
  rw [hash, content_set, Content.hash, Content.elementHashes_eq]

theorem hash_map (m : TypedMap Value) :
    (map m).hash = Hash.mixAll 0 (m.entries.flatMap fun e => [e.1.hash, e.2.hash]) := by
  rw [hash, content_map, Content.hash, Content.entryHashes_eq, List.flatMap_map]
  rfl

/-- Every hash that is known, in the value or within it, is that of the content. -/
structure Coherent (v : Value) : Prop where
  here : ∀ h, v.knownHash? = some h → h = v.hash
  within : ∀ t w, Inside v t w → ∀ h, w.knownHash? = some h → h = w.hash

theorem coherent_iff {v : Value} :
    v.Coherent ↔ (∀ h, v.knownHash? = some h → h = v.hash) ∧ ∀ t w, (t, w) ∈ v.stream → w.Coherent := by
  constructor
  · intro hv
    refine ⟨hv.here, fun t w hw => ?_⟩
    obtain ⟨here, within⟩ := forall_inside_iff.1 hv.within t w hw
    exact ⟨here, within⟩
  · rintro ⟨here, entries⟩
    refine ⟨here, forall_inside_iff.2 fun t w hw => ?_⟩
    exact ⟨(entries t w hw).here, (entries t w hw).within⟩

theorem Coherent.entry {v w : Value} {t : DataType} (hv : v.Coherent) (hw : (t, w) ∈ v.stream) : w.Coherent :=
  (coherent_iff.1 hv).2 t w hw

theorem coherent_of_no_entries {v : Value} (hk : v.knownHash? = none) (hs : v.stream = []) : v.Coherent := by
  refine coherent_iff.2 ⟨fun h hh => ?_, fun t w hw => ?_⟩
  · rw [hk] at hh
    cases hh
  · rw [hs] at hw
    cases hw

/-- In a coherent value the hash that is read is the one computed from the content. -/
theorem Coherent.readHash_eq {v : Value} (hv : v.Coherent) : v.readHash.1 = v.hash := by
  induction v using induction with
  | h v ih =>
    cases hk : v.knownHash? with
    | some h =>
      rw [readHash_of_known hk]
      exact hv.here h hk
    | none =>
      cases v with
      | null => rfl
      | scalar s => rw [readHash]; rfl
      | list l =>
        have elements : ∀ w ∈ l.elements, w.readHash.1 = w.hash := fun w hw =>
          have hw := mem_stream_list.2 ⟨rfl, hw⟩
          ih _ w hw (hv.entry hw)
        rw [(readHash_list hk).1, hash_list, List.map_congr_left elements]
      | set s =>
        -- what is sorted are the elements after their hashes were read, which have the same contents
        have elements : ∀ w ∈ s.elements, (w.readHash.2.content, w.readHash.1) = (w.content, w.content.hash) :=
          fun w hw =>
            have hw := mem_stream_set.2 ⟨rfl, hw⟩
            Prod.ext (content_readHash w) (ih _ w hw (hv.entry hw))
        rw [(readHash_set hk).1, hash_set, ← Content.map_hash_sorted, List.map_congr_left elements, List.map_map]
        rfl
      | map m =>
        have entries : ∀ e ∈ m.entries, [e.1.readHash.1, e.2.readHash.1] = [e.1.hash, e.2.hash] := fun e he => by
          have key := mem_stream_map.2 ⟨e, he, .inl ⟨rfl, rfl⟩⟩
          have value := mem_stream_map.2 ⟨e, he, .inr ⟨rfl, rfl⟩⟩
          rw [ih _ _ key (hv.entry key), ih _ _ value (hv.entry value)]
        rw [(readHash_map hk).1, hash_map, List.flatMap_congr entries]

/-! ## Known hashes stay right -/

theorem Coherent.readHash {v : Value} (hv : v.Coherent) : v.readHash.2.Coherent := by
  induction v using induction with
  | h v ih =>
    refine coherent_iff.2 ⟨fun h hh => ?_, fun t w hw => ?_⟩
    · rw [knownHash?_readHash hh, hv.readHash_eq, hash, hash, content_readHash]
    · obtain ⟨x, hx, rfl | rfl⟩ := mem_stream_readHash hw
      · exact hv.entry hx
      · exact ih t x hx (hv.entry hx)

theorem Coherent.readAt {v : Value} (hv : v.Coherent) (path : List Nat) : (v.readAt path).Coherent := by
  induction path generalizing v with
  | nil => exact hv.readHash
  | cons i path ih =>
    refine coherent_iff.2 ⟨fun h hh => ?_, fun t w hw => ?_⟩
    · rw [knownHash?_readAt_cons] at hh
      rw [hv.here h hh, hash, hash, content_readAt]
    · obtain ⟨x, hx, rfl | rfl⟩ := mem_stream_readAt_cons hw
      · exact hv.entry hx
      · exact ih (hv.entry hx)

theorem coherent_of_admitted {t : DataType} {slot : Slot} {v w : Value} (h : admitted t slot v = .ok w)
    (hv : v.Coherent) : w.Coherent := by
  rcases admitted_cases h with ⟨_, _, _, -, -, -, -, rfl⟩ | ⟨-, -, rfl⟩
  · exact coherent_of_no_entries rfl rfl
  · exact hv

theorem Coherent.edit {given : List Value} {v v' : Value} (hv : v.Coherent) (hg : ∀ x ∈ given, x.Coherent)
    (he : Edit given v v') : v'.Coherent := by
  refine coherent_iff.2 ⟨fun h hh => ?_, fun t w hw => ?_⟩
  · -- the hash was forgotten, unless the content is what it was
    rcases he.hash with hn | ⟨hk, hc⟩
    · rw [hn] at hh
      cases hh
    · rw [hv.here h (hk ▸ hh), hash, hash, hc]
  · rcases he.entries t w hw with hw | ⟨slot, x, hx, ha⟩
    · exact hv.entry hw
    · exact coherent_of_admitted ha (hg x hx)

/-- Known hashes are right in every value that a program can have. -/
theorem Reachable.coherent {v : Value} (h : v.Reachable) : v.Coherent := by
  induction h with
  | null | scalar | list | set | map => exact coherent_of_no_entries rfl rfl
  | step op _ _ ihv ihg => exact ihv.edit ihg (edit_step _ op)
  | read path _ ih => exact ih.readAt path
  | entry _ hw ih => exact ih.entry hw

/-! ## Agreement -/

/-- Equal values hash to the same word, however they came about and whatever hashes
were read before. -/
theorem readHash_eq_of_equals {a b : Value} (ha : a.Reachable) (hb : b.Reachable) (h : a.equals b = true) :
    a.readHash.1 = b.readHash.1 := by
  rw [ha.coherent.readHash_eq, hb.coherent.readHash_eq, hash, hash, equals_iff.1 h]

/-- One, then two. -/
def ascent : Value :=
  ((set (.empty (.scalar .int))).step (.add (scalar (.int 1)))).step (.add (scalar (.int 2)))

/-- Two, then one, with a hash read before and after. -/
def descent : Value :=
  ((((set (.empty (.scalar .int))).step (.add (scalar (.int 2)))).readAt []).step (.add (scalar (.int 1)))).readAt []

theorem readHash_ascent : ascent.equals descent = true ∧ ascent.readHash.1 = descent.readHash.1 := by
  have up : ascent.Reachable := ((Reachable.set _).add (.scalar _)).add (.scalar _)
  have down : descent.Reachable := ((((Reachable.set _).add (.scalar _)).read _).add (.scalar _)).read _
  have hup : ascent.content = .set (.scalar .int) (Content.sorted [.scalar (.int 1), .scalar (.int 2)]) := by rfl
  have hdown : descent.content = .set (.scalar .int) (Content.sorted [.scalar (.int 2), .scalar (.int 1)]) := by
    rw [descent, content_readAt]
    rfl
  have equal : ascent.equals descent = true := by
    rw [equals_iff, hup, hdown, Content.sorted_eq_of_perm (.swap ..)]
  exact ⟨equal, readHash_eq_of_equals up down equal⟩

end Value

end WideColumn
