import WideColumn.Proofs.Collection.Extensional
import WideColumn.Proofs.Ledger.Run
/-!
# Maps are ledgers

Whatever is asked of a map, its entries are those of a ledger whose history is what was
asked: a value that is accepted under a key is entered, a key that is accepted for removal
is struck. What the map answers can be told from that history (`TypedMap.Keeps`).
-/

namespace WideColumn

open Value

/-! ## Search by hashes -/

/-- Equal values have equal hashes, so to look only at those with the same hash makes no difference. -/
theorem placeOf?_eq_findIdx?_hash (v : Value) (vs : List Value) :
    placeOf? v vs = vs.findIdx? fun w => w.hash == v.hash && w.equals v := by
  have same : (fun w : Value => w.equals v) = fun w => w.hash == v.hash && w.equals v := by
    funext w
    by_cases h : w.equals v = true
    · simp [h, Value.hash, equals_iff.1 h]
    · simp [h]
  rw [← same]
  rfl

namespace TypedMap

/-! ## Requests -/

/-- What a request to a map with given types does to its entries. -/
def posting (kt vt : DataType) : Request Value → Posting Value
  | .set k v =>
    match admitted kt .key k, admitted vt .value v with
    | .ok k, .ok v => .enter k v
    | _, _ => .idle
  | .remove k =>
    match admitted kt .key k with
    | .ok k => .strike k
    | .error _ => .idle
  | .clear => .clear
  | _ => .idle

/-- The history that a run of requests makes, apart from the hashes that are known in what is put in. -/
def history (kt vt : DataType) (run : List (Request Value)) : List (Posting Value) :=
  run.map fun r => posting kt vt (r.map Value.unread)

theorem placeOfKey?_eq (m : TypedMap Value) (k : Value) : m.placeOfKey? k = m.entries.findIdx? fun e => e.1.equals k := by
  rw [placeOfKey?, keys, placeOf?, List.findIdx?_map]
  rfl

theorem isSome_placeOfKey? (m : TypedMap Value) (k : Value) :
    (m.placeOfKey? k).isSome = (Ledger.find? m.entries k).isSome := by
  rw [placeOfKey?_eq, Ledger.isSome_find?, List.findIdx?_isSome]

section Step

variable {m : TypedMap Value} {k v k' v' : Value} (hk : admitted m.keyType .key k = .ok k')

include hk

theorem get_eq : m.get k = .ok (Ledger.find? m.entries k') := by
  rw [Ledger.find?, List.find?_eq_bind_findIdx?_getElem?, ← placeOfKey?_eq, Option.map_bind, get, hk]
  rfl

theorem contains_eq : m.contains k = .ok (Ledger.find? m.entries k').isSome := by
  rw [← isSome_placeOfKey?, contains, hk]
  rfl

theorem set_eq (h : Ledger.Distinct m.entries) (hv : admitted m.valueType .value v = .ok v') :
    m.set k v = .ok { m with entries := Ledger.post m.entries (.enter k' v'), knownHash := none } := by
  simp only [set, hk, hv, bind, Except.bind, pure, Except.pure, Ledger.post, ← Ledger.isSome_find?, ← isSome_placeOfKey?]
  cases hp : m.placeOfKey? k' with
  | none => rfl
  | some i =>
    rw [placeOfKey?_eq] at hp
    simp only [Ledger.modify_findIdx? (h.once k') hp]
    rfl

theorem remove_eq (h : Ledger.Distinct m.entries) :
    ∃ m', m.remove k = .ok ((Ledger.find? m.entries k').isSome, m') ∧ m'.keyType = m.keyType ∧
      m'.valueType = m.valueType ∧ m'.entries = Ledger.post m.entries (.strike k') := by
  simp only [remove, hk, bind, Except.bind, pure, Except.pure, Ledger.post, ← isSome_placeOfKey?]
  cases hp : m.placeOfKey? k' with
  | none =>
    rw [placeOfKey?_eq, List.findIdx?_eq_none_iff] at hp
    refine ⟨m, rfl, rfl, rfl, ?_⟩
    rw [eq_comm, List.filter_eq_self]
    intro e he
    rw [hp e he]
    rfl
  | some i =>
    rw [placeOfKey?_eq] at hp
    exact ⟨_, rfl, rfl, rfl, Ledger.eraseIdx_findIdx? (h.once k') hp⟩

end Step

/-- What is refused by the type of the keys is refused by every request with it. -/
theorem refused {m : TypedMap Value} {k : Value} {e : Error} (hk : admitted m.keyType .key k = .error e) :
    m.get k = .error e ∧ m.contains k = .error e ∧ m.remove k = .error e ∧ ∀ v, m.set k v = .error e := by
  simp only [get, contains, remove, set, hk, bind, Except.bind, implies_true, and_self]

theorem set_refused {m : TypedMap Value} {k v k' : Value} {e : Error} (hk : admitted m.keyType .key k = .ok k')
    (hv : admitted m.valueType .value v = .error e) : m.set k v = .error e := by
  simp only [set, hk, hv, bind, Except.bind]

/-- One request, unless it is for a hash, makes one posting. -/
theorem after_eq {m : TypedMap Value} (h : Ledger.Distinct m.entries) {r : Request Value} (hr : r.isRead = false) :
    ∃ m', (Value.map m).after r = .map m' ∧ m'.keyType = m.keyType ∧ m'.valueType = m.valueType ∧
      m'.entries = Ledger.post m.entries (posting m.keyType m.valueType r) := by
  cases r with
  | set k v =>
    refine ⟨(m.set k v).toOption.getD m, rfl, ?_⟩
    simp only [posting]
    cases hk : admitted m.keyType .key k with
    | error e =>
      rw [(refused hk).2.2.2 v]
      exact ⟨rfl, rfl, rfl⟩
    | ok k' =>
      cases hv : admitted m.valueType .value v with
      | error e =>
        rw [set_refused hk hv]
        exact ⟨rfl, rfl, rfl⟩
      | ok v' =>
        rw [set_eq hk h hv]
        exact ⟨rfl, rfl, rfl⟩
  | remove k =>
    refine ⟨((m.remove k).map (·.2)).toOption.getD m, rfl, ?_⟩
    simp only [posting]
    cases hk : admitted m.keyType .key k with
    | error e =>
      rw [(refused hk).2.2.1]
      exact ⟨rfl, rfl, rfl⟩
    | ok k' =>
      obtain ⟨m', hm, htypes⟩ := remove_eq hk h
      rw [hm]
      exact htypes
  | hash path => cases hr
  | _ => exact ⟨_, rfl, rfl, rfl, rfl⟩

/-- The entries of maps, as what is kept of them. -/
def books : Bookkeeping (TypedMap Value) (DataType × DataType) Value where
  value := .map
  types m := (m.keyType, m.valueType)
  ledger := entries
  unread := unread
  posting t := posting t.1 t.2
  unread_value := unread_map
  exists_of_unread := by
    intro v n h
    cases v with
    | map m =>
      rw [unread_map] at h
      exact ⟨m, rfl, Value.map.inj h⟩
    | _ => simp at h
  types_unread m := rfl
  posting_of_isRead := by
    intro t r hr
    cases r with
    | hash path => rfl
    | _ => cases hr
  after := by
    intro m r distinct hr
    obtain ⟨m', hm, hkt, hvt, hentries⟩ := after_eq distinct hr
    exact ⟨m', hm, by rw [hkt, hvt], hentries⟩

/-! ## What can be seen -/

section Seen

variable {m : TypedMap Value} {history : List (Posting Value)} (h : m.unread.entries = Ledger.ofHistory history)

include h

theorem distinct_of_history : Ledger.Distinct m.entries := by
  rw [← Ledger.distinct_map_unread m.entries Value.unread]
  exact (congrArg Ledger.Distinct h).mpr (Ledger.distinct_ofHistory history)

theorem find?_of_history (k : Value) : (Ledger.find? m.entries k).map Value.unread = Ledger.latest? history k := by
  rw [← Ledger.find?_ofHistory, ← h]
  exact (Ledger.find?_map_unread m.entries Value.unread k).symm

theorem isSome_find?_of_history (k : Value) :
    (Ledger.find? m.entries k).isSome = (Ledger.latest? history k).isSome := by
  rw [← find?_of_history h, Option.isSome_map]

end Seen

end TypedMap

/-! ## One key in several forms -/

/-- `OneKey t a b`: where values of type `t` are taken, `a` and `b` stand for the same, being one text under two
names of its type, or two sets of one type with the same elements. -/
inductive OneKey : DataType → Value → Value → Prop where
  | texts {t : ScalarType} (ht : t = .text ∨ t = .varchar) {x : String} {a b : Scalar} (ha : a = .text x ∨ a = .varchar x)
    (hb : b = .text x ∨ b = .varchar x) : OneKey (.scalar t) (scalar a) (scalar b)
  | sets {s u : TypedSet Value} (hs : (set s).Reachable) (hu : (set u).Reachable) (ht : s.elementType = u.elementType)
    (hsu : ∀ v ∈ s.elements, u.contains v = .ok true) (hus : ∀ v ∈ u.elements, s.contains v = .ok true) :
    OneKey (.set s.elementType) (set s) (set u)

theorem TypedSet.size_le_of_contains {s u : TypedSet Value} (hs : (Value.set s).Reachable)
    (ht : s.elementType = u.elementType) (h : ∀ v ∈ s.elements, u.contains v = .ok true) : s.size ≤ u.size := by
  have distinct : (s.elements.map content).Nodup := hs.distinct.1 rfl
  have subset : s.elements.map content ⊆ u.elements.map content := by
    rw [List.subset_def, List.forall_mem_map]
    intro v hv
    have stored : Stored u.elementType v := by
      rw [← ht]
      exact hs.typed _ v (.entry (mem_stream_set.2 ⟨rfl, hv⟩))
    obtain ⟨w, hw, hmem⟩ := contains_eq_true_iff.1 (h v hv)
    rw [stored.admitted_eq] at hw
    cases hw
    exact hmem
  have length := (distinct.subperm subset).length_le
  rw [List.length_map, List.length_map] at length
  exact length

theorem OneKey.admitted {t : DataType} {a b : Value} (h : OneKey t a b) (slot : Slot) :
    ∃ a' b', WideColumn.admitted t slot a = .ok a' ∧ WideColumn.admitted t slot b = .ok b' ∧ a'.equals b' = true := by
  cases h with
  | @texts t ht x a b ha hb =>
    rcases ht with rfl | rfl
    · refine ⟨scalar (.text x), scalar (.text x), ?_, ?_, equals_iff.2 rfl⟩
      · rcases ha with rfl | rfl <;> rfl
      · rcases hb with rfl | rfl <;> rfl
    · refine ⟨scalar (.varchar x), scalar (.varchar x), ?_, ?_, equals_iff.2 rfl⟩
      · rcases ha with rfl | rfl <;> rfl
      · rcases hb with rfl | rfl <;> rfl
  | @sets s u hs hu ht hsu hus =>
    refine ⟨set s, set u, ?_, ?_, ?_⟩
    · rw [admitted_collection (by simp) rfl, type?, if_pos rfl]
    · rw [admitted_collection (by simp) rfl, type?, ht, if_pos rfl]
    · have size : s.size = u.size :=
        le_antisymm (TypedSet.size_le_of_contains hs ht hsu) (TypedSet.size_le_of_contains hu ht.symm hus)
      rw [equals, (order_eq_iff_of_subset hs ht).2 ⟨size, hsu⟩]
      rfl

/-- Two values that stand for the same are one key of a map. -/
theorem OneKey.lookup {m : TypedMap Value} (distinct : Ledger.Distinct m.entries) {k l : Value} (h : OneKey m.keyType k l) :
    m.get k = m.get l ∧ m.contains k = m.contains l ∧ ∀ v m', m.set k v = .ok m' →
      ∃ v', WideColumn.admitted m.valueType .value v = .ok v' ∧ m'.get l = .ok (some v') ∧ m'.contains l = .ok true := by
  obtain ⟨k', l', hk, hl, hkl⟩ := h.admitted .key
  rw [TypedMap.get_eq hk, TypedMap.get_eq hl, TypedMap.contains_eq hk, TypedMap.contains_eq hl, Ledger.find?_congr hkl]
  refine ⟨rfl, rfl, ?_⟩
  intro v m' hset
  cases hv : WideColumn.admitted m.valueType .value v with
  | error e =>
    rw [TypedMap.set_refused hk hv] at hset
    cases hset
  | ok v' =>
    obtain ⟨keyType, entries⟩ : m'.keyType = m.keyType ∧ m'.entries = Ledger.post m.entries (.enter k' v') := by
      rw [TypedMap.set_eq hk distinct hv] at hset
      cases hset
      exact ⟨rfl, rfl⟩
    have found : Ledger.find? m'.entries l' = some v' := by
      rw [entries, Ledger.find?_post]
      exact if_pos hkl
    rw [← keyType] at hl
    refine ⟨v', rfl, ?_, ?_⟩
    · rw [TypedMap.get_eq hl, found]
    · rw [TypedMap.contains_eq hl, found]
      rfl

/-! ## The whole -/

namespace TypedMap

/-- What a map is, and what it answers, if its types are `kt` and `vt` and all that was asked of it has made the
given history. -/
structure Keeps (kt vt : DataType) (history : List (Posting Value)) (m : TypedMap Value) : Prop where
  keyType : m.keyType = kt
  valueType : m.valueType = vt
  /-- The entries are those of the ledger, apart from the hashes that are known in them. -/
  entries : m.unread.entries = Ledger.ofHistory history
  distinct : m.keys.Pairwise fun k l => k.equals l = false
  /-- The keys stand in the order of the postings that they came in with. -/
  ordered : ∃ rows : List (Nat × Value), rows.map (·.2) = m.keys.map Value.unread ∧
    rows.Pairwise (fun r s => r.1 < s.1) ∧ ∀ r ∈ rows, Ledger.Entered history r.1 r.2
  keys : m.keys.map Value.unread = (Ledger.ofHistory history).map (·.1)
  values : m.values.map Value.unread = (Ledger.ofHistory history).map (·.2)
  stream : (Value.map m).unread.stream = (Ledger.ofHistory history).flatMap fun e => [(kt, e.1), (vt, e.2)]
  size : m.size = (Ledger.ofHistory history).length
  /-- What is accepted is entered, exactly as it was admitted. -/
  set : ∀ k v k' v', admitted kt .key k = .ok k' → admitted vt .value v = .ok v' →
    ∃ m', m.set k v = .ok m' ∧ m'.entries = Ledger.post m.entries (.enter k' v')
  get : ∀ k k', admitted kt .key k = .ok k' → (m.get k).map (·.map Value.unread) = .ok (Ledger.latest? history k')
  contains : ∀ k k', admitted kt .key k = .ok k' → m.contains k = .ok (Ledger.latest? history k').isSome
  remove : ∀ k k', admitted kt .key k = .ok k' →
    ∃ m', m.remove k = .ok ((Ledger.latest? history k').isSome, m') ∧ m'.entries = Ledger.post m.entries (.strike k')
  /-- What is no key is refused, whatever is asked with it. -/
  refused : ∀ k e, admitted kt .key k = .error e →
    m.get k = .error e ∧ m.contains k = .error e ∧ m.remove k = .error e ∧ ∀ v, m.set k v = .error e
  valueRefused : ∀ k v k' e, admitted kt .key k = .ok k' → admitted vt .value v = .error e → m.set k v = .error e
  /-- The same entries are found with hashes and without. -/
  hashed : ∀ k, m.placeOfKey? k = m.keys.findIdx? fun l => l.hash == k.hash && l.equals k
  /-- Under one key, the same is found in every form of it. -/
  oneKey : ∀ k l, OneKey kt k l → m.get k = m.get l ∧ m.contains k = m.contains l ∧ ∀ v m', m.set k v = .ok m' →
    ∃ v', admitted vt .value v = .ok v' ∧ m'.get l = .ok (some v') ∧ m'.contains l = .ok true

theorem keeps_of_entries {kt vt : DataType} {history : List (Posting Value)} {m : TypedMap Value}
    (keyType : m.keyType = kt) (valueType : m.valueType = vt) (h : m.unread.entries = Ledger.ofHistory history) :
    Keeps kt vt history m := by
  have distinct : Ledger.Distinct m.entries := distinct_of_history h
  subst keyType valueType
  have keys : m.keys.map Value.unread = (Ledger.ofHistory history).map (·.1) := by
    rw [← h, TypedMap.keys, unread, List.map_map, List.map_map]
    rfl
  exact
    { keyType := rfl
      valueType := rfl
      entries := h
      distinct := List.pairwise_map.2 distinct
      ordered := by
        rw [keys]
        exact Ledger.keys_in_order_of_entry history
      keys := keys
      values := by
        rw [← h, values, unread, List.map_map, List.map_map]
        rfl
      stream := by
        rw [unread_map, Value.stream, TypedMap.stream, h]
        rfl
      size := by
        rw [← h, size, unread, List.length_map]
      set := fun k v k' v' hk hv => ⟨_, set_eq hk distinct hv, rfl⟩
      get := by
        intro k k' hk
        rw [get_eq hk, ← find?_of_history h]
        rfl
      contains := by
        intro k k' hk
        rw [contains_eq hk, isSome_find?_of_history h]
      remove := by
        intro k k' hk
        obtain ⟨m', hm, -, -, hentries⟩ := remove_eq hk distinct
        rw [isSome_find?_of_history h] at hm
        exact ⟨m', hm, hentries⟩
      refused := fun k e hk => refused hk
      valueRefused := fun k v k' e hk hv => set_refused hk hv
      hashed := fun k => placeOf?_eq_findIdx?_hash k m.keys
      oneKey := fun k l hkl => hkl.lookup distinct }

/-- Whatever is asked of an empty map, it goes on as a ledger: with a run of requests from
anywhere, in any forms of the keys, and in every program, where copies of the map may be
made at any time and each of them is asked something else. -/
theorem map_keeps_history :
    (∀ kt vt (run : List (Request Value)),
      ∃ m, run.foldl Value.after (.map (.empty kt vt)) = .map m ∧ Keeps kt vt (history kt vt run) m) ∧
    (∀ program x kt vt, (Journal.ofProgram program x).origin = .map (.empty kt vt) →
      ∃ m, Memory.start.run program x = .map m ∧
        Keeps kt vt (history kt vt (Journal.ofProgram program x).requests) m) := by
  have runs (kt vt : DataType) (run : List (Request Value)) :
      ∃ m, run.foldl Value.after (.map (.empty kt vt)) = .map m ∧ Keeps kt vt (history kt vt run) m := by
    obtain ⟨m, hm, htypes, hentries⟩ := books.run (.empty kt vt) rfl run
    obtain ⟨keyType, valueType⟩ := Prod.mk.inj htypes
    exact ⟨m, hm, keeps_of_entries keyType valueType hentries⟩
  refine ⟨runs, ?_⟩
  intro program x kt vt horigin
  simp only [Memory.run_eq_value, Journal.value, horigin]
  exact runs kt vt _

/-- Values under names, where a name comes again in another form. -/
def renamed : List (Request Value) :=
  [.set (scalar (.varchar "a")) (scalar (.int 1)), .set (scalar (.text "b")) (scalar (.int 2)), .hash [],
    .set (scalar (.text "a")) (scalar (.int 3))]

/-- A map with one name in it, and a copy from which the name is taken out again. -/
def branching : List Command :=
  [.scalar 0 (.varchar "a"), .scalar 1 (.int 1), .empty 2 (.map (.scalar .text) (.scalar .int)), .ask 2 (.set 0 1),
    .copy 3 2 [], .ask 3 (.remove 0)]

theorem map_keeps_renamed :
    (∃ m, renamed.foldl Value.after (.map (.empty (.scalar .text) (.scalar .int))) = .map m ∧
      m.keys.map Value.unread = [scalar (.text "a"), scalar (.text "b")] ∧
      (m.get (scalar (.varchar "a"))).map (·.map Value.unread) = .ok (some (scalar (.int 3))) ∧
      m.get (scalar (.varchar "a")) = m.get (scalar (.text "a"))) ∧
    (∃ m, Memory.start.run branching 2 = .map m ∧ m.contains (scalar (.text "a")) = .ok true) ∧
    (∃ m, Memory.start.run branching 3 = .map m ∧ m.contains (scalar (.text "a")) = .ok false) := by
  obtain ⟨runs, programs⟩ := map_keeps_history
  refine ⟨?_, ?_, ?_⟩
  · obtain ⟨m, hm, keeps⟩ := runs (.scalar .text) (.scalar .int) renamed
    have one : OneKey (.scalar .text) (scalar (.varchar "a")) (scalar (.text "a")) := .texts (.inl rfl) (.inr rfl) (.inl rfl)
    exact ⟨m, hm, keeps.keys.trans (by rfl), (keeps.get _ _ rfl).trans (by rfl), (keeps.oneKey _ _ one).1⟩
  · obtain ⟨m, hm, keeps⟩ := programs branching 2 _ _ rfl
    exact ⟨m, hm, (keeps.contains _ _ rfl).trans (by rfl)⟩
  · obtain ⟨m, hm, keeps⟩ := programs branching 3 _ _ rfl
    exact ⟨m, hm, (keeps.contains _ _ rfl).trans (by rfl)⟩

end TypedMap

end WideColumn
