import WideColumn.Proofs.Ledger.Map
/-!
# Sets are ledgers

The elements of a set are the keys of a ledger with nothing under them: a value that is
accepted is entered, one that is accepted for removal is struck. What the set answers can
be told from the history that was made in this way (`TypedSet.Keeps`).
-/

namespace WideColumn

open Value

namespace TypedSet

/-! ## Requests -/

/-- The elements of a set, with nothing under them. -/
def ledger (s : TypedSet Value) : Ledger Unit := s.elements.map fun v => (v, ())

/-- What a request to a set of a given type does to its elements. -/
def posting (t : DataType) : Request Value → Posting Unit
  | .add v =>
    match admitted t .element v with
    | .ok v => .enter v ()
    | .error _ => .idle
  | .remove v =>
    match admitted t .element v with
    | .ok v => .strike v
    | .error _ => .idle
  | .clear => .clear
  | _ => .idle

/-- The history that a run of requests makes, apart from the hashes that are known in what is put in. -/
def history (t : DataType) (run : List (Request Value)) : List (Posting Unit) :=
  run.map fun r => posting t (r.map Value.unread)

theorem isSome_placeOf? (s : TypedSet Value) (v : Value) : (placeOf? v s.elements).isSome = (Ledger.find? s.ledger v).isSome := by
  rw [Ledger.isSome_find?, ledger, List.any_map, placeOf?, List.findIdx?_isSome]
  rfl

section Step

variable {s : TypedSet Value} {v w : Value} (hv : admitted s.elementType .element v = .ok w)

include hv

theorem contains_eq : s.contains v = .ok (Ledger.find? s.ledger w).isSome := by
  rw [← isSome_placeOf?, contains, hv]
  rfl

theorem add_eq : s.add v = .ok (if (Ledger.find? s.ledger w).isSome then (false, s)
    else (true, { s with elements := s.elements ++ [w], knownHash := none })) := by
  simp only [add, hv, bind, Except.bind, pure, Except.pure, ← isSome_placeOf?]
  cases placeOf? w s.elements <;> rfl

theorem remove_eq (h : Ledger.Distinct s.ledger) :
    ∃ s', s.remove v = .ok ((Ledger.find? s.ledger w).isSome, s') ∧ s'.elementType = s.elementType ∧
      s'.ledger = Ledger.post s.ledger (.strike w) := by
  simp only [remove, hv, bind, Except.bind, pure, Except.pure, ← isSome_placeOf?, Ledger.post]
  have hplace : s.ledger.findIdx? (fun e => e.1.equals w) = placeOf? w s.elements := List.findIdx?_map
  cases hp : placeOf? w s.elements with
  | none =>
    rw [hp, List.findIdx?_eq_none_iff] at hplace
    refine ⟨s, rfl, rfl, ?_⟩
    rw [eq_comm, List.filter_eq_self]
    intro e he
    rw [hplace e he]
    rfl
  | some i =>
    refine ⟨_, rfl, rfl, ?_⟩
    rw [← Ledger.eraseIdx_findIdx? (h.once w) (hplace.trans hp), ledger, ledger, List.eraseIdx_map]

end Step

/-- What is refused by the type of the elements is refused by every request with it. -/
theorem refused {s : TypedSet Value} {v : Value} {e : Error} (hv : admitted s.elementType .element v = .error e) :
    s.add v = .error e ∧ s.contains v = .error e ∧ s.remove v = .error e := by
  simp only [add, contains, remove, hv, bind, Except.bind, and_self]

theorem ledger_append (s : TypedSet Value) (w : Value) :
    ledger { s with elements := s.elements ++ [w], knownHash := none } = s.ledger ++ [(w, ())] := by
  rw [ledger, List.map_append]
  rfl

/-- To enter nothing under an element that is there changes nothing. -/
theorem post_enter_unit (l : Ledger Unit) (w : Value) :
    Ledger.post l (.enter w ()) = if (Ledger.find? l w).isSome then l else l ++ [(w, ())] := by
  rw [Ledger.post, Ledger.isSome_find?]
  split
  · have same : (fun e : Value × Unit => if e.1.equals w then (e.1, ()) else e) = id := by
      funext e
      split <;> rfl
    rw [same, List.map_id]
  · rfl

/-- One request, unless it is for a hash, makes one posting. -/
theorem after_eq {s : TypedSet Value} (h : Ledger.Distinct s.ledger) {r : Request Value} (hr : r.isRead = false) :
    ∃ s', (Value.set s).after r = .set s' ∧ s'.elementType = s.elementType ∧
      s'.ledger = Ledger.post s.ledger (posting s.elementType r) := by
  cases r with
  | add v =>
    refine ⟨((s.add v).map (·.2)).toOption.getD s, rfl, ?_⟩
    simp only [posting]
    cases hv : admitted s.elementType .element v with
    | error e =>
      rw [(refused hv).1]
      exact ⟨rfl, rfl⟩
    | ok w =>
      rw [add_eq hv]
      dsimp only
      rw [post_enter_unit]
      split
      · exact ⟨rfl, rfl⟩
      · exact ⟨rfl, ledger_append s w⟩
  | remove v =>
    refine ⟨((s.remove v).map (·.2)).toOption.getD s, rfl, ?_⟩
    simp only [posting]
    cases hv : admitted s.elementType .element v with
    | error e =>
      rw [(refused hv).2.2]
      exact ⟨rfl, rfl⟩
    | ok w =>
      obtain ⟨s', hs, htype⟩ := remove_eq hv h
      rw [hs]
      exact htype
  | hash path => cases hr
  | _ => exact ⟨_, rfl, rfl, rfl⟩

/-- The elements of sets, as what is kept of them. -/
def books : Bookkeeping (TypedSet Value) DataType Unit where
  value := .set
  types := elementType
  ledger := ledger
  unread := unread
  posting := posting
  unread_value := unread_set
  exists_of_unread := by
    intro v n h
    cases v with
    | set s =>
      rw [unread_set] at h
      exact ⟨s, rfl, Value.set.inj h⟩
    | _ => simp at h
  types_unread s := rfl
  posting_of_isRead := by
    intro t r hr
    cases r with
    | hash path => rfl
    | _ => cases hr
  after s r distinct hr := after_eq distinct hr

/-! ## What can be seen -/

theorem isSome_find?_ledger (s : TypedSet Value) (w : Value) :
    (Ledger.find? s.ledger w).isSome = s.elements.any (·.equals w) := by
  rw [Ledger.isSome_find?, ledger, List.any_map]
  rfl

theorem map_fst_ledger (s : TypedSet Value) : s.ledger.map (·.1) = s.elements := by
  rw [ledger, List.map_map]
  exact List.map_id s.elements

section Seen

variable {s : TypedSet Value} {history : List (Posting Unit)} (h : s.unread.ledger = Ledger.ofHistory history)

include h

theorem map_unread_ledger : (s.ledger.map fun e => (e.1.unread, e.2)) = Ledger.ofHistory history := by
  rw [← h, ledger, ledger, unread, List.map_map, List.map_map]
  rfl

theorem distinct_of_history : Ledger.Distinct s.ledger := by
  rw [← Ledger.distinct_map_unread s.ledger fun u => u, map_unread_ledger h]
  exact Ledger.distinct_ofHistory history

theorem find?_of_history (v : Value) : Ledger.find? s.ledger v = Ledger.latest? history v := by
  rw [← Ledger.find?_ofHistory, ← map_unread_ledger h, Ledger.find?_map_unread s.ledger fun u => u, Option.map_id']

end Seen

/-! ## The whole -/

/-- What a set is, and what it answers, if its type is `t` and all that was asked of it has made the given history. -/
structure Keeps (t : DataType) (history : List (Posting Unit)) (s : TypedSet Value) : Prop where
  elementType : s.elementType = t
  /-- The elements are the keys of the ledger, apart from the hashes that are known in them. -/
  elements : s.elements.map Value.unread = (Ledger.ofHistory history).map (·.1)
  distinct : s.elements.Pairwise fun v w => v.equals w = false
  /-- The elements stand in the order of the postings that they came in with. -/
  ordered : ∃ rows : List (Nat × Value), rows.map (·.2) = s.elements.map Value.unread ∧
    rows.Pairwise (fun r s => r.1 < s.1) ∧ ∀ r ∈ rows, Ledger.Entered history r.1 r.2
  stream : (Value.set s).unread.stream = (Ledger.ofHistory history).map fun e => (t, e.1)
  size : s.size = (Ledger.ofHistory history).length
  /-- What is accepted comes last unless an equal element is there, and then nothing changes. -/
  add : ∀ v w, admitted t .element v = .ok w →
    (∀ x ∈ s.elements, x.equals w = false) ∧
      s.add v = .ok (true, { s with elements := s.elements ++ [w], knownHash := none }) ∨
    (∃ x ∈ s.elements, x.equals w = true) ∧ s.add v = .ok (false, s)
  /-- What is in the set was put in after all equal elements were taken out. -/
  contains : ∀ v w, admitted t .element v = .ok w → ∃ b, s.contains v = .ok b ∧ (b = true ↔
    ∃ before x after, history = before ++ .enter x () :: after ∧ x.equals w = true ∧ ∀ p ∈ after, p.removes w = false)
  /-- What is taken out can come in again, and then it comes last. -/
  remove : ∀ v w, admitted t .element v = .ok w →
    ∃ s', s.remove v = .ok (s.elements.any (·.equals w), s') ∧ s'.elements = s.elements.filter (fun x => !x.equals w) ∧
      s'.add v = .ok (true, { s' with elements := s'.elements ++ [w], knownHash := none })
  /-- What is no element is refused, whatever is asked with it. -/
  refused : ∀ v e, admitted t .element v = .error e → s.add v = .error e ∧ s.contains v = .error e ∧ s.remove v = .error e
  /-- The same elements are found with hashes and without. -/
  hashed : ∀ v, placeOf? v s.elements = s.elements.findIdx? fun w => w.hash == v.hash && w.equals v

theorem keeps_of_ledger {t : DataType} {history : List (Posting Unit)} {s : TypedSet Value} (elementType : s.elementType = t)
    (h : s.unread.ledger = Ledger.ofHistory history) : Keeps t history s := by
  have distinct : Ledger.Distinct s.ledger := distinct_of_history h
  subst elementType
  have elements : s.elements.map Value.unread = (Ledger.ofHistory history).map (·.1) := by
    rw [← h, map_fst_ledger]
    rfl
  exact
    { elementType := rfl
      elements := elements
      distinct := List.pairwise_map.1 distinct
      ordered := by
        rw [elements]
        exact Ledger.keys_in_order_of_entry history
      stream := by
        rw [unread_set, Value.stream, TypedSet.stream, unread, elements, List.map_map]
        rfl
      size := by rw [← List.length_map, ← elements, List.length_map, size]
      add := by
        intro v w hv
        rw [add_eq hv, isSome_find?_ledger]
        by_cases hany : s.elements.any (·.equals w) = true
        · rw [if_pos hany]
          exact .inr ⟨List.any_eq_true.1 hany, rfl⟩
        · rw [if_neg hany]
          refine .inl ⟨?_, rfl⟩
          intro x hx
          simpa using fun hxw => hany (List.any_eq_true.2 ⟨x, hx, hxw⟩)
      contains := by
        intro v w hv
        refine ⟨_, contains_eq hv, ?_⟩
        rw [find?_of_history h, Ledger.isSome_latest?_iff]
        constructor
        · rintro ⟨before, x, ⟨⟩, after, hsplit⟩
          exact ⟨before, x, after, hsplit⟩
        · rintro ⟨before, x, after, hsplit⟩
          exact ⟨before, x, (), after, hsplit⟩
      remove := by
        intro v w hv
        obtain ⟨s', hs, htype, hledger⟩ := remove_eq hv distinct
        have absent : Ledger.find? s'.ledger w = none := by
          rw [hledger, Ledger.find?_post]
          exact if_pos (equals_iff.2 rfl)
        rw [isSome_find?_ledger] at hs
        refine ⟨s', hs, ?_, ?_⟩
        · rw [← map_fst_ledger s', hledger, ← map_fst_ledger s, List.filter_map]
          rfl
        · rw [← htype] at hv
          rw [add_eq hv, absent]
          rfl
      refused := fun v e hv => refused hv
      hashed := fun v => placeOf?_eq_findIdx?_hash v s.elements }

/-- Whatever is asked of an empty set, it goes on as a ledger without items: with a run of
requests from anywhere, and in every program, where copies of the set may be made at any
time and each of them is asked something else. -/
theorem set_keeps_history :
    (∀ t (run : List (Request Value)),
      ∃ s, run.foldl Value.after (.set (.empty t)) = .set s ∧ Keeps t (history t run) s) ∧
    (∀ program x t, (Journal.ofProgram program x).origin = .set (.empty t) →
      ∃ s, Memory.start.run program x = .set s ∧ Keeps t (history t (Journal.ofProgram program x).requests) s) := by
  have runs (t : DataType) (run : List (Request Value)) :
      ∃ s, run.foldl Value.after (.set (.empty t)) = .set s ∧ Keeps t (history t run) s := by
    obtain ⟨s, hs, htype, hledger⟩ := books.run (.empty t) rfl run
    exact ⟨s, hs, keeps_of_ledger htype hledger⟩
  refine ⟨runs, ?_⟩
  intro program x t horigin
  simp only [Memory.run_eq_value, Journal.value, horigin]
  exact runs t _

/-- Names, of which one comes again in another form, is taken out and comes once more. -/
def returning : List (Request Value) :=
  [.add (scalar (.varchar "a")), .add (scalar (.text "b")), .hash [], .add (scalar (.text "a")),
    .remove (scalar (.varchar "a")), .add (scalar (.varchar "a"))]

theorem set_keeps_returning :
    (∃ s, returning.foldl Value.after (.set (.empty (.scalar .text))) = .set s ∧
      s.elements.map Value.unread = [scalar (.text "b"), scalar (.text "a")] ∧
      s.contains (scalar (.varchar "b")) = .ok true ∧
      ∃ b s', s.remove (scalar (.varchar "b")) = .ok (b, s') ∧
        s'.add (scalar (.varchar "b")) = .ok (true, { s' with elements := s'.elements ++ [scalar (.text "b")], knownHash := none })) ∧
    (∃ s, Memory.start.run [.empty 0 (.set (.scalar .text)), .copy 1 0 []] 1 = .set s ∧ s.size = 0) := by
  obtain ⟨runs, programs⟩ := set_keeps_history
  constructor
  · obtain ⟨s, hs, keeps⟩ := runs (.scalar .text) returning
    have b : admitted (.scalar .text) .element (scalar (.varchar "b")) = .ok (scalar (.text "b")) := rfl
    obtain ⟨_, hcontains, hiff⟩ := keeps.contains _ _ b
    obtain ⟨s', hremove, -, hadd⟩ := keeps.remove _ _ b
    refine ⟨s, hs, keeps.elements.trans (by rfl), ?_, _, s', hremove, hadd⟩
    rw [hcontains, hiff.2 ⟨[.enter (scalar (.text "a")) ()], scalar (.text "b"), _, rfl, by rfl, by decide⟩]
  · obtain ⟨s, hs, keeps⟩ := programs [.empty 0 (.set (.scalar .text)), .copy 1 0 []] 1 _ rfl
    exact ⟨s, hs, keeps.size⟩

end TypedSet

end WideColumn
