import WideColumn.Proofs.Collection.Contents
/-!
# Collections handed over

Any receiver at all can be handed a collection: it may refuse an entry or take it, and
change its state however it likes. A collection goes through its entries in a loop, a map
with two calls for each (`Value.handOver`), which comes to the same as its row of entries
one by one (`Value.run_handOver`). The receiver takes the whole row, or it is called up
to the first entry that it refuses and no more (`Receiver.feed_cases`).
-/

namespace WideColumn

namespace Error

theorem whileWriting_eq (e : Error) :
    e.whileWriting = if e.kind = .serialization ∨ e.kind = .unsupportedType then e else brokenOff e := by
  unfold whileWriting
  cases e.kind <;> rfl

/-- What is about writing or types is reported as it is, anything else in the words of its
message as a failure to write. -/
theorem whileWriting_cases (e : Error) :
    if e.kind = .serialization ∨ e.kind = .unsupportedType then e.whileWriting = e
    else e.whileWriting.kind = .serialization ∧ e.whileWriting.detail = e.message := by
  rw [whileWriting_eq]
  split
  · rfl
  · exact ⟨rfl, rfl⟩

theorem whileWriting_idem (e : Error) : e.whileWriting.whileWriting = e.whileWriting := by
  have h := whileWriting_cases e
  split at h
  · rw [h, h]
  · rw [whileWriting_eq e.whileWriting, if_pos (.inl h.1)]

end Error

namespace Receiver

variable {σ : Type} (r : Receiver σ)

/-! ## One by one -/

/-- `Takes r s entries s'`: in the state `s` the receiver takes the entries one after the
other, and its state then is `s'`. -/
inductive Takes : σ → List (DataType × Value) → σ → Prop where
  | nil (s : σ) : Takes s [] s
  | cons {s s₁ s₂ : σ} {t : DataType} {v : Value} {rest : List (DataType × Value)} (h : r s t v = (.ok (), s₁))
      (hrest : Takes s₁ rest s₂) : Takes s ((t, v) :: rest) s₂

/-- The receiver with a record of its calls, the refused ones among them. -/
def recording : Receiver (σ × List (DataType × Value)) := fun (s, calls) t v =>
  match r s t v with
  | (answer, s) => (answer, s, calls ++ [(t, v)])

variable {r}

theorem recording_eq {s s' : σ} {t : DataType} {v : Value} {answer : Except Error Unit} (h : r s t v = (answer, s'))
    (calls : List (DataType × Value)) : r.recording (s, calls) t v = (answer, s', calls ++ [(t, v)]) := by
  simp only [recording, h]

theorem feed_cons_of_taken {s s' : σ} {t : DataType} {v : Value} (h : r s t v = (.ok (), s')) (rest : List (DataType × Value)) :
    r.feed s ((t, v) :: rest) = r.feed s' rest := by
  rw [feed, h]

theorem feed_cons_of_refused {s s' : σ} {t : DataType} {v : Value} {e : Error} (h : r s t v = (.error e, s'))
    (rest : List (DataType × Value)) : r.feed s ((t, v) :: rest) = (.error e.whileWriting, s') := by
  rw [feed, h]

variable (r)

/-- A row of entries is taken, or the receiver is called up to the first that it refuses,
and left in the state in which that call left it. -/
theorem feed_cases (s : σ) (entries : List (DataType × Value)) :
    (∃ s', r.Takes s entries s' ∧ r.feed s entries = (.ok (), s') ∧
      ∀ calls, r.recording.feed (s, calls) entries = (.ok (), s', calls ++ entries)) ∨
    ∃ taken t v rest s₁ e s₂, entries = taken ++ (t, v) :: rest ∧ r.Takes s taken s₁ ∧ r s₁ t v = (.error e, s₂) ∧
      r.feed s entries = (.error e.whileWriting, s₂) ∧
      ∀ calls, r.recording.feed (s, calls) entries = (.error e.whileWriting, s₂, calls ++ (taken ++ [(t, v)])) := by
  induction entries generalizing s with
  | nil => exact .inl ⟨s, .nil s, rfl, fun calls => by rw [List.append_nil]; rfl⟩
  | cons entry entries ih =>
    obtain ⟨t, v⟩ := entry
    cases h : r s t v with
    | mk answer s' =>
      cases answer with
      | error e =>
        refine .inr ⟨[], t, v, entries, s, e, s', rfl, .nil s, h, feed_cons_of_refused h entries, fun calls => ?_⟩
        exact feed_cons_of_refused (recording_eq h calls) entries
      | ok _ =>
        have hrecord (calls : List (DataType × Value)) := feed_cons_of_taken (recording_eq h calls) entries
        rcases ih s' with ⟨s₂, htakes, hfeed, hcalls⟩ | ⟨taken, u, w, rest, s₁, e, s₂, rfl, htakes, hrefused, hfeed, hcalls⟩
        · refine .inl ⟨s₂, .cons h htakes, by rw [feed_cons_of_taken h, hfeed], fun calls => ?_⟩
          rw [hrecord, hcalls, List.append_assoc]
          rfl
        · refine .inr ⟨(t, v) :: taken, u, w, rest, s₁, e, s₂, rfl, .cons h htakes, hrefused, ?_, fun calls => ?_⟩
          · rw [feed_cons_of_taken h, hfeed]
          · rw [hrecord, hcalls, List.append_assoc]
            rfl

theorem feed_of_takes {s s' : σ} {entries : List (DataType × Value)} (h : r.Takes s entries s') :
    r.feed s entries = (.ok (), s') := by
  induction h with
  | nil => rfl
  | cons h _ ih => rw [feed_cons_of_taken h, ih]

theorem feed_eq_ok_iff {s : σ} {entries : List (DataType × Value)} :
    (r.feed s entries).1 = .ok () ↔ ∃ s', r.Takes s entries s' := by
  constructor
  · intro h
    rcases feed_cases r s entries with ⟨s', htakes, -⟩ | ⟨_, _, _, _, _, _, _, -, -, -, hfeed, -⟩
    · exact ⟨s', htakes⟩
    · rw [hfeed] at h
      cases h
  · rintro ⟨s', htakes⟩
    rw [feed_of_takes r htakes]

/-! ## In a loop -/

/-- An answer and the state then, as what comes of a call. -/
def result : Except Error Unit × σ → EStateM.Result Error σ Unit
  | (.ok (), s) => .ok () s
  | (.error e, s) => .error e s

/-- A call to the receiver, whose refusal breaks off what is going on. -/
def call (t : DataType) (v : Value) : EStateM Error σ Unit := fun s => result (r s t v)

theorem run_forM_call (s : σ) (entries : List (DataType × Value)) :
    ((forM entries fun e => r.call e.1 e.2).adaptExcept Error.whileWriting).run s = result (r.feed s entries) := by
  induction entries generalizing s with
  | nil => rfl
  | cons entry entries ih =>
    obtain ⟨t, v⟩ := entry
    rw [List.forM_cons, EStateM.run_adaptExcept, EStateM.run_bind]
    simp only [EStateM.run_adaptExcept] at ih
    have hcall : (r.call t v).run s = result (r s t v) := rfl
    rw [hcall]
    cases h : r s t v with
    | mk answer s' =>
      cases answer with
      | error e => rw [feed_cons_of_refused h]; rfl
      | ok _ => rw [feed_cons_of_taken h]; exact ih s'

end Receiver

theorem forM_flatMap {m : Type → Type} [Monad m] [LawfulMonad m] {α β : Type} (as : List α) (g : α → List β) (f : β → m Unit) :
    forM (as.flatMap g) f = forM as fun a => forM (g a) f := by
  induction as with
  | nil => rfl
  | cons a as ih => rw [List.flatMap_cons, List.forM_append, List.forM_cons, ih]

namespace Value

variable {σ : Type} (r : Receiver σ)

/-- Calls a receiver for the entries of a collection; in a map for each key, and then for its
value. -/
def calls : Value → EStateM Error σ Unit
  | list l => forM l.elements fun v => r.call l.elementType v
  | set s => forM s.elements fun v => r.call s.elementType v
  | map m => forM m.entries fun (k, v) => do
    r.call m.keyType k
    r.call m.valueType v
  | _ => pure ()

theorem calls_eq (c : Value) : c.calls r = forM c.stream fun e => r.call e.1 e.2 := by
  cases c with
  | null | scalar => rfl
  | list l => rw [stream, TypedList.stream, List.forM_map, calls]
  | set s => rw [stream, TypedSet.stream, List.forM_map, calls]
  | map m =>
    rw [stream, TypedMap.stream, forM_flatMap, calls]
    simp only [List.forM_cons, List.forM_nil, bind_pure_unit]

/-- Hands a collection over to a receiver. A refusal breaks it off and is reported as a
failure to write. -/
def handOver (c : Value) : EStateM Error σ Unit := (c.calls r).adaptExcept Error.whileWriting

theorem run_handOver (c : Value) (s : σ) : (c.handOver r).run s = Receiver.result (r.feed s c.stream) := by
  rw [handOver, calls_eq, Receiver.run_forM_call]

/-- Every receiver is called for the entries of a collection in their order, each under the
type that is declared for it and that it has, up to the first that is refused. It is left as
that call left it, and only the refusal of an entry keeps the collection from being taken.
What is about writing or types is reported as it is, and anything else as a failure to
write, in the words of its message. -/
theorem handOver_faithful (r : Receiver σ) (s : σ) {c : Value} (hc : c.Reachable) :
    (c.handOver r).run s = Receiver.result (r.feed s c.stream) ∧
    (∀ t v, (t, v) ∈ c.stream → v.type? = some t) ∧
    ((r.feed s c.stream).1 = .ok () ↔ ∃ s', r.Takes s c.stream s') ∧
    ((∃ s', r.Takes s c.stream s' ∧ r.feed s c.stream = (.ok (), s') ∧
        r.recording.feed (s, []) c.stream = (.ok (), s', c.stream)) ∨
      ∃ taken t v rest s₁ e s₂, c.stream = taken ++ (t, v) :: rest ∧ r.Takes s taken s₁ ∧ r s₁ t v = (.error e, s₂) ∧
        r.feed s c.stream = (.error e.whileWriting, s₂) ∧
        r.recording.feed (s, []) c.stream = (.error e.whileWriting, s₂, taken ++ [(t, v)])) ∧
    ∀ e : Error, e.whileWriting.whileWriting = e.whileWriting ∧
      if e.kind = .serialization ∨ e.kind = .unsupportedType then e.whileWriting = e
      else e.whileWriting.kind = .serialization ∧ e.whileWriting.detail = e.message := by
  refine ⟨run_handOver r c s, fun t v hv => (hc.typed t v (.entry hv)).type_eq, r.feed_eq_ok_iff, ?_,
    fun e => ⟨e.whileWriting_idem, e.whileWriting_cases⟩⟩
  rcases r.feed_cases s c.stream with ⟨s', htakes, hfeed, hcalls⟩ | ⟨taken, t, v, rest, s₁, e, s₂, hs, htakes, he, hfeed, hcalls⟩
  · exact .inl ⟨s', htakes, hfeed, hcalls []⟩
  · exact .inr ⟨taken, t, v, rest, s₁, e, s₂, hs, htakes, he, hfeed, hcalls []⟩

/-- A map of two pairs of integers. -/
def twoPairs : Value :=
  ((map (.empty (.scalar .int) (.scalar .int))).step (.set (scalar (.int 1)) (scalar (.int 10)))).step
    (.set (scalar (.int 2)) (scalar (.int 20)))

/-- A receiver that counts what it takes, and takes two entries. -/
def takesTwo : Receiver Nat := fun n _ _ => if n < 2 then (.ok (), n + 1) else (.error (.rejected .range "full"), n)

/-- It takes the first pair and is not called for the value of the second, whose key it refuses. -/
theorem handOver_faithful_takesTwo :
    (twoPairs.handOver takesTwo).run 0 = .error (.brokenOff (.rejected .range "full")) 2 ∧
    (takesTwo.recording.feed (0, []) twoPairs.stream).2.2 =
      [(.scalar .int, scalar (.int 1)), (.scalar .int, scalar (.int 10)), (.scalar .int, scalar (.int 2))] ∧
    ∀ t v, (t, v) ∈ twoPairs.stream → v.type? = some t := by
  have pair (k v : Scalar) : ∀ x ∈ (Operation.set (scalar k) (scalar v)).given, x.Reachable := by
    simpa [Operation.given] using ⟨Reachable.scalar k, Reachable.scalar v⟩
  have reachable : twoPairs.Reachable := .step _ (.step _ (.map _ _) (pair _ _)) (pair _ _)
  obtain ⟨run, typed, -⟩ := handOver_faithful takesTwo 0 reachable
  exact ⟨run.trans rfl, rfl, typed⟩

end Value

end WideColumn
