import WideColumn.Proofs.Wire.Reference
/-!
# A frame filled by calls, some of them refused

Calls are made one after the other, and a refusal ends nothing. A call that is refused
leaves the frame as it was, wherever on the way it fails (`Frame.receiver_eq_inPlace`),
so the frame is what it would be with the other calls alone (`Frame.appendAll_taken`),
and those are the first calls that can be written, as many as there is room for
(`Frame.taken_eq`).
-/

namespace WideColumn.Frame

/-! ## Work in place -/

/-- Writes a length at the end of the payload, if the protocol has a field for it. -/
def writeLength (n : Nat) : EStateM Error Frame Unit := do
  let bytes ← ofExcept (field (← get).protocol n)
  modify fun f => { f with payload := f.payload ++ bytes }

/-- A call as work on one frame. What a refusal finds already written stays there. -/
def appendInPlace (t : DataType) (v : Value) : EStateM Error Frame Unit := do
  let f ← get
  if f.expected ≤ f.count then throw (.full f.shape f.count)
  let bytes ← ofExcept (v.encode f.protocol t)
  writeLength bytes.length
  modify fun f => { f with payload := f.payload ++ bytes }
  modify fun f => { f with count := f.count + 1 }

/-- The answer to work in place, and the frame then. -/
def outcome : EStateM.Result Error Frame Unit → Except Error Unit × Frame
  | .ok _ f => (.ok (), f)
  | .error e f => (.error e, f)

/-- A frame answers as if calls worked in place: nothing is refused any more once a length
has been written. -/
theorem receiver_eq_inPlace (f : Frame) (t : DataType) (v : Value) :
    receiver f t v = outcome ((appendInPlace t v).run f) := by
  unfold receiver
  by_cases hroom : f.expected ≤ f.count
  · have hframed : (f.framed fun _ => v.encode f.protocol t) = .error (.full f.shape f.count) := by
      simp [framed, hroom]
    rw [hframed]
    simp [appendInPlace, outcome, hroom]
  · cases hbytes : v.encode f.protocol t with
    | error e =>
      have hframed : (f.framed fun _ => .error e) = .error e := by
        rw [framed, if_neg hroom]
        rfl
      rw [hframed]
      simp [appendInPlace, outcome, ofExcept, hroom, hbytes]
      rfl
    | ok bytes =>
      have hframed : (f.framed fun _ => .ok bytes) = (field f.protocol bytes.length).map (· ++ bytes) := by
        rw [framed, if_neg hroom]
        rfl
      rw [hframed]
      cases hfield : field f.protocol bytes.length with
      | error e =>
        simp [appendInPlace, writeLength, outcome, ofExcept, hroom, hbytes, hfield, Except.map]
        rfl
      | ok length =>
        have hpayload : f.payload ++ (length ++ bytes) = f.payload ++ length ++ bytes := by
          apply Array.toList_inj.1
          simp
        simp [appendInPlace, writeLength, outcome, ofExcept, hroom, hbytes, hfield, Except.map, extend, hpayload]

/-! ## One call -/

/-- Whether a call is one that a frame with room takes: the value has bytes where its type
is declared, and a field for their number. -/
def writable (p : Protocol) (call : DataType × Value) : Bool :=
  match call.2.encode p call.1 with
  | .ok bytes => decide (bytes.length ≤ p.fieldMax)
  | .error _ => false

theorem writable_iff {p : Protocol} {call : DataType × Value} :
    writable p call = true ↔ ∃ bytes, call.2.encode p call.1 = .ok bytes ∧ bytes.length ≤ p.fieldMax := by
  unfold writable
  cases call.2.encode p call.1 <;> simp

/-- A call is taken, and its bytes are in the frame after their length, or it is refused,
for want of room or because it cannot be written, and the frame is what it was. -/
theorem receiver_cases (f : Frame) (call : DataType × Value) :
    (f.count < f.expected ∧ writable f.protocol call = true ∧ ∃ bytes, call.2.encode f.protocol call.1 = .ok bytes ∧
      receiver f call.1 call.2 = (.ok (), f.extend (Bytes.sized f.protocol.fieldWidth bytes))) ∨
    ((f.expected ≤ f.count ∨ writable f.protocol call = false) ∧ ∃ e, receiver f call.1 call.2 = (.error e, f)) := by
  unfold receiver
  cases hframed : f.framed fun _ => call.2.encode f.protocol call.1 with
  | ok framed =>
    obtain ⟨hroom, bytes, hbytes, hlen, rfl⟩ := framed_eq_ok_iff.1 hframed
    exact .inl ⟨hroom, writable_iff.2 ⟨bytes, hbytes, hlen⟩, bytes, hbytes, rfl⟩
  | error e =>
    refine .inr ⟨?_, e, rfl⟩
    by_contra hboth
    rw [not_or, Nat.not_le, Bool.not_eq_false] at hboth
    obtain ⟨bytes, hbytes, hlen⟩ := writable_iff.1 hboth.2
    rw [framed_eq_ok_iff.2 ⟨hboth.1, bytes, hbytes, hlen, rfl⟩] at hframed
    cases hframed

theorem receiver_eq_ok_iff {f : Frame} {t : DataType} {v : Value} :
    (receiver f t v).1 = .ok () ↔ f.count < f.expected ∧ writable f.protocol (t, v) = true := by
  rcases receiver_cases f (t, v) with ⟨hroom, hwritable, bytes, -, h⟩ | ⟨hrefused, e, h⟩
  · simp [h, hroom, hwritable]
  · rw [h]
    rcases hrefused with hfull | hunwritable
    · simp [Nat.not_lt.2 hfull]
    · simp [hunwritable]

theorem receiver_of_refused {f : Frame} {t : DataType} {v : Value} {e : Error} (h : (receiver f t v).1 = .error e) :
    receiver f t v = (.error e, f) := by
  rcases receiver_cases f (t, v) with ⟨-, -, bytes, -, hreceiver⟩ | ⟨-, e', hreceiver⟩
  · rw [hreceiver] at h
    cases h
  · rw [hreceiver] at h ⊢
    cases h
    rfl

theorem appendInPlace_of_refused {f : Frame} {t : DataType} {v : Value} {e : Error} (h : receiver f t v = (.error e, f)) :
    (appendInPlace t v).run f = .error e f := by
  rw [receiver_eq_inPlace] at h
  cases hrun : (appendInPlace t v).run f with
  | ok _ g => rw [hrun] at h; cases h
  | error e' g => rw [hrun] at h; cases h; rfl

/-! ## Rows of calls -/

/-- The frame after calls, whatever the answers were. -/
def after (f : Frame) (calls : List (DataType × Value)) : Frame :=
  calls.foldl (fun f call => (receiver f call.1 call.2).2) f

/-- Those of the calls that are taken, in order. -/
def taken (f : Frame) : List (DataType × Value) → List (DataType × Value)
  | [] => []
  | call :: calls =>
    match receiver f call.1 call.2 with
    | (.ok (), g) => call :: taken g calls
    | (.error _, g) => taken g calls

theorem after_append (f : Frame) (calls later : List (DataType × Value)) :
    f.after (calls ++ later) = (f.after calls).after later := by
  simp [after]

theorem taken_append (f : Frame) (calls later : List (DataType × Value)) :
    f.taken (calls ++ later) = f.taken calls ++ (f.after calls).taken later := by
  induction calls generalizing f with
  | nil => rfl
  | cons call calls ih =>
    rcases receiver_cases f call with ⟨-, -, bytes, -, h⟩ | ⟨-, e, h⟩
    · simp [taken, after, h, ih]
    · simp [taken, after, h, ih]

theorem after_cons_of_refused {f : Frame} {t : DataType} {v : Value} {e : Error} (h : receiver f t v = (.error e, f))
    (later : List (DataType × Value)) : f.after ((t, v) :: later) = f.after later := by
  simp [after, h]

theorem taken_cons_of_refused {f : Frame} {t : DataType} {v : Value} {e : Error} (h : receiver f t v = (.error e, f))
    (later : List (DataType × Value)) : f.taken ((t, v) :: later) = f.taken later := by
  simp [taken, h]

/-- The frame is what it would be if only the calls that it took had been made. -/
theorem appendAll_taken (f : Frame) (calls : List (DataType × Value)) : f.appendAll (f.taken calls) = .ok (f.after calls) := by
  induction calls generalizing f with
  | nil => rfl
  | cons call calls ih =>
    rcases receiver_cases f call with ⟨hroom, hwritable, bytes, hbytes, h⟩ | ⟨-, e, h⟩
    · obtain ⟨bytes', hbytes', hlen⟩ := writable_iff.1 hwritable
      rw [hbytes] at hbytes'
      cases hbytes'
      have happend : f.append call.1 call.2 = .ok (f.extend (Bytes.sized f.protocol.fieldWidth bytes)) :=
        push_eq_ok_iff.2 ⟨hroom, bytes, hbytes, hlen, rfl⟩
      have hrest := ih (f.extend (Bytes.sized f.protocol.fieldWidth bytes))
      simp only [taken, after, h, List.foldl_cons, appendAll] at hrest ⊢
      rw [List.foldlM_cons, happend]
      exact hrest
    · simpa [taken, after, h] using ih f

/-- As long as there is room the calls that can be written are taken, and then no more. -/
theorem taken_eq (f : Frame) (calls : List (DataType × Value)) :
    f.taken calls = (calls.filter (writable f.protocol)).take (f.expected - f.count) := by
  induction calls generalizing f with
  | nil => simp [taken]
  | cons call calls ih =>
    rcases receiver_cases f call with ⟨hroom, hwritable, bytes, -, h⟩ | ⟨hrefused, e, h⟩
    · obtain ⟨room, hleft⟩ : ∃ room, f.expected - f.count = room + 1 := ⟨f.expected - f.count - 1, by omega⟩
      have hrest := ih (f.extend (Bytes.sized f.protocol.fieldWidth bytes))
      have hsame : (f.extend (Bytes.sized f.protocol.fieldWidth bytes)).expected = f.expected := rfl
      have hone : f.expected - (f.count + 1) = room := by omega
      simp only [taken, h, hrest, hsame, hleft, List.filter_cons_of_pos hwritable, List.take_succ_cons]
      simp only [extend, hone]
    · rcases hrefused with hfull | hunwritable
      · simp [taken, h, ih, Nat.sub_eq_zero_of_le hfull]
      · simp [taken, h, ih, hunwritable]

/-- What calls leave of a frame that was empty: it holds those that it took, each after
its length, and counts them. -/
theorem after_empty (s : Shape) (p : Protocol) (n : Nat) (calls : List (DataType × Value)) :
    ∃ parts, List.Forall₂ (fun call bytes => call.2.encode p call.1 = .ok bytes) ((empty s p n).taken calls) parts ∧
      (empty s p n).after calls =
        ⟨s, p, n, ((empty s p n).taken calls).length, (parts.flatMap (Bytes.sized p.fieldWidth)).toArray⟩ := by
  obtain ⟨parts, hparts, hafter⟩ := appendAll_eq_ok (appendAll_taken (empty s p n) calls)
  refine ⟨parts, hparts.imp fun call bytes h => h.1, ?_⟩
  rw [hafter]
  simp [empty]

theorem expected_eq (f : Frame) : f.expected = if f.shape = .map then 2 * f.entries else f.entries := by
  unfold expected
  cases f.shape <;> simp [Nat.mul_comm]

/-! ## All or nothing -/

/-- Whatever calls have been made, the next is taken just in case fewer were taken than
fill the frame, the value has bytes, and there is a field for their number. If it is
refused, the frame is as it was, and all goes on as without the call. The frame can be
closed just in case it is full and there is a field for the number of its entries; its
bytes are that number, then those of the calls that were taken, each after their length. -/
theorem calls_all_or_nothing (s : Shape) (p : Protocol) (n : Nat) (calls : List (DataType × Value)) :
    let start := empty s p n
    let f := start.after calls
    let done := start.taken calls
    let room := if s = .map then 2 * n else n
    (∀ t v, (receiver f t v).1 = .ok () ↔
      done.length < room ∧ ∃ bytes, v.encode p t = .ok bytes ∧ bytes.length ≤ p.fieldMax) ∧
    (∀ t v e, (receiver f t v).1 = .error e →
      (receiver f t v).2 = f ∧ (appendInPlace t v).run f = .error e f ∧
      ∀ later, start.after (calls ++ (t, v) :: later) = start.after (calls ++ later) ∧
        start.taken (calls ++ (t, v) :: later) = start.taken (calls ++ later)) ∧
    done = (calls.filter (writable p)).take room ∧
    ∃ parts, List.Forall₂ (fun call bytes => call.2.encode p call.1 = .ok bytes) done parts ∧
      ∀ bytes, f.close = .ok bytes ↔ done.length = room ∧ n ≤ p.fieldMax ∧
        bytes = Bytes.bigEndian p.fieldWidth n ++ parts.flatMap (Bytes.sized p.fieldWidth) := by
  intro start f done room
  obtain ⟨parts, hparts, hf⟩ : ∃ parts, List.Forall₂ (fun call bytes => call.2.encode p call.1 = .ok bytes) done parts ∧
      f = ⟨s, p, n, done.length, (parts.flatMap (Bytes.sized p.fieldWidth)).toArray⟩ := after_empty s p n calls
  have hexpected : f.expected = room := by rw [expected_eq, hf]
  have hcount : f.count = done.length := by rw [hf]
  have hprotocol : f.protocol = p := by rw [hf]
  refine ⟨?taken, ?refused, ?first, parts, hparts, ?closed⟩
  case taken =>
    intro t v
    rw [receiver_eq_ok_iff, hexpected, hcount, hprotocol, writable_iff]
  case refused =>
    intro t v e he
    have h : receiver f t v = (.error e, f) := receiver_of_refused he
    refine ⟨by rw [h], appendInPlace_of_refused h, fun later => ⟨?_, ?_⟩⟩
    · rw [after_append, after_cons_of_refused h, after_append]
    · rw [taken_append, taken_cons_of_refused h, taken_append]
  case first =>
    have hroom : start.expected = room := expected_eq start
    have hfirst := taken_eq start calls
    rwa [hroom] at hfirst
  case closed =>
    intro bytes
    rw [close_eq_ok_iff, hexpected, hcount, hprotocol]
    simp [hf]

/-- A null and an integer, for a list of integers. -/
def nullThenSeven : List (DataType × Value) := [(.scalar .int, .null), (.scalar .int, .scalar (.int 7))]

/-- The null is not taken, and a second integer finds no room. -/
theorem calls_all_or_nothing_refused :
    (receiver ((empty .list .v2 1).after nullThenSeven) (.scalar .int) (.scalar (.int 8))).1 = .error (.full .list 1) ∧
    (receiver ((empty .list .v2 1).after nullThenSeven) (.scalar .int) (.scalar (.int 8))).2 =
      (empty .list .v2 1).after nullThenSeven ∧
    (empty .list .v2 1).taken nullThenSeven = [(.scalar .int, .scalar (.int 7))] ∧
    ((empty .list .v2 1).after nullThenSeven).close = .ok [0, 1, 0, 4, 0, 0, 0, 7] := by
  obtain ⟨-, unchanged, -⟩ := calls_all_or_nothing .list .v2 1 nullThenSeven
  exact ⟨rfl, (unchanged _ _ _ rfl).1, rfl, close_eq_ok_iff.2 ⟨rfl, by decide, rfl⟩⟩

end WideColumn.Frame
