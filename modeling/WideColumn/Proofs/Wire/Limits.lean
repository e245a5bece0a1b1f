import WideColumn.Proofs.Collection.Contents
import WideColumn.Proofs.Wire.Reference
/-!
# What goes on the wire, and what does not

The only thing that can keep a collection from the wire is a count or a length that
its field does not hold (`Value.encode_eq_error`). Values of a wrong type, null and
texts that are not ASCII never come into a collection, and the frames are opened for
just as many elements as there are.
-/

namespace WideColumn

namespace Frame

/-! ## Refusals -/

theorem field_eq_error_iff {p : Protocol} {n : Nat} {e : Error} :
    field p n = .error e ↔ p.fieldMax < n ∧ e = .tooLong n p := by
  unfold field
  split
  · next h => simp [h, eq_comm]
  · next h => simp [h]

/-- A frame with room refuses an element for the reason for which it has no bytes, or
because it has too many. -/
theorem push_eq_error {f : Frame} {bytes : Unit → Except Error Bytes} {e : Error} (hroom : f.count < f.expected)
    (h : f.push bytes = .error e) :
    bytes () = .error e ∨ ∃ bs, bytes () = .ok bs ∧ f.protocol.fieldMax < bs.length ∧ e = .tooLong bs.length f.protocol := by
  have hframed : f.framed bytes = .error e := by
    unfold push at h
    split at h
    · cases h
    · next hf => rw [hf, Except.error.inj h]
  unfold framed at hframed
  rw [if_neg (Nat.not_le.2 hroom)] at hframed
  rcases Except.bind_eq_error_iff.1 hframed with hbytes | ⟨bs, hbytes, hfield⟩
  · exact .inl hbytes
  · rcases Except.bind_eq_error_iff.1 hfield with hfield | ⟨_, _, hpure⟩
    · exact .inr ⟨bs, hbytes, field_eq_error_iff.1 hfield⟩
    · cases hpure

/-- Among elements for which there is room, one is to blame for a refusal. -/
theorem appendAll_eq_error {f : Frame} {stream : List (DataType × Value)} {e : Error}
    (hroom : f.count + stream.length ≤ f.expected) (h : f.appendAll stream = .error e) :
    ∃ t v, (t, v) ∈ stream ∧ (v.encode f.protocol t = .error e ∨
      ∃ bs, v.encode f.protocol t = .ok bs ∧ f.protocol.fieldMax < bs.length ∧ e = .tooLong bs.length f.protocol) := by
  induction stream generalizing f with
  | nil => cases h
  | cons x stream ih =>
    rw [List.length_cons] at hroom
    rw [appendAll, List.foldlM_cons] at h
    rcases Except.bind_eq_error_iff.1 h with hfirst | ⟨g, hg, hrest⟩
    · exact ⟨x.1, x.2, by simp, push_eq_error (by omega) hfirst⟩
    · obtain ⟨-, bs, -, -, rfl⟩ := push_eq_ok_iff.1 hg
      -- one more element is in, so there is still room for the others
      have hroom' : (f.extend (Bytes.sized f.protocol.fieldWidth bs)).count + stream.length ≤ f.expected := by
        change f.count + 1 + stream.length ≤ f.expected
        omega
      obtain ⟨t, v, hv, hblame⟩ := ih hroom' hrest
      exact ⟨t, v, by simp [hv], hblame⟩

theorem close_eq_error {f : Frame} {e : Error} (hfull : f.count = f.expected) (h : f.close = .error e) :
    f.protocol.fieldMax < f.entries ∧ e = .tooLong f.entries f.protocol := by
  unfold close at h
  rw [if_pos hfull] at h
  rcases Except.bind_eq_error_iff.1 h with hfield | ⟨_, _, hpure⟩
  · exact field_eq_error_iff.1 hfield
  · cases hpure

/-- The same elements, handed over to the frame one by one. -/
theorem bytesOf_eq (s : Shape) (p : Protocol) (n : Nat) (stream : List (DataType × Value)) :
    bytesOf s p n stream = ((empty s p n).appendAll stream).mapError Error.whileWriting >>= close := by
  unfold bytesOf
  generalize empty s p n = f
  induction stream generalizing f with
  | nil => rfl
  | cons x stream ih =>
    rw [Receiver.feed, appendAll, List.foldlM_cons, append, push, receiver]
    cases f.framed fun _ => x.2.encode f.protocol x.1 with
    | error e => rfl
    | ok framed => exact ih (f.extend framed)

end Frame

namespace Value

/-! ## Collections -/

/-- The bytes of a collection; other values are not collections. -/
def toBytes? (p : Protocol) : Value → Option (Except Error Bytes)
  | list l => some (l.toBytes p)
  | set s => some (s.toBytes p)
  | map m => some (m.toBytes p)
  | _ => none

theorem toBytes?_of_shape {v : Value} {s : Shape} (hs : v.shape? = some s) (p : Protocol) :
    v.toBytes? p = some (((Frame.empty s p v.count).appendAll v.stream).mapError Error.whileWriting >>= Frame.close) := by
  rw [← Frame.bytesOf_eq]
  cases v <;> cases hs <;> rfl

theorem toBytes?_eq_none {v : Value} (hs : v.shape? = none) (p : Protocol) : v.toBytes? p = none := by
  cases v <;> first | rfl | cases hs

@[simp]
theorem toBytes?_bare (v : Value) (p : Protocol) : v.bare.toBytes? p = v.toBytes? p := by
  cases hs : v.shape? with
  | none => rw [toBytes?_eq_none hs, toBytes?_eq_none (by rw [shape?_bare, hs])]
  | some s =>
    rw [toBytes?_of_shape hs, toBytes?_of_shape (by rw [shape?_bare, hs]), count_bare, stream_bare,
      appendAll_bare fun e _ => encode_bare e.2]

/-- The frame of a collection is opened for as many elements as the collection streams. -/
theorem length_stream {v : Value} {s : Shape} (hs : v.shape? = some s) (p : Protocol) :
    v.stream.length = (Frame.empty s p v.count).expected := by
  cases v with
  | null | scalar => cases hs
  | list l => cases hs; simp [stream, TypedList.stream, Frame.empty, Frame.expected, count]
  | set u => cases hs; simp [stream, TypedSet.stream, Frame.empty, Frame.expected, count]
  | map m => cases hs; simp [stream, TypedMap.stream, Frame.empty, Frame.expected, count, List.length_flatMap]

theorem encode_stored_scalar {t : DataType} {s : Scalar} (h : Stored t (scalar s)) (p : Protocol) :
    (scalar s).encode p t = .ok s.bytes := by
  obtain ⟨htype, hascii⟩ := h
  cases htype
  cases s with
  | ascii c =>
    have hcheck : Scalar.checkAscii c = .ok () := Scalar.checkAscii_eq_ok_iff.2 (hascii c rfl)
    simp [encode, ScalarType.accepts_self, Scalar.type, Scalar.asText?, hcheck, Except.mapError, Except.map]
  | _ => rfl

/-- What stands in a slot is refused by the wire only because it does not fit, there or
somewhere within. -/
theorem encode_eq_error {p : Protocol} {t : DataType} {v : Value} {e : Error} (hs : Stored t v) (ht : v.Typed)
    (h : v.encode p t = .error e) : ¬Fits p v ∧ ∃ n, e = .tooLong n p := by
  induction v using induction generalizing t e with
  | h v ih =>
    cases hshape : v.shape? with
    | none =>
      cases v with
      | null => exact absurd rfl hs.not_null
      | scalar s => rw [encode_stored_scalar hs] at h; cases h
      | _ => cases hshape
    | some s =>
      rw [encode_collection hshape, if_pos hs.type_eq] at h
      rcases Except.bind_eq_error_iff.1 h with happend | ⟨f, hf, hclose⟩
      · -- an entry is to blame: it has too many bytes, or by induction something in it does not fit
        obtain ⟨u, w, hw, hblame⟩ := Frame.appendAll_eq_error (by rw [← length_stream hshape]; simp [Frame.empty]) happend
        obtain ⟨sw, tw⟩ := typed_iff.1 ht u w hw
        rcases hblame with hw' | ⟨bs, hbs, hlen, rfl⟩
        · obtain ⟨hfits, hn⟩ := ih u w hw sw tw hw'
          exact ⟨fun hv => hfits ((fits_iff.1 hv).2 u w hw).2, hn⟩
        · obtain ⟨rfl, -⟩ := encode_eq_ok hbs
          refine ⟨fun hv => ?_, _, rfl⟩
          have := ((fits_iff.1 hv).2 u w hw).1
          exact absurd hlen (Nat.not_lt.2 this)
      · obtain ⟨parts, -, rfl⟩ := Frame.appendAll_eq_ok hf
        have hfull : (Frame.empty s p v.count).count + v.stream.length = (Frame.empty s p v.count).expected := by
          rw [← length_stream hshape]
          simp [Frame.empty]
        obtain ⟨hlen, rfl⟩ := Frame.close_eq_error hfull hclose
        exact ⟨fun hv => absurd hlen (Nat.not_lt.2 hv.1), _, rfl⟩

theorem stored_of_shape {v : Value} {s : Shape} (hs : v.shape? = some s) : ∃ t, Stored t v := by
  cases v with
  | null | scalar => cases hs
  | _ => exact ⟨_, rfl, fun _ h => by cases h⟩

/-- Of its own type, a collection is encoded to what it hands over to a frame. -/
theorem toBytes?_eq_encode {p : Protocol} {t : DataType} {v : Value} {r : Except Error Bytes} (hs : Stored t v) (ht : v.Typed)
    (h : v.toBytes? p = some r) : v.encode p t = r := by
  cases hshape : v.shape? with
  | none => rw [toBytes?_eq_none hshape] at h; cases h
  | some s =>
    have hencode := encode_collection hshape p t
    rw [if_pos hs.type_eq] at hencode
    rw [toBytes?_of_shape hshape] at h
    obtain rfl := Option.some.inj h
    rw [hencode]
    cases happend : (Frame.empty s p v.count).appendAll v.stream with
    | ok f => rfl
    | error e =>
      -- the refusal is about a length, which is not reported in other words
      obtain ⟨-, n, rfl⟩ := encode_eq_error (p := p) hs ht (by rw [hencode, happend]; rfl)
      rfl

/-- A collection goes on the wire exactly if all its counts and lengths, at every depth, are
within the limits of the protocol. It is then laid out as it should be; otherwise it is
refused as one that cannot be written. The fields for counts and lengths have two bytes in
version 2 and four bytes in all others. -/
theorem toBytes_within_limits {c : Value} {p : Protocol} {r : Except Error Bytes} (hc : c.Reachable)
    (h : c.toBytes? p = some r) :
    (Fits p c → r = .ok (reference p c)) ∧ (¬Fits p c → ∃ e, r = .error e ∧ e.kind = .serialization) ∧
    p.fieldWidth = (if p = .v2 then 2 else 4) ∧ p.fieldMax = (if p = .v2 then 2 ^ 16 - 1 else 2 ^ 31 - 1) := by
  obtain ⟨s, hs⟩ : ∃ s, c.shape? = some s := by
    cases hs : c.shape? with
    | none => rw [toBytes?_eq_none hs] at h; cases h
    | some s => exact ⟨s, rfl⟩
  obtain ⟨t, ht⟩ := stored_of_shape hs
  have hr : c.encode p t = r := toBytes?_eq_encode ht hc.typed h
  cases r with
  | ok bs =>
    obtain ⟨rfl, hfits⟩ := encode_eq_ok hr
    exact ⟨fun _ => rfl, fun hn => absurd hfits hn, p.fieldWidth_eq, p.fieldMax_eq⟩
  | error e =>
    obtain ⟨hfits, n, rfl⟩ := encode_eq_error ht hc.typed hr
    exact ⟨fun hf => absurd hf hfits, fun _ => ⟨_, rfl, rfl⟩, p.fieldWidth_eq, p.fieldMax_eq⟩

/-- A list of one string of `n` zero bytes. -/
def zeros (n : Nat) : Value := (list (.empty (.scalar .blob))).step (.add (scalar (.blob (List.replicate n 0))))

/-- Two bytes go on the wire, and one more than their length has room for do not. -/
theorem toBytes_zeros : (zeros 2).toBytes? .v2 = some (.ok [0, 1, 0, 2, 0, 0]) ∧ Fits .v2 (zeros 2) ∧
    ¬Fits .v2 (zeros 65536) ∧ ∃ e, (zeros 65536).toBytes? .v2 = some (.error e) ∧ e.kind = .serialization := by
  have reachable (n : Nat) : (zeros n).Reachable := (Reachable.list _).add (.scalar _)
  have written : (zeros 2).toBytes? .v2 = some (.ok [0, 1, 0, 2, 0, 0]) := by rfl
  have fits : Fits .v2 (zeros 2) := by
    by_contra h
    obtain ⟨e, he, -⟩ := (toBytes_within_limits (reachable 2) written).2.1 h
    cases he
  have inside (n : Nat) : Inside (zeros n) (.scalar .blob) (scalar (.blob (List.replicate n 0))) :=
    .entry (List.mem_singleton.2 rfl : _ ∈ [_])
  have oversized : ¬Fits .v2 (zeros 65536) := by
    have length (n : Nat) : (reference .v2 (scalar (.blob (List.replicate n 0)))).length = n := by
      simp [reference, Scalar.bytes]
    intro h
    have limit := (h.2 _ _ (inside 65536)).1
    rw [length] at limit
    exact absurd limit (by decide)
  have shape (n : Nat) : ∃ r, (zeros n).toBytes? .v2 = some r := ⟨_, rfl⟩
  obtain ⟨r, hr⟩ := shape 65536
  obtain ⟨e, rfl, hkind⟩ := (toBytes_within_limits (reachable 65536) hr).2.1 oversized
  exact ⟨written, fits, oversized, e, hr, hkind⟩

end Value

end WideColumn
