import WideColumn.Proofs.Wire.Limits
/-!
# Wider fields

From version 3 on the fields for counts and lengths are two bytes wider than in
version 2, and that is all that changes: the bytes of a value are the same pieces in
the same order (`Value.pieces`), which whoever knows the type finds in them again
(`Value.readPieces_reference`). Every field takes two bytes of the old layout already,
so what fits into the old fields is not long enough to become too long for the new ones.
-/

namespace WideColumn

/-- A piece of a layout: a field for a count or a length, or all bytes of a single value. -/
inductive Piece where
  | field
  | payload (bytes : Bytes)
  deriving DecidableEq

namespace Piece

/-- Number of bytes of a piece where fields have `w` bytes. -/
def width (w : Nat) : Piece → Nat
  | field => w
  | payload bs => bs.length

/-- Wider fields make a layout longer by what they are wider. -/
theorem sum_width (w d : Nat) (ps : List Piece) :
    (ps.map (width (w + d))).sum = (ps.map (width w)).sum + d * ps.count field := by
  induction ps with
  | nil => rfl
  | cons x ps ih =>
    rw [List.map_cons, List.map_cons, List.sum_cons, List.sum_cons, ih]
    cases x with
    | field =>
      rw [List.count_cons_self, Nat.mul_succ, width, width]
      omega
    | payload bs =>
      rw [List.count_cons_of_ne (by simp), width, width]
      omega

/-! ## Reading a layout -/

/-- The number in a field of `w` bytes, and what follows it. -/
def readField (w : Nat) (bs : Bytes) : Option (Nat × Bytes) :=
  if bs.length < w then none else some (Bytes.value (bs.take w), bs.drop w)

/-- The pieces of an element after its length, as `read` finds them, and what follows it. -/
def readSized (w : Nat) (read : Bytes → Option (List Piece)) (bs : Bytes) : Option (List Piece × Bytes) := do
  let (n, rest) ← readField w bs
  if rest.length < n then none
  else
    let ps ← read (rest.take n)
    some (.field :: ps, rest.drop n)

/-- The pieces of `n` entries, and what follows them. -/
def readEntries (entry : Bytes → Option (List Piece × Bytes)) : Nat → Bytes → Option (List Piece × Bytes)
  | 0, bs => some ([], bs)
  | n + 1, bs => do
    let (ps, rest) ← entry bs
    let (qs, rest) ← readEntries entry n rest
    some (ps ++ qs, rest)

/-- The pieces of a collection: its count, then so many entries, and nothing after them. -/
def readCounted (w : Nat) (entry : Bytes → Option (List Piece × Bytes)) (bs : Bytes) : Option (List Piece) := do
  let (n, rest) ← readField w bs
  let (ps, rest) ← readEntries entry n rest
  if rest.isEmpty then some (.field :: ps) else none

/-- The pieces of the bytes of a value of the type `t`. Custom types have no values. -/
def readPieces (w : Nat) : DataType → Bytes → Option (List Piece)
  | .scalar _, bs => some [.payload bs]
  | .list e, bs => readCounted w (readSized w (readPieces w e)) bs
  | .set e, bs => readCounted w (readSized w (readPieces w e)) bs
  | .map k v, bs =>
    readCounted w (fun bs => do
      let (ps, rest) ← readSized w (readPieces w k) bs
      let (qs, rest) ← readSized w (readPieces w v) rest
      some (ps ++ qs, rest)) bs
  | .custom _, _ => none

theorem readField_append {w n : Nat} (hn : n < 256 ^ w) (rest : Bytes) :
    readField w (Bytes.bigEndian w n ++ rest) = some (n, rest) := by
  have length : (Bytes.bigEndian w n).length = w := Bytes.length_bigEndian w n
  rw [readField, if_neg (by simp), List.take_left' length, List.drop_left' length, Bytes.value_bigEndian_of_lt hn]

theorem readSized_append {w : Nat} {read : Bytes → Option (List Piece)} {bs : Bytes} {ps : List Piece}
    (hn : bs.length < 256 ^ w) (hread : read bs = some ps) (rest : Bytes) :
    readSized w read (Bytes.sized w bs ++ rest) = some (.field :: ps, rest) := by
  rw [Bytes.sized, List.append_assoc, readSized, readField_append hn]
  simp [hread]

/-- Entries that are read one by one are read one after another. -/
theorem readEntries_flatMap {α : Type} {entry : Bytes → Option (List Piece × Bytes)} {write : α → Bytes}
    {pieces : α → List Piece} {as : List α}
    (h : ∀ a ∈ as, ∀ rest, entry (write a ++ rest) = some (pieces a, rest)) (rest : Bytes) :
    readEntries entry as.length (as.flatMap write ++ rest) = some (as.flatMap pieces, rest) := by
  induction as with
  | nil => rfl
  | cons a as ih =>
    rw [List.flatMap_cons, List.append_assoc, List.length_cons, readEntries, h a (by simp)]
    simp [ih fun b hb => h b (by simp [hb])]

theorem readCounted_flatMap {α : Type} {w : Nat} {entry : Bytes → Option (List Piece × Bytes)} {write : α → Bytes}
    {pieces : α → List Piece} {as : List α} (hn : as.length < 256 ^ w)
    (h : ∀ a ∈ as, ∀ rest, entry (write a ++ rest) = some (pieces a, rest)) :
    readCounted w entry (Bytes.bigEndian w as.length ++ as.flatMap write) = some (.field :: as.flatMap pieces) := by
  have entries := readEntries_flatMap h []
  rw [List.append_nil] at entries
  rw [readCounted, readField_append hn]
  simp [entries]

end Piece

namespace Value

/-! ## The pieces of a value -/

mutual

/-- The pieces of the layout of a value: its count, and each entry after its length. -/
def pieces : Value → List Piece
  | null => []
  | scalar s => [.payload s.bytes]
  | list ⟨_, vs, _, _⟩ => .field :: elementPieces vs
  | set ⟨_, vs, _, _⟩ => .field :: elementPieces vs
  | map ⟨_, _, es, _, _⟩ => .field :: entryPieces es

def elementPieces : List Value → List Piece
  | [] => []
  | v :: vs => .field :: pieces v ++ elementPieces vs

def entryPieces : List (Value × Value) → List Piece
  | [] => []
  | (k, v) :: es => .field :: pieces k ++ .field :: pieces v ++ entryPieces es

end

theorem elementPieces_eq (vs : List Value) : elementPieces vs = vs.flatMap fun v => .field :: v.pieces := by
  induction vs with
  | nil => rfl
  | cons v vs ih => rw [elementPieces, ih, List.flatMap_cons]

theorem entryPieces_eq (es : List (Value × Value)) :
    entryPieces es = es.flatMap fun e => .field :: e.1.pieces ++ .field :: e.2.pieces := by
  induction es with
  | nil => rfl
  | cons e es ih => rw [entryPieces, ih, List.flatMap_cons]

@[simp]
theorem pieces_list (l : TypedList Value) :
    (list l).pieces = .field :: l.elements.flatMap fun v => .field :: v.pieces := by
  rw [pieces, elementPieces_eq]

@[simp]
theorem pieces_set (s : TypedSet Value) :
    (set s).pieces = .field :: s.elements.flatMap fun v => .field :: v.pieces := by
  rw [pieces, elementPieces_eq]

@[simp]
theorem pieces_map (m : TypedMap Value) :
    (map m).pieces = .field :: m.entries.flatMap fun e => .field :: e.1.pieces ++ .field :: e.2.pieces := by
  rw [pieces, entryPieces_eq]

/-- Number of the fields for counts and lengths, at all depths. -/
def fields (v : Value) : Nat := v.pieces.count .field

/-- The pieces in front of the entries. -/
def headPieces : Value → List Piece
  | null => []
  | scalar s => [.payload s.bytes]
  | _ => [.field]

theorem pieces_eq (v : Value) : v.pieces = v.headPieces ++ v.stream.flatMap fun e => .field :: e.2.pieces := by
  cases v with
  | null => rfl
  | scalar s => rw [pieces]; rfl
  | list l => rw [pieces_list, stream, TypedList.stream, List.flatMap_map]; rfl
  | set s => rw [pieces_set, stream, TypedSet.stream, List.flatMap_map]; rfl
  | map m =>
    rw [pieces_map, stream, TypedMap.stream, List.flatMap_assoc]
    simp [headPieces]

theorem length_head (p : Protocol) (v : Value) :
    (v.head p).length = (v.headPieces.map (Piece.width p.fieldWidth)).sum := by
  cases v <;> simp [head, headPieces, Piece.width]

/-- A layout is as long as its pieces are together. -/
theorem length_reference (p : Protocol) (v : Value) :
    (reference p v).length = (v.pieces.map (Piece.width p.fieldWidth)).sum := by
  induction v using induction with
  | h v ih =>
    have entries (es : List (DataType × Value))
        (h : ∀ e ∈ es, (reference p e.2).length = (e.2.pieces.map (Piece.width p.fieldWidth)).sum) :
        (es.flatMap fun e => Bytes.sized p.fieldWidth (reference p e.2)).length =
          ((es.flatMap fun e => .field :: e.2.pieces).map (Piece.width p.fieldWidth)).sum := by
      induction es with
      | nil => rfl
      | cons e es ih =>
        rw [List.flatMap_cons, List.flatMap_cons, List.length_append, List.map_append, List.sum_append,
          ih fun x hx => h x (by simp [hx])]
        simp [Bytes.sized, Piece.width, h e (by simp)]
    rw [reference_eq, pieces_eq, List.length_append, List.map_append, List.sum_append, length_head,
      entries v.stream fun e he => ih e.1 e.2 he]

/-- Layouts with fields of the same width are the same. -/
theorem reference_congr {p q : Protocol} (h : p.fieldWidth = q.fieldWidth) (v : Value) : reference p v = reference q v := by
  induction v using induction with
  | h v ih =>
    have head : v.head p = v.head q := by cases v <;> simp [Value.head, h]
    rw [reference_eq, reference_eq, head, h]
    exact congrArg _ (List.flatMap_congr fun e he => by rw [ih e.1 e.2 he])

/-- Whoever knows its type finds the pieces of a value in its bytes. -/
theorem readPieces_reference {p : Protocol} {t : DataType} {v : Value} (hs : Stored t v) (ht : v.Typed) (hf : Fits p v) :
    Piece.readPieces p.fieldWidth t (reference p v) = some v.pieces := by
  induction v using induction generalizing t with
  | h v ih =>
    obtain ⟨hcount, hentries⟩ := fits_iff.1 hf
    have within {n : Nat} (h : n ≤ p.fieldMax) : n < 256 ^ p.fieldWidth := h.trans_lt p.fieldMax_lt
    have entry {u : DataType} {w : Value} (hw : (u, w) ∈ v.stream) (rest : Bytes) :
        Piece.readSized p.fieldWidth (Piece.readPieces p.fieldWidth u)
          (Bytes.sized p.fieldWidth (reference p w) ++ rest) = some (.field :: w.pieces, rest) := by
      obtain ⟨hsw, htw⟩ := typed_iff.1 ht u w hw
      obtain ⟨hlen, hfw⟩ := hentries u w hw
      exact Piece.readSized_append (within hlen) (ih u w hw hsw htw hfw) rest
    have htype := hs.type_eq
    cases v with
    | null => cases htype
    | scalar s =>
      cases htype
      rw [Piece.readPieces, reference, pieces]
    | list l =>
      cases htype
      rw [Piece.readPieces, reference_list, pieces_list]
      exact Piece.readCounted_flatMap (within hcount) fun w hw => entry (mem_stream_list.2 ⟨rfl, hw⟩)
    | set s =>
      cases htype
      rw [Piece.readPieces, reference_set, pieces_set]
      exact Piece.readCounted_flatMap (within hcount) fun w hw => entry (mem_stream_set.2 ⟨rfl, hw⟩)
    | map m =>
      cases htype
      rw [Piece.readPieces, reference_map, pieces_map]
      refine Piece.readCounted_flatMap (within hcount) fun e he rest => ?_
      have key := entry (mem_stream_map.2 ⟨e, he, .inl ⟨rfl, rfl⟩⟩)
      have value := entry (mem_stream_map.2 ⟨e, he, .inr ⟨rfl, rfl⟩⟩)
      rw [List.append_assoc, key]
      simp [value]

/-! ## From two bytes to four -/

theorem fieldWidth_of_ne {p : Protocol} (hp : p ≠ .v2) : p.fieldWidth = 4 ∧ p.fieldMax = 2147483647 := by
  rw [p.fieldWidth_eq, p.fieldMax_eq, if_neg hp, if_neg hp]
  exact ⟨rfl, rfl⟩

/-- Every field becomes two bytes wider, and takes two bytes already. -/
theorem length_wider {p : Protocol} (hp : p ≠ .v2) (v : Value) :
    (reference p v).length = (reference .v2 v).length + 2 * v.fields ∧ 2 * v.fields ≤ (reference .v2 v).length := by
  have wider := Piece.sum_width 2 2 v.pieces
  have narrow := Piece.sum_width 0 2 v.pieces
  rw [length_reference, length_reference, (fieldWidth_of_ne hp).1, fields]
  exact ⟨wider, narrow ▸ Nat.le_add_left ..⟩

/-- What fits into fields of two bytes fits into wider ones, although it becomes longer. -/
theorem Fits.wider {p : Protocol} {v : Value} (hp : p ≠ .v2) (h : Fits .v2 v) : Fits p v := by
  obtain ⟨-, hmax⟩ := fieldWidth_of_ne hp
  obtain ⟨hcount, hinside⟩ := h
  have v2Max : Protocol.v2.fieldMax = 65535 := rfl
  refine ⟨by omega, fun t w hw => ?_⟩
  obtain ⟨hlen, hcount'⟩ := hinside t w hw
  obtain ⟨hwider, htwice⟩ := length_wider hp w
  omega

/-- A collection that can be written is laid out as it should be. -/
theorem toBytes?_eq_ok_iff {p : Protocol} {c : Value} {s : Shape} (hs : c.shape? = some s) (hc : c.Typed) {bs : Bytes} :
    c.toBytes? p = some (.ok bs) ↔ Fits p c ∧ bs = reference p c := by
  obtain ⟨t, ht⟩ := stored_of_shape hs
  have written : ∃ r, c.toBytes? p = some r := ⟨_, toBytes?_of_shape hs p⟩
  obtain ⟨r, hr⟩ := written
  have hencode := toBytes?_eq_encode ht hc hr
  rw [hr, Option.some.injEq]
  constructor
  · rintro rfl
    obtain ⟨rfl, hfits⟩ := encode_eq_ok hencode
    exact ⟨hfits, rfl⟩
  · rintro ⟨hfits, rfl⟩
    cases r with
    | ok bs => rw [(encode_eq_ok hencode).1]
    | error e => exact absurd hfits (encode_eq_error ht hc hencode).1

theorem exists_shape_of_toBytes? {p : Protocol} {c : Value} {r : Except Error Bytes} (h : c.toBytes? p = some r) :
    ∃ s, c.shape? = some s := by
  cases hs : c.shape? with
  | none => rw [toBytes?_eq_none hs] at h; cases h
  | some s => exact ⟨s, rfl⟩

/-- What does not fit has a count that is too large, or something in it that can be
written and is too long. -/
theorem exists_oversized {p : Protocol} {v : Value} (hv : v.Typed) (h : ¬Fits p v) :
    p.fieldMax < v.count ∨ ∃ t w, Inside v t w ∧
      (p.fieldMax < w.count ∨ ∃ bs, w.encode p t = .ok bs ∧ p.fieldMax < bs.length) := by
  induction v using induction with
  | h v ih =>
    by_contra hnone
    rw [not_or, Nat.not_lt] at hnone
    obtain ⟨hcount, hinside⟩ := hnone
    refine h (fits_iff.2 ⟨hcount, fun t w hw => ?_⟩)
    obtain ⟨hsw, htw⟩ := typed_iff.1 hv t w hw
    -- if it were an entry that does not fit, something would be too large within the entry
    have hfits : Fits p w := by
      by_contra hfits
      rcases ih t w hw htw hfits with hlarge | ⟨u, x, hx, hlarge⟩
      · exact hinside ⟨t, w, .entry hw, .inl hlarge⟩
      · exact hinside ⟨u, x, .deeper hw hx, hlarge⟩
    refine ⟨?_, hfits⟩
    by_contra hlen
    cases hencode : w.encode p t with
    | ok bs =>
      obtain ⟨rfl, -⟩ := encode_eq_ok hencode
      exact hinside ⟨t, w, .entry hw, .inr ⟨_, hencode, Nat.not_le.1 hlen⟩⟩
    | error e => exact (encode_eq_error hsw htw hencode).1 hfits

/-- A collection that goes on the wire of version 2 goes on that of every later version, and
there as the same bytes: the same pieces in the same order, with two more bytes for every
field. What keeps a collection from version 2 is a count or the length of an element. -/
theorem toBytes_upgraded {c : Value} (hc : c.Reachable) :
    (∀ bs, c.toBytes? .v2 = some (.ok bs) → ∃ wider, (∀ p, p ≠ .v2 → c.toBytes? p = some (.ok wider)) ∧
      wider.length = bs.length + 2 * c.fields ∧
      ∃ t, c.type? = some t ∧ Piece.readPieces 2 t bs = some c.pieces ∧ Piece.readPieces 4 t wider = some c.pieces) ∧
    ∀ e, c.toBytes? .v2 = some (.error e) → 65535 < c.count ∨ ∃ t w, Inside c t w ∧
      (65535 < w.count ∨ ∃ bs, w.encode .v2 t = .ok bs ∧ 65535 < bs.length) := by
  constructor
  · intro bs h
    obtain ⟨s, hs⟩ := exists_shape_of_toBytes? h
    obtain ⟨hfits, rfl⟩ := (toBytes?_eq_ok_iff hs hc.typed).1 h
    obtain ⟨t, ht⟩ := stored_of_shape hs
    have v4 : Protocol.v4 ≠ .v2 := by decide
    refine ⟨reference .v4 c, fun p hp => ?_, (length_wider v4 c).1, t, ht.type_eq, ?_, ?_⟩
    · have width : Protocol.v4.fieldWidth = p.fieldWidth := (fieldWidth_of_ne hp).1.symm
      exact (toBytes?_eq_ok_iff hs hc.typed).2 ⟨hfits.wider hp, reference_congr width c⟩
    · exact readPieces_reference ht hc.typed hfits
    · exact readPieces_reference ht hc.typed (hfits.wider v4)
  · intro e h
    obtain ⟨s, hs⟩ := exists_shape_of_toBytes? h
    refine exists_oversized (p := .v2) hc.typed fun hfits => ?_
    rw [(toBytes?_eq_ok_iff hs hc.typed).2 ⟨hfits, rfl⟩] at h
    cases h

/-- A list of one list of one number. -/
def nestedNumber : Value :=
  (list (.empty (.list (.scalar .int)))).step (.add ((list (.empty (.scalar .int))).step (.add (scalar (.int 7)))))

/-- Four fields become two bytes wider each; and a string is one byte too long for version 2. -/
theorem toBytes_nestedNumber :
    (nestedNumber.toBytes? .v2 = some (.ok [0, 1, 0, 8, 0, 1, 0, 4, 0, 0, 0, 7]) ∧ nestedNumber.fields = 4 ∧
      ∃ wider, wider.length = 20 ∧ ∀ p, p ≠ .v2 → nestedNumber.toBytes? p = some (.ok wider)) ∧
    (∃ e, (zeros 65536).toBytes? .v2 = some (.error e)) ∧
      ∃ t w, Inside (zeros 65536) t w ∧ (65535 < w.count ∨ ∃ bs, w.encode .v2 t = .ok bs ∧ 65535 < bs.length) := by
  have nested : nestedNumber.Reachable := (Reachable.list _).add ((Reachable.list _).add (.scalar _))
  have written : nestedNumber.toBytes? .v2 = some (.ok [0, 1, 0, 8, 0, 1, 0, 4, 0, 0, 0, 7]) := by rfl
  have fields : nestedNumber.fields = 4 := by rfl
  obtain ⟨wider, hwider, hlength, -⟩ := (toBytes_upgraded nested).1 _ written
  rw [fields] at hlength
  have reachable (n : Nat) : (zeros n).Reachable := (Reachable.list _).add (.scalar _)
  have refused (n : Nat) (hn : 65535 < n) : ∃ e, (zeros n).toBytes? .v2 = some (.error e) := by
    have toBytes : ∃ r, (zeros n).toBytes? .v2 = some r := ⟨_, rfl⟩
    obtain ⟨e | bs, hr⟩ := toBytes
    · exact ⟨e, hr⟩
    · have inside : Inside (zeros n) (.scalar .blob) (scalar (.blob (List.replicate n 0))) :=
        .entry (List.mem_singleton.2 rfl : _ ∈ [_])
      have fits := ((toBytes?_eq_ok_iff rfl (reachable n).typed).1 hr).1
      have short := (fits.2 _ _ inside).1
      rw [reference, Scalar.bytes, List.length_replicate] at short
      exact absurd short (Nat.not_le.2 hn)
  have count (n : Nat) : (zeros n).count = 1 := by rfl
  obtain ⟨e, he⟩ := refused 65536 (by decide)
  refine ⟨⟨written, fields, wider, hlength, hwider⟩, ⟨e, he⟩, ?_⟩
  rcases (toBytes_upgraded (reachable 65536)).2 e he with many | large
  · rw [count] at many
    exact absurd many (by decide)
  · exact large

end Value

end WideColumn
