import WideColumn.Proofs.Bytes
import WideColumn.Proofs.Except
import WideColumn.Proofs.Value.Parts
import WideColumn.Wire.Encoding
/-!
# The layout on the wire

`Value.reference` writes the layout down without frames and checks: the number of
entries of a collection, then each of its entries after its length. Whatever is
encoded has this layout, and everything in it is within the limits of the protocol
(`Value.encode_eq_ok`).
-/

namespace WideColumn

/-- Counts and lengths have two bytes in version 2, and four in all others. -/
theorem Protocol.fieldWidth_eq (p : Protocol) : p.fieldWidth = if p = .v2 then 2 else 4 := by
  cases p <;> rfl

/-- All of these bits are for the number in version 2, and all but the sign in the others. -/
theorem Protocol.fieldMax_eq (p : Protocol) : p.fieldMax = if p = .v2 then 2 ^ 16 - 1 else 2 ^ 31 - 1 := by
  cases p <;> rfl

theorem Protocol.fieldMax_lt (p : Protocol) : p.fieldMax < 256 ^ p.fieldWidth := by
  cases p <;> decide

namespace Value

/-- Number of entries of a collection, where a key with its value is one. -/
def count : Value → Nat
  | list l => l.elements.length
  | set s => s.elements.length
  | map m => m.entries.length
  | _ => 0

mutual

/-- The bytes of a value as they are laid out on the wire. -/
def reference (p : Protocol) : Value → Bytes
  | null => []
  | scalar s => s.bytes
  | list ⟨_, vs, _, _⟩ => Bytes.bigEndian p.fieldWidth vs.length ++ referenceElements p vs
  | set ⟨_, vs, _, _⟩ => Bytes.bigEndian p.fieldWidth vs.length ++ referenceElements p vs
  | map ⟨_, _, es, _, _⟩ => Bytes.bigEndian p.fieldWidth es.length ++ referenceEntries p es

def referenceElements (p : Protocol) : List Value → Bytes
  | [] => []
  | v :: vs => Bytes.sized p.fieldWidth (reference p v) ++ referenceElements p vs

def referenceEntries (p : Protocol) : List (Value × Value) → Bytes
  | [] => []
  | (k, v) :: es =>
    Bytes.sized p.fieldWidth (reference p k) ++ Bytes.sized p.fieldWidth (reference p v) ++ referenceEntries p es

end

section

variable (p : Protocol)

theorem referenceElements_eq (vs : List Value) :
    referenceElements p vs = vs.flatMap fun v => Bytes.sized p.fieldWidth (reference p v) := by
  induction vs with
  | nil => rfl
  | cons v vs ih => rw [referenceElements, ih, List.flatMap_cons]

theorem referenceEntries_eq (es : List (Value × Value)) :
    referenceEntries p es = es.flatMap fun e =>
      Bytes.sized p.fieldWidth (reference p e.1) ++ Bytes.sized p.fieldWidth (reference p e.2) := by
  induction es with
  | nil => rfl
  | cons e es ih => rw [referenceEntries, ih, List.flatMap_cons]

theorem reference_list (l : TypedList Value) :
    reference p (list l) = Bytes.bigEndian p.fieldWidth l.elements.length ++
      l.elements.flatMap fun v => Bytes.sized p.fieldWidth (reference p v) := by
  rw [reference, referenceElements_eq]

theorem reference_set (s : TypedSet Value) :
    reference p (set s) = Bytes.bigEndian p.fieldWidth s.elements.length ++
      s.elements.flatMap fun v => Bytes.sized p.fieldWidth (reference p v) := by
  rw [reference, referenceElements_eq]

theorem reference_map (m : TypedMap Value) :
    reference p (map m) = Bytes.bigEndian p.fieldWidth m.entries.length ++ m.entries.flatMap fun e =>
      Bytes.sized p.fieldWidth (reference p e.1) ++ Bytes.sized p.fieldWidth (reference p e.2) := by
  rw [reference, referenceEntries_eq]

/-- What stands in front of the entries: the count of a collection, all bytes of a single value. -/
def head : Value → Bytes
  | null => []
  | scalar s => s.bytes
  | v => Bytes.bigEndian p.fieldWidth v.count

theorem reference_eq (v : Value) :
    reference p v = v.head p ++ v.stream.flatMap fun e => Bytes.sized p.fieldWidth (reference p e.2) := by
  cases v with
  | null => rfl
  | scalar s => exact (List.append_nil _).symm
  | list l => rw [reference_list, stream, TypedList.stream, List.flatMap_map]; rfl
  | set s => rw [reference_set, stream, TypedSet.stream, List.flatMap_map]; rfl
  | map m =>
    rw [reference_map, stream, TypedMap.stream, List.flatMap_assoc]
    exact congrArg _ (List.flatMap_congr fun e _ => by simp)

@[simp]
theorem count_bare (v : Value) : v.bare.count = v.count := by
  cases v <;> simp [bare, bareElements_eq, bareEntries_eq, count]

theorem head_bare (v : Value) : v.bare.head p = v.head p := by
  cases v with
  | null | scalar s => rfl
  | _ => simp [head, count]

/-- Cursors and known hashes do not go on the wire. -/
theorem reference_bare (v : Value) : reference p v.bare = reference p v := by
  induction v using induction with
  | h v ih =>
    rw [reference_eq, reference_eq, head_bare, stream_bare, List.flatMap_map]
    exact congrArg _ (List.flatMap_congr fun e he => by rw [ih e.1 e.2 he])

end

/-- All counts and all lengths within the value, and the number of its entries, are within
what the protocol has fields for. -/
def Fits (p : Protocol) (v : Value) : Prop :=
  v.count ≤ p.fieldMax ∧ ∀ t w, Inside v t w → (reference p w).length ≤ p.fieldMax ∧ w.count ≤ p.fieldMax

theorem fits_iff {p : Protocol} {v : Value} :
    Fits p v ↔ v.count ≤ p.fieldMax ∧ ∀ t w, (t, w) ∈ v.stream → (reference p w).length ≤ p.fieldMax ∧ Fits p w := by
  rw [Fits, forall_inside_iff]
  simp only [Fits, and_assoc]

end Value

/-! ## Frames -/

namespace Frame

theorem field_eq_ok_iff {p : Protocol} {n : Nat} {bs : Bytes} :
    field p n = .ok bs ↔ n ≤ p.fieldMax ∧ bs = Bytes.bigEndian p.fieldWidth n := by
  rw [field, Except.error_ite_eq_ok_iff, Nat.not_lt, Except.ok.injEq, eq_comm (b := bs)]

theorem framed_eq_ok_iff {f : Frame} {bytes : Unit → Except Error Bytes} {out : Bytes} :
    f.framed bytes = .ok out ↔ f.count < f.expected ∧ ∃ bs, bytes () = .ok bs ∧ bs.length ≤ f.protocol.fieldMax ∧
      out = Bytes.sized f.protocol.fieldWidth bs := by
  rw [framed, Except.error_ite_eq_ok_iff, Nat.not_le]
  simp only [Except.bind_eq_ok_iff, Except.pure_eq_ok_iff, field_eq_ok_iff, and_assoc, exists_and_left, exists_eq_left,
    Bytes.sized, eq_comm (a := out)]

/-- A frame takes an element as long as it is not full and the element has bytes, and not
too many of them. -/
theorem push_eq_ok_iff {f f' : Frame} {bytes : Unit → Except Error Bytes} :
    f.push bytes = .ok f' ↔ f.count < f.expected ∧ ∃ bs, bytes () = .ok bs ∧ bs.length ≤ f.protocol.fieldMax ∧
      f' = f.extend (Bytes.sized f.protocol.fieldWidth bs) := by
  have push_eq : f.push bytes = (f.framed bytes).map f.extend := by
    rw [push]
    cases f.framed bytes <;> rfl
  rw [push_eq, Except.map_eq_ok_iff]
  simp only [framed_eq_ok_iff]
  constructor
  · rintro ⟨_, ⟨hroom, bs, hbs, hlen, rfl⟩, rfl⟩
    exact ⟨hroom, bs, hbs, hlen, rfl⟩
  · rintro ⟨hroom, bs, hbs, hlen, rfl⟩
    exact ⟨_, ⟨hroom, bs, hbs, hlen, rfl⟩, rfl⟩

theorem protocol_of_push {f f' : Frame} {bytes : Unit → Except Error Bytes} (h : f.push bytes = .ok f') :
    f'.protocol = f.protocol := by
  obtain ⟨-, _, -, -, rfl⟩ := push_eq_ok_iff.1 h
  rfl

theorem close_eq_ok_iff {f : Frame} {bs : Bytes} :
    f.close = .ok bs ↔ f.count = f.expected ∧ f.entries ≤ f.protocol.fieldMax ∧
      bs = Bytes.bigEndian f.protocol.fieldWidth f.entries ++ f.payload.toList := by
  rw [close, Except.ite_error_eq_ok_iff]
  simp only [Except.bind_eq_ok_iff, Except.pure_eq_ok_iff, field_eq_ok_iff, and_assoc, exists_and_left, exists_eq_left,
    eq_comm (a := bs)]

/-- A frame with more elements, each given by its type and value. -/
def appendAll (f : Frame) (stream : List (DataType × Value)) : Except Error Frame :=
  stream.foldlM (fun f e => f.append e.1 e.2) f

/-- What was appended is in the payload, each element after its length, and nothing else
changed but the number of elements. -/
theorem appendAll_eq_ok {f f' : Frame} {stream : List (DataType × Value)} (h : f.appendAll stream = .ok f') :
    ∃ parts, List.Forall₂ (fun e bs => e.2.encode f.protocol e.1 = .ok bs ∧ bs.length ≤ f.protocol.fieldMax) stream parts ∧
      f' = { f with
        count := f.count + stream.length
        payload := f.payload ++ parts.flatMap (Bytes.sized f.protocol.fieldWidth) } := by
  induction stream generalizing f with
  | nil =>
    cases h
    exact ⟨[], .nil, by simp⟩
  | cons e stream ih =>
    rw [appendAll, List.foldlM_cons, Except.bind_eq_ok_iff] at h
    obtain ⟨g, hg, h⟩ := h
    obtain ⟨-, bs, hbs, hlen, rfl⟩ := push_eq_ok_iff.1 hg
    obtain ⟨parts, hparts, rfl⟩ := ih h
    refine ⟨bs :: parts, .cons ⟨hbs, hlen⟩ hparts, ?_⟩
    -- the payload grows at its end, so what is first in the stream stands first in it
    have payload : f.payload ++ Bytes.sized f.protocol.fieldWidth bs ++ parts.flatMap (Bytes.sized f.protocol.fieldWidth) =
        f.payload ++ (bs :: parts).flatMap (Bytes.sized f.protocol.fieldWidth) := by
      apply Array.toList_inj.1
      simp
    rw [← payload, List.length_cons, Nat.add_comm stream.length, ← Nat.add_assoc]
    rfl

/-- The bytes of a frame that was filled and closed. -/
theorem close_appendAll {shape : Shape} {p : Protocol} {n : Nat} {stream : List (DataType × Value)} {bs : Bytes}
    (h : (empty shape p n).appendAll stream >>= close = .ok bs) :
    n ≤ p.fieldMax ∧ ∃ parts,
      List.Forall₂ (fun e b => e.2.encode p e.1 = .ok b ∧ b.length ≤ p.fieldMax) stream parts ∧
      bs = Bytes.bigEndian p.fieldWidth n ++ parts.flatMap (Bytes.sized p.fieldWidth) := by
  obtain ⟨f, hf, hclose⟩ := Except.bind_eq_ok_iff.1 h
  obtain ⟨parts, hparts, rfl⟩ := appendAll_eq_ok hf
  obtain ⟨-, hn, rfl⟩ := close_eq_ok_iff.1 hclose
  exact ⟨hn, parts, hparts, by simp [empty]⟩

end Frame

namespace Value

theorem pushElements_eq {p : Protocol} {f : Frame} (hf : f.protocol = p) (t : DataType) (vs : List Value) :
    pushElements p t f vs = f.appendAll (vs.map (t, ·)) := by
  subst hf
  induction vs generalizing f with
  | nil => rfl
  | cons v vs ih =>
    rw [pushElements, List.map_cons, Frame.appendAll, List.foldlM_cons, Frame.append]
    refine Except.bind_congr_ok fun g hg => ?_
    rw [← Frame.protocol_of_push hg]
    exact ih

theorem pushEntries_eq {p : Protocol} {f : Frame} (hf : f.protocol = p) (k v : DataType) (es : List (Value × Value)) :
    pushEntries p k v f es = f.appendAll (es.flatMap fun e => [(k, e.1), (v, e.2)]) := by
  subst hf
  induction es generalizing f with
  | nil => rfl
  | cons e es ih =>
    rw [pushEntries, List.flatMap_cons, Frame.appendAll, List.foldlM_append, List.foldlM_cons, Frame.append, bind_assoc]
    refine Except.bind_congr_ok fun g hg => ?_
    rw [List.foldlM_cons, Frame.append, bind_assoc, ← Frame.protocol_of_push hg]
    refine Except.bind_congr_ok fun g' hg' => ?_
    rw [← Frame.protocol_of_push hg']
    exact ih

theorem encode_scalar {p : Protocol} {t : DataType} {s : Scalar} {bs : Bytes} (h : (scalar s).encode p t = .ok bs) :
    bs = s.bytes := by
  cases t with
  | scalar u =>
    simp only [encode, Except.ite_error_eq_ok_iff] at h
    obtain ⟨-, h⟩ := h
    split at h
    · obtain ⟨_, -, rfl⟩ := Except.map_eq_ok_iff.1 h
      rfl
    · cases h
      rfl
  | _ => cases h

/-- The shape of a collection on the wire. -/
def shape? : Value → Option Shape
  | list _ => some .list
  | set _ => some .set
  | map _ => some .map
  | _ => none

/-- What is wrong with writing a collection as a type that it does not have. -/
def mismatch (declared : DataType) (v : Value) : Error :=
  match declared with
  | .custom name => .customBytes name
  | _ => .mismatchedBytes v.typeName declared

/-- Of its own type, a collection is written as a frame for its stream; of any other, not at all. -/
theorem encode_collection {v : Value} {s : Shape} (hs : v.shape? = some s) (p : Protocol) (t : DataType) :
    v.encode p t = if v.type? = some t then (Frame.empty s p v.count).appendAll v.stream >>= Frame.close
      else .error (v.mismatch t) := by
  cases v with
  | null | scalar => cases hs
  | list l =>
    cases hs
    have push : pushElements p l.elementType (.empty .list p l.elements.length) l.elements =
        (Frame.empty .list p l.elements.length).appendAll (list l).stream :=
      pushElements_eq (f := .empty ..) rfl ..
    unfold count
    rw [← push]
    cases t <;> simp [encode, type?, mismatch, typeName, eq_comm]
  | set u =>
    cases hs
    have push : pushElements p u.elementType (.empty .set p u.elements.length) u.elements =
        (Frame.empty .set p u.elements.length).appendAll (set u).stream :=
      pushElements_eq (f := .empty ..) rfl ..
    unfold count
    rw [← push]
    cases t <;> simp [encode, type?, mismatch, typeName, eq_comm]
  | map m =>
    cases hs
    have push : pushEntries p m.keyType m.valueType (.empty .map p m.entries.length) m.entries =
        (Frame.empty .map p m.entries.length).appendAll (map m).stream :=
      pushEntries_eq (f := .empty ..) rfl ..
    unfold count
    rw [← push]
    cases t <;> simp [encode, type?, mismatch, typeName, eq_comm]

/-- The bytes of a value are its head, and then the bytes of each entry after their length. -/
theorem encode_parts {p : Protocol} {t : DataType} {v : Value} {bs : Bytes} (h : v.encode p t = .ok bs) :
    v.count ≤ p.fieldMax ∧ ∃ parts,
      List.Forall₂ (fun e b => e.2.encode p e.1 = .ok b ∧ b.length ≤ p.fieldMax) v.stream parts ∧
      bs = v.head p ++ parts.flatMap (Bytes.sized p.fieldWidth) := by
  have collection {s : Shape} (hs : v.shape? = some s) :
      (Frame.empty s p v.count).appendAll v.stream >>= Frame.close = .ok bs := by
    rw [encode_collection hs, Except.ite_error_eq_ok_iff] at h
    exact h.2
  cases v with
  | null => cases h
  | scalar s => exact ⟨Nat.zero_le _, [], .nil, by rw [encode_scalar h]; exact (List.append_nil _).symm⟩
  | list | set | map => exact Frame.close_appendAll (collection rfl)

/-- What is encoded is laid out as it should be, and is within the limits of the protocol. -/
theorem encode_eq_ok {p : Protocol} {t : DataType} {v : Value} {bs : Bytes} (h : v.encode p t = .ok bs) :
    bs = reference p v ∧ Fits p v := by
  induction v using induction generalizing t bs with
  | h v ih =>
    obtain ⟨hcount, parts, hparts, rfl⟩ := encode_parts h
    obtain ⟨rfl, entries⟩ := eq_map_of_forall₂ (f := fun e => reference p e.2) hparts
      fun e he b hb => (ih e.1 e.2 he hb.1).1
    refine ⟨?_, fits_iff.2 ⟨hcount, fun u w hw => ?_⟩⟩
    · rw [reference_eq, List.flatMap_map]
    · obtain ⟨hb, hlen⟩ := entries (u, w) hw
      exact ⟨hlen, (ih u w hw hb).2⟩

/-! ## Cursors and known hashes -/

@[simp]
theorem shape?_bare (v : Value) : v.bare.shape? = v.shape? := by
  cases v <;> simp [bare, shape?]

/-- A frame takes the same bytes from entries that are bare. -/
theorem appendAll_bare {stream : List (DataType × Value)}
    (h : ∀ e ∈ stream, ∀ p t, e.2.bare.encode p t = e.2.encode p t) (f : Frame) :
    f.appendAll (stream.map fun e => (e.1, e.2.bare)) = f.appendAll stream := by
  induction stream generalizing f with
  | nil => rfl
  | cons e stream ih =>
    have first : f.append e.1 e.2.bare = f.append e.1 e.2 := by
      unfold Frame.append
      simp only [h e (by simp)]
    have rest := ih fun x hx => h x (by simp [hx])
    simp only [Frame.appendAll] at rest ⊢
    rw [List.map_cons, List.foldlM_cons, List.foldlM_cons, first]
    exact Except.bind_congr_ok fun g _ => rest g

/-- Whether a value can be written, and the reason why not, have nothing to do with cursors
and known hashes either. -/
@[simp]
theorem encode_bare (v : Value) (p : Protocol) (t : DataType) : v.bare.encode p t = v.encode p t := by
  induction v using induction generalizing p t with
  | h v ih =>
    cases hs : v.shape? with
    | none =>
      cases v with
      | null | scalar => rw [bare]
      | _ => cases hs
    | some s =>
      have hm : v.bare.mismatch t = v.mismatch t := by simp [mismatch, typeName]
      rw [encode_collection hs, encode_collection (by rw [shape?_bare, hs]), type?_bare, count_bare, stream_bare, hm,
        appendAll_bare fun e he => ih e.1 e.2 he]

end Value

end WideColumn
