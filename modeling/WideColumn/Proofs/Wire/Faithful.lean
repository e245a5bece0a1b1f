import WideColumn.Proofs.Collection.Contents
import WideColumn.Proofs.Order.Value
import WideColumn.Proofs.Wire.Reference
/-!
# The bytes say what the value says

Where the type is known, the bytes of a value determine its entries and their order
at every depth: counts and lengths are fields of one width that none of them
overflows, so it is always clear where an entry ends. The other way round, values
that say the same have the same bytes as long as there is no set among them, as the
order of insertion into a set goes on the wire but is no part of what it says.
-/

namespace WideColumn

/-! ## Single values -/

theorem Integer.bytes_injective {w : Nat} (hw : w % 8 = 0) : Function.Injective (bytes (w := w)) := by
  intro a b h
  have range : 2 ^ w = 256 ^ (w / 8) := by
    rw [show (256 : Nat) = 2 ^ 8 from rfl, ← pow_mul]
    congr 1
    omega
  exact BitVec.eq_of_toNat_eq (Bytes.bigEndian_inj (range ▸ a.isLt) (range ▸ b.isLt) h)

theorem Binary.bytes_injective {f : BinaryFormat} (hw : f.width % 8 = 0) : Function.Injective (bytes (f := f)) := by
  rintro ⟨a, _⟩ ⟨b, _⟩ h
  have : a = b := Integer.bytes_injective hw h
  subst this
  rfl

theorem Scale.bytes_injective : Function.Injective bytes := by
  rintro ⟨a, hal, hau⟩ ⟨b, hbl, hbu⟩ h
  have words : BitVec.ofInt 32 a = BitVec.ofInt 32 b := Integer.bytes_injective (w := 32) rfl h
  have : a = b := by
    have := congrArg BitVec.toInt words
    rw [BitVec.toInt_ofInt, BitVec.toInt_ofInt, Int.bmod_eq_of_le (by omega) (by omega),
      Int.bmod_eq_of_le (by omega) (by omega)] at this
    exact this
  subst this
  rfl

theorem Uuid.bytes_injective : Function.Injective bytes := by
  rintro ⟨a⟩ ⟨b⟩ h
  have : a = b := Integer.bytes_injective (w := 128) rfl h
  rw [this]

/-- Two single values of one type with the same bytes are the same. -/
theorem Scalar.eq_of_bytes_eq {a b : Scalar} (ht : a.type = b.type) (h : a.bytes = b.bytes) : a = b := by
  cases a <;> cases b <;> cases ht
  case ascii | varchar | text => exact congrArg _ (Text.utf8_injective h)
  case blob => exact congrArg _ h
  case boolean a b => revert h; cases a <;> cases b <;> decide
  case int => exact congrArg _ (Integer.bytes_injective rfl h)
  case bigint | counter => exact congrArg _ (Integer.bytes_injective rfl h)
  case timestamp a b =>
    obtain ⟨a⟩ := a
    obtain ⟨b⟩ := b
    have millis : a = b := Integer.bytes_injective (w := 64) rfl h
    rw [millis]
  case float | double => exact congrArg _ (Binary.bytes_injective rfl h)
  case decimal a b =>
    obtain ⟨m, s⟩ := a
    obtain ⟨n, t⟩ := b
    obtain ⟨hscale, hunscaled⟩ := List.append_inj h (by simp [Scale.bytes])
    have scale : s = t := Scale.bytes_injective hscale
    have unscaled : m = n := TwosComplement.encode_injective hunscaled
    rw [scale, unscaled]
  case varint => exact congrArg _ (TwosComplement.encode_injective h)
  case uuid => exact congrArg _ (Uuid.bytes_injective h)
  case timeuuid => exact congrArg _ (TimeUuid.uuid_injective (Uuid.bytes_injective h))
  case inet => exact congrArg _ (Inet.bytes_injective h)

/-! ## From bytes to values -/

/-- If every item shows where it ends, items in a row after their number can be told apart. -/
theorem map_eq_of_counted_eq {α β : Type} {w : Nat} {f : α → Bytes} {g : α → β} {as bs : List α}
    (ha : as.length < 256 ^ w) (hb : bs.length < 256 ^ w)
    (h : ∀ a ∈ as, ∀ b ∈ bs, ∀ xs ys, f a ++ xs = f b ++ ys → g a = g b ∧ xs = ys)
    (he : Bytes.bigEndian w as.length ++ as.flatMap f = Bytes.bigEndian w bs.length ++ bs.flatMap f) :
    as.map g = bs.map g := by
  obtain ⟨hcount, hitems⟩ := List.append_inj he (by simp)
  have hlength := Bytes.bigEndian_inj ha hb hcount
  clear ha hb he hcount
  induction as generalizing bs with
  | nil => rw [List.eq_nil_of_length_eq_zero hlength.symm]
  | cons a as ih =>
    obtain ⟨b, bs, rfl⟩ := List.exists_cons_of_length_eq_add_one hlength.symm
    rw [List.flatMap_cons, List.flatMap_cons] at hitems
    obtain ⟨hfirst, hrest⟩ := h a (by simp) b (by simp) _ _ hitems
    rw [List.map_cons, List.map_cons, hfirst,
      ih (fun x hx y hy => h x (by simp [hx]) y (by simp [hy])) hrest (by simpa using hlength)]

namespace Value

/-- Typed values of the same type that are laid out as the same bytes have the same entries
in the same order. -/
theorem bare_eq_of_reference_eq {p : Protocol} {a b : Value} (ht : a.type? = b.type?) (ha : a.Typed) (hb : b.Typed)
    (fa : Fits p a) (fb : Fits p b) (h : reference p a = reference p b) : a.bare = b.bare := by
  induction a using induction generalizing b with
  | h a ih =>
    have room {n : Nat} (hn : n ≤ p.fieldMax) : n < 256 ^ p.fieldWidth := hn.trans_lt p.fieldMax_lt
    -- entries in slots of one type: the lengths in front of them say where each ends
    have entry : ∀ t x y, (t, x) ∈ a.stream → (t, y) ∈ b.stream → ∀ xs ys,
        Bytes.sized p.fieldWidth (reference p x) ++ xs = Bytes.sized p.fieldWidth (reference p y) ++ ys →
        x.bare = y.bare ∧ xs = ys := by
      intro t x y hx hy xs ys hxy
      obtain ⟨sx, tx⟩ := typed_iff.1 ha t x hx
      obtain ⟨sy, ty⟩ := typed_iff.1 hb t y hy
      obtain ⟨lx, fx⟩ := (fits_iff.1 fa).2 t x hx
      obtain ⟨ly, fy⟩ := (fits_iff.1 fb).2 t y hy
      obtain ⟨hbytes, hrest⟩ := Bytes.sized_append_inj (room lx) (room ly) hxy
      exact ⟨ih t x hx (sx.type_eq.trans sy.type_eq.symm) tx ty fx fy hbytes, hrest⟩
    have ca := room (fits_iff.1 fa).1
    have cb := room (fits_iff.1 fb).1
    cases a with
    | null => cases b <;> first | rfl | cases ht
    | scalar s =>
      cases b with
      | scalar s' => rw [Scalar.eq_of_bytes_eq (by simpa [type?] using ht) h]
      | _ => cases ht
    | list l =>
      cases b with
      | list m =>
        have htype : l.elementType = m.elementType := by simpa [type?] using ht
        have elements : l.elements.map bare = m.elements.map bare := by
          rw [reference_list, reference_list] at h
          refine map_eq_of_counted_eq ca cb (fun x hx y hy => ?_) h
          exact entry _ x y (mem_stream_list.2 ⟨rfl, hx⟩) (mem_stream_list.2 ⟨htype, hy⟩)
        rw [bare_list, bare_list, htype, elements]
      | _ => cases ht
    | set s =>
      cases b with
      | set u =>
        have htype : s.elementType = u.elementType := by simpa [type?] using ht
        have elements : s.elements.map bare = u.elements.map bare := by
          rw [reference_set, reference_set] at h
          refine map_eq_of_counted_eq ca cb (fun x hx y hy => ?_) h
          exact entry _ x y (mem_stream_set.2 ⟨rfl, hx⟩) (mem_stream_set.2 ⟨htype, hy⟩)
        rw [bare_set, bare_set, htype, elements]
      | _ => cases ht
    | map m =>
      cases b with
      | map n =>
        have htype : m.keyType = n.keyType ∧ m.valueType = n.valueType := by simpa [type?] using ht
        have entries : m.entries.map (fun e => (e.1.bare, e.2.bare)) = n.entries.map fun e => (e.1.bare, e.2.bare) := by
          rw [reference_map, reference_map] at h
          refine map_eq_of_counted_eq ca cb (fun x hx y hy xs ys hxy => ?_) h
          rw [List.append_assoc, List.append_assoc] at hxy
          obtain ⟨hkey, hxy⟩ := entry _ x.1 y.1 (mem_stream_map.2 ⟨x, hx, .inl ⟨rfl, rfl⟩⟩)
            (mem_stream_map.2 ⟨y, hy, .inl ⟨htype.1, rfl⟩⟩) _ _ hxy
          obtain ⟨hvalue, hrest⟩ := entry _ x.2 y.2 (mem_stream_map.2 ⟨x, hx, .inr ⟨rfl, rfl⟩⟩)
            (mem_stream_map.2 ⟨y, hy, .inr ⟨htype.2, rfl⟩⟩) _ _ hxy
          exact ⟨Prod.ext hkey hvalue, hrest⟩
        rw [bare_map, bare_map, htype.1, htype.2, entries]
      | _ => cases ht

end Value

/-! ## From values to bytes -/

/-- Whether the type is one of sets, or of collections that have sets within them. -/
def DataType.containsSet : DataType → Bool
  | scalar _ | custom _ => false
  | list e => e.containsSet
  | set _ => true
  | map k v => k.containsSet || v.containsSet

theorem map_eq_of_map_eq {α β γ : Type} {f : α → β} {g : α → γ} {as bs : List α}
    (h : ∀ a ∈ as, ∀ b, f a = f b → g a = g b) (he : as.map f = bs.map f) : as.map g = bs.map g := by
  induction as generalizing bs with
  | nil => rw [List.map_eq_nil_iff.1 he.symm]
  | cons a as ih =>
    cases bs with
    | nil => cases he
    | cons b bs =>
      obtain ⟨hfirst, hrest⟩ := List.cons.inj he
      rw [List.map_cons, List.map_cons, h a (by simp) b hfirst, ih (fun x hx => h x (by simp [hx])) hrest]

namespace Value

/-- Without sets, values that say the same have the same entries in the same order. -/
theorem bare_eq_of_content_eq {t : DataType} {a b : Value} (ha : a.Typed) (hat : a.type? = some t)
    (ht : t.containsSet = false) (h : a.content = b.content) : a.bare = b.bare := by
  induction a using induction generalizing t b with
  | h a ih =>
    have entry : ∀ u x (y : Value), (u, x) ∈ a.stream → u.containsSet = false → x.content = y.content → x.bare = y.bare := by
      intro u x y hx hu hxy
      obtain ⟨sx, tx⟩ := typed_iff.1 ha u x hx
      exact ih u x hx tx sx.type_eq hu hxy
    cases a with
    | null => cases hat
    | scalar s =>
      cases b with
      | scalar s' => cases h; rfl
      | _ => simp [content] at h
    | list l =>
      cases hat
      cases b with
      | list m =>
        obtain ⟨htype, helements⟩ : l.elementType = m.elementType ∧ l.elements.map content = m.elements.map content := by
          simpa using h
        rw [bare_list, bare_list, htype, map_eq_of_map_eq (fun x hx y => entry _ x y (mem_stream_list.2 ⟨rfl, hx⟩) ht)
          helements]
      | _ => simp [content] at h
    | set s =>
      -- the one form whose content does not tell the order of its entries
      cases hat
      cases ht
    | map m =>
      cases hat
      obtain ⟨hkey, hvalue⟩ := Bool.or_eq_false_iff.1 ht
      cases b with
      | map n =>
        obtain ⟨hk, hv, hentries⟩ : m.keyType = n.keyType ∧ m.valueType = n.valueType ∧
            m.entries.map (fun e => (e.1.content, e.2.content)) = n.entries.map fun e => (e.1.content, e.2.content) := by
          simpa using h
        have entries : m.entries.map (fun e => (e.1.bare, e.2.bare)) = n.entries.map fun e => (e.1.bare, e.2.bare) := by
          refine map_eq_of_map_eq (fun x hx y hxy => ?_) hentries
          obtain ⟨hxk, hxv⟩ := Prod.mk.inj hxy
          exact Prod.ext (entry _ x.1 y.1 (mem_stream_map.2 ⟨x, hx, .inl ⟨rfl, rfl⟩⟩) hkey hxk)
            (entry _ x.2 y.2 (mem_stream_map.2 ⟨x, hx, .inr ⟨rfl, rfl⟩⟩) hvalue hxv)
        rw [bare_map, bare_map, hk, hv, entries]
      | _ => simp [content] at h

/-- Of two values of one type that can be encoded: if they have the same bytes, they are
equal and have the same entries in the same order at every depth, and if they are equal
and there is no set among them, they have the same bytes. -/
theorem encode_faithful {p : Protocol} {t : DataType} {a b : Value} {bs bs' : Bytes} (ha : a.Reachable)
    (hb : b.Reachable) (hat : a.type? = some t) (hbt : b.type? = some t) (ea : a.encode p t = .ok bs)
    (eb : b.encode p t = .ok bs') :
    (bs = bs' → a.equals b = true ∧ a.bare = b.bare) ∧
    (t.containsSet = false → a.equals b = true → bs = bs') := by
  obtain ⟨rfl, fa⟩ := encode_eq_ok ea
  obtain ⟨rfl, fb⟩ := encode_eq_ok eb
  constructor
  · intro h
    have bare := bare_eq_of_reference_eq (hat.trans hbt.symm) ha.typed hb.typed fa fb h
    exact ⟨equals_iff.2 (content_eq_of_bare_eq bare), bare⟩
  · intro ht h
    rw [← reference_bare, bare_eq_of_content_eq ha.typed hat ht (equals_iff.1 h), reference_bare]

/-- A list of one letter, which comes in as a value of the declared type or of another. -/
def letters (letter : Scalar) : Value := (list (.empty (.scalar .varchar))).step (.add (scalar letter))

theorem encode_letters :
    (letters (.text "a")).encode .v2 (.list (.scalar .varchar)) = .ok [0, 1, 0, 1, 97] ∧
    ((letters (.varchar "a")).readAt []).encode .v2 (.list (.scalar .varchar)) = .ok [0, 1, 0, 1, 97] ∧
    (letters (.text "a")).equals ((letters (.varchar "a")).readAt []) = true := by
  have reachable (s : Scalar) : (letters s).Reachable := (Reachable.list _).add (.scalar s)
  have ea : (letters (.text "a")).encode .v2 (.list (.scalar .varchar)) = .ok [0, 1, 0, 1, 97] := by rfl
  have eb : ((letters (.varchar "a")).readAt []).encode .v2 (.list (.scalar .varchar)) = .ok [0, 1, 0, 1, 97] := by rfl
  exact ⟨ea, eb, ((encode_faithful (reachable _) (.read [] (reachable _)) rfl rfl ea eb).1 rfl).1⟩

end Value

end WideColumn
