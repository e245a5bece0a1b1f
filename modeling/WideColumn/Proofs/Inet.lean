import Mathlib
import WideColumn.Inet
import WideColumn.Proofs.Numeral.Grammar
/-!
# Addresses read back from their text

A text in pieces is read piece by piece, as no piece has a separator in it. Of a text with
groups left out the parts before and behind the double colon are told apart by it, as there is
none within them. What is left out is a run of zeros (`Inet.take_longestRun`), and that is
what reading puts there.
-/

namespace WideColumn

theorem mapM_eq_some_iff {α β : Type} {f : α → Option β} {as : List α} {bs : List β} :
    as.mapM f = some bs ↔ List.Forall₂ (fun a b => f a = some b) as bs := by
  induction as generalizing bs with
  | nil => cases bs <;> simp
  | cons a as ih =>
    cases bs with
    | nil => simp [List.mapM_cons, Option.bind_eq_some_iff]
    | cons b bs => simp [List.mapM_cons, Option.bind_eq_some_iff, ← ih]

/-- Every piece is read back, so the list of them is. -/
theorem mapM_map_eq_some {α β : Type} {f : α → Option β} {g : β → α} {bs : List β} (h : ∀ b ∈ bs, f (g b) = some b) :
    (bs.map g).mapM f = some bs := by
  rw [mapM_eq_some_iff, List.forall₂_map_left_iff, List.forall₂_same]
  exact h

/-- What is read has a property that all that can be read have. -/
theorem forall_of_mapM_eq_some {α β : Type} {f : α → Option β} {p : α → Prop} (hp : ∀ a b, f a = some b → p a)
    {as : List α} {bs : List β} (h : as.mapM f = some bs) : ∀ a ∈ as, p a := by
  have hboth := (mapM_eq_some_iff.1 h).imp fun a b hab => And.intro (hp a b hab) hab
  exact ((List.forall₂_and_left _ _).1 hboth).1

namespace Inet

/-! ## Pieces -/

theorem joined_eq (separator : Char) (ps : List (List Char)) : joined separator ps = [separator].intercalate ps := by
  induction ps with
  | nil => rfl
  | cons p ps ih =>
    cases ps with
    | nil => simp [joined]
    | cons q ps => simp [joined, ih, List.intercalate_cons_cons]

theorem pieces_eq (separator : Char) (cs : List Char) : pieces separator cs = cs.splitOn separator := by
  induction cs with
  | nil => rfl
  | cons c cs ih =>
    rw [pieces, ih, List.splitOn_cons_eq_if_modifyHead]
    by_cases hc : c = separator
    · simp [hc]
    · cases hcs : cs.splitOn separator with
      | nil => exact absurd hcs (List.splitOn_ne_nil _ _)
      | cons p ps => simp [hc]

theorem pieces_joined {separator : Char} {ps : List (List Char)} (hne : ps ≠ []) (hps : ∀ p ∈ ps, separator ∉ p) :
    pieces separator (joined separator ps) = ps := by
  rw [pieces_eq, joined_eq, List.splitOn_intercalate separator hps hne]

theorem pieces_of_not_mem {separator : Char} {cs : List Char} (h : separator ∉ cs) : pieces separator cs = [cs] := by
  rw [pieces_eq, List.splitOn_eq_singleton h]

theorem exists_mem_pieces {separator c : Char} {cs : List Char} (hc : c ∈ cs) (hne : c ≠ separator) :
    ∃ p ∈ pieces separator cs, c ∈ p := by
  induction cs with
  | nil => cases hc
  | cons x cs ih =>
    unfold pieces
    rcases List.mem_cons.1 hc with rfl | hc
    · rw [if_neg hne]
      split <;> simp
    · obtain ⟨p, hp, hmem⟩ := ih hc
      split
      · exact ⟨p, List.mem_cons_of_mem _ hp, hmem⟩
      · split
        · next hnil => simp [hnil] at hp
        · next q qs hcons =>
          rw [hcons] at hp
          rcases List.mem_cons.1 hp with rfl | hp
          · exact ⟨x :: p, List.mem_cons_self, List.mem_cons_of_mem _ hmem⟩
          · exact ⟨p, List.mem_cons_of_mem _ hp, hmem⟩

/-! ## Fields -/

theorem length_fields (width count n : Nat) : (fields width count n).length = count := by
  simp [fields]

theorem lt_of_mem_fields {width count n : Nat} : ∀ d ∈ fields width count n, d < 2 ^ width := by
  intro d hd
  obtain ⟨i, -, rfl⟩ := List.mem_map.1 hd
  exact Nat.mod_lt _ (Nat.two_pow_pos width)

theorem fields_succ (width count n : Nat) :
    fields width (count + 1) n = fields width count (n / 2 ^ width) ++ [n % 2 ^ width] := by
  unfold fields
  rw [List.range_succ, List.map_append, List.map_singleton]
  congr 1
  · apply List.map_congr_left
    intro i hi
    have hcount : count + 1 - 1 - i = count - 1 - i + 1 := by
      have := List.mem_range.1 hi
      omega
    rw [hcount, Nat.mul_succ, Nat.add_comm, Nat.shiftRight_add, Nat.shiftRight_eq_div_pow n width]
  · simp

theorem assembled_append_singleton (width : Nat) (ds : List Nat) (d : Nat) :
    assembled width (ds ++ [d]) = assembled width ds * 2 ^ width + d := by
  simp [assembled]

theorem assembled_append (width : Nat) (as bs : List Nat) :
    assembled width (as ++ bs) = assembled width as * 2 ^ (width * bs.length) + assembled width bs := by
  induction bs using List.reverseRecOn with
  | nil => simp [assembled]
  | append_singleton bs b ih =>
    rw [← List.append_assoc, assembled_append_singleton, assembled_append_singleton, ih, List.length_append, List.length_singleton,
      Nat.mul_succ, pow_add]
    ring

/-- The fields of a number make it up again, as far as there are fields. -/
theorem assembled_fields (width count n : Nat) : assembled width (fields width count n) = n % 2 ^ (width * count) := by
  induction count generalizing n with
  | zero => simp [fields, assembled, Nat.mod_one]
  | succ count ih =>
    rw [fields_succ, assembled_append_singleton, ih, Nat.mul_succ, Nat.add_comm (width * count), pow_add, Nat.mod_mul]
    ring

/-! ## Octets -/

/-- No digit zero comes first, except in zero itself. -/
theorem head?_toDigits {n : Nat} (h : 0 < n) : (Nat.toDigits 10 n).head? ≠ some '0' := by
  induction n using Nat.strong_induction_on with
  | _ n ih =>
    by_cases hn : n < 10
    · rw [Nat.toDigits_of_lt_base hn]
      interval_cases n <;> simp [Nat.digitChar]
    · rw [Nat.toDigits_of_base_le (by decide) (by omega), List.head?_append_of_ne_nil _ Nat.toDigits_ne_nil]
      exact ih (n / 10) (by omega) (by omega)

theorem octet?_digits {n : Nat} (h : n < 256) : octet? (Numeral.digits n) = some n := by
  have hlength : (Numeral.digits n).length ≤ 3 := by
    rw [Numeral.digits_eq, Nat.length_toDigits_le_iff (by decide) (by decide)]
    omega
  have hhead : (Numeral.digits n).length = 1 ∨ (Numeral.digits n).head? ≠ some '0' := by
    rw [Numeral.digits_eq]
    rcases Nat.eq_zero_or_pos n with rfl | hpos
    · exact .inl rfl
    · exact .inr (head?_toDigits hpos)
  have hmost : n ≤ 255 := by omega
  simp [octet?, Numeral.natural?_digits, hlength, hhead, hmost]

theorem not_mem_digits {c : Char} (hc : Numeral.isDigit c = false) (n : Nat) : c ∉ Numeral.digits n :=
  (Numeral.allDigits_digits n).not_mem hc

theorem octets?_octetText (bits : BitVec 32) : octets? (octetText bits) = some bits.toNat := by
  have hpieces : pieces '.' (octetText bits) = (fields 8 4 bits.toNat).map Numeral.digits := by
    apply pieces_joined
    · rw [Ne, List.map_eq_nil_iff, ← List.length_eq_zero_iff, length_fields]
      decide
    · intro p hp
      obtain ⟨n, -, rfl⟩ := List.mem_map.1 hp
      exact not_mem_digits rfl n
  have hread : (pieces '.' (octetText bits)).mapM octet? = some (fields 8 4 bits.toNat) := by
    rw [hpieces]
    exact mapM_map_eq_some fun n hn => octet?_digits (lt_of_mem_fields n hn)
  have hvalue : assembled 8 (fields 8 4 bits.toNat) = bits.toNat := by
    rw [assembled_fields, Nat.mod_eq_of_lt bits.isLt]
  simp [octets?, hread, length_fields, hvalue]

theorem allDigits_of_octet? {cs : List Char} {n : Nat} (h : octet? cs = some n) : Numeral.AllDigits cs := by
  simp only [octet?, Option.bind_eq_bind, Option.bind_eq_some_iff] at h
  obtain ⟨m, hm, -⟩ := h
  exact (Numeral.natural?_eq_some_iff.1 hm).allDigits

/-- A text with a colon is none of octets. -/
theorem octets?_eq_none_of_colon {cs : List Char} (h : ':' ∈ cs) : octets? cs = none := by
  rw [Option.eq_none_iff_forall_ne_some]
  intro n hn
  simp only [octets?, Option.bind_eq_bind, Option.bind_eq_some_iff] at hn
  obtain ⟨ns, hns, -⟩ := hn
  obtain ⟨p, hp, hcolon⟩ := exists_mem_pieces h (show ':' ≠ '.' by decide)
  exact (forall_of_mapM_eq_some (fun _ _ => allDigits_of_octet?) hns p hp).not_mem rfl hcolon

/-- A text without points is none of octets. -/
theorem octets?_eq_none_of_no_point {cs : List Char} (h : '.' ∉ cs) : octets? cs = none := by
  unfold octets?
  rw [pieces_of_not_mem h]
  cases hoctet : octet? cs <;> simp [List.mapM_cons, hoctet]

/-! ## Groups -/

theorem exists_values_toDigits (n : Nat) : ∃ ds, (Nat.toDigits 16 n).mapM Bytes.hexValue? = some ds ∧ assembled 4 ds = n := by
  induction n using Nat.strong_induction_on with
  | _ n ih =>
    by_cases hn : n < 16
    · exact ⟨[n], by simp [Nat.toDigits_of_lt_base hn, Bytes.hexValue?_digitChar n hn], by simp [assembled]⟩
    · obtain ⟨ds, hds, hvalue⟩ := ih (n / 16) (by omega)
      have hlast : Bytes.hexValue? (Nat.digitChar (n % 16)) = some (n % 16) := Bytes.hexValue?_digitChar _ (by omega)
      refine ⟨ds ++ [n % 16], ?_, ?_⟩
      · rw [Nat.toDigits_of_base_le (by decide) (by omega), List.mapM_append, hds]
        simp [hlast]
      · rw [assembled_append_singleton, hvalue]
        omega

theorem group?_toDigits {n : Nat} (h : n < 2 ^ 16) : group? (Nat.toDigits 16 n) = some n := by
  obtain ⟨ds, hds, hvalue⟩ := exists_values_toDigits n
  have hlength := (mapM_eq_some_iff.1 hds).length_eq
  have hmost : (Nat.toDigits 16 n).length ≤ 4 := (Nat.length_toDigits_le_iff (by decide) (by decide)).2 h
  have hleast : 0 < (Nat.toDigits 16 n).length := Nat.length_toDigits_pos
  have hcount : 1 ≤ ds.length ∧ ds.length ≤ 4 := by omega
  simp [group?, hds, hcount, hvalue]

theorem not_mem_toDigits {c : Char} (hc : Bytes.hexValue? c = none) (n : Nat) : c ∉ Nat.toDigits 16 n := by
  obtain ⟨ds, hds, -⟩ := exists_values_toDigits n
  have hall := forall_of_mapM_eq_some (p := fun c => Bytes.hexValue? c ≠ none) (by simp_all) hds
  exact fun hmem => hall c hmem hc

theorem groupsOf?_groups (octetsLast : Bool) {ns : List Nat} (h : ∀ n ∈ ns, n < 2 ^ 16) :
    groupsOf? octetsLast (ns.map (Nat.toDigits 16)) = some ns := by
  induction ns with
  | nil => rfl
  | cons n ns ih =>
    obtain ⟨hn, hns⟩ := List.forall_mem_cons.1 h
    have hgroup := group?_toDigits hn
    cases ns with
    | nil =>
      have hoctets := octets?_eq_none_of_no_point (not_mem_toDigits (c := '.') rfl n)
      simp [groupsOf?, hoctets, hgroup]
    | cons m ns =>
      have hrest := ih hns
      rw [List.map_cons] at hrest
      simp [groupsOf?, hgroup, hrest]

theorem group_pieces (ns : List Nat) : ∀ p ∈ ns.map (Nat.toDigits 16), p ≠ [] ∧ ':' ∉ p := by
  intro p hp
  obtain ⟨n, -, rfl⟩ := List.mem_map.1 hp
  exact ⟨Nat.toDigits_ne_nil, not_mem_toDigits rfl n⟩

theorem groups?_groupText (octetsLast : Bool) {ns : List Nat} (h : ∀ n ∈ ns, n < 2 ^ 16) :
    groups? octetsLast (groupText ns) = some ns := by
  cases ns with
  | nil => rfl
  | cons n ns =>
    have hpieces : pieces ':' (groupText (n :: ns)) = (n :: ns).map (Nat.toDigits 16) :=
      pieces_joined (by simp) fun p hp => (group_pieces _ p hp).2
    have hne : groupText (n :: ns) ≠ [] := by
      intro hnil
      rw [hnil, List.map_cons] at hpieces
      exact Nat.toDigits_ne_nil (List.cons.inj hpieces).1.symm
    rw [groups?, if_neg hne, hpieces, groupsOf?_groups octetsLast h]

/-! ## The double colon -/

/-- One colon that stands by itself is passed over. -/
theorem gap?_cons {c : Char} {cs : List Char} (h : c ≠ ':' ∨ cs.head? ≠ some ':') :
    gap? (c :: cs) = (gap? cs).map fun g => (c :: g.1, g.2) := by
  conv_lhs => unfold gap?
  split
  · next heq =>
    cases heq
    simp at h
  · next heq => cases heq
  · next heq =>
    cases heq
    rfl

theorem gap?_append {p : List Char} (hp : ':' ∉ p) (cs : List Char) : gap? (p ++ cs) = (gap? cs).map fun g => (p ++ g.1, g.2) := by
  induction p with
  | nil => simp
  | cons c p ih =>
    have hc : c ≠ ':' := (List.ne_of_not_mem_cons hp).symm
    rw [List.cons_append, gap?_cons (.inl hc), ih (List.not_mem_of_not_mem_cons hp), Option.map_map]
    rfl

/-- There is no double colon within pieces. -/
theorem gap?_joined_append {ps : List (List Char)} (hps : ∀ p ∈ ps, p ≠ [] ∧ ':' ∉ p) (cs : List Char) :
    gap? (joined ':' ps ++ cs) = (gap? cs).map fun g => (joined ':' ps ++ g.1, g.2) := by
  induction ps with
  | nil => simp [joined]
  | cons p ps ih =>
    obtain ⟨⟨-, hp⟩, hrest⟩ := List.forall_mem_cons.1 hps
    cases ps with
    | nil => exact gap?_append hp cs
    | cons q ps =>
      obtain ⟨⟨hq, hcolon⟩, -⟩ := List.forall_mem_cons.1 hrest
      have hhead : (joined ':' (q :: ps) ++ cs).head? ≠ some ':' := by
        obtain ⟨c, q, rfl⟩ := List.exists_cons_of_ne_nil hq
        have hc : c ≠ ':' := (List.ne_of_not_mem_cons hcolon).symm
        cases ps <;> simp [joined, hc]
      have hfront : joined ':' (p :: q :: ps) = p ++ ':' :: joined ':' (q :: ps) := rfl
      rw [hfront, List.append_assoc, List.cons_append, gap?_append hp, gap?_cons (.inr hhead), ih hrest, Option.map_map,
        Option.map_map]
      simp [Function.comp_def]

/-! ## Runs of zeros -/

theorem take_zeroRun (groups : List Nat) : groups.take (zeroRun groups) = List.replicate (zeroRun groups) 0 := by
  have hprefix := List.prefix_iff_eq_take.1 (List.takeWhile_prefix (l := groups) (· = 0))
  unfold zeroRun
  rw [← hprefix, List.eq_replicate_iff]
  exact ⟨rfl, fun n hn => by simpa using List.mem_takeWhile_imp hn⟩

/-- At the start of the longest run there are as many zeros as it is long. -/
theorem take_longestRun (groups : List Nat) (n : Nat) :
    (groups.drop (longestRun groups n).1).take (longestRun groups n).2 = List.replicate (longestRun groups n).2 0 := by
  induction n with
  | zero => simp [longestRun]
  | succ n ih =>
    rw [longestRun]
    split
    · exact take_zeroRun _
    · exact ih

/-! ## Version 6 -/

theorem eightGroups?_groupText {groups : List Nat} (hlength : groups.length = 8) (h : ∀ n ∈ groups, n < 2 ^ 16) :
    eightGroups? (groupText groups) = some groups := by
  have hgap : gap? (groupText groups) = none := by
    have hjoined := gap?_joined_append (group_pieces groups) []
    rwa [List.append_nil] at hjoined
  simp [eightGroups?, hgap, groups?_groupText true h, hlength]

/-- Zeros are put where groups have been left out. -/
theorem eightGroups?_gap {front back : List Nat} {k : Nat} (hlength : front.length + k + back.length = 8) (hk : 0 < k)
    (hfront : ∀ n ∈ front, n < 2 ^ 16) {cs : List Char} (hback : groups? true cs = some back) :
    eightGroups? (groupText front ++ ':' :: ':' :: cs) = some (front ++ List.replicate k 0 ++ back) := by
  have hgap : gap? (groupText front ++ ':' :: ':' :: cs) = some (groupText front, cs) := by
    have hjoined := gap?_joined_append (group_pieces front) (':' :: ':' :: cs)
    rw [groupText, hjoined]
    simp [gap?]
  have hleft : front.length + back.length ≤ 7 := by omega
  have hzeros : 8 - front.length - back.length = k := by omega
  simp [eightGroups?, hgap, groups?_groupText false hfront, hback, hleft, hzeros]

theorem eightGroups?_compressedText {groups : List Nat} (hlength : groups.length = 8) (h : ∀ n ∈ groups, n < 2 ^ 16) :
    eightGroups? (compressedText groups) = some groups := by
  have hrun := take_longestRun groups groups.length
  unfold compressedText
  generalize longestRun groups groups.length = run at hrun ⊢
  obtain ⟨start, length⟩ := run
  dsimp only at hrun ⊢
  split
  · exact eightGroups?_groupText hlength h
  · next hlong =>
    have hcut : groups.take start ++ List.replicate length 0 ++ groups.drop (start + length) = groups := by
      rw [← hrun, ← List.drop_drop, List.append_assoc, List.take_append_drop, List.take_append_drop]
    have hsum : (groups.take start).length + length + (groups.drop (start + length)).length = 8 := by
      have hlengths := congrArg List.length hcut
      rwa [List.length_append, List.length_append, List.length_replicate, hlength] at hlengths
    have hfront : ∀ n ∈ groups.take start, n < 2 ^ 16 := fun n hn => h n (List.mem_of_mem_take hn)
    have hback : ∀ n ∈ groups.drop (start + length), n < 2 ^ 16 := fun n hn => h n (List.mem_of_mem_drop hn)
    rw [eightGroups?_gap hsum (by omega) hfront (groups?_groupText true hback), hcut]

theorem colon_not_mem_octetText (bits : BitVec 32) : ':' ∉ octetText bits := by
  intro hmem
  have hread := octets?_octetText bits
  rw [octets?_eq_none_of_colon hmem] at hread
  cases hread

/-- Octets behind a group are the last two groups. -/
theorem groups?_mapped (bits : BitVec 32) :
    groups? true (['f', 'f', 'f', 'f'] ++ ':' :: octetText bits) = some (0xffff :: fields 16 2 bits.toNat) := by
  have hpieces : pieces ':' (['f', 'f', 'f', 'f'] ++ ':' :: octetText bits) = [['f', 'f', 'f', 'f'], octetText bits] := by
    change pieces ':' (joined ':' [['f', 'f', 'f', 'f'], octetText bits]) = _
    apply pieces_joined
    · simp
    · simp [colon_not_mem_octetText]
  have hgroup : group? ['f', 'f', 'f', 'f'] = some 0xffff := group?_toDigits (n := 0xffff) (by decide)
  rw [groups?, if_neg (by simp), hpieces]
  simp [groupsOf?, hgroup, octets?_octetText]

theorem chars_v6 (bits : BitVec 128) : (v6 bits).chars =
    if bits >>> 32 = 0xffff then ':' :: ':' :: (['f', 'f', 'f', 'f'] ++ ':' :: octetText (bits.setWidth 32))
    else compressedText (fields 16 8 bits.toNat) := by
  have hmark : "::ffff:".toList = [':', ':', 'f', 'f', 'f', 'f', ':'] := rfl
  rw [chars, hmark]
  rfl

/-- The groups that are read make up the address. -/
theorem exists_eightGroups? (bits : BitVec 128) :
    ∃ groups, eightGroups? (v6 bits).chars = some groups ∧ assembled 16 groups = bits.toNat := by
  rw [chars_v6]
  split
  · next hmapped =>
    have hhigh : bits.toNat / 2 ^ 32 = 0xffff := by
      have := congrArg BitVec.toNat hmapped
      rwa [BitVec.toNat_ushiftRight, Nat.shiftRight_eq_div_pow] at this
    have hsum : ([] : List Nat).length + 5 + (0xffff :: fields 16 2 (bits.setWidth 32).toNat).length = 8 := by
      simp [length_fields]
    refine ⟨_, eightGroups?_gap hsum (by decide) (List.forall_mem_nil _) (groups?_mapped (bits.setWidth 32)), ?_⟩
    have hzeros : [] ++ List.replicate 5 0 ++ 0xffff :: fields 16 2 (bits.setWidth 32).toNat =
        [0, 0, 0, 0, 0, 0xffff] ++ fields 16 2 (bits.setWidth 32).toNat := rfl
    have hfront : assembled 16 [0, 0, 0, 0, 0, 0xffff] = 0xffff := by decide
    rw [hzeros, assembled_append, hfront, length_fields, assembled_fields, BitVec.toNat_setWidth]
    omega
  · refine ⟨fields 16 8 bits.toNat, eightGroups?_compressedText (length_fields _ _ _) lt_of_mem_fields, ?_⟩
    rw [assembled_fields, Nat.mod_eq_of_lt bits.isLt]

theorem colon_mem_groupText {ns : List Nat} (h : 2 ≤ ns.length) : ':' ∈ groupText ns := by
  match ns, h with
  | n :: m :: ns, _ => simp [groupText, joined]

theorem colon_mem_compressedText {groups : List Nat} (h : 2 ≤ groups.length) : ':' ∈ compressedText groups := by
  unfold compressedText
  dsimp only
  split
  · exact colon_mem_groupText h
  · simp

theorem colon_mem_chars (bits : BitVec 128) : ':' ∈ (v6 bits).chars := by
  rw [chars_v6]
  split
  · simp
  · apply colon_mem_compressedText
    rw [length_fields]
    decide

/-- Every address is read back from its text. -/
theorem ofText?_text (a : Inet) : ofText? a.text = some a := by
  unfold ofText? text
  rw [String.toList_ofList]
  cases a with
  | v4 bits =>
    have hread : octets? (v4 bits).chars = some bits.toNat := octets?_octetText bits
    rw [hread]
    simp
  | v6 bits =>
    obtain ⟨groups, hread, hvalue⟩ := exists_eightGroups? bits
    rw [octets?_eq_none_of_colon (colon_mem_chars bits), hread]
    simp [hvalue]

end Inet

end WideColumn
