import WideColumn.Proofs.ClassReference.Meaning
/-!
# Blanks in class references

Blanks may stand around a reference and around each parameter, and the texts of two
references may differ in them (`Respaced`). Both are read or none is, and what is read has
the same form (`MarshalClass.Written.respaced`). But a class that is not known stands for
the text of its reference as written, with the blanks in it, so the types are the same only
up to the blanks in the texts of such classes.
-/

namespace WideColumn

namespace MarshalClass

/-- `Respaced opening cs ds`: the texts differ only in blanks where a reference may begin or
end, which is at the end of the texts, before `)` or `,`, behind `(` or `,`, and at their
front if that is marked as an opening. -/
inductive Respaced : Bool → List Char → List Char → Prop where
  | finish {opening : Bool} {b b' : List Char} (hb : Blanks b) (hb' : Blanks b') : Respaced opening b b'
  | step {opening : Bool} {b b' cs ds : List Char} {c : Char} (hb : Blanks b) (hb' : Blanks b')
      (hc : isBlank c = false) (hsame : b = b' ∨ opening = true ∨ c = ')' ∨ c = ',')
      (hrest : Respaced (c == '(' || c == ',') cs ds) : Respaced opening (b ++ c :: cs) (b' ++ c :: ds)

/-- The characters of a text that are no blanks. -/
def solid (cs : List Char) : List Char := cs.filter fun c => !isBlank c

theorem solid_of_blanks {cs : List Char} (h : Blanks cs) : solid cs = [] :=
  List.filter_eq_nil_iff.2 fun c hc => by simp [h c hc]

theorem solid_append (cs ds : List Char) : solid (cs ++ ds) = solid cs ++ solid ds :=
  List.filter_append ..

theorem solid_cons {c : Char} (hc : isBlank c = false) (cs : List Char) : solid (c :: cs) = c :: solid cs :=
  List.filter_cons_of_pos (by simp [hc])

theorem isBlank_eq_false_of_isNameChar {c : Char} (h : isNameChar c = true) : isBlank c = false := by
  by_contra hblank
  rw [isNameChar_eq_false_of_isBlank (by simpa using hblank)] at h
  cases h

/-- No reference begins behind a character of a name, and none ends before one. -/
theorem ne_of_isNameChar {c : Char} (h : isNameChar c = true) : (c == '(' || c == ',') = false ∧ c ≠ ')' ∧ c ≠ ',' := by
  have hmem : c ∉ ['(', ')', ','] := by
    intro hc
    rw [isNameChar_eq_false_of_mem (List.mem_append_left [' ', '\t', '\r', '\n'] hc)] at h
    cases h
  simp only [List.mem_cons, List.not_mem_nil, or_false, not_or] at hmem
  simp [hmem]

theorem solid_of_name {n : List Char} (hn : Name n) : solid n = n :=
  List.filter_eq_self.2 fun c hc => by simp [isBlank_eq_false_of_isNameChar (hn.2 c hc)]

/-! ## Texts that differ in blanks -/

theorem blanks_append {b d : List Char} : Blanks (b ++ d) ↔ Blanks b ∧ Blanks d := List.forall_mem_append

/-- The first character that is no blank determines the blanks before it. -/
theorem blanks_append_inj {b d cs ds : List Char} {c : Char} (hb : Blanks b) (hd : Blanks d) (hc : isBlank c = false)
    {e : Char} (he : isBlank e = false) (h : b ++ c :: cs = d ++ e :: ds) : b = d ∧ c = e ∧ cs = ds := by
  have solid_front {b cs : List Char} {c : Char} (hb : Blanks b) (hc : isBlank c = false) :
      (b ++ c :: cs).takeWhile isBlank = b :=
    takeWhile_run hb (by rintro _ ⟨⟩; exact hc)
  have hfront : (b ++ c :: cs).takeWhile isBlank = b := solid_front hb hc
  obtain rfl : b = d := by rw [← hfront, h, solid_front hd he]
  simpa using h

namespace Respaced

/-- The same character in front of both texts. -/
theorem char {opening : Bool} {cs ds : List Char} {c : Char} (hc : isBlank c = false)
    (h : Respaced (c == '(' || c == ',') cs ds) : Respaced opening (c :: cs) (c :: ds) :=
  have bare : Respaced opening ([] ++ c :: cs) ([] ++ c :: ds) := .step blanks_nil blanks_nil hc (.inl rfl) h
  bare

/-- The same blank in front of both texts. -/
theorem blank {opening : Bool} {cs ds : List Char} {c : Char} (hc : isBlank c = true) (h : Respaced opening cs ds) :
    Respaced opening (c :: cs) (c :: ds) := by
  have blanks {b : List Char} (hb : Blanks b) : Blanks (c :: b) := List.forall_mem_cons.2 ⟨hc, hb⟩
  cases h with
  | finish hb hb' => exact .finish (blanks hb) (blanks hb')
  | step hb hb' he hsame hrest => exact .step (blanks hb) (blanks hb') he (hsame.imp_left (congrArg _)) hrest

theorem refl (opening : Bool) (cs : List Char) : Respaced opening cs cs := by
  induction cs generalizing opening with
  | nil => exact .finish blanks_nil blanks_nil
  | cons c cs ih =>
    cases hc : isBlank c with
    | true => exact blank hc (ih opening)
    | false => exact char hc (ih _)

theorem symm {opening : Bool} {cs ds : List Char} (h : Respaced opening cs ds) : Respaced opening ds cs := by
  induction h with
  | finish hb hb' => exact .finish hb' hb
  | step hb hb' hc hsame _ ih => exact .step hb' hb hc (hsame.imp_left Eq.symm) ih

theorem blanks {opening : Bool} {cs ds : List Char} (h : Respaced opening cs ds) (hcs : Blanks cs) : Blanks ds := by
  cases h with
  | finish _ hb' => exact hb'
  | @step _ b _ _ _ c _ _ hc _ _ =>
    have hblank := hcs c (by simp)
    rw [hc] at hblank
    cases hblank

/-- What there is in the other text for blanks and a character that is none. -/
theorem front {opening : Bool} {b cs ds : List Char} {c : Char} (h : Respaced opening (b ++ c :: cs) ds)
    (hb : Blanks b) (hc : isBlank c = false) :
    ∃ b' ds', ds = b' ++ c :: ds' ∧ Blanks b' ∧ (b = b' ∨ opening = true ∨ c = ')' ∨ c = ',') ∧
      Respaced (c == '(' || c == ',') cs ds' := by
  generalize htext : b ++ c :: cs = text at h
  cases h with
  | finish htext' _ =>
    have hblank := htext' c (by simp [← htext])
    rw [hc] at hblank
    cases hblank
  | @step _ d d' cs' ds' e hd hd' he hsame hrest =>
    obtain ⟨rfl, rfl, rfl⟩ := blanks_append_inj hb hd hc he htext
    exact ⟨d', ds', rfl, hd', hsame, hrest⟩

/-- Nothing comes before a character that goes on with what was before it. -/
theorem next {cs ds : List Char} {c : Char} (h : Respaced false (c :: cs) ds) (hc : isBlank c = false)
    (hinner : c ≠ ')' ∧ c ≠ ',') : ∃ ds', ds = c :: ds' ∧ Respaced (c == '(' || c == ',') cs ds' := by
  obtain ⟨b', ds', rfl, -, hsame, hrest⟩ := front (b := []) h blanks_nil hc
  obtain rfl : [] = b' := by simpa [hinner] using hsame
  exact ⟨ds', rfl, hrest⟩

/-- In front of an opening blanks may be left out. -/
theorem skip {b cs ds : List Char} (h : Respaced true (b ++ cs) ds) (hb : Blanks b) : Respaced true cs ds := by
  generalize htext : b ++ cs = text at h
  cases h with
  | finish htext' hds =>
    subst htext
    exact .finish (blanks_append.1 htext').2 hds
  | @step _ d d' cs' ds' c hd hd' hc hsame hrest =>
    rcases List.append_eq_append_iff.1 htext with ⟨front, rfl, rfl⟩ | ⟨back, rfl, hback⟩
    · exact .step (blanks_append.1 hd).2 hd' hc (.inr (.inl rfl)) hrest
    · cases back with
      | nil =>
        obtain rfl : c :: cs' = cs := by simpa using hback
        exact .step (b := []) blanks_nil hd' hc (.inr (.inl rfl)) hrest
      | cons x back =>
        -- then the character would be one of the blanks
        obtain ⟨rfl, -⟩ := List.cons.inj hback
        have hblank := hb c (by simp)
        rw [hc] at hblank
        cases hblank

/-- The characters of a name stay together. -/
theorem name_rest {n rest ds : List Char} (hn : ∀ c ∈ n, isNameChar c = true) (h : Respaced false (n ++ rest) ds) :
    ∃ rest', ds = n ++ rest' ∧ Respaced false rest rest' := by
  induction n generalizing ds with
  | nil => exact ⟨ds, rfl, h⟩
  | cons c n ih =>
    have hc := hn c List.mem_cons_self
    obtain ⟨hopening, hinner⟩ := ne_of_isNameChar hc
    obtain ⟨ds', rfl, hrest⟩ := next h (isBlank_eq_false_of_isNameChar hc) hinner
    rw [hopening] at hrest
    obtain ⟨rest', rfl, hrest'⟩ := ih (fun c hc => hn c (List.mem_cons_of_mem _ hc)) hrest
    exact ⟨rest', rfl, hrest'⟩

/-- A name at an opening stands in the other text too, with blanks before it. -/
theorem name {n rest ds : List Char} (hn : Name n) (h : Respaced true (n ++ rest) ds) :
    ∃ b rest', ds = b ++ (n ++ rest') ∧ Blanks b ∧ Respaced false rest rest' := by
  obtain ⟨hne, hall⟩ := hn
  cases n with
  | nil => exact absurd rfl hne
  | cons c n =>
    have hc := hall c List.mem_cons_self
    obtain ⟨b, ds', rfl, hb, -, hrest⟩ := front (b := []) h blanks_nil (isBlank_eq_false_of_isNameChar hc)
    rw [(ne_of_isNameChar hc).1] at hrest
    obtain ⟨rest', rfl, hrest'⟩ := name_rest (fun c hc => hall c (List.mem_cons_of_mem _ hc)) hrest
    exact ⟨b, rest', rfl, hb, hrest'⟩

end Respaced

/-! ## References that differ in blanks -/

mutual

/-- The reference with no blanks in its texts. -/
def compact : MarshalClass → MarshalClass
  | mk text name params => mk (solid text) name (compactAll params)

def compactAll : List MarshalClass → List MarshalClass
  | [] => []
  | param :: params => compact param :: compactAll params

end

theorem compactAll_eq (ps : List MarshalClass) : compactAll ps = ps.map compact := by
  induction ps with
  | nil => rfl
  | cons p ps ih => rw [compactAll, ih, List.map_cons]

theorem compact_mk (text name : List Char) (ps : List MarshalClass) :
    (mk text name ps).compact = mk (solid text) name (ps.map compact) := by
  rw [compact, compactAll_eq]

mutual

/-- Where a reference is written in one of two texts, one of the same form is written in the other. -/
theorem Written.respaced {r : MarshalClass} {cs rest ds : List Char} (h : Written r cs)
    (hds : Respaced true (cs ++ rest) ds) :
    ∃ b cs' rest' r', ds = b ++ (cs' ++ rest') ∧ Blanks b ∧ Written r' cs' ∧ r'.compact = r.compact ∧
      solid cs' = solid cs ∧ Respaced false rest rest' := by
  cases h with
  | name hn =>
    obtain ⟨b, rest', rfl, hb, hrest⟩ := Respaced.name hn hds
    exact ⟨b, _, rest', _, rfl, hb, .name hn, rfl, rfl, hrest⟩
  | @params n inner ps hn hps =>
    have happend : n ++ '(' :: (inner ++ [')']) ++ rest = n ++ '(' :: (inner ++ ')' :: rest) := by simp
    rw [happend] at hds
    obtain ⟨b, ds', rfl, hb, hopening⟩ := Respaced.name hn hds
    obtain ⟨ds', rfl, hinner⟩ := Respaced.next hopening rfl (by decide)
    obtain ⟨inner', rest', ps', rfl, hps', hcompact, hsolid, hrest⟩ := hps.respaced hinner
    have hsolid' : solid (n ++ '(' :: (inner' ++ [')'])) = solid (n ++ '(' :: (inner ++ [')'])) := by
      simp only [solid_append, solid_cons (c := '(') rfl, hsolid]
    refine ⟨b, n ++ '(' :: (inner' ++ [')']), rest', _, by simp, hb, .params hn hps', ?_, hsolid', hrest⟩
    rw [compact_mk, compact_mk, hcompact, hsolid']

theorem WrittenAll.respaced {ps : List MarshalClass} {cs rest ds : List Char} (h : WrittenAll ps cs)
    (hds : Respaced true (cs ++ ')' :: rest) ds) :
    ∃ cs' rest' ps', ds = cs' ++ ')' :: rest' ∧ WrittenAll ps' cs' ∧ ps'.map compact = ps.map compact ∧
      solid cs' = solid cs ∧ Respaced false rest rest' := by
  cases h with
  | @last before cs after r hb hr ha =>
    have happend : before ++ (cs ++ after) ++ ')' :: rest = before ++ (cs ++ (after ++ ')' :: rest)) := by simp
    rw [happend] at hds
    obtain ⟨b, cs', rest', r', rfl, hb', hr', hcompact, hsolid, hrest⟩ := hr.respaced (hds.skip hb)
    obtain ⟨after', rest', rfl, ha', -, hrest⟩ := hrest.front ha rfl
    refine ⟨b ++ (cs' ++ after'), rest', [r'], by simp, .last hb' hr' ha', by simp [hcompact], ?_, hrest⟩
    simp only [solid_append, solid_of_blanks hb, solid_of_blanks hb', solid_of_blanks ha, solid_of_blanks ha', hsolid]
  | @more before cs after more r rs hb hr ha hrs =>
    have happend : before ++ (cs ++ (after ++ ',' :: more)) ++ ')' :: rest =
        before ++ (cs ++ (after ++ ',' :: (more ++ ')' :: rest))) := by simp
    rw [happend] at hds
    obtain ⟨b, cs', rest', r', rfl, hb', hr', hcompact, hsolid, hrest⟩ := hr.respaced (hds.skip hb)
    obtain ⟨after', rest', rfl, ha', -, hmore⟩ := hrest.front ha rfl
    obtain ⟨more', rest', rs', rfl, hrs', hcompacts, hsolids, hrest⟩ := hrs.respaced hmore
    refine ⟨b ++ (cs' ++ (after' ++ ',' :: more')), rest', r' :: rs', by simp, .more hb' hr' ha' hrs',
      by simp [hcompact, hcompacts], ?_, hrest⟩
    simp only [solid_append, solid_of_blanks hb, solid_of_blanks hb', solid_of_blanks ha, solid_of_blanks ha',
      solid_cons (c := ',') rfl, hsolid, hsolids]

end

/-- Of two texts that differ in blanks either both are read as references of the same form
or none is. -/
theorem ofText?_respaced {s t : String} {r : MarshalClass} (h : Respaced true s.toList t.toList)
    (hs : ofText? s = some r) : ∃ r', ofText? t = some r' ∧ r'.compact = r.compact := by
  obtain ⟨before, cs, after, htext, hb, hr, ha⟩ := ofText?_eq_some_iff.1 hs
  rw [htext] at h
  obtain ⟨b, cs', after', r', htext', hb', hr', hcompact, -, hafter⟩ := hr.respaced (h.skip hb)
  exact ⟨r', ofText?_eq_some_iff.2 ⟨b, cs', after', htext', hb', hr', hafter.blanks ha⟩, hcompact⟩

end MarshalClass

open MarshalClass

namespace DataType

/-- The type with no blanks in the texts of custom types. -/
def compact : DataType → DataType
  | scalar t => scalar t
  | list e => list e.compact
  | set e => set e.compact
  | map k v => map k.compact v.compact
  | custom n => custom (String.ofList (solid n.toList))

/-- The texts of the custom types in a type. -/
def customTexts : DataType → List String
  | scalar _ => []
  | list e | set e => e.customTexts
  | map k v => k.customTexts ++ v.customTexts
  | custom n => [n]

theorem customTexts_compact (t : DataType) :
    t.compact.customTexts = t.customTexts.map fun n => String.ofList (solid n.toList) := by
  induction t with
  | scalar | custom => rfl
  | list e ih | set e ih => exact ih
  | map k v ihk ihv => simp [compact, customTexts, ihk, ihv]

theorem compact_eq_self {t : DataType} (h : ∀ n ∈ t.customTexts, solid n.toList = n.toList) : t.compact = t := by
  induction t with
  | scalar => rfl
  | list e ih | set e ih => rw [compact, ih h]
  | map k v ihk ihv =>
    rw [compact, ihk fun n hn => h n (List.mem_append_left _ hn), ihv fun n hn => h n (List.mem_append_right _ hn)]
  | custom n => rw [compact, h n (by simp [customTexts]), String.ofList_toList]

end DataType

namespace MarshalClass

/-! ## What they stand for -/

theorem assemble_compact (name text : List Char) (ts : List DataType) :
    (assemble name (solid text) (ts.map DataType.compact)).toOption =
      (assemble name text ts).toOption.map DataType.compact := by
  unfold assemble
  simp only
  cases role (shortName name) with
  | wrapper | list | set => rcases ts with _ | ⟨t, _ | ⟨u, ts⟩⟩ <;> rfl
  | map => rcases ts with _ | ⟨t, _ | ⟨u, _ | ⟨x, ts⟩⟩⟩ <;> rfl
  | scalar => rcases ts with _ | ⟨t, ts⟩ <;> rfl
  | unknown => simp [Except.toOption, DataType.compact]

theorem resolveAll_compact {ps : List MarshalClass}
    (h : ∀ p ∈ ps, p.compact.resolve.toOption = p.resolve.toOption.map DataType.compact) :
    (resolveAll (ps.map compact)).toOption = (resolveAll ps).toOption.map (List.map DataType.compact) := by
  induction ps with
  | nil => rfl
  | cons p ps ih =>
    have hps := ih fun q hq => h q (by simp [hq])
    rw [List.map_cons, resolveAll, resolveAll]
    simp only [Except.toOption_bind, h p (by simp), hps]
    cases p.resolve.toOption with
    | none => rfl
    | some t => cases (resolveAll ps).toOption <;> rfl

/-- Without its blanks a reference stands for the same type without blanks. -/
theorem resolve_compact (r : MarshalClass) : r.compact.resolve.toOption = r.resolve.toOption.map DataType.compact := by
  induction r using induction with
  | h text name params ih =>
    have hparams := resolveAll_compact ih
    rw [compact_mk, resolve, resolve]
    simp only [Except.toOption_bind, hparams]
    cases (resolveAll params).toOption with
    | none => rfl
    | some ts => exact assemble_compact name text ts

/-! ## Texts of custom types -/

mutual

/-- Every reference within one that is written is a name, or has parameters in its text. -/
theorem Written.text_within {r q : MarshalClass} {cs : List Char} (h : Written r cs) (hq : Within q r) :
    Name q.text ∨ '(' ∈ q.text := by
  cases h with
  | name hn =>
    cases hq with
    | self => exact .inl hn
    | param hp => cases hp
  | params hn hps =>
    cases hq with
    | self => exact .inr (by simp [text])
    | param hp hq => exact hps.text_within hp hq

theorem WrittenAll.text_within {ps : List MarshalClass} {p q : MarshalClass} {cs : List Char} (h : WrittenAll ps cs)
    (hp : p ∈ ps) (hq : Within q p) : Name q.text ∨ '(' ∈ q.text := by
  cases h with
  | last _ hr _ =>
    obtain rfl := List.mem_singleton.1 hp
    exact hr.text_within hq
  | more _ hr _ hrs =>
    rcases List.mem_cons.1 hp with rfl | hp
    · exact hr.text_within hq
    · exact hrs.text_within hp hq

end

theorem Denotes.customTexts {r : MarshalClass} {t : DataType} (h : Denotes r t) :
    ∀ n ∈ t.customTexts, ∃ q, Within q r ∧ n = String.ofList q.text := by
  induction h with
  | wrapper _ _ ih | list _ _ ih | set _ _ ih =>
    intro n hn
    obtain ⟨q, hq, hn⟩ := ih n hn
    exact ⟨q, .param (by simp) hq, hn⟩
  | map _ _ _ ihp ihq =>
    intro n hn
    rcases List.mem_append.1 hn with hn | hn
    · obtain ⟨q, hq, hn⟩ := ihp n hn
      exact ⟨q, .param (by simp) hq, hn⟩
    · obtain ⟨q, hq, hn⟩ := ihq n hn
      exact ⟨q, .param (by simp) hq, hn⟩
  | scalar => simp [DataType.customTexts]
  | unknown =>
    intro n hn
    exact ⟨_, .self, List.mem_singleton.1 hn⟩

end MarshalClass

namespace DataType

/-- The text of a custom type is the name of a class, or it has parameters. -/
theorem customTexts_of_ok {s : String} {t : DataType} (h : ofClassReference s = .ok t) :
    ∀ n ∈ t.customTexts, Name n.toList ∨ '(' ∈ n.toList := by
  obtain ⟨r, hr, ht⟩ := ofClassReference_eq_ok_iff.1 h
  obtain ⟨_, cs, _, -, -, hwritten, -⟩ := ofText?_eq_some_iff.1 hr
  intro n hn
  obtain ⟨q, hq, rfl⟩ := (resolve_eq_ok_iff.1 ht).2.customTexts n hn
  simpa using hwritten.text_within hq

theorem compact_of_respaced {s₁ s₂ : String} {t₁ : DataType} (h : Respaced true s₁.toList s₂.toList)
    (h₁ : ofClassReference s₁ = .ok t₁) : ∃ t₂, ofClassReference s₂ = .ok t₂ ∧ t₂.compact = t₁.compact := by
  obtain ⟨r₁, hr₁, ht₁⟩ := ofClassReference_eq_ok_iff.1 h₁
  obtain ⟨r₂, hr₂, hcompact⟩ := ofText?_respaced h hr₁
  have hresolve : r₂.resolve.toOption.map compact = some t₁.compact := by
    rw [← resolve_compact, hcompact, resolve_compact, ht₁]
    rfl
  obtain ⟨t₂, ht₂, ht⟩ := Option.map_eq_some_iff.1 hresolve
  exact ⟨t₂, ofClassReference_eq_ok_iff.2 ⟨r₂, hr₂, Except.toOption_eq_some_iff.1 ht₂⟩, ht⟩

/-- A type with no parameters in the texts of its custom types has no blanks in them. -/
theorem compact_eq_self_of_ok {s : String} {t : DataType} (h : ofClassReference s = .ok t)
    (hplain : ∀ n ∈ t.customTexts, '(' ∉ n.toList) : t.compact = t :=
  compact_eq_self fun n hn => solid_of_name ((customTexts_of_ok h n hn).resolve_right (hplain n hn))

/-- Of two texts of a class reference that differ only in blanks around the reference and
around its parameters both stand for types or none does. The types differ at most in the
blanks in the texts of custom types, and not at all if no such text has parameters. -/
theorem ofClassReference_respaced {s₁ s₂ : String} (h : Respaced true s₁.toList s₂.toList) :
    ((∃ t, ofClassReference s₁ = .ok t) ↔ ∃ t, ofClassReference s₂ = .ok t) ∧
    ∀ t₁ t₂, ofClassReference s₁ = .ok t₁ → ofClassReference s₂ = .ok t₂ →
      t₁.compact = t₂.compact ∧ ((∀ n ∈ t₁.customTexts, '(' ∉ n.toList) → t₁ = t₂) := by
  have carried {s₁ s₂ : String} (h : Respaced true s₁.toList s₂.toList) :
      (∃ t, ofClassReference s₁ = .ok t) → ∃ t, ofClassReference s₂ = .ok t := by
    rintro ⟨t₁, h₁⟩
    obtain ⟨t₂, h₂, -⟩ := compact_of_respaced h h₁
    exact ⟨t₂, h₂⟩
  refine ⟨⟨carried h, carried h.symm⟩, fun t₁ t₂ h₁ h₂ => ?_⟩
  obtain ⟨t₂', h₂', hcompact⟩ := compact_of_respaced h h₁
  obtain rfl : t₂ = t₂' := Except.ok.inj (h₂.symm.trans h₂')
  refine ⟨hcompact.symm, fun hplain => ?_⟩
  have hplain' : ∀ n ∈ t₂.customTexts, '(' ∉ n.toList := by
    intro n hn hparen
    -- the text without its blanks is among those of the first type, and still has the parenthesis
    have hsolid : String.ofList (solid n.toList) ∈ t₁.customTexts := by
      rw [← compact_eq_self_of_ok h₁ hplain, ← hcompact, customTexts_compact]
      exact List.mem_map_of_mem hn
    refine hplain _ hsolid ?_
    rw [String.toList_ofList]
    exact List.mem_filter.2 ⟨hparen, rfl⟩
  rw [← compact_eq_self_of_ok h₁ hplain, ← hcompact, compact_eq_self_of_ok h₂ hplain']

/-! ## A class that is not known -/

/-- A class that is not known, with a parameter that is not known and the blanks `b` before it. -/
def fooBar (b : String) : String := "Foo(" ++ b ++ "Bar)"

theorem respaced_fooBar {b : String} (hb : Blanks b.toList) : Respaced true (fooBar "").toList (fooBar b).toList := by
  have inner : Respaced true "Bar)".toList (b.toList ++ "Bar)".toList) := (Respaced.refl _ _).skip hb
  have texts (b : String) : (fooBar b).toList = 'F' :: 'o' :: 'o' :: '(' :: (b.toList ++ "Bar)".toList) := by simp [fooBar]
  rw [texts, texts]
  exact .char rfl (.char rfl (.char rfl (.char rfl inner)))

theorem ofClassReference_fooBar {b : String} (hb : Blanks b.toList) :
    ofClassReference (fooBar b) = .ok (.custom (fooBar b)) := by
  have bar : Written _ "Bar".toList := .name (name_of_alphanum (by simp) (by simp))
  have foo := Written.params (name_of_alphanum (n := "Foo".toList) (by simp) (by simp)) (.last hb bar blanks_nil)
  have proper_bar : Proper (mk "Bar".toList "Bar".toList []) := proper_of_unknown rfl (by simp)
  have text : String.ofList ("Foo".toList ++ '(' :: (b.toList ++ ("Bar".toList ++ []) ++ [')'])) = fooBar b := by
    apply String.toList_inj.1
    simp [fooBar]
  rw [← text]
  refine ofClassReference_eq_ok_iff.2 ⟨_, ofText?_eq_some_iff.2 ⟨[], _, [], ?_, blanks_nil, foo, blanks_nil⟩,
    resolve_eq_ok_iff.2 ⟨proper_of_unknown rfl (by simpa using proper_bar), .unknown rfl⟩⟩
  simp

theorem blanks_space : Blanks " ".toList := by simp [Blanks, isBlank]

/-- The text of a class that is not known is kept as it is written, so blanks in it make a
different type. -/
theorem ofClassReference_keeps_blanks : ¬∀ s₁ s₂ : String, Respaced true s₁.toList s₂.toList →
    ((∃ t, ofClassReference s₁ = .ok t) ↔ ∃ t, ofClassReference s₂ = .ok t) ∧
    ∀ t₁ t₂, ofClassReference s₁ = .ok t₁ → ofClassReference s₂ = .ok t₂ → t₁ = t₂ := by
  intro h
  have same := (h _ _ (respaced_fooBar blanks_space)).2 _ _ (ofClassReference_fooBar blanks_nil)
    (ofClassReference_fooBar blanks_space)
  have differ : fooBar "" ≠ fooBar " " := by decide +kernel
  exact differ (DataType.custom.inj same)

/-- Blanks in the text of a custom type are all that makes two types differ, and around a class
that is known none is kept. -/
theorem ofClassReference_respaced_fooBar :
    (custom (fooBar "")).compact = (custom (fooBar " ")).compact ∧
    ofClassReference "Int32Type" = .ok (.scalar .int) ∧ ofClassReference " Int32Type" = .ok (.scalar .int) := by
  have foo := ((ofClassReference_respaced (respaced_fooBar blanks_space)).2 _ _ (ofClassReference_fooBar blanks_nil)
    (ofClassReference_fooBar blanks_space)).1
  have proper : Proper (mk "Int32Type".toList "Int32Type".toList []) := proper_of_length rfl rfl (by simp)
  have int : ofClassReference "Int32Type" = .ok (.scalar .int) :=
    ofClassReference_eq_ok_iff.2 ⟨_, ofText?_eq_some_iff.2 ⟨[], "Int32Type".toList, [], by simp, blanks_nil,
      .name (name_of_alphanum (by simp) (by simp)), blanks_nil⟩,
      resolve_eq_ok_iff.2 ⟨proper, .scalar rfl⟩⟩
  have respaced : Respaced true "Int32Type".toList " Int32Type".toList := by
    have text : " Int32Type".toList = " ".toList ++ "Int32Type".toList := by simp
    rw [text]
    exact (Respaced.refl _ _).skip blanks_space
  obtain ⟨carried, same⟩ := ofClassReference_respaced respaced
  obtain ⟨t, ht⟩ := carried.1 ⟨_, int⟩
  have plain : ∀ n ∈ (scalar .int).customTexts, '(' ∉ n.toList := by simp [customTexts]
  obtain rfl := (same _ _ int ht).2 plain
  exact ⟨foo, int, ht⟩

end DataType

end WideColumn
