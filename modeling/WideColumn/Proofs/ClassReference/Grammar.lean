import Mathlib
import WideColumn.MarshalClass
/-!
# The grammar of class references

The reader decides early: whatever could be a list of parameters is tried as one, and what
fails is left for others. The grammar that it reads knows nothing of that, and still the
reader accepts the same texts (`MarshalClass.ofText?_eq_some_iff`): after a reference there is
only one way to go on.
-/

namespace WideColumn

theorem Text.isAlphanumeric_iff {c : Char} :
    isAlphanumeric c = true ↔ ∃ r ∈ alphanumericRanges.toList, r.1 ≤ c.toNat ∧ c.toNat ≤ r.2 := by
  unfold isAlphanumeric inRanges
  rw [← Array.any_toList, List.any_eq_true]
  simp only [Bool.and_eq_true, decide_eq_true_eq]

/-- The digit zero comes first among letters and numbers. -/
theorem Text.le_toNat_of_isAlphanumeric {c : Char} (h : isAlphanumeric c = true) : 0x30 ≤ c.toNat := by
  have hranges : ∀ r ∈ alphanumericRanges.toList, 0x30 ≤ r.1 := by decide +kernel
  obtain ⟨r, hr, hlower, -⟩ := isAlphanumeric_iff.1 h
  exact (hranges r hr).trans hlower

theorem Text.isAlphanumeric_of_isAlphanum {c : Char} (h : c.isAlphanum = true) : isAlphanumeric c = true := by
  have hranges : alphanumericRanges.toList.take 3 = [(0x30, 0x39), (0x41, 0x5a), (0x61, 0x7a)] := rfl
  have mem {r : Nat × Nat} (hr : r ∈ [(0x30, 0x39), (0x41, 0x5a), (0x61, 0x7a)]) : r ∈ alphanumericRanges.toList :=
    List.mem_of_mem_take (hranges ▸ hr)
  simp only [Char.isAlphanum, Char.isAlpha, Char.isUpper, Char.isLower, Char.isDigit, Bool.or_eq_true,
    Bool.and_eq_true, decide_eq_true_eq] at h
  rcases h with (hupper | hlower) | hdigit
  · exact isAlphanumeric_iff.2 ⟨(0x41, 0x5a), mem (by simp), hupper⟩
  · exact isAlphanumeric_iff.2 ⟨(0x61, 0x7a), mem (by simp), hlower⟩
  · exact isAlphanumeric_iff.2 ⟨(0x30, 0x39), mem (by simp), hdigit⟩

namespace MarshalClass

/-! ## Grammar -/

/-- A run of name characters. None of the characters that may follow a name in the grammar is one, so the
run goes as far as it can. -/
def Name (cs : List Char) : Prop := cs ≠ [] ∧ ∀ c ∈ cs, isNameChar c = true

def Blanks (cs : List Char) : Prop := ∀ c ∈ cs, isBlank c = true

theorem name_of_alphanum {n : List Char} (hne : n ≠ []) (hn : ∀ c ∈ n, c.isAlphanum = true) : Name n :=
  ⟨hne, fun c hc => by simp [isNameChar, Text.isAlphanumeric_of_isAlphanum (hn c hc)]⟩

theorem blanks_nil : Blanks [] := List.forall_mem_nil _

mutual

/-- `Written r cs`: the reference `r` is written as `cs`. -/
inductive Written : MarshalClass → List Char → Prop where
  | name {n : List Char} (hn : Name n) : Written (mk n n []) n
  | params {n cs : List Char} {ps : List MarshalClass} (hn : Name n) (hps : WrittenAll ps cs) :
    Written (mk (n ++ '(' :: (cs ++ [')'])) n ps) (n ++ '(' :: (cs ++ [')']))

/-- References with commas between them, each with blanks around it. -/
inductive WrittenAll : List MarshalClass → List Char → Prop where
  | last {before cs after : List Char} {r : MarshalClass} (hb : Blanks before) (hr : Written r cs) (ha : Blanks after) :
    WrittenAll [r] (before ++ (cs ++ after))
  | more {before cs after ds : List Char} {r : MarshalClass} {rs : List MarshalClass} (hb : Blanks before)
    (hr : Written r cs) (ha : Blanks after) (hrs : WrittenAll rs ds) :
    WrittenAll (r :: rs) (before ++ (cs ++ (after ++ ',' :: ds)))

end

/-! ## Characters -/

theorem isNameChar_eq_false_of_mem {c : Char} (h : c ∈ ['(', ')', ',', ' ', '\t', '\r', '\n']) :
    isNameChar c = false := by
  have hsmall : ∀ c ∈ ['(', ')', ',', ' ', '\t', '\r', '\n'], c.toNat < 0x30 ∧ c ≠ '_' ∧ c ≠ '.' ∧ c ≠ '$' := by simp
  obtain ⟨hlt, h₁, h₂, h₃⟩ := hsmall c h
  have halphanumeric : Text.isAlphanumeric c = false := by
    by_contra hne
    have hle := Text.le_toNat_of_isAlphanumeric (by simpa using hne)
    omega
  simp [isNameChar, halphanumeric, h₁, h₂, h₃]

theorem isNameChar_eq_false_of_isBlank {c : Char} (h : isBlank c = true) : isNameChar c = false := by
  apply isNameChar_eq_false_of_mem
  simp only [isBlank, Bool.or_eq_true, beq_iff_eq] at h
  rcases h with ((rfl | rfl) | rfl) | rfl <;> simp

section Runs

variable {p : Char → Bool} {run rest : List Char}

theorem takeWhile_run (hrun : ∀ c ∈ run, p c = true) (hrest : ∀ c ∈ rest.head?, p c = false) :
    (run ++ rest).takeWhile p = run := by
  rw [List.takeWhile_append_of_pos hrun]
  cases rest with
  | nil => simp
  | cons c rest => simp [hrest c rfl]

theorem dropWhile_run (hrun : ∀ c ∈ run, p c = true) (hrest : ∀ c ∈ rest.head?, p c = false) :
    (run ++ rest).dropWhile p = rest := by
  rw [List.dropWhile_append_of_pos hrun]
  cases rest with
  | nil => rfl
  | cons c rest => simp [hrest c rfl]

end Runs

theorem blanks_takeWhile (cs : List Char) : Blanks (cs.takeWhile isBlank) :=
  fun _ hc => List.mem_takeWhile_imp hc

theorem name_takeWhile {cs : List Char} (h : cs.takeWhile isNameChar ≠ []) : Name (cs.takeWhile isNameChar) :=
  ⟨h, fun _ hc => List.mem_takeWhile_imp hc⟩

/-! ## Readings -/

theorem Reading.followedBy?_eq_some_iff {α : Type} {text : List Char} {x y : Reading α text} {c : Char} :
    x.followedBy? c = some y ↔ x.value = y.value ∧ x.rest = c :: y.rest := by
  obtain ⟨value, rest, _⟩ := x
  obtain ⟨value', rest', _⟩ := y
  cases rest with
  | nil => simp [followedBy?]
  | cons d rest =>
    simp only [followedBy?, Option.ite_none_right_eq_some, Option.some.injEq, Reading.mk.injEq, List.cons.injEq]
    tauto

theorem Reading.followedBy?_eq_none_iff {α : Type} {text : List Char} {x : Reading α text} {c : Char} :
    x.followedBy? c = none ↔ x.rest.head? ≠ some c := by
  obtain ⟨value, rest, _⟩ := x
  cases rest with
  | nil => simp [followedBy?]
  | cons d rest => simp [followedBy?]

theorem parseOpening_eq_some_iff {cs : List Char} {x : Reading Unit cs} : parseOpening cs = some x ↔ cs = '(' :: x.rest := by
  obtain ⟨_, rest, _⟩ := x
  unfold parseOpening
  split
  · simp
  · next hnot =>
    simp only [reduceCtorEq, false_iff]
    exact hnot rest

/-! ## What is read is written -/

theorem parameter_split {cs read rest : List Char} (h : cs.dropWhile isBlank = read ++ rest) :
    cs = cs.takeWhile isBlank ++ (read ++ (rest.takeWhile isBlank ++ rest.dropWhile isBlank)) := by
  rw [List.takeWhile_append_dropWhile, ← h, List.takeWhile_append_dropWhile]

theorem take_read (read rest : List Char) : (read ++ rest).take ((read ++ rest).length - rest.length) = read := by simp

/-- A reading takes off the front of the text what its value is written as, by the recursion of the reader. -/
theorem readings_written :
    (∀ cs x, parse cs = some x → ∃ read, cs = read ++ x.rest ∧ Written x.value read) ∧
    (∀ cs x, parseParams cs = some x → ∃ read, cs = '(' :: (read ++ ')' :: x.rest) ∧ WrittenAll x.value read) ∧
    (∀ cs x, parseList cs = some x → ∃ read, cs = read ++ x.rest ∧ WrittenAll x.value read) := by
  have last {cs : List Char} {x : Reading MarshalClass (cs.dropWhile isBlank)}
      (h : ∃ read, cs.dropWhile isBlank = read ++ x.rest ∧ Written x.value read) :
      ∃ read, cs = read ++ x.skipBlanks.rest ∧ WrittenAll [x.skipBlanks.value] read := by
    obtain ⟨read, hread, hwritten⟩ := h
    refine ⟨_, ?_, .last (blanks_takeWhile cs) hwritten (blanks_takeWhile x.rest)⟩
    rw [List.append_assoc, List.append_assoc]
    exact parameter_split hread
  apply parse.mutual_induct
  case case1 =>
    intro cs name hname x h
    rw [parse, dif_pos hname] at h
    cases h
  case case2 =>
    intro cs name hname _ hparams _ x h
    rw [parse, dif_neg hname] at h
    simp only [hparams] at h
    cases h
    exact ⟨name, List.takeWhile_append_dropWhile.symm, .name (name_takeWhile hname)⟩
  case case3 =>
    intro cs name hname _ params hparams ih x h
    rw [parse, dif_neg hname] at h
    simp only [hparams] at h
    cases h
    obtain ⟨read, hread, hwritten⟩ := ih _ hparams
    have hcs : cs = (name ++ '(' :: (read ++ [')'])) ++ params.rest := calc
      cs = name ++ cs.dropWhile isNameChar := List.takeWhile_append_dropWhile.symm
      _ = name ++ '(' :: (read ++ ')' :: params.rest) := congrArg (name ++ ·) hread
      _ = _ := by simp
    have htext : cs.take (cs.length - params.rest.length) = name ++ '(' :: (read ++ [')']) :=
      (congrArg (fun cs => cs.take (cs.length - params.rest.length)) hcs).trans (take_read _ _)
    refine ⟨_, hcs, ?_⟩
    rw [htext]
    exact .params (name_takeWhile hname) hwritten
  case case4 =>
    intro cs hopening x h
    rw [parseParams] at h
    simp only [hopening] at h
    cases h
  case case5 =>
    intro cs opening hopening hparams _ x h
    rw [parseParams] at h
    simp only [hopening, hparams] at h
    cases h
  case case6 =>
    intro cs opening hopening params hparams ih x h
    rw [parseParams] at h
    simp only [hopening, hparams] at h
    cases h
    obtain ⟨list, hlist, hclosing⟩ := Option.bind_eq_some_iff.1 hparams
    obtain ⟨hvalue, hrest⟩ := Reading.followedBy?_eq_some_iff.1 hclosing
    obtain ⟨read, hread, hwritten⟩ := ih _ hlist
    rw [hrest] at hread
    rw [hvalue] at hwritten
    exact ⟨read, hread ▸ parseOpening_eq_some_iff.1 hopening, hwritten⟩
  case case7 =>
    intro cs _ hparam _ x h
    rw [parseList] at h
    simp only [hparam] at h
    cases h
  case case8 =>
    intro cs _ param hparam _ hcomma ih x h
    rw [parseList] at h
    simp only [hparam, hcomma] at h
    cases h
    obtain ⟨_, hparse, rfl⟩ := Option.map_eq_some_iff.1 hparam
    exact last (ih _ hparse)
  case case9 =>
    intro cs _ param hparam _ comma hcomma _ hparams ih _ x h
    rw [parseList] at h
    simp only [hparam, hcomma, hparams] at h
    cases h
    obtain ⟨_, hparse, rfl⟩ := Option.map_eq_some_iff.1 hparam
    exact last (ih _ hparse)
  case case10 =>
    intro cs _ param hparam _ comma hcomma _ params hparams ih₁ ih₂ x h
    rw [parseList] at h
    simp only [hparam, hcomma, hparams] at h
    cases h
    obtain ⟨param, hparse, rfl⟩ := Option.map_eq_some_iff.1 hparam
    obtain ⟨read, hread, hwritten⟩ := ih₁ _ hparse
    obtain ⟨reads, hreads, hwrittens⟩ := ih₂ _ hparams
    have hcs := parameter_split hread
    have hrest : param.rest.dropWhile isBlank = ',' :: (reads ++ params.rest) :=
      hreads ▸ (Reading.followedBy?_eq_some_iff.1 hcomma).2
    rw [hrest] at hcs
    exact ⟨_, by simpa using hcs, .more (blanks_takeWhile cs) hwritten (blanks_takeWhile param.rest) hwrittens⟩

/-! ## What is written is read -/

theorem Written.head {r : MarshalClass} {cs : List Char} (h : Written r cs) (rest : List Char) :
    ∃ c ds, cs ++ rest = c :: ds ∧ isNameChar c = true := by
  have name_head {n : List Char} (hn : Name n) (rest : List Char) : ∃ c ds, n ++ rest = c :: ds ∧ isNameChar c = true := by
    obtain ⟨hne, hall⟩ := hn
    cases n with
    | nil => exact absurd rfl hne
    | cons c n => exact ⟨c, n ++ rest, rfl, hall c List.mem_cons_self⟩
  cases h with
  | name hn => exact name_head hn rest
  | params hn _ =>
    rw [List.append_assoc]
    exact name_head hn _

/-- What may follow a reference: nothing that its name or its parameters could go on with. -/
def Ends (rest : List Char) : Prop := ∀ c ∈ rest.head?, isNameChar c = false ∧ c ≠ '('

theorem ends_cons {c : Char} {rest : List Char} (h : c = ',' ∨ c = ')') : Ends (c :: rest) := by
  rintro _ ⟨⟩
  refine ⟨isNameChar_eq_false_of_mem ?_, ?_⟩ <;> rcases h with rfl | rfl <;> simp

theorem ends_append {blanks rest : List Char} (hb : Blanks blanks) (hrest : Ends rest) : Ends (blanks ++ rest) := by
  cases blanks with
  | nil => exact hrest
  | cons b blanks =>
    rintro _ ⟨⟩
    have hblank : isBlank b = true := hb b List.mem_cons_self
    refine ⟨isNameChar_eq_false_of_isBlank hblank, ?_⟩
    rintro rfl
    cases hblank

/-- The value of a reading with what follows it. -/
def Reading.parts {α : Type} {cs : List Char} (x : Reading α cs) : α × List Char := (x.value, x.rest)

theorem map_parts_eq_some_iff {α : Type} {cs rest : List Char} {o : Option (Reading α cs)} {a : α} :
    o.map Reading.parts = some (a, rest) ↔ ∃ x, o = some x ∧ x.value = a ∧ x.rest = rest := by
  simp only [Option.map_eq_some_iff, Reading.parts, Prod.mk.injEq]

theorem parseParams_eq_none {cs : List Char} (h : Ends cs) : parseParams cs = none := by
  have hopening : parseOpening cs = none := by
    rw [Option.eq_none_iff_forall_not_mem]
    intro x hx
    rw [parseOpening_eq_some_iff.1 hx] at h
    exact (h '(' rfl).2 rfl
  rw [parseParams]
  simp only [hopening]

section Forward

variable {n after : List Char} (hn : Name n) (hafter : ∀ c ∈ after.head?, isNameChar c = false)

include hn hafter

theorem parse_of_no_params (h : parseParams after = none) :
    (parse (n ++ after)).map Reading.parts = some (mk n n [], after) := by
  have htake : (n ++ after).takeWhile isNameChar = n := takeWhile_run hn.2 hafter
  have hdrop : (n ++ after).dropWhile isNameChar = after := dropWhile_run hn.2 hafter
  have hnone : parseParams ((n ++ after).dropWhile isNameChar) = none := by rw [hdrop, h]
  rw [parse, dif_neg (by rw [htake]; exact hn.1)]
  simp only [hnone, htake, hdrop]
  rfl

theorem parse_of_params {ps : List MarshalClass} {rest : List Char}
    (h : (parseParams after).map Reading.parts = some (ps, rest)) :
    (parse (n ++ after)).map Reading.parts =
      some (mk ((n ++ after).take ((n ++ after).length - rest.length)) n ps, rest) := by
  have htake : (n ++ after).takeWhile isNameChar = n := takeWhile_run hn.2 hafter
  have hdrop : (n ++ after).dropWhile isNameChar = after := dropWhile_run hn.2 hafter
  obtain ⟨x, hps, rfl, rfl⟩ := map_parts_eq_some_iff.1 (by rw [hdrop, h] :
    (parseParams ((n ++ after).dropWhile isNameChar)).map Reading.parts = some (ps, rest))
  rw [parse, dif_neg (by rw [htake]; exact hn.1)]
  simp only [hps, htake]
  rfl

end Forward

theorem parseParams_of_list {inner rest : List Char} {ps : List MarshalClass}
    (h : (parseList inner).map Reading.parts = some (ps, ')' :: rest)) :
    (parseParams ('(' :: inner)).map Reading.parts = some (ps, rest) := by
  obtain ⟨x, hlist, rfl, hrest⟩ := map_parts_eq_some_iff.1 h
  have hshorter : rest.length < inner.length := by
    have hlt := x.shorter
    rw [hrest] at hlt
    exact Nat.lt_of_succ_lt hlt
  have hclosing : (parseList inner).bind (Reading.followedBy? · ')') = some ⟨x.value, rest, hshorter⟩ := by
    rw [hlist]
    exact Reading.followedBy?_eq_some_iff.2 ⟨rfl, hrest⟩
  have hopening : parseOpening ('(' :: inner) = some ⟨(), inner, Nat.lt_succ_self _⟩ := rfl
  rw [parseParams]
  simp only [hopening, hclosing]
  rfl

section ForwardList

variable {cs rest : List Char} {r : MarshalClass}

theorem parseList_last (hr : (parse (cs.dropWhile isBlank)).map Reading.parts = some (r, rest))
    (hrest : (rest.dropWhile isBlank).head? ≠ some ',') :
    (parseList cs).map Reading.parts = some ([r], rest.dropWhile isBlank) := by
  obtain ⟨x, hparse, rfl, rfl⟩ := map_parts_eq_some_iff.1 hr
  have hcomma : x.skipBlanks.followedBy? ',' = none := Reading.followedBy?_eq_none_iff.2 hrest
  rw [parseList]
  simp only [hparse, Option.map_some, hcomma]
  rfl

theorem parseList_more {more rest' : List Char} {rs : List MarshalClass}
    (hr : (parse (cs.dropWhile isBlank)).map Reading.parts = some (r, rest)) (hrest : rest.dropWhile isBlank = ',' :: more)
    (hrs : (parseList more).map Reading.parts = some (rs, rest')) :
    (parseList cs).map Reading.parts = some (r :: rs, rest') := by
  obtain ⟨x, hparse, rfl, rfl⟩ := map_parts_eq_some_iff.1 hr
  obtain ⟨y, hparams, rfl, rfl⟩ := map_parts_eq_some_iff.1 hrs
  have hshorter : more.length < (cs.dropWhile isBlank).length := by
    have hlt := x.skipBlanks.shorter
    rw [show x.skipBlanks.rest = ',' :: more from hrest] at hlt
    exact Nat.lt_of_succ_lt hlt
  have hcomma : x.skipBlanks.followedBy? ',' = some ⟨x.value, more, hshorter⟩ :=
    Reading.followedBy?_eq_some_iff.2 ⟨rfl, hrest⟩
  rw [parseList]
  simp only [hparse, Option.map_some, hcomma, hparams]
  rfl

end ForwardList

/-- The blanks before a parameter are skipped, as no reference begins with one. -/
theorem dropWhile_parameter {before cs : List Char} {r : MarshalClass} (hb : Blanks before) (hr : Written r cs)
    (rest : List Char) : (before ++ (cs ++ rest)).dropWhile isBlank = cs ++ rest := by
  obtain ⟨c, ds, hhead, hc⟩ := hr.head rest
  apply dropWhile_run hb
  rw [hhead]
  rintro _ ⟨⟩
  by_contra hblank
  rw [isNameChar_eq_false_of_isBlank (by simpa using hblank)] at hc
  cases hc

mutual

/-- A reference is read as it is written, whatever follows it that could not belong to it. -/
theorem Written.read {r : MarshalClass} {cs : List Char} (h : Written r cs) {rest : List Char} (hrest : Ends rest) :
    (parse (cs ++ rest)).map Reading.parts = some (r, rest) := by
  cases h with
  | name hn => exact parse_of_no_params hn (fun c hc => (hrest c hc).1) (parseParams_eq_none hrest)
  | @params n inner ps hn hps =>
    have hparams : (parseParams ('(' :: (inner ++ ')' :: rest))).map Reading.parts = some (ps, rest) :=
      parseParams_of_list (hps.read rest)
    have hparen : ∀ c ∈ ('(' :: (inner ++ ')' :: rest)).head?, isNameChar c = false := by
      rintro _ ⟨⟩
      exact isNameChar_eq_false_of_mem (by simp)
    have hparse := parse_of_params hn hparen hparams
    have happend : n ++ '(' :: (inner ++ ')' :: rest) = (n ++ '(' :: (inner ++ [')'])) ++ rest := by simp
    rw [happend, take_read] at hparse
    exact hparse

theorem WrittenAll.read {ps : List MarshalClass} {cs : List Char} (h : WrittenAll ps cs) (rest : List Char) :
    (parseList (cs ++ ')' :: rest)).map Reading.parts = some (ps, ')' :: rest) := by
  cases h with
  | @last before cs after r hb hr ha =>
    have hclose : (after ++ ')' :: rest).dropWhile isBlank = ')' :: rest :=
      dropWhile_run ha (by rintro _ ⟨⟩; rfl)
    have happend : before ++ (cs ++ after) ++ ')' :: rest = before ++ (cs ++ (after ++ ')' :: rest)) := by simp
    rw [happend, ← hclose]
    apply parseList_last
    · rw [hclose, dropWhile_parameter hb hr]
      exact hr.read (ends_append ha (ends_cons (.inr rfl)))
    · rw [hclose]
      rintro ⟨⟩
  | @more before cs after ds r rs hb hr ha hrs =>
    have happend : before ++ (cs ++ (after ++ ',' :: ds)) ++ ')' :: rest =
        before ++ (cs ++ (after ++ ',' :: (ds ++ ')' :: rest))) := by simp
    have hcomma : (after ++ ',' :: (ds ++ ')' :: rest)).dropWhile isBlank = ',' :: (ds ++ ')' :: rest) :=
      dropWhile_run ha (by rintro _ ⟨⟩; rfl)
    rw [happend]
    apply parseList_more _ hcomma (hrs.read rest)
    rw [dropWhile_parameter hb hr]
    exact hr.read (ends_append ha (ends_cons (.inl rfl)))

end

/-! ## Whole texts -/

/-- A text is read as a reference exactly if it is one with blanks around it. -/
theorem ofText?_eq_some_iff {s : String} {r : MarshalClass} : ofText? s = some r ↔
    ∃ before cs after, s.toList = before ++ (cs ++ after) ∧ Blanks before ∧ Written r cs ∧ Blanks after := by
  constructor
  · intro h
    obtain ⟨x, hparse, h⟩ := Option.bind_eq_some_iff.1 h
    obtain ⟨hrest, ⟨⟩⟩ := Option.ite_none_right_eq_some.1 h
    obtain ⟨read, hread, hwritten⟩ := readings_written.1 _ _ hparse
    refine ⟨_, read, x.rest, ?_, blanks_takeWhile s.toList, hwritten, List.all_eq_true.1 hrest⟩
    rw [← hread, List.takeWhile_append_dropWhile]
  · rintro ⟨before, cs, after, hs, hb, hr, ha⟩
    have hparse : (parse (s.toList.dropWhile isBlank)).map Reading.parts = some (r, after) := by
      rw [hs, dropWhile_parameter hb hr, ← List.append_nil after]
      exact hr.read (ends_append ha (by rintro _ ⟨⟩))
    obtain ⟨x, hx, rfl, rfl⟩ := map_parts_eq_some_iff.1 hparse
    unfold ofText?
    rw [hx]
    exact if_pos (List.all_eq_true.2 ha)

end MarshalClass

end WideColumn
