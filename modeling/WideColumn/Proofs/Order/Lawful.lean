import Mathlib.Logic.Function.Basic
/-!
# Comparisons that are total orders

`LawfulAt cmp a` says what makes a comparison a total order as far as it concerns
the one value `a`. Unlike the classes for whole comparisons it can be carried
through an induction over nested data: it passes from the parts of a value to the
value along the ways in which comparisons are put together here, through a field
(`on`), one after the other (`andThen`), by length and then place by place
(`byLength`), and by constructor (`constructor`).
-/

namespace WideColumn

variable {α β : Type} {cmp : α → α → Ordering}

/-- The comparison of `a` with other values is that of a total order in which only
`a` itself is equal to `a`. -/
structure LawfulAt (cmp : α → α → Ordering) (a : α) : Prop where
  eq_iff : ∀ b, cmp a b = .eq ↔ a = b
  swap : ∀ b, cmp b a = (cmp a b).swap
  lt_of_lt_of_le : ∀ b c, cmp a b = .lt → cmp b c ≠ .gt → cmp a c = .lt

theorem transCmp_of_lawfulAt (h : ∀ a, LawfulAt cmp a) : Std.TransCmp cmp where
  eq_swap {a b} := (h b).swap a
  isLE_trans {a b c} hab hbc := by
    rw [Ordering.isLE_iff_ne_gt] at hab hbc ⊢
    cases e : cmp a b with
    | lt => rw [(h a).lt_of_lt_of_le b c e hbc]; decide
    | eq => rwa [((h a).eq_iff b).1 e]
    | gt => exact absurd e hab

theorem lawfulEqCmp_of_lawfulAt (h : ∀ a, LawfulAt cmp a) : Std.LawfulEqCmp cmp where
  compare_self {a} := ((h a).eq_iff a).2 rfl
  eq_of_compare {a b} := ((h a).eq_iff b).1

namespace LawfulAt

/-- The comparison that comes with a type. -/
theorem ofOrd [Ord α] [Std.TransOrd α] [Std.LawfulEqOrd α] (a : α) : LawfulAt compare a where
  eq_iff _ := Std.LawfulEqOrd.compare_eq_iff_eq
  swap _ := Std.OrientedOrd.eq_swap
  lt_of_lt_of_le _ _ hab hbc := Std.TransCmp.lt_of_lt_of_isLE hab (Ordering.isLE_iff_ne_gt.2 hbc)

/-- The comparison that tells nothing apart, of a type with nothing to tell apart. -/
theorem unit (a : Unit) : LawfulAt (fun _ _ => .eq) a :=
  ⟨fun _ => by simp, fun _ => rfl, fun _ _ h => by cases h⟩

/-- A comparison of values by a field that determines them. -/
theorem on {f : β → α} (inj : Function.Injective f) {b : β} (h : LawfulAt cmp (f b)) :
    LawfulAt (fun x y => cmp (f x) (f y)) b where
  eq_iff c := (h.eq_iff (f c)).trans inj.eq_iff
  swap c := h.swap (f c)
  lt_of_lt_of_le c d := h.lt_of_lt_of_le (f c) (f d)

/-- A comparison of pairs by the first components, then by the second. -/
theorem andThen {cmp' : β → β → Ordering} {a : α} {b : β} (h : LawfulAt cmp a) (h' : LawfulAt cmp' b) :
    LawfulAt (fun x y : α × β => (cmp x.1 y.1).then (cmp' x.2 y.2)) (a, b) where
  eq_iff := by
    rintro ⟨c, d⟩
    rw [Ordering.then_eq_eq, h.eq_iff, h'.eq_iff, Prod.mk.injEq]
  swap y := by
    rw [Ordering.swap_then, ← h.swap, ← h'.swap]
  lt_of_lt_of_le := by
    rintro ⟨c, d⟩ ⟨e, f⟩ hab hbc
    dsimp only at hab hbc ⊢
    have hce : cmp c e ≠ .gt := fun g => hbc (by rw [g]; rfl)
    rcases Ordering.then_eq_lt.1 hab with hac | ⟨hac, hbd⟩
    · rw [h.lt_of_lt_of_le c e hac hce]; rfl
    · -- only `a` is equal to `a`, so the first components of all three are the same or `e` is above
      obtain rfl := (h.eq_iff c).1 hac
      cases hae : cmp a e with
      | lt => rfl
      | eq =>
        rw [hae] at hbc
        exact h'.lt_of_lt_of_le d f hbd hbc
      | gt => exact absurd hae hce

end LawfulAt

/-! ## Place by place -/

/-- By the first places that differ, as far as both lists reach. -/
def placewise (cmp : α → α → Ordering) : List α → List α → Ordering
  | a :: as, b :: bs => (cmp a b).then (placewise cmp as bs)
  | _, _ => .eq

/-- By length, then by the first places that differ. -/
def byLength (cmp : α → α → Ordering) (as bs : List α) : Ordering :=
  (compare as.length bs.length).then (placewise cmp as bs)

theorem placewise_eq_iff {as : List α} (h : ∀ a ∈ as, LawfulAt cmp a) (bs : List α) (hl : as.length = bs.length) :
    placewise cmp as bs = .eq ↔ as = bs := by
  induction as generalizing bs with
  | nil => simpa [placewise] using hl.symm
  | cons a as ih =>
    obtain ⟨b, bs, rfl⟩ := List.exists_cons_of_length_eq_add_one hl.symm
    rw [placewise, Ordering.then_eq_eq, (h a (by simp)).eq_iff, List.cons.injEq,
      ih (fun x hx => h x (by simp [hx])) bs (by simpa using hl)]

theorem placewise_swap {as : List α} (h : ∀ a ∈ as, LawfulAt cmp a) (bs : List α) :
    placewise cmp bs as = (placewise cmp as bs).swap := by
  induction as generalizing bs with
  | nil => cases bs <;> rfl
  | cons a as ih =>
    cases bs with
    | nil => rfl
    | cons b bs =>
      rw [placewise, placewise, Ordering.swap_then, (h a (by simp)).swap, ih (fun x hx => h x (by simp [hx]))]

theorem placewise_lt_of_lt_of_le {as : List α} (h : ∀ a ∈ as, LawfulAt cmp a) (bs cs : List α)
    (hb : as.length = bs.length) (hc : as.length = cs.length)
    (hab : placewise cmp as bs = .lt) (hbc : placewise cmp bs cs ≠ .gt) : placewise cmp as cs = .lt := by
  induction as generalizing bs cs with
  | nil => cases hab
  | cons a as ih =>
    obtain ⟨b, bs, rfl⟩ := List.exists_cons_of_length_eq_add_one hb.symm
    obtain ⟨c, cs, rfl⟩ := List.exists_cons_of_length_eq_add_one hc.symm
    have ha := h a (by simp)
    rw [placewise] at hab hbc ⊢
    have hbc' : cmp b c ≠ .gt := fun g => hbc (by rw [g]; rfl)
    rcases Ordering.then_eq_lt.1 hab with hlt | ⟨heq, hrest⟩
    · rw [ha.lt_of_lt_of_le b c hlt hbc']; rfl
    · obtain rfl := (ha.eq_iff b).1 heq
      cases hac : cmp a c with
      | lt => rfl
      | eq =>
        rw [hac] at hbc
        exact ih (fun x hx => h x (by simp [hx])) bs cs (by simpa using hb) (by simpa using hc) hrest hbc
      | gt => exact absurd hac hbc'

namespace LawfulAt

theorem byLength {as : List α} (h : ∀ a ∈ as, LawfulAt cmp a) : LawfulAt (byLength cmp) as where
  eq_iff bs := by
    rw [WideColumn.byLength, Ordering.then_eq_eq, Nat.compare_eq_eq]
    constructor
    · rintro ⟨hl, he⟩
      exact (placewise_eq_iff h bs hl).1 he
    · rintro rfl
      exact ⟨rfl, (placewise_eq_iff h as rfl).2 rfl⟩
  swap bs := by
    rw [WideColumn.byLength, WideColumn.byLength, Ordering.swap_then, Nat.compare_swap, placewise_swap h]
  lt_of_lt_of_le bs cs hab hbc := by
    rw [WideColumn.byLength] at hab hbc ⊢
    rw [Ordering.then_eq_lt, Nat.compare_eq_lt, Nat.compare_eq_eq] at hab ⊢
    have hl : bs.length ≤ cs.length := by
      rw [← Nat.compare_ne_gt]
      exact fun g => hbc (by rw [g]; rfl)
    -- a shorter list decides; lists of one length leave it to the places
    rcases hab with hlt | ⟨heq, hlt⟩
    · exact .inl (by omega)
    · rcases Nat.lt_or_eq_of_le hl with hlt' | heq'
      · exact .inl (by omega)
      · refine .inr ⟨by omega, placewise_lt_of_lt_of_le h bs cs heq (by omega) hlt ?_⟩
        rwa [heq', Nat.compare_eq_eq.2 rfl] at hbc

/-- Values under one constructor `e` are compared by what is under it, all others by
their ranks. -/
theorem constructor (rank : α → Nat) (apart : ∀ a b, rank a ≠ rank b → cmp a b = compare (rank a) (rank b))
    (e : β → α) {cmp' : β → β → Ordering} {x : β} (h : LawfulAt cmp' x)
    (inj : Function.Injective e := by rintro _ _ h; cases h; rfl)
    (within : ∀ x y, cmp (e x) (e y) = cmp' x y := by intros; rfl)
    (covers : ∀ x b, rank b = rank (e x) → ∃ y, b = e y := by
      intro _ b h; cases b <;> first | exact ⟨_, rfl⟩ | cases h) : LawfulAt cmp (e x) where
  eq_iff b := by
    by_cases hb : rank b = rank (e x)
    · obtain ⟨y, rfl⟩ := covers x b hb
      rw [within, h.eq_iff, inj.eq_iff]
    · rw [apart _ _ (Ne.symm hb), Nat.compare_eq_eq]
      exact ⟨fun he => absurd he.symm hb, fun he => congrArg rank he⟩
  swap b := by
    by_cases hb : rank b = rank (e x)
    · obtain ⟨y, rfl⟩ := covers x b hb
      rw [within, within, h.swap]
    · rw [apart _ _ (Ne.symm hb), apart _ _ hb, Nat.compare_swap]
  lt_of_lt_of_le b c hab hbc := by
    have rank_le : ∀ {a b : α}, cmp a b ≠ .gt → rank a ≤ rank b := by
      intro a b hn
      by_cases hr : rank a = rank b
      · exact Nat.le_of_eq hr
      · rwa [apart a b hr, Nat.compare_ne_gt] at hn
    have hab' := rank_le (a := e x) (b := b) (by rw [hab]; decide)
    have hbc' := rank_le hbc
    -- ranks do not fall from `e x` to `c`, so if they end where they began they never rose
    by_cases hc : rank c = rank (e x)
    · obtain ⟨y, rfl⟩ := covers x b (by omega)
      obtain ⟨z, rfl⟩ := covers x c hc
      rw [within] at hab hbc ⊢
      exact h.lt_of_lt_of_le y z hab hbc
    · rw [apart _ _ (Ne.symm hc), Nat.compare_eq_lt]
      omega

end LawfulAt

end WideColumn
