import Mathlib.Data.List.Forall2
/-!
# Checks that may fail

When a computation with checks succeeds, each of its steps did. What is done to a result
can as well be done to the results of the steps. Where each of several steps has a result,
there is a list of their results.
-/

namespace WideColumn.Except

variable {ε α β γ : Type}

theorem ok_bind {a : α} {f : α → Except ε β} : .ok a >>= f = f a := rfl

@[simp]
theorem bind_eq_ok_iff {x : Except ε α} {f : α → Except ε β} {b : β} :
    (x >>= f) = .ok b ↔ ∃ a, x = .ok a ∧ f a = .ok b := by
  cases x <;> simp [bind, Except.bind]

theorem bind_eq_error_iff {x : Except ε α} {f : α → Except ε β} {e : ε} :
    (x >>= f) = .error e ↔ x = .error e ∨ ∃ a, x = .ok a ∧ f a = .error e := by
  cases x <;> simp [bind, Except.bind]

@[simp]
theorem pure_eq_ok_iff {a b : α} : (pure a : Except ε α) = .ok b ↔ a = b := by
  simp [pure, Except.pure]

@[simp]
theorem map_eq_ok_iff {x : Except ε α} {f : α → β} {b : β} : x.map f = .ok b ↔ ∃ a, x = .ok a ∧ f a = b := by
  cases x <;> simp [Except.map]

@[simp]
theorem mapError_eq_ok_iff {x : Except ε α} {f : ε → γ} {a : α} : x.mapError f = .ok a ↔ x = .ok a := by
  cases x <;> simp [Except.mapError]

@[simp]
theorem ite_error_eq_ok_iff {p : Prop} [Decidable p] {x : Except ε α} {e : ε} {a : α} :
    (if p then x else .error e) = .ok a ↔ p ∧ x = .ok a := by
  by_cases h : p <;> simp [h]

@[simp]
theorem error_ite_eq_ok_iff {p : Prop} [Decidable p] {x : Except ε α} {e : ε} {a : α} :
    (if p then .error e else x) = .ok a ↔ ¬p ∧ x = .ok a := by
  by_cases h : p <;> simp [h]

/-- What comes after a step may rely on its result. -/
theorem bind_congr_ok {x : Except ε α} {f g : α → Except ε β} (h : ∀ a, x = .ok a → f a = g a) : x >>= f = x >>= g := by
  cases x with
  | error _ => rfl
  | ok a => exact h a rfl

theorem toOption_eq_some_iff {x : Except ε α} {a : α} : x.toOption = some a ↔ x = .ok a := by
  cases x <;> simp [Except.toOption]

/-- The result, or else what there was. -/
theorem toOption_getD_cases (x : Except ε α) (a : α) : x.toOption.getD a = a ∨ x = .ok (x.toOption.getD a) := by
  cases x with
  | error _ => exact .inl rfl
  | ok _ => exact .inr rfl

theorem map_map (f : α → β) (g : β → γ) (x : Except ε α) : (x.map f).map g = x.map fun a => g (f a) := by
  cases x <;> rfl

theorem map_bind (x : Except ε α) (f : α → Except ε β) (g : β → γ) :
    (x >>= f).map g = x >>= fun a => (f a).map g := by
  cases x <;> rfl

theorem toOption_bind (x : Except ε α) (f : α → Except ε β) :
    (x >>= f).toOption = x.toOption.bind fun a => (f a).toOption := by
  cases x <;> rfl

theorem toOption_map_getD (f : α → β) (x : Except ε α) (a : α) :
    (x.map f).toOption.getD (f a) = f (x.toOption.getD a) := by
  cases x <;> rfl

theorem map_bind_congr {x : Except ε α} {f : α → α} {g : α → Except ε β} {g' : α → Except ε γ}
    {r : β → γ} (h : ∀ a, g' (f a) = (g a).map r) : x.map f >>= g' = (x >>= g).map r := by
  cases x with
  | error _ => rfl
  | ok a => exact h a

/-- Results that agree as far as what comes after them can tell. -/
theorem bind_congr_of_map {x y : Except ε α} {g : α → γ} (hxy : x.map g = y.map g)
    {f : α → Except ε β} (hf : ∀ a b, g a = g b → f a = f b) : x >>= f = y >>= f := by
  cases x with
  | error e =>
    cases y with
    | error e' => cases hxy; rfl
    | ok b => cases hxy
  | ok a =>
    cases y with
    | error e => cases hxy
    | ok b => exact hf a b (Except.ok.inj hxy)

end WideColumn.Except

theorem WideColumn.exists_forall₂ {α β : Type} {R : α → β → Prop} {as : List α} (h : ∀ a ∈ as, ∃ b, R a b) :
    ∃ bs, List.Forall₂ R as bs := by
  induction as with
  | nil => exact ⟨[], .nil⟩
  | cons a as ih =>
    obtain ⟨b, hb⟩ := h a List.mem_cons_self
    obtain ⟨bs, hbs⟩ := ih fun x hx => h x (List.mem_cons_of_mem a hx)
    exact ⟨b :: bs, .cons hb hbs⟩
