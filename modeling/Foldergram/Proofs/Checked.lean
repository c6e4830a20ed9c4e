import Foldergram.Layout.Box

/-! Computations that may fail, taken apart by their success or failure. -/

namespace Foldergram

variable {ε α β : Type} {e : Except ε α} {a b c : Nat} {size : Size} {y : β}

theorem map_eq_ok {f : α → β} : e.map f = .ok y ↔ ∃ x, e = .ok x ∧ f x = y := by
  cases e <;> simp [Except.map]

theorem functor_map_eq_ok {f : α → β} : f <$> e = .ok y ↔ ∃ x, e = .ok x ∧ f x = y :=
  map_eq_ok

theorem map_eq_error {f : α → β} {x : ε} : e.map f = .error x ↔ e = .error x := by
  cases e <;> simp [Except.map]

theorem bind_eq_ok {f : α → Except ε β} : e >>= f = .ok y ↔ ∃ x, e = .ok x ∧ f x = .ok y := by
  cases e <;> simp [bind, Except.bind]

theorem bind_eq_error {f : α → Except ε β} {x : ε} :
    e >>= f = .error x ↔ e = .error x ∨ ∃ a, e = .ok a ∧ f a = .error x := by
  cases e <;> simp [bind, Except.bind]

@[simp] theorem pure_eq_ok {x z : α} : (pure x : Except ε α) = .ok z ↔ x = z := by
  simp [pure, Except.pure]

theorem plus_eq_ok : plus a b = .ok c ↔ a + b = c ∧ c ≤ coordinateLimit := by
  unfold plus
  split
  · rename_i h
    simp only [Except.ok.injEq]
    exact ⟨fun he => ⟨he, he ▸ h⟩, fun he => he.1⟩
  · rename_i h
    simp only [reduceCtorEq, false_iff, not_and]
    intro he
    omega

theorem plus_of_le (h : a + b ≤ coordinateLimit) : plus a b = .ok (a + b) :=
  plus_eq_ok.mpr ⟨rfl, h⟩

end Foldergram
