import Mathlib.Tactic.TypeStar

/-!
# Computations that succeed

What a `bind` or a `map` in `Except` has done where it succeeds, and which part of it has failed
where it does not, for the proofs that take a computation apart.
-/

namespace Scap.Lib

variable {ε α β : Type*} {a : Except ε α} {b : β} {y : α}

theorem bind_eq_ok {f : α → Except ε β} : a.bind f = .ok b ↔ ∃ y, a = .ok y ∧ f y = .ok b := by
  cases a <;> simp [Except.bind]

theorem map_eq_ok {f : α → β} : a.map f = .ok b ↔ ∃ y, a = .ok y ∧ f y = b := by
  cases a <;> simp [Except.map]

/-- A check that is passed. -/
theorem error_else_eq_ok {c : Prop} [Decidable c] {e : ε} :
    (if c then .error e else a) = .ok y ↔ ¬ c ∧ a = .ok y := by
  by_cases h : c <;> simp [h]

theorem seq_eq_ok {γ δ : Type} {a : Except ε γ} {f : γ → Except ε δ} {c : δ} :
    (a >>= f) = .ok c ↔ ∃ y, a = .ok y ∧ f y = .ok c := bind_eq_ok

theorem map_eq_error {f : α → β} {e : ε} : a.map f = .error e ↔ a = .error e := by
  cases a <;> simp [Except.map]

theorem seq_eq_error {γ δ : Type} {a : Except ε γ} {f : γ → Except ε δ} {e : ε} :
    (a >>= f) = .error e ↔ a = .error e ∨ ∃ y, a = .ok y ∧ f y = .error e := by
  cases a <;> simp [bind, Except.bind]

/-- `if not p: raise e`. -/
def require (p : Prop) [Decidable p] (e : ε) : Except ε Unit := if p then .ok () else .error e

theorem require_eq_ok {p : Prop} [Decidable p] {e : ε} {u : Unit} :
    require p e = .ok u ↔ p := by
  by_cases h : p <;> simp [require, h]

theorem require_seq {δ : Type} {p : Prop} [Decidable p] {ε : Type} {e : ε}
    {f : Unit → Except ε δ} (h : p) : (require p e >>= f) = f () := by
  rw [require, if_pos h]
  rfl

/-- Two computations that both succeed, with values that correspond, or both fail, with errors that
do. -/
inductive Both {ε' β : Type*} (E : ε → ε' → Prop) (R : α → β → Prop) :
    Except ε α → Except ε' β → Prop
  | ok {a : α} {b : β} (h : R a b) : Both E R (.ok a) (.ok b)
  | error {e : ε} {e' : ε'} (h : E e e') : Both E R (.error e) (.error e')

section Both

variable {ε ε' α β γ δ : Type} {E : ε → ε' → Prop} {R : α → β → Prop} {S : γ → δ → Prop}

/-- Computations that go on correspondingly correspond. -/
theorem Both.seq {a : Except ε α} {b : Except ε' β} {f : α → Except ε γ} {g : β → Except ε' δ}
    (h : Both E R a b) (hf : ∀ x y, R x y → Both E S (f x) (g y)) :
    Both E S (a >>= f) (b >>= g) := by
  cases h with
  | ok hvalues => exact hf _ _ hvalues
  | error herrors => exact .error herrors

theorem Both.map {T : γ → β → Prop} {a : Except ε α} {b : Except ε' β} {f : α → γ}
    (h : Both E R a b) (hf : ∀ x y, R x y → T (f x) y) : Both E T (a.map f) b := by
  cases h with
  | ok hvalues => exact .ok (hf _ _ hvalues)
  | error herrors => exact .error herrors

theorem Both.require {p q : Prop} [Decidable p] [Decidable q] {e : ε} {e' : ε'} (h : p ↔ q)
    (he : E e e') : Both E (fun _ _ => True) (require p e) (require q e') := by
  by_cases hp : p
  · simpa [Lib.require, hp, h.mp hp] using Both.ok trivial
  · simpa [Lib.require, hp, mt h.mpr hp] using Both.error he

end Both

/-- All steps of a `mapM` that succeeds have an answer. -/
theorem length_mapM {γ δ : Type} {f : γ → Except ε δ} {l : List γ} {answers : List δ}
    (h : l.mapM f = .ok answers) : answers.length = l.length := by
  induction l generalizing answers with
  | nil =>
      obtain rfl := Except.ok.inj h
      rfl
  | cons x l ih =>
      rw [List.mapM_cons] at h
      obtain ⟨y, -, h⟩ := seq_eq_ok.mp h
      obtain ⟨rest, hrest, h⟩ := seq_eq_ok.mp h
      obtain rfl := Except.ok.inj h
      rw [List.length_cons, List.length_cons, ih hrest]

end Scap.Lib
