import Mathlib.Algebra.BigOperators.Group.List.Basic
import Mathlib.Algebra.Ring.Int.Defs
import Mathlib.Data.Int.Order.Basic

/-!
# Counters and who holds what they count

Tasks hold slots of several kinds, and a counter for every kind is raised and lowered as slots are
taken and given back. `Accounted`: every counter is what the tasks hold together.

* `Accounted.join`, `Accounted.move` — a task that comes without slots, and one that goes on, with
  the counters changed by the difference in what it holds;
* `Accounted.pos`, `Accounted.nonneg`, `Accounted.zero` — what the counters say then: a task that
  holds a slot can give it back, and they are zero when nobody holds any.
-/

namespace Scap.Lib

variable {τ κ : Type*}

/-- What the tasks weigh together. -/
def total (w : τ → Int) (ts : List τ) : Int := (ts.map w).sum

section Total

variable {w : τ → Int} {ts : List τ} {t t' : τ} {i : Nat}

@[simp] theorem total_nil : total w [] = 0 := rfl

@[simp] theorem total_cons : total w (t :: ts) = w t + total w ts := rfl

theorem total_concat : total w (ts ++ [t]) = total w ts + w t := by
  simp [total]

theorem total_set (hi : ts[i]? = some t) : total w (ts.set i t') = total w ts - w t + w t' := by
  induction ts generalizing i with
  | nil => simp at hi
  | cons x ts ih =>
      cases i with
      | zero =>
          obtain rfl : x = t := by simpa using hi
          simp only [List.set_cons_zero, total_cons]
          omega
      | succ i =>
          simp only [List.set_cons_succ, total_cons, ih (by simpa using hi)]
          omega

theorem total_nonneg (h : ∀ t ∈ ts, 0 ≤ w t) : 0 ≤ total w ts := by
  induction ts with
  | nil => exact Int.le_refl 0
  | cons x ts ih =>
      exact Int.add_nonneg (h x List.mem_cons_self) (ih fun t ht => h t (List.mem_cons_of_mem x ht))

theorem le_total (h : ∀ t ∈ ts, 0 ≤ w t) (ht : t ∈ ts) : w t ≤ total w ts := by
  induction ts with
  | nil => cases ht
  | cons x ts ih =>
      have hx := h x List.mem_cons_self
      have hrest : ∀ t ∈ ts, 0 ≤ w t := fun t ht => h t (List.mem_cons_of_mem x ht)
      have hnonneg := total_nonneg hrest
      rcases List.mem_cons.mp ht with rfl | ht
      · simp only [total_cons]
        omega
      · have := ih hrest ht
        simp only [total_cons]
        omega

theorem total_eq_zero (h : ∀ t ∈ ts, w t = 0) : total w ts = 0 := by
  apply List.sum_eq_zero
  intro n hn
  obtain ⟨t, ht, rfl⟩ := List.mem_map.mp hn
  exact h t ht

end Total

/-- Every counter is what the tasks hold. -/
def Accounted (counter : κ → Int) (holds : τ → κ → Int) (ts : List τ) : Prop :=
  ∀ k, counter k = total (fun t => holds t k) ts

namespace Accounted

variable {counter counter' : κ → Int} {holds : τ → κ → Int} {ts : List τ} {t t' : τ} {i : Nat} {k : κ}

theorem nil (h : ∀ k, counter k = 0) : Accounted counter holds [] := h

/-- A task that comes holds nothing. -/
theorem join (h : Accounted counter holds ts) (ht : ∀ k, holds t k = 0) :
    Accounted counter holds (ts ++ [t]) := by
  intro k
  rw [total_concat, ht k, h k]
  omega

/-- A task goes on, and the counters with it. -/
theorem move (h : Accounted counter holds ts) (hi : ts[i]? = some t)
    (hcounter : ∀ k, counter' k = counter k - holds t k + holds t' k) :
    Accounted counter' holds (ts.set i t') := by
  intro k
  rw [total_set hi, hcounter k, h k]

theorem nonneg (h : Accounted counter holds ts) (hnonneg : ∀ t ∈ ts, ∀ k, 0 ≤ holds t k) :
    0 ≤ counter k := by
  rw [h k]
  exact total_nonneg fun t ht => hnonneg t ht k

/-- There is a slot to give back. -/
theorem pos (h : Accounted counter holds ts) (hnonneg : ∀ t ∈ ts, ∀ k, 0 ≤ holds t k) (ht : t ∈ ts)
    (hk : 0 < holds t k) : 0 < counter k := by
  rw [h k]
  exact lt_of_lt_of_le hk (le_total (w := fun t => holds t k) (fun t ht => hnonneg t ht k) ht)

theorem zero (h : Accounted counter holds ts) (hnone : ∀ t ∈ ts, holds t k = 0) : counter k = 0 := by
  rw [h k]
  exact total_eq_zero hnone

end Accounted

end Scap.Lib
