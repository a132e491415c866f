import Mathlib.Data.List.Basic
import Mathlib.Data.List.Induction

/-!
# What stands in a log

A log is a list of entries, the latest last. `Stands P Q log i j`: the entry at position `i` has
`P`, and since then, up to position `j`, none has `Q`. An object that was created by an entry with
`P` and would be gone or replaced by one with `Q` is still there.

* `Stands.later`, `Stands.last` — what a new entry leaves standing, and what it puts up;
* `Stands.unique` — where an entry with `P` takes the place of those before it, at most one stands;
* `Justified.snoc` — every entry is justified by what stood when it was written;
* `Backed.snoc` — the same for what an entry says of the log before it.
-/

namespace Scap.Lib

variable {α : Type*}

/-- The entry at `i` has `P`, and none between it and `j` has `Q`. -/
structure Stands (P Q : α → Prop) (log : List α) (i j : Nat) : Prop where
  lt : i < j
  here : ∃ e, log[i]? = some e ∧ P e
  quiet : ∀ n e, i < n → n < j → log[n]? = some e → ¬ Q e

namespace Stands

variable {P P' Q Q' : α → Prop} {log : List α} {i i' j : Nat} {e : α}

theorem mono (h : Stands P Q log i j) (hP : ∀ e, P e → P' e) (hQ : ∀ e, Q' e → Q e) :
    Stands P' Q' log i j where
  lt := h.lt
  here := h.here.imp fun e he => ⟨he.1, hP e he.2⟩
  quiet n e hi hj he hq := h.quiet n e hi hj he (hQ e hq)

/-- What is written later changes nothing before it. -/
theorem append (h : Stands P Q log i j) (hj : j ≤ log.length) (es : List α) :
    Stands P Q (log ++ es) i j := by
  have hi := h.lt
  refine ⟨h.lt, ?_, ?_⟩
  · rw [List.getElem?_append_left (by omega)]
    exact h.here
  · intro n e hin hnj he
    rw [List.getElem?_append_left (by omega)] at he
    exact h.quiet n e hin hnj he

/-- An entry without `Q` leaves standing what stands. -/
theorem later (h : Stands P Q log i log.length) (he : ¬ Q e) :
    Stands P Q (log ++ [e]) i (log ++ [e]).length := by
  have hbefore := h.append (Nat.le_refl _) [e]
  rw [List.length_append]
  refine ⟨Nat.lt_add_right 1 h.lt, hbefore.here, ?_⟩
  intro n x hin hn hx
  by_cases hbelow : n < log.length
  · exact hbefore.quiet n x hin hbelow hx
  · have hlast : n = log.length := by
      rw [List.length_singleton] at hn
      omega
    subst hlast
    rw [List.getElem?_concat_length] at hx
    exact Option.some.inj hx ▸ he

/-- So do several. -/
theorem later_all {es : List α} (h : Stands P Q log i log.length) (hes : ∀ e ∈ es, ¬ Q e) :
    Stands P Q (log ++ es) i (log ++ es).length := by
  induction es using List.reverseRecOn with
  | nil =>
      rw [List.append_nil]
      exact h
  | append_singleton es e ih =>
      rw [← List.append_assoc]
      exact (ih fun x hx => hes x (by simp [hx])).later (hes e (by simp))

/-- An entry with `P` stands when it is written. -/
theorem last (he : P e) : Stands P Q (log ++ [e]) log.length (log ++ [e]).length := by
  rw [List.length_append]
  refine ⟨Nat.lt_succ_self _, ⟨e, List.getElem?_concat_length, he⟩, ?_⟩
  intro n x hin hn
  exact absurd hin (Nat.not_lt.mpr (Nat.lt_succ_iff.mp hn))

/-- Two that stand are one, if each would have replaced the other. -/
theorem unique (h : Stands P Q log i j) (h' : Stands P' Q log i' j) (hP : ∀ e, P e → Q e)
    (hP' : ∀ e, P' e → Q e) : i = i' := by
  obtain ⟨e, he, hPe⟩ := h.here
  obtain ⟨e', he', hPe'⟩ := h'.here
  rcases Nat.lt_trichotomy i i' with hlt | heq | hgt
  · exact absurd (hP' e' hPe') (h.quiet i' e' hlt h'.lt he')
  · exact heq
  · exact absurd (hP e hPe) (h'.quiet i e hgt h.lt he)

end Stands

/-- `J log j e` holds of every entry `e`, at its position `j`. -/
def Justified (J : List α → Nat → α → Prop) (log : List α) : Prop :=
  ∀ j e, log[j]? = some e → J log j e

variable {J : List α → Nat → α → Prop} {log : List α} {e : α}

theorem Justified.nil : Justified J [] := by
  intro j e he
  simp at he

/-- A justification that looks back only is not lost, and the new entry needs its own. -/
theorem Justified.snoc (hJ : ∀ j x, j < log.length → J log j x → J (log ++ [e]) j x)
    (h : Justified J log) (he : J (log ++ [e]) log.length e) : Justified J (log ++ [e]) := by
  intro j x hx
  by_cases hj : j < log.length
  · rw [List.getElem?_append_left hj] at hx
    exact hJ j x hj (h j x hx)
  · have hle : j < (log ++ [e]).length := (List.getElem?_eq_some_iff.mp hx).1
    have hlast : j = log.length := by
      rw [List.length_append, List.length_singleton] at hle
      omega
    subst hlast
    rw [List.getElem?_concat_length] at hx
    exact Option.some.inj hx ▸ he

/-- Every entry is right for what was written before it. -/
def Backed (P : List α → α → Prop) (log : List α) : Prop :=
  ∀ before e after, log = before ++ e :: after → P before e

variable {P : List α → α → Prop}

theorem Backed.snoc (h : Backed P log) (he : P log e) : Backed P (log ++ [e]) := by
  intro before x after hsplit
  cases after using List.reverseRecOn with
  | nil =>
      obtain ⟨rfl, hlast⟩ := List.append_inj' hsplit rfl
      obtain rfl := List.singleton_inj.mp hlast
      exact he
  | append_singleton after last =>
      have hfront : log = before ++ x :: after := by
        rw [← List.cons_append, ← List.append_assoc] at hsplit
        exact (List.append_inj' hsplit rfl).1
      exact h before x after hfront

theorem backed_of_forall (h : ∀ before, ∀ e ∈ log, P before e) : Backed P log := by
  rintro before e after rfl
  exact h before e (by simp)

end Scap.Lib
