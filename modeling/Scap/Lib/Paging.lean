import Mathlib.Data.List.Basic
import Mathlib.Algebra.Order.Group.Nat

/-!
# Pages of a list

A page is a window of a flat list. When the list comes in parts, the window is put together from
windows of the parts (`window_append`); when it comes element by element, from the elements whose
number falls into it (`window_concat`). A reader who asks for the page after each page gets the
whole list (`follows_iff`).
-/

namespace Scap.Lib

variable {α : Type*} {l l' : List α} {offset limit : Nat} {a : α}

/-- `l[offset:offset + limit]`. -/
def window (offset limit : Nat) (l : List α) : List α := (l.drop offset).take limit

@[simp] theorem window_nil : window offset limit ([] : List α) = [] := by
  simp [window]

theorem length_window : (window offset limit l).length = min limit (l.length - offset) := by
  simp [window]

/-- The window goes on in the second part where the first one has left room. -/
theorem window_append : window offset limit (l ++ l') =
    window offset limit l ++
      window (offset - l.length) (limit - (window offset limit l).length) l' := by
  have hroom : limit - (l.length - offset) = limit - min limit (l.length - offset) := by omega
  rw [length_window, ← hroom, window, window, window, List.drop_append, List.take_append,
    List.length_drop]

theorem window_concat : window offset limit (l ++ [a]) =
    if offset ≤ l.length ∧ l.length < offset + limit then window offset limit l ++ [a]
    else window offset limit l := by
  rw [window_append, length_window]
  split
  · next h =>
    have hstart : offset - l.length = 0 := by omega
    have hroom : 0 < limit - min limit (l.length - offset) := by omega
    obtain ⟨k, hk⟩ := Nat.exists_eq_succ_of_ne_zero hroom.ne'
    have hone : window 0 (k + 1) [a] = [a] := by simp [window]
    rw [hstart, hk, hone]
  · next h =>
    have hempty : window (offset - l.length) (limit - min limit (l.length - offset)) [a] = [] := by
      apply List.eq_nil_of_length_eq_zero
      rw [length_window, List.length_singleton]
      omega
    rw [hempty, List.append_nil]

/-- The window starts what is left of the list. -/
theorem window_append_drop :
    window offset limit l ++ l.drop (offset + (window offset limit l).length) = l.drop offset := by
  have hdrop : l.drop (offset + (window offset limit l).length) =
      (l.drop offset).drop (window offset limit l).length := by
    rw [List.drop_drop]
  rw [hdrop, window, List.length_take]
  rcases Nat.le_total limit (l.drop offset).length with h | h
  · rw [Nat.min_eq_left h, List.take_append_drop]
  · rw [Nat.min_eq_right h, List.take_of_length_le h, List.drop_length, List.append_nil]

/-! ## Following pages -/

/-- What a reader gets who asks for one page after the other, the `k`-th request the next: each
answer holds the items of a page and says where the next one begins, if there is one. -/
inductive Follows (answer : Nat → Nat → Option (List α × Option Nat)) :
    Nat → Nat → List α → Prop
  | last {k offset : Nat} {items : List α} (h : answer k offset = some (items, none)) :
      Follows answer k offset items
  | more {k offset next : Nat} {items rest : List α}
      (h : answer k offset = some (items, some next)) (later : Follows answer (k + 1) next rest) :
      Follows answer k offset (items ++ rest)

/-- The answer whose page is a window of a list. -/
def windowAnswer (l : List α) (limit offset : Nat) : List α × Option Nat :=
  (window offset limit l,
    if offset + (window offset limit l).length < l.length then
      some (offset + (window offset limit l).length)
    else none)

/-- **Following the pages** gives what is left of the list, once and in order, and comes to an
end. -/
theorem follows_iff {answer : Nat → Nat → Option (List α × Option Nat)} (hlimit : 0 < limit)
    (h : ∀ k offset, answer k offset = some (windowAnswer l limit offset)) {k : Nat}
    {items : List α} : Follows answer k offset items ↔ items = l.drop offset := by
  induction hn : l.length - offset using Nat.strongRecOn generalizing k offset items with
  | ind n ih =>
      have hlength : (window offset limit l).length = min limit (l.length - offset) := length_window
      have hrest : window offset limit l ++ l.drop (offset + (window offset limit l).length) =
          l.drop offset := window_append_drop
      by_cases hmore : offset + (window offset limit l).length < l.length
      · have hanswer : answer k offset = some (window offset limit l,
            some (offset + (window offset limit l).length)) := by
          rw [h, windowAnswer, if_pos hmore]
        have hnext {j : Nat} {js : List α} :
            Follows answer j (offset + (window offset limit l).length) js ↔
              js = l.drop (offset + (window offset limit l).length) :=
          ih _ (by omega) rfl
        constructor
        · intro hfollows
          cases hfollows with
          | last h' => exact absurd (h'.symm.trans hanswer) (by simp)
          | more h' later =>
              rw [hanswer, Option.some.injEq, Prod.mk.injEq, Option.some.injEq] at h'
              obtain ⟨rfl, rfl⟩ := h'
              rw [hnext.mp later, hrest]
        · rintro rfl
          rw [← hrest]
          exact .more hanswer (hnext.mpr rfl)
      · have hanswer : answer k offset = some (window offset limit l, none) := by
          rw [h, windowAnswer, if_neg hmore]
        have hall : window offset limit l = l.drop offset := by
          rw [List.drop_of_length_le (Nat.not_lt.mp hmore), List.append_nil] at hrest
          exact hrest
        constructor
        · intro hfollows
          cases hfollows with
          | last h' =>
              rw [hanswer, Option.some.injEq, Prod.mk.injEq] at h'
              exact h'.1.symm.trans hall
          | more h' later => exact absurd (h'.symm.trans hanswer) (by simp)
        · rintro rfl
          exact .last (hall ▸ hanswer)

end Scap.Lib
