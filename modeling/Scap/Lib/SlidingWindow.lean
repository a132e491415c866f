import Mathlib.Algebra.Order.Group.Defs
import Mathlib.Data.List.Induction
import Mathlib.Data.List.Sort

/-!
# Sliding windows over a log of times

A log is a list of times, oldest first. What counts at a moment is the part of the log inside the
window that ends there, `live`. Two logs that agree on it now agree on it for ever, whatever each
of them has forgotten.

* `live_live` — looking later sees nothing that looking earlier did not;
* `dropWhile_eq_live` — popping from the front of an ordered log is the same as filtering;
* `Agree.mono`, `Agree.append`, `Agree.dropLast` — two implementations of one log;
* `length_live_lt` — once the oldest counted time has left the window there is room for one more;
* `Sparse.append` — a log that only grows where the window has room is sparse everywhere.
-/

namespace Scap.Lib.SlidingWindow

variable {T : Type*} [AddCommGroup T] [LinearOrder T] {w now later t : T} {log log' : List T}

/-- The times inside the window `(now - w, now]`, for a log without times after `now`. -/
def live (w now : T) (log : List T) : List T := log.filter fun t => now - w < t

@[simp] theorem live_nil : live w now ([] : List T) = [] := rfl

@[simp] theorem mem_live : t ∈ live w now log ↔ t ∈ log ∧ now - w < t := by
  simp [live]

@[simp] theorem live_append : live w now (log ++ log') = live w now log ++ live w now log' :=
  List.filter_append ..

theorem live_sublist : (live w now log).Sublist log := List.filter_sublist

theorem live_eq_nil (h : ∀ t ∈ log, t ≤ now - w) : live w now log = [] := by
  simpa [live] using h

/-- Popping from the front while the oldest time has left the window. -/
theorem dropWhile_eq_live : ∀ {log : List T}, log.Pairwise (· ≤ ·) →
    log.dropWhile (fun t => t ≤ now - w) = live w now log
  | [], _ => rfl
  | t :: log, h => by
      obtain ⟨hfirst, hrest⟩ := List.pairwise_cons.mp h
      by_cases ht : t ≤ now - w
      · rw [List.dropWhile_cons_of_pos (by simpa using ht), dropWhile_eq_live hrest]
        simp [live, ht]
      · -- the oldest time is inside, so all are
        rw [List.dropWhile_cons_of_neg (by simpa using ht)]
        symm
        apply List.filter_eq_self.mpr
        intro u hu
        rcases List.mem_cons.mp hu with rfl | hu
        · simpa using ht
        · simpa using (not_le.mp ht).trans_le (hfirst u hu)

/-! ## Two logs -/

/-- The two logs count the same times at `now`. -/
def Agree (w now : T) (log log' : List T) : Prop := live w now log = live w now log'

theorem Agree.refl (log : List T) : Agree w now log log := rfl

theorem Agree.symm (h : Agree w now log log') : Agree w now log' log := Eq.symm h

theorem Agree.append (h : Agree w now log log') (new : List T) :
    Agree w now (log ++ new) (log' ++ new) := by
  show live w now _ = live w now _
  rw [live_append, live_append, h]

/-- The last time of an ordered log is the last to leave the window. -/
theorem live_dropLast (h : log.Pairwise (· ≤ ·)) :
    live w now log.dropLast = (live w now log).dropLast := by
  cases log using List.reverseRecOn with
  | nil => rfl
  | append_singleton init t =>
      rw [List.dropLast_concat, live_append]
      by_cases ht : now - w < t
      · simp [live, ht]
      · -- nothing before it counts either
        have hinit : live w now init = [] := by
          apply live_eq_nil
          intro u hu
          have hle : u ≤ t := (List.pairwise_append.mp h).2.2 u hu t (by simp)
          exact hle.trans (not_lt.mp ht)
        have hlast : live w now [t] = [] := by simp [live, ht]
        rw [hinit, hlast]
        rfl

/-- If anything counts, the newest time of an ordered log does. -/
theorem getLast?_live (h : log.Pairwise (· ≤ ·)) (hlive : live w now log ≠ []) :
    (live w now log).getLast? = log.getLast? := by
  cases log using List.reverseRecOn with
  | nil => rfl
  | append_singleton init t =>
      obtain ⟨u, hu⟩ := List.exists_mem_of_ne_nil _ hlive
      obtain ⟨hmem, hinside⟩ := mem_live.mp hu
      have hle : u ≤ t := by
        rcases List.mem_append.mp hmem with hmem | hmem
        · exact (List.pairwise_append.mp h).2.2 u hmem t (by simp)
        · exact (List.mem_singleton.mp hmem).le
      have hlast : live w now [t] = [t] := by simp [live, hinside.trans_le hle]
      rw [live_append, hlast, List.getLast?_concat, List.getLast?_concat]

/-- Taking back the newest time of both logs. -/
theorem Agree.dropLast (h : Agree w now log log') (hlog : log.Pairwise (· ≤ ·))
    (hlog' : log'.Pairwise (· ≤ ·)) : Agree w now log.dropLast log'.dropLast := by
  show live w now _ = live w now _
  rw [live_dropLast hlog, live_dropLast hlog', h]

variable [IsOrderedAddMonoid T]

theorem live_singleton (hw : 0 < w) : live w now [now] = [now] := by
  simp [live, hw]

/-- What has left the window stays outside. -/
theorem live_live (h : now ≤ later) : live w later (live w now log) = live w later log := by
  unfold live
  rw [List.filter_filter]
  apply List.filter_congr
  intro t _
  have hcut : now - w ≤ later - w := sub_le_sub_right h w
  by_cases ht : later - w < t
  · simp [ht, hcut.trans_lt ht]
  · simp [ht]

theorem Agree.mono (h : Agree w now log log') (hle : now ≤ later) : Agree w later log log' := by
  have hlater := congrArg (live w later) h
  rwa [live_live hle, live_live hle] at hlater

theorem agree_live : Agree w now (live w now log) log := live_live le_rfl

/-! ## Room -/

/-- A window that is full now has room once its oldest time is out. -/
theorem length_live_lt {first : T} {rest : List T} (h : live w now log = first :: rest)
    (hle : now ≤ later) (hout : first ≤ later - w) :
    (live w later log).length < (live w now log).length := by
  have hlater : live w later log = live w later rest := by
    rw [← live_live hle, h]
    simp [live, hout]
  rw [hlater, h, List.length_cons]
  exact Nat.lt_succ_of_le live_sublist.length_le

theorem length_live_anti (h : now ≤ later) :
    (live w later log).length ≤ (live w now log).length := by
  rw [← live_live h]
  exact live_sublist.length_le

/-! ## Sparse logs -/

/-- No `n + 1` of the times lie less than `w` apart. -/
def Sparse (w : T) (n : Nat) (log : List T) : Prop :=
  ∀ p : T → Bool, (∀ t u, p t = true → p u = true → t < u + w) → log.countP p ≤ n

variable {n : Nat} {lo hi : T}

omit [IsOrderedAddMonoid T] in
theorem sparse_nil : Sparse w n ([] : List T) := fun _ _ => Nat.zero_le n

omit [IsOrderedAddMonoid T] in
theorem Sparse.sublist (h : Sparse w n log) (hsub : log'.Sublist log) : Sparse w n log' :=
  fun p hp => hsub.countP_le.trans (h p hp)

/-- A time is added where the window that ends with it has room. -/
theorem Sparse.append (h : Sparse w n log) (hroom : (live w now log).length < n) :
    Sparse w n (log ++ [now]) := by
  intro p hp
  rw [List.countP_append]
  cases hnow : p now with
  | false => simpa [hnow] using h p hp
  | true =>
      -- what lies near the new time counts now
      have hcounted : log.countP p ≤ (live w now log).length := by
        rw [live, ← List.countP_eq_length_filter]
        apply List.countP_mono_left
        intro t _ ht
        exact decide_eq_true (sub_lt_iff_lt_add.mpr (hp now t hnow ht))
      simp only [List.countP_singleton, hnow, if_true]
      omega

/-- At most `n` times in a window that is open on the left. -/
theorem Sparse.countP_Ioc (h : Sparse w n log) (hwidth : hi ≤ lo + w) :
    log.countP (fun t => lo < t ∧ t ≤ hi) ≤ n := by
  apply h
  intro t u ht hu
  have hti := (of_decide_eq_true ht).2
  have hui := (of_decide_eq_true hu).1
  exact (hti.trans hwidth).trans_lt (add_lt_add_left hui w)

/-- At most `n` times in a window that is open on the right. -/
theorem Sparse.countP_Ico (h : Sparse w n log) (hwidth : hi ≤ lo + w) :
    log.countP (fun t => lo ≤ t ∧ t < hi) ≤ n := by
  apply h
  intro t u ht hu
  have hti := (of_decide_eq_true ht).2
  have hui := (of_decide_eq_true hu).1
  exact (hti.trans_le hwidth).trans_le (add_le_add_left hui w)

end Scap.Lib.SlidingWindow
