import Mathlib.Algebra.BigOperators.Fin
import Mathlib.Data.Int.ModEq

/-!
# A ring of buckets

`n` buckets, one for each residue of the time modulo `n`. What is recorded goes into the bucket of
its time, which is emptied first if it was of another time.

* `Holds.record` — if the times do not decrease, a bucket holds what was recorded at its time;
* `Holds.sum_window` — hence the buckets of the last `n` times hold together what was recorded in
  these times. A bucket of an earlier time is not among them, and none of them has been emptied.
-/

namespace Scap.Lib

/-- What was recorded at a time. -/
structure Bucket (β : Type*) where
  time : Int
  content : β

namespace Buckets

variable {β ε M : Type*} {n : Nat} [NeZero n]

/-- The place of a time in the ring. -/
def place (n : Nat) [NeZero n] (time : Int) : Fin n :=
  ⟨(time % n).toNat, by
    have hpos : (0 : Int) < n := by exact_mod_cast Nat.pos_of_neZero n
    have hnonneg := Int.emod_nonneg time hpos.ne'
    have hlt := Int.emod_lt_of_pos time hpos
    omega⟩

/-- Times in one place that are less than `n` apart are the same. -/
theorem eq_of_place {s t now : Int} (h : place n s = place n t) (hs : now - n < s) (hs' : s ≤ now)
    (ht : now - n < t) (ht' : t ≤ now) : s = t := by
  have hpos : (0 : Int) < n := by exact_mod_cast Nat.pos_of_neZero n
  have hmod : s % n = t % n := by
    have hval := congrArg Fin.val h
    have hs₀ := Int.emod_nonneg s hpos.ne'
    have ht₀ := Int.emod_nonneg t hpos.ne'
    change (s % n).toNat = (t % n).toNat at hval
    omega
  have hdvd : (n : Int) ∣ t - s := Int.ModEq.dvd hmod
  have hnear : |t - s| < n := abs_lt.mpr ⟨by omega, by omega⟩
  have := Int.eq_zero_of_abs_lt_dvd hdvd hnear
  omega

section Ring

variable (empty : β) (add : β → ε → β) (ring : Fin n → Bucket β)

/-- Record something at a time. -/
def record (time : Int) (x : ε) : Fin n → Bucket β :=
  let index := place n time
  let bucket := if (ring index).time ≠ time then ⟨time, empty⟩ else ring index
  Function.update ring index { bucket with content := add bucket.content x }

/-- The buckets of the last `n` times. -/
def window (now : Int) : List (Bucket β) :=
  (List.ofFn ring).filter fun bucket => now - n < bucket.time ∧ bucket.time ≤ now

end Ring

section Sums

variable [AddCommMonoid M] (weight : ε → M) (value : β → M)

/-- What was recorded at some times. -/
def total (events : List (Int × ε)) (p : Int → Prop) [DecidablePred p] : M :=
  ((events.filter fun e => p e.1).map fun e => weight e.2).sum

variable {weight value} {events : List (Int × ε)} {p q : Int → Prop} [DecidablePred p]
  [DecidablePred q] {ring : Fin n → Bucket β} {now time : Int} {x : ε}

theorem total_cons {e : Int × ε} :
    total weight (e :: events) p = (if p e.1 then weight e.2 else 0) + total weight events p := by
  by_cases h : p e.1 <;> simp [total, h]

theorem total_append {e : Int × ε} :
    total weight (events ++ [e]) p = total weight events p + (if p e.1 then weight e.2 else 0) := by
  by_cases h : p e.1 <;> simp [total, List.filter_append, h]

theorem total_congr (h : ∀ e ∈ events, p e.1 ↔ q e.1) :
    total weight events p = total weight events q := by
  unfold total
  rw [List.filter_congr fun e he => decide_eq_decide.mpr (h e he)]

theorem total_eq_zero (h : ∀ e ∈ events, ¬ p e.1) : total weight events p = 0 := by
  have hnone : events.filter (fun e => p e.1) = [] := by simpa using h
  rw [total, hnone, List.map_nil, List.sum_nil]

/-- What was recorded, place by place. -/
theorem sum_total : ∑ i, total weight events (fun t => place n t = i ∧ p t) =
    total weight events p := by
  induction events with
  | nil => simp [total]
  | cons e events ih =>
      simp only [total_cons, Finset.sum_add_distrib, ih]
      congr 1
      by_cases h : p e.1
      · simp [h]
      · simp [h]

/-- Each bucket holds what was recorded at its time, and nothing was recorded in its place later,
or after `now`. -/
structure Holds (weight : ε → M) (value : β → M) (events : List (Int × ε))
    (ring : Fin n → Bucket β) (now : Int) : Prop where
  content : ∀ i, value (ring i).content =
    total weight events fun t => place n t = i ∧ t = (ring i).time
  place_time : ∀ e ∈ events, place n (ring (place n e.1)).time = place n e.1
  le_time : ∀ e ∈ events, e.1 ≤ (ring (place n e.1)).time
  time_le : ∀ e ∈ events, (ring (place n e.1)).time ≤ now

theorem Holds.mono (h : Holds weight value events ring now) (hle : now ≤ time) :
    Holds weight value events ring time :=
  { h with time_le := fun e he => (h.time_le e he).trans hle }

theorem Holds.start {empty : β} (hempty : value empty = 0) :
    Holds weight value [] (fun _ : Fin n => ⟨time, empty⟩) now :=
  ⟨fun _ => hempty, by simp, by simp, by simp⟩

/-- **One thing more** is recorded, not earlier than the last one. -/
theorem Holds.record {empty : β} {add : β → ε → β} (hempty : value empty = 0)
    (hadd : ∀ b x, value (add b x) = value b + weight x) (h : Holds weight value events ring now)
    (hle : now ≤ time) :
    Holds weight value (events ++ [(time, x)]) (record empty add ring time x) time := by
  have htime : (Buckets.record empty add ring time x (place n time)).time = time := by
    unfold Buckets.record
    rw [Function.update_self]
    dsimp only
    split
    · rfl
    · next hsame => exact not_not.mp hsame
  have hother : ∀ i, i ≠ place n time → Buckets.record empty add ring time x i = ring i :=
    fun i hne => Function.update_of_ne hne _ _
  have hbefore : ∀ e ∈ events, e.1 ≤ time := fun e he =>
    (h.le_time e he).trans ((h.time_le e he).trans hle)
  have hold : ∀ e ∈ events ++ [(time, x)], place n e.1 ≠ place n time → e ∈ events := by
    intro e he hne
    rcases List.mem_append.mp he with he | he
    · exact he
    · rw [List.mem_singleton.mp he] at hne
      exact absurd rfl hne
  refine ⟨fun i => ?_, ?_, ?_, ?_⟩
  · by_cases hi : i = place n time
    · subst hi
      have hcontent := h.content (place n time)
      rw [htime, total_append, if_pos ⟨rfl, rfl⟩]
      unfold Buckets.record
      rw [Function.update_self]
      dsimp only
      rw [hadd]
      split
      · next hnew =>
        -- the bucket was of another time, and nothing was recorded at this one
        rw [hempty, total_eq_zero]
        rintro e he ⟨hplace, heq⟩
        have hlow := h.le_time e he
        have hhigh := h.time_le e he
        rw [hplace] at hlow hhigh
        omega
      · next hsame =>
        rw [not_not.mp hsame] at hcontent
        rw [hcontent]
    · rw [hother i hi, total_append, if_neg (fun hplace => hi hplace.1.symm), add_zero]
      exact h.content i
  · intro e he
    by_cases hplace : place n e.1 = place n time
    · rw [hplace, htime]
    · rw [hother _ hplace]
      exact h.place_time e (hold e he hplace)
  · intro e he
    by_cases hplace : place n e.1 = place n time
    · rw [hplace, htime]
      rcases List.mem_append.mp he with he | he
      · exact hbefore e he
      · exact (congrArg Prod.fst (List.mem_singleton.mp he)).le
    · rw [hother _ hplace]
      exact h.le_time e (hold e he hplace)
  · intro e he
    by_cases hplace : place n e.1 = place n time
    · rw [hplace, htime]
    · rw [hother _ hplace]
      exact (h.time_le e (hold e he hplace)).trans hle

omit [NeZero n] in
/-- What a filtered list sums up to. -/
theorem sum_filter_ofFn {f : Fin n → Bucket β} {keep : Bucket β → Bool} {g : Bucket β → M} :
    (((List.ofFn f).filter keep).map g).sum = ∑ i, if keep (f i) then g (f i) else 0 := by
  have hfilter : ∀ l : List (Bucket β),
      ((l.filter keep).map g).sum = (l.map fun b => if keep b then g b else 0).sum := by
    intro l
    induction l with
    | nil => rfl
    | cons b l ih => by_cases hb : keep b <;> simp [hb, ih]
  rw [hfilter, List.map_ofFn, List.sum_ofFn]
  rfl

/-- **The last `n` times** together. -/
theorem Holds.sum_window (h : Holds weight value events ring now) :
    ((window ring now).map fun bucket => value bucket.content).sum =
      total weight events fun t => now - n < t := by
  rw [window, sum_filter_ofFn, ← sum_total (n := n)]
  apply Finset.sum_congr rfl
  intro i _
  by_cases hin : now - n < (ring i).time ∧ (ring i).time ≤ now
  · rw [if_pos (by simpa using hin), h.content]
    apply total_congr
    intro e he
    constructor
    · rintro ⟨hplace, heq⟩
      exact ⟨hplace, heq ▸ hin.1⟩
    · rintro ⟨rfl, hlate⟩
      -- another time in this place would be a window away
      have hle := (h.le_time e he).trans (h.time_le e he)
      exact ⟨rfl, eq_of_place (h.place_time e he).symm hlate hle hin.1 hin.2⟩
  · rw [if_neg (by simpa using hin), total_eq_zero]
    rintro e he ⟨rfl, hlate⟩
    exact hin ⟨hlate.trans_le (h.le_time e he), h.time_le e he⟩

end Sums

end Buckets

end Scap.Lib
