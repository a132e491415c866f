import Scap.Limits.Memory
import Scap.Lib.Run

/-!
# The ideal limiter

The purpose of a rate limiter: an unbounded log of accepted attempts for every key, and a decision
that only looks at the part of the log inside the window of the key.

`MemoryInv` says what the store of `SlidingWindowRateLimiter` knows of such a log: for every key
the same live attempts, and a moment at which none of them counts any more. Every method keeps it
as long as nothing is rounded (`offer_inv`, `cleanup_inv`, `refund_inv`, `reset_inv`), so `allow id`
answers what the ideal limiter answers unless the store is full. `allow_of_lossless` carries that to
the method of the source.
-/

namespace Scap.Limits

open Scap.Py Scap.Lib SlidingWindow SlidingWindowRateLimiter

/-! ## The ideal limiter -/

/-- The accepted attempts of every key, oldest first. -/
abbrev Log := String → List ℚ

/-- The decision of the ideal limiter, and how long a refused caller is to wait. -/
def Budget.answer (b : Budget) (now : ℚ) (attempts : List ℚ) : Bool × Int :=
  let counted := live b.window now attempts
  if b.maxAttempts ≤ counted.length then
    (false, max 1 ⌈b.window - (now - counted.headD now)⌉)
  else (true, 0)

/-- Whether the budget has room for an attempt at `now`. -/
def Budget.Admits (b : Budget) (now : ℚ) (attempts : List ℚ) : Prop :=
  ((live b.window now attempts).length : Int) < b.maxAttempts

theorem Budget.answer_fst {b : Budget} {now : ℚ} {attempts : List ℚ} :
    (b.answer now attempts).1 = true ↔ b.Admits now attempts := by
  simp only [answer, Admits]
  split
  · next h => simpa using h
  · next h => simpa using h

/-- An accepted attempt is logged. -/
def Log.record (log : Log) (key : String) (now : ℚ) (accepted : Bool) : Log :=
  if accepted then Function.update log key (log key ++ [now]) else log

/-! ## What the store knows of the log -/

variable {budget : String → Budget} {l : SlidingWindowRateLimiter} {clock now : ℚ} {log : Log}
  {key other : String} {bucket : List ℚ}

/-- A deque in the store, with the moment its key expires. -/
structure Held (b : Budget) (clock : ℚ) (bucket : List ℚ) (expiry : ℚ) : Prop where
  valid : b.Valid
  nonempty : bucket ≠ []
  ordered : bucket.Pairwise (· ≤ ·)
  past : ∀ t ∈ bucket, t ≤ clock
  covered : ∀ t ∈ bucket, t + b.window ≤ expiry

/-- The store against the log, when the clock shows `clock`. -/
structure MemoryInv (budget : String → Budget) (l : SlidingWindowRateLimiter) (clock : ℚ)
    (log : Log) : Prop where
  bounded : l.events.len ≤ l.maxKeys
  orphan : ∀ key, l.events.get key = none → l.expiresAt.get key = none
  held : ∀ key bucket, l.events.get key = some bucket →
    ∃ expiry, l.expiresAt.get key = some expiry ∧ Held (budget key) clock bucket expiry
  agree : ∀ key, Agree (budget key).window clock (l.attempts key) (log key)
  nextExpiry : ∀ key expiry, l.expiresAt.get key = some expiry → l.nextExpiry ≤ expiry

/-- Every key expires with one of its attempts: no moment is later than it has to be. -/
def Tight (budget : String → Budget) (l : SlidingWindowRateLimiter) : Prop :=
  ∀ key bucket, l.events.get key = some bucket →
    ∃ t ∈ bucket, l.expiresAt.get key = some (t + (budget key).window)

theorem Held.mono {b : Budget} {expiry : ℚ} (h : Held b clock bucket expiry) (hle : clock ≤ now) :
    Held b now bucket expiry :=
  { h with past := fun t ht => (h.past t ht).trans hle }

theorem MemoryInv.mono (h : MemoryInv budget l clock log) (hle : clock ≤ now) :
    MemoryInv budget l now log where
  bounded := h.bounded
  orphan := h.orphan
  held := by
    intro key bucket hget
    obtain ⟨expiry, hexpiry, hheld⟩ := h.held key bucket hget
    exact ⟨expiry, hexpiry, hheld.mono hle⟩
  agree key := (h.agree key).mono hle
  nextExpiry := h.nextExpiry

/-- A key that the store does not have has no attempt in its window. -/
theorem MemoryInv.live_eq_nil (h : MemoryInv budget l clock log) (hget : l.events.get key = none) :
    live (budget key).window clock (log key) = [] := by
  have hagree := h.agree key
  rw [SlidingWindowRateLimiter.attempts, hget] at hagree
  exact hagree.symm

theorem MemoryInv.ordered (h : MemoryInv budget l clock log) : (l.attempts key).Pairwise (· ≤ ·) := by
  unfold SlidingWindowRateLimiter.attempts
  cases hget : l.events.get key with
  | none => exact List.Pairwise.nil
  | some bucket =>
      obtain ⟨_, _, hheld⟩ := h.held key bucket hget
      exact hheld.ordered

/-- The pruned deque holds what counts in the log. -/
theorem MemoryInv.pruned (h : MemoryInv budget l now log) :
    (l.attempts key).dropWhile (fun t => t ≤ now - (budget key).window) =
      live (budget key).window now (log key) :=
  (dropWhile_eq_live h.ordered).trans (h.agree key)

/-! ## Cleanup -/

theorem minimum_le {values : List ℚ} {e : ℚ} (h : e ∈ values) : minimum values ≤ e := by
  induction values with
  | nil => simp at h
  | cons v values ih =>
      rcases List.mem_cons.mp h with rfl | h
      · exact min_le_left _ _
      · exact (min_le_right _ _).trans (ih h)

theorem expired_eq_true :
    l.expired now key = true ↔ ∃ expiry, l.expiresAt.get key = some expiry ∧ expiry ≤ now := by
  unfold expired
  cases l.expiresAt.get key <;> simp

theorem events_cleanup :
    (l.cleanup now).events.get key = if l.expired now key then none else l.events.get key := by
  show Dict.get (l.events.filter _) key = _
  rw [Dict.get_filter]
  cases hexpired : l.expired now key <;> cases l.events.get key <;> simp [hexpired]

theorem expiresAt_cleanup :
    (l.cleanup now).expiresAt.get key = if l.expired now key then none else l.expiresAt.get key := by
  show Dict.get (l.expiresAt.filter _) key = _
  rw [Dict.get_filter]
  cases hexpired : l.expired now key <;> cases l.expiresAt.get key <;> simp [hexpired]

/-- After a cleanup every key is yet to expire. -/
theorem lt_of_cleanup {expiry : ℚ} (h : (l.cleanup now).expiresAt.get key = some expiry) :
    now < expiry := by
  rw [expiresAt_cleanup] at h
  split at h
  · cases h
  · next hexpired =>
    apply not_le.mp
    intro hle
    exact hexpired (expired_eq_true.mpr ⟨expiry, h, hle⟩)

theorem cleanup_inv (h : MemoryInv budget l now log) : MemoryInv budget (l.cleanup now) now log where
  bounded := Dict.len_filter_le.trans h.bounded
  orphan := by
    intro key hget
    rw [events_cleanup] at hget
    rw [expiresAt_cleanup]
    split
    · rfl
    · next hexpired =>
      rw [if_neg hexpired] at hget
      exact h.orphan key hget
  held := by
    intro key bucket hget
    rw [events_cleanup] at hget
    rw [expiresAt_cleanup]
    split
    · next hexpired =>
      rw [if_pos hexpired] at hget
      cases hget
    · next hexpired =>
      rw [if_neg hexpired] at hget
      exact h.held key bucket hget
  agree := by
    intro key
    have hagree := h.agree key
    unfold SlidingWindowRateLimiter.attempts at hagree ⊢
    rw [events_cleanup]
    split
    · next hexpired =>
      -- what the cleanup forgets has left the window
      obtain ⟨expiry, hexpiry, hle⟩ := expired_eq_true.mp hexpired
      cases hget : l.events.get key with
      | none => rwa [hget] at hagree
      | some bucket =>
          obtain ⟨expiry', hexpiry', hheld⟩ := h.held key bucket hget
          obtain rfl := Option.some.inj (hexpiry.symm.trans hexpiry')
          rw [hget] at hagree
          refine Eq.trans ?_ hagree
          symm
          apply SlidingWindow.live_eq_nil
          intro t ht
          exact le_sub_iff_add_le.mpr ((hheld.covered t ht).trans hle)
    · exact hagree
  nextExpiry := by
    intro key expiry hget
    exact minimum_le (Dict.mem_values.mpr ⟨key, hget⟩)

theorem tight_cleanup (h : Tight budget l) : Tight budget (l.cleanup now) := by
  intro key bucket hget
  rw [events_cleanup] at hget
  rw [expiresAt_cleanup]
  split
  · next hexpired =>
    rw [if_pos hexpired] at hget
    cases hget
  · next hexpired =>
    rw [if_neg hexpired] at hget
    exact h key bucket hget

theorem periodicCleanup_inv (h : MemoryInv budget l now log) :
    MemoryInv budget (l.periodicCleanup now) now log := by
  unfold periodicCleanup
  split
  · exact cleanup_inv h
  · exact h

theorem makeRoom_inv (h : MemoryInv budget l now log) :
    MemoryInv budget (l.makeRoom now) now log := by
  unfold makeRoom
  split
  · exact cleanup_inv h
  · exact h

/-- A cleanup forgets keys only. -/
theorem events_makeRoom (h : l.events.get key = none) : (l.makeRoom now).events.get key = none := by
  unfold makeRoom
  split
  · rw [events_cleanup, h, ite_self]
  · exact h

/-- A store that is full although a new key has asked for room has no key to forget. -/
theorem lt_of_full {expiry : ℚ} (h : MemoryInv budget l now log)
    (hfull : (l.makeRoom now).maxKeys ≤ (l.makeRoom now).events.len)
    (hget : (l.makeRoom now).expiresAt.get key = some expiry) : now < expiry := by
  unfold makeRoom at hfull hget
  split at hget
  · exact lt_of_cleanup hget
  · next hkept =>
    rw [if_neg hkept] at hfull
    have hlater : (now : WithTop ℚ) < l.nextExpiry := by
      apply not_le.mp
      intro hle
      exact hkept ⟨hfull, hle⟩
    exact WithTop.coe_lt_coe.mp (hlater.trans_le (h.nextExpiry key expiry hget))

/-! ## An attempt -/

/-- `offer` in terms of what counts in the log. -/
theorem offer_eq (h : MemoryInv budget l now log) :
    l.offer now id key (budget key) (l.attempts key) =
      let counted := live (budget key).window now (log key)
      let expiry := max ((l.expiresAt.get key).getD 0) (counted.getLastD now + (budget key).window)
      if (budget key).maxAttempts ≤ counted.length then
        ({ l with
          events := l.events.set key counted
          expiresAt := l.expiresAt.set key expiry
          nextExpiry := min l.nextExpiry expiry },
          false, max 1 ⌈(budget key).window - (now - counted.headD now)⌉)
      else
        ({ l with
          events := l.events.set key (counted ++ [now])
          expiresAt := l.expiresAt.set key (max expiry (now + (budget key).window))
          nextExpiry := min l.nextExpiry expiry },
          true, 0) := by
  unfold offer
  dsimp only [id]
  rw [h.pruned]

theorem offer_answer (h : MemoryInv budget l now log) :
    (l.offer now id key (budget key) (l.attempts key)).2 = (budget key).answer now (log key) := by
  rw [offer_eq h]
  unfold Budget.answer
  dsimp only
  split <;> rfl

/-- What the store holds of a key covers what counts in the log. -/
theorem MemoryInv.covered (h : MemoryInv budget l now log) {t : ℚ}
    (ht : t ∈ live (budget key).window now (log key)) :
    t ≤ now ∧ t + (budget key).window ≤ (l.expiresAt.get key).getD 0 := by
  rw [← h.agree key] at ht
  have hmem : t ∈ l.attempts key := (mem_live.mp ht).1
  unfold SlidingWindowRateLimiter.attempts at hmem
  cases hget : l.events.get key with
  | none => simp [hget] at hmem
  | some bucket =>
      obtain ⟨expiry, hexpiry, hheld⟩ := h.held key bucket hget
      rw [hget] at hmem
      rw [hexpiry]
      exact ⟨hheld.past t hmem, hheld.covered t hmem⟩

theorem MemoryInv.ordered_live (h : MemoryInv budget l now log) :
    (live (budget key).window now (log key)).Pairwise (· ≤ ·) := by
  rw [← h.agree key]
  exact h.ordered.sublist live_sublist

/-- Storing a deque and its expiry under a key. -/
theorem store_inv {expiry next : ℚ} (h : MemoryInv budget l now log)
    (hroom : l.events.get key = none → l.events.len < l.maxKeys)
    (hheld : Held (budget key) now bucket expiry) (hnext : next ≤ expiry) {log' : Log}
    (hagree : Agree (budget key).window now bucket (log' key))
    (hsame : ∀ other, other ≠ key → log' other = log other) :
    MemoryInv budget { l with
      events := l.events.set key bucket
      expiresAt := l.expiresAt.set key expiry
      nextExpiry := min l.nextExpiry next } now log' where
  bounded := by
    show (l.events.set key bucket).len ≤ l.maxKeys
    -- a new key needs room, an old one takes none
    cases hget : l.events.get key with
    | none =>
        rw [Dict.len_set_new hget]
        exact hroom hget
    | some old => exact (Dict.len_set_old hget).trans h.bounded
  orphan := by
    intro other hget
    by_cases hother : other = key
    · subst hother
      simp at hget
    · rw [Dict.get_set_of_ne hother] at hget ⊢
      exact h.orphan other hget
  held := by
    intro other bucket' hget
    by_cases hother : other = key
    · subst hother
      obtain rfl : bucket = bucket' := by simpa using hget
      exact ⟨expiry, Dict.get_set_self, hheld⟩
    · rw [Dict.get_set_of_ne hother] at hget ⊢
      exact h.held other bucket' hget
  agree := by
    intro other
    show Agree _ now (((l.events.set key bucket).get other).getD []) (log' other)
    by_cases hother : other = key
    · subst hother
      simpa using hagree
    · rw [Dict.get_set_of_ne hother, hsame other hother]
      exact h.agree other
  nextExpiry := by
    intro other expiry' hget
    by_cases hother : other = key
    · subst hother
      obtain rfl : expiry = expiry' := by simpa using hget
      exact (min_le_right _ _).trans (WithTop.coe_le_coe.mpr hnext)
    · rw [Dict.get_set_of_ne hother] at hget
      exact (min_le_left _ _).trans (h.nextExpiry other expiry' hget)

/-- **An attempt keeps the store in step with the log.** -/
theorem offer_inv (h : MemoryInv budget l now log) (hvalid : (budget key).Valid)
    (hroom : l.events.get key = none → l.events.len < l.maxKeys) :
    MemoryInv budget (l.offer now id key (budget key) (l.attempts key)).1 now
      (log.record key now ((budget key).answer now (log key)).1) := by
  have hcovered (t : ℚ) (ht : t ∈ live (budget key).window now (log key)) := h.covered ht
  have hordered : (live (budget key).window now (log key)).Pairwise (· ≤ ·) := h.ordered_live
  rw [offer_eq h]
  unfold Budget.answer Log.record
  generalize hcounted : live (budget key).window now (log key) = counted at hcovered hordered
  dsimp only
  split
  · next hfull =>
    -- refused: the deque is only pruned
    refine store_inv h hroom ⟨hvalid, ?_, hordered, fun t ht => (hcovered t ht).1, ?_⟩ le_rfl ?_
      fun _ _ => rfl
    · rintro rfl
      exact absurd hvalid.1 (by simpa using hfull)
    · intro t ht
      exact (hcovered t ht).2.trans (le_max_left _ _)
    · rw [← hcounted]
      exact agree_live
  · refine store_inv h hroom ⟨hvalid, by simp, ?_, ?_, ?_⟩ (le_max_left _ _) ?_ ?_
    · apply List.pairwise_append.mpr
      refine ⟨hordered, List.pairwise_singleton _ _, ?_⟩
      intro t ht u hu
      rw [List.mem_singleton.mp hu]
      exact (hcovered t ht).1
    · intro t ht
      rcases List.mem_append.mp ht with ht | ht
      · exact (hcovered t ht).1
      · exact le_of_eq (List.mem_singleton.mp ht)
    · intro t ht
      rcases List.mem_append.mp ht with ht | ht
      · exact ((hcovered t ht).2.trans (le_max_left _ _)).trans (le_max_left _ _)
      · rw [List.mem_singleton.mp ht]
        exact le_max_right _ _
    · rw [← hcounted]
      simpa using agree_live.append [now]
    · intro other hother
      simp [hother]

/-- Whether a key is stored depends on no other key. -/
theorem events_offer_of_ne {b : Budget} (h : other ≠ key) :
    (l.offer now id key b bucket).1.events.get other = l.events.get other ∧
      (l.offer now id key b bucket).1.expiresAt.get other = l.expiresAt.get other := by
  unfold offer
  dsimp only
  split <;> exact ⟨Dict.get_set_of_ne h, Dict.get_set_of_ne h⟩

/-- The new expiry is the one of an attempt of the key again. -/
theorem tight_offer (h : MemoryInv budget l now log) (htight : Tight budget l)
    (hvalid : (budget key).Valid) (hnow : 0 ≤ now) :
    Tight budget (l.offer now id key (budget key) (l.attempts key)).1 := by
  intro other bucket' hget
  by_cases hother : other = key
  swap
  · rw [(events_offer_of_ne hother).1] at hget
    rw [(events_offer_of_ne hother).2]
    exact htight other bucket' hget
  subst hother
  have hcovered (t : ℚ) (ht : t ∈ live (budget other).window now (log other)) := h.covered ht
  have hw := hvalid.window_pos
  rw [offer_eq h] at hget ⊢
  generalize hcounted : live (budget other).window now (log other) = counted at hcovered hget ⊢
  dsimp only at hget ⊢
  split at hget
  · next hfull =>
    rw [if_pos hfull]
    obtain rfl : counted = bucket' := by simpa using hget
    -- the window is full, so the key is stored already and keeps its expiry
    obtain ⟨init, last, rfl⟩ : ∃ init last, counted = init ++ [last] := by
      rcases List.eq_nil_or_concat counted with rfl | ⟨init, last, rfl⟩
      · exact absurd hvalid.1 (by simpa using hfull)
      · exact ⟨init, last, by simp⟩
    have hlast : last ∈ live (budget other).window now (log other) := by simp [hcounted]
    cases hstored : l.events.get other with
    | none =>
        rw [h.live_eq_nil hstored] at hlast
        cases hlast
    | some bucket =>
        obtain ⟨t, ht, hexpiry⟩ := htight other bucket hstored
        obtain ⟨hpast, hle⟩ := hcovered last (by simp)
        rw [hexpiry, Option.getD_some] at hle
        have hcount : t ∈ init ++ [last] := by
          rw [← hcounted, ← h.agree other]
          have hattempts : l.attempts other = bucket := by
            simp [SlidingWindowRateLimiter.attempts, hstored]
          rw [hattempts]
          exact mem_live.mpr ⟨ht, (mem_live.mp hlast).2.trans_le (by linarith)⟩
        refine ⟨t, hcount, ?_⟩
        simp [hexpiry, hle]
  · next hfull =>
    rw [if_neg hfull]
    obtain rfl : counted ++ [now] = bucket' := by simpa using hget
    refine ⟨now, by simp, ?_⟩
    have hold : (l.expiresAt.get other).getD 0 ≤ now + (budget other).window := by
      cases hstored : l.events.get other with
      | none =>
          rw [h.orphan other hstored]
          exact add_nonneg hnow hw.le
      | some bucket =>
          obtain ⟨t, ht, hexpiry⟩ := htight other bucket hstored
          obtain ⟨expiry, _, hheld⟩ := h.held other bucket hstored
          rw [hexpiry, Option.getD_some]
          have := hheld.past t ht
          linarith
    have hlast : counted.getLastD now ≤ now := by
      rcases List.eq_nil_or_concat counted with rfl | ⟨init, last, rfl⟩
      · rfl
      · simpa using (hcovered last (by simp)).1
    have hmax : max (max ((l.expiresAt.get other).getD 0)
        (counted.getLastD now + (budget other).window)) (now + (budget other).window) =
        now + (budget other).window := max_eq_right (max_le hold (by linarith))
    rw [hmax]
    exact Dict.get_set_self

/-! ## Taking attempts back -/

theorem attempts_pop : (({ l with
    events := l.events.pop key, expiresAt := l.expiresAt.pop key } :
      SlidingWindowRateLimiter).attempts other) = if other = key then [] else l.attempts other := by
  show ((l.events.pop key).get other).getD [] = _
  split
  · next h => rw [h, Dict.get_pop_self, Option.getD_none]
  · next h => rw [Dict.get_pop_of_ne h]; rfl

/-- Forgetting a key. -/
theorem pop_inv (h : MemoryInv budget l now log) {log' : Log}
    (hnone : Agree (budget key).window now [] (log' key))
    (hsame : ∀ other, other ≠ key → log' other = log other) :
    MemoryInv budget (l.reset key) now log' where
  bounded := Dict.len_filter_le.trans h.bounded
  orphan := by
    intro other hget
    by_cases hother : other = key
    · subst hother
      exact Dict.get_pop_self
    · replace hget : (l.events.pop key).get other = none := hget
      show (l.expiresAt.pop key).get other = none
      rw [Dict.get_pop_of_ne hother] at hget ⊢
      exact h.orphan other hget
  held := by
    intro other bucket hget
    replace hget : (l.events.pop key).get other = some bucket := hget
    show ∃ expiry, (l.expiresAt.pop key).get other = some expiry ∧ _
    by_cases hother : other = key
    · subst hother
      simp at hget
    · rw [Dict.get_pop_of_ne hother] at hget ⊢
      exact h.held other bucket hget
  agree := by
    intro other
    show Agree _ now (SlidingWindowRateLimiter.attempts _ other) (log' other)
    rw [reset, attempts_pop]
    split
    · next hother => rwa [hother]
    · next hother =>
      rw [hsame other hother]
      exact h.agree other
  nextExpiry := by
    intro other expiry hget
    replace hget : (l.expiresAt.pop key).get other = some expiry := hget
    by_cases hother : other = key
    · subst hother
      simp at hget
    · rw [Dict.get_pop_of_ne hother] at hget
      exact h.nextExpiry other expiry hget

/-- A reset empties the log of the key. -/
theorem reset_inv (h : MemoryInv budget l now log) :
    MemoryInv budget (l.reset key) now (Function.update log key []) := by
  apply pop_inv h
  · simp [Agree]
  · intro other hother
    simp [hother]

theorem tight_reset (h : Tight budget l) : Tight budget (l.reset key) := by
  intro other bucket hget
  replace hget : (l.events.pop key).get other = some bucket := hget
  show ∃ t ∈ bucket, (l.expiresAt.pop key).get other = _
  by_cases hother : other = key
  · subst hother
    simp at hget
  · rw [Dict.get_pop_of_ne hother] at hget ⊢
    exact h other bucket hget

/-- Taking the newest attempt back. -/
theorem refund_inv (h : MemoryInv budget l now log) (hordered : (log key).Pairwise (· ≤ ·)) :
    MemoryInv budget (l.refund key) now (Function.update log key (log key).dropLast) := by
  have hagree : Agree (budget key).window now (l.attempts key).dropLast
      (Function.update log key (log key).dropLast key) := by
    simpa using (h.agree key).dropLast h.ordered hordered
  have hsame : ∀ other, other ≠ key →
      Function.update log key (log key).dropLast other = log other := by
    intro other hother
    simp [hother]
  have hattempts : l.attempts key = (l.events.get key).getD [] := rfl
  have hkept (hempty : l.attempts key = []) :
      MemoryInv budget l now (Function.update log key (log key).dropLast) := by
    refine { h with agree := fun other => ?_ }
    by_cases hother : other = key
    · subst hother
      rw [hempty] at hagree ⊢
      exact hagree
    · rw [hsame other hother]
      exact h.agree other
  unfold refund
  split
  · next hget => exact hkept (by simp [hattempts, hget])
  · next hget => exact hkept (by simp [hattempts, hget])
  · next bucket _ hget =>
    dsimp only
    replace hattempts : l.attempts key = bucket := by simp [hattempts, hget]
    rw [hattempts] at hagree
    split
    · next hempty =>
      rw [List.isEmpty_iff.mp hempty] at hagree
      exact pop_inv h hagree hsame
    · next hempty =>
      -- the expiry stays, and now is later than it has to be
      obtain ⟨expiry, hexpiry, hheld⟩ := h.held key bucket hget
      have hshorter : ∀ t ∈ bucket.dropLast, t ∈ bucket := fun t ht => List.dropLast_subset _ ht
      have hheld' : Held (budget key) now bucket.dropLast expiry :=
        ⟨hheld.valid, by simpa using hempty, hheld.ordered.sublist (List.dropLast_sublist _),
          fun t ht => hheld.past t (hshorter t ht), fun t ht => hheld.covered t (hshorter t ht)⟩
      refine ⟨(Dict.len_set_old hget).trans h.bounded, ?_, ?_, ?_, h.nextExpiry⟩
      · intro other hnone
        replace hnone : (l.events.set key bucket.dropLast).get other = none := hnone
        by_cases hother : other = key
        · subst hother
          simp at hnone
        · rw [Dict.get_set_of_ne hother] at hnone
          exact h.orphan other hnone
      · intro other bucket' hsome
        replace hsome : (l.events.set key bucket.dropLast).get other = some bucket' := hsome
        by_cases hother : other = key
        · subst hother
          obtain rfl : bucket.dropLast = bucket' := by simpa using hsome
          exact ⟨expiry, hexpiry, hheld'⟩
        · rw [Dict.get_set_of_ne hother] at hsome
          exact h.held other bucket' hsome
      · intro other
        show Agree _ now (((l.events.set key bucket.dropLast).get other).getD []) _
        by_cases hother : other = key
        · subst hother
          simpa using hagree
        · rw [Dict.get_set_of_ne hother, hsame other hother]
          exact h.agree other

/-! ## `allow` -/

/-- **What `allow` does where nothing is rounded.** It answers with the ideal limiter and logs what
it accepts, or it refuses a key that the store does not have because every stored key is yet to
expire. -/
theorem allow_spec (h : MemoryInv budget l now log) (hvalid : (budget key).Valid)
    (hfits : ¬ floatLimit ≤ (budget key).windowSeconds) :
    (∃ m : SlidingWindowRateLimiter, l.allow now id key (budget key) =
        ((m.offer now id key (budget key) (m.attempts key)).1,
          .ok ((budget key).answer now (log key))) ∧
        MemoryInv budget m now log ∧ (m.events.get key = none → m.events.len < m.maxKeys) ∧
        m.maxKeys = l.maxKeys ∧ (Tight budget l → Tight budget m)) ∨
      (l.periodicCleanup now).events.get key = none ∧
        ∃ m wait, l.allow now id key (budget key) = (m, .ok (false, wait)) ∧
          MemoryInv budget m now log ∧ m.events.get key = none ∧ m.events.len = l.maxKeys ∧
          m.maxKeys = l.maxKeys ∧ (∀ other expiry, m.expiresAt.get other = some expiry → now < expiry)
          ∧ (Tight budget l → Tight budget m) := by
  have hperiodic := periodicCleanup_inv h
  have hmax : (l.periodicCleanup now).maxKeys = l.maxKeys := by
    unfold periodicCleanup
    split <;> rfl
  have htight : Tight budget l → Tight budget (l.periodicCleanup now) := by
    unfold periodicCleanup
    split
    · exact tight_cleanup
    · exact id
  unfold allow
  rw [if_pos hvalid, if_neg hfits]
  generalize l.periodicCleanup now = m at hperiodic hmax htight ⊢
  dsimp only
  split
  · next bucket hget =>
    have hattempts : m.attempts key = bucket := by
      simp [SlidingWindowRateLimiter.attempts, hget]
    refine .inl ⟨m, ?_, hperiodic, by simp [hget], hmax, htight⟩
    rw [← offer_answer hperiodic, hattempts]
    rfl
  · next hget =>
    have hroom := makeRoom_inv hperiodic
    have hnone : (m.makeRoom now).events.get key = none := events_makeRoom hget
    have hkeys : (m.makeRoom now).maxKeys = l.maxKeys := by
      unfold makeRoom
      split <;> exact hmax
    have htight' : Tight budget l → Tight budget (m.makeRoom now) := by
      unfold makeRoom
      split
      · exact tight_cleanup ∘ htight
      · exact htight
    unfold offerNew
    dsimp only
    split
    · next hfull =>
      refine .inr ⟨hget, ?_⟩
      have hlen : (m.makeRoom now).events.len = (m.makeRoom now).maxKeys :=
        le_antisymm hroom.bounded hfull
      -- a full store has a key, so the next expiry is finite
      have hfinite : (m.makeRoom now).nextExpiry ≠ ⊤ := by
        have hpos : 0 < (m.makeRoom now).events.len := hlen ▸ (m.makeRoom now).maxKeys_pos
        obtain ⟨⟨k, bucket⟩, hmem⟩ := List.exists_mem_of_length_pos hpos
        obtain ⟨expiry, hexpiry, -⟩ := hroom.held k bucket (Dict.get_eq_some.mpr hmem)
        exact ne_top_of_le_ne_top WithTop.coe_ne_top (hroom.nextExpiry k expiry hexpiry)
      split
      · next htop => exact absurd htop hfinite
      · exact ⟨_, _, rfl, hroom, hnone, hlen.trans hkeys, hkeys,
          fun _ _ => lt_of_full hperiodic hfull, htight'⟩
    · next hspace =>
      have hattempts : (m.makeRoom now).attempts key = [] := by
        simp [SlidingWindowRateLimiter.attempts, hnone]
      refine .inl ⟨m.makeRoom now, ?_, hroom, fun _ => not_le.mp hspace, hkeys, htight'⟩
      rw [← offer_answer hroom, hattempts]
      rfl

/-- **A call that rounds nothing is a call of the limiter that does not round.** A cleanup forgets
buckets and changes none. -/
theorem allow_of_lossless {b : Budget} (h : l.Lossless now key b) :
    l.allow now roundDouble key b = l.allow now id key b := by
  have hperiodic : ∀ bucket, (l.periodicCleanup now).events.get key = some bucket →
      bucket = l.attempts key := by
    intro bucket hget
    unfold periodicCleanup at hget
    split at hget
    · rw [events_cleanup] at hget
      split at hget
      · cases hget
      · simp [attempts, hget]
    · simp [attempts, hget]
  unfold allow
  dsimp only
  cases hget : (l.periodicCleanup now).events.get key with
  | some bucket =>
      dsimp only
      rw [offer_of_lossless h _ fun t ht => hperiodic bucket hget ▸ ht]
  | none =>
      dsimp only [offerNew]
      rw [offer_of_lossless h _ fun t ht => absurd ht List.not_mem_nil]

end Scap.Limits
