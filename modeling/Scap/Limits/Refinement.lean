import Scap.Limits.Ideal

/-!
# The limiter of a process refines the ideal limiter

Runs of `allow`, `refund` and `reset` at the readings of a monotonic clock, next to the log of the
ideal limiter. The periodic cleanup, the cleanup that a new key asks for and the bound on the
number of keys leave three traces at most, and `exact_refines_ideal` says which: a key without
live attempts can be refused while the store is full of live keys, and nothing else.

The limiter of the source rounds. In runs whose calls round nothing it is the limiter that does not
round, so `limiter_refines_ideal` carries the result to it; `waited_too_short` is a run in which the
rounding shows.
-/

namespace Scap.Limits

open Scap.Py Scap.Lib SlidingWindow SlidingWindowRateLimiter

/-! ## Calls -/

/-- A call, at a reading of the clock. -/
inductive Call where
  | allow (now : ℚ) (key : String)
  | refund (now : ℚ) (key : String)
  | reset (now : ℚ) (key : String)
  deriving DecidableEq, Repr

def Call.now : Call → ℚ
  | .allow now _ | .refund now _ | .reset now _ => now

def Call.key : Call → String
  | .allow _ key | .refund _ key | .reset _ key => key

/-- `allow` and `reset`. -/
def Call.IsAllowOrReset : Call → Prop
  | .refund _ _ => False
  | _ => True

/-- The limiter, the clock, and the log of the attempts it has accepted. -/
structure Tracked where
  limiter : SlidingWindowRateLimiter
  clock : ℚ
  log : Log

/-- Whether an answer accepts the attempt. -/
def Answer.accepts : Answer → Bool
  | .ok (decision, _) => decision
  | .error _ => false

/-- The log after a call that has been answered. -/
def Log.after (log : Log) (answer : Answer) : Call → Log
  | .allow now key => log.record key now answer.accepts
  | .refund _ key => Function.update log key (log key).dropLast
  | .reset _ key => Function.update log key []

variable (fl : ℚ → ℚ) (budget : String → Budget)

/-- The limiter after a call, and its answer. -/
def SlidingWindowRateLimiter.call (l : SlidingWindowRateLimiter) :
    Call → SlidingWindowRateLimiter × Answer
  | .allow now key => l.allow now fl key (budget key)
  | .refund _ key => (l.refund key, .ok (true, 0))
  | .reset _ key => (l.reset key, .ok (true, 0))

/-- The clock does not go back. -/
def stepTracked (s : Tracked) (c : Call) : Option Tracked :=
  if c.now < s.clock then none
  else
    let (limiter, answer) := s.limiter.call fl budget c
    some ⟨limiter, c.now, s.log.after answer c⟩

/-- A new limiter; the monotonic clock counts up from zero. -/
def Tracked.Initial (s : Tracked) : Prop :=
  0 ≤ s.clock ∧ (∃ maxKeys interval, SlidingWindowRateLimiter.new maxKeys interval = .ok s.limiter) ∧
    s.log = fun _ => []

def limiterSystem : System Tracked Call := System.ofFun Tracked.Initial (stepTracked fl budget)

/-! ## The invariant -/

variable {fl} {budget} {s t : Tracked} {c : Call} {cs : List Call} {key : String} {now : ℚ}

/-- What holds in every run. -/
structure TrackedInv (budget : String → Budget) (s : Tracked) : Prop where
  memory : MemoryInv budget s.limiter s.clock s.log
  ordered : ∀ key, (s.log key).Pairwise (· ≤ ·)
  past : ∀ key, ∀ t ∈ s.log key, t ≤ s.clock
  capped : ∀ key, (budget key).Valid →
    ((live (budget key).window s.clock (s.log key)).length : Int) ≤ (budget key).maxAttempts
  clock : 0 ≤ s.clock

theorem inv_of_initial (h : s.Initial) : TrackedInv budget s := by
  obtain ⟨hclock, ⟨maxKeys, interval, hnew⟩, hlog⟩ := h
  obtain ⟨l, clock, log⟩ := s
  dsimp only at hclock hnew hlog
  subst hlog
  unfold SlidingWindowRateLimiter.new at hnew
  split at hnew
  · cases hnew
    refine ⟨⟨Nat.zero_le _, fun _ _ => rfl, ?_, fun _ => rfl, ?_⟩, fun _ => List.Pairwise.nil, ?_, ?_,
      hclock⟩
    · intro key bucket hget
      cases hget
    · intro key expiry hget
      cases hget
    · intro key t ht
      cases ht
    · intro key hvalid
      simpa using hvalid.1.le
  · cases hnew

/-- The log of a key that is not called keeps its attempts. -/
theorem Log.after_of_ne {log : Log} {answer : Answer} (h : key ≠ c.key) :
    log.after answer c key = log key := by
  cases c with
  | allow now k =>
      replace h : key ≠ k := h
      simp only [after, record]
      split <;> simp [h]
  | refund now k => exact Function.update_of_ne h _ _
  | reset now k => exact Function.update_of_ne h _ _

theorem Log.record_self {log : Log} {accepted : Bool} :
    log.record key now accepted key = if accepted then log key ++ [now] else log key := by
  unfold record
  cases accepted <;> simp

/-- A call that the limiter answers as the ideal one does, or refuses. -/
theorem log_of_call {answer : Answer} (hmono : s.clock ≤ c.now) (hs : TrackedInv budget s)
    (hanswer : ∀ now key, c = .allow now key → answer.accepts = true →
      (budget key).Admits now (s.log key)) :
    (∀ key, (s.log.after answer c key).Pairwise (· ≤ ·)) ∧
      (∀ key, ∀ t ∈ s.log.after answer c key, t ≤ c.now) ∧
      ∀ key, (budget key).Valid → ((live (budget key).window c.now
        (s.log.after answer c key)).length : Int) ≤ (budget key).maxAttempts := by
  have hpast : ∀ key, ∀ t ∈ s.log key, t ≤ c.now := fun key t ht => (hs.past key t ht).trans hmono
  have hcapped : ∀ key, (budget key).Valid →
      ((live (budget key).window c.now (s.log key)).length : Int) ≤ (budget key).maxAttempts :=
    fun key hvalid =>
      le_trans (by exact_mod_cast length_live_anti hmono) (hs.capped key hvalid)
  -- a refund and a reset only take attempts away, and so does a refusal
  have hshorter : ∀ key, ∀ new : List ℚ, new.Sublist (s.log key) →
      new.Pairwise (· ≤ ·) ∧ (∀ t ∈ new, t ≤ c.now) ∧ ((budget key).Valid →
        ((live (budget key).window c.now new).length : Int) ≤ (budget key).maxAttempts) := by
    intro key new hsub
    refine ⟨(hs.ordered key).sublist hsub, fun t ht => hpast key t (hsub.subset ht), fun hvalid => ?_⟩
    refine le_trans ?_ (hcapped key hvalid)
    exact_mod_cast (hsub.filter _).length_le
  have hall : ∀ key, (s.log.after answer c key).Pairwise (· ≤ ·) ∧
      (∀ t ∈ s.log.after answer c key, t ≤ c.now) ∧ ((budget key).Valid →
        ((live (budget key).window c.now (s.log.after answer c key)).length : Int) ≤
          (budget key).maxAttempts) := by
    intro key
    by_cases hkey : key = c.key
    swap
    · rw [Log.after_of_ne hkey]
      exact hshorter key _ (List.Sublist.refl _)
    subst hkey
    cases c with
    | allow now k =>
        show (s.log.record k now answer.accepts k).Pairwise _ ∧ _
        simp only [Log.after, Call.key, Call.now] at hpast hshorter hanswer ⊢
        rw [Log.record_self]
        split
        · next haccepts =>
          refine ⟨?_, ?_, fun hvalid => ?_⟩
          · apply List.pairwise_append.mpr
            refine ⟨hs.ordered k, List.pairwise_singleton _ _, fun t ht u hu => ?_⟩
            rw [List.mem_singleton.mp hu]
            exact hpast k t ht
          · intro t ht
            rcases List.mem_append.mp ht with ht | ht
            · exact hpast k t ht
            · exact le_of_eq (List.mem_singleton.mp ht)
          -- an attempt is logged only where the ideal limiter has room for it
          · have hadmits := hanswer now k rfl haccepts
            rw [live_append, live_singleton hvalid.window_pos, List.length_append]
            unfold Budget.Admits at hadmits
            simp only [List.length_singleton, Nat.cast_add, Nat.cast_one]
            omega
        · exact hshorter k _ (List.Sublist.refl _)
    | refund now k =>
        show (Function.update s.log k (s.log k).dropLast k).Pairwise _ ∧ _
        simp only [Log.after, Call.key, Function.update_self]
        exact hshorter k _ (List.dropLast_sublist _)
    | reset now k =>
        show (Function.update s.log k [] k).Pairwise _ ∧ _
        simp only [Log.after, Call.key, Function.update_self]
        exact hshorter k _ (List.nil_sublist _)
  exact ⟨fun key => (hall key).1, fun key => (hall key).2.1, fun key => (hall key).2.2⟩

/-- One call. -/
theorem inv_step (hs : TrackedInv budget s) (h : (limiterSystem id budget).step s c t) :
    TrackedInv budget t ∧ (c.IsAllowOrReset → Tight budget s.limiter → Tight budget t.limiter) ∧
      s.clock ≤ c.now ∧ t.clock = c.now ∧
      t.log = s.log.after (s.limiter.call id budget c).2 c := by
  replace h : stepTracked id budget s c = some t := h
  unfold stepTracked at h
  split at h
  · cases h
  · next hlater =>
    have hmono : s.clock ≤ c.now := not_lt.mp hlater
    have hnow : 0 ≤ c.now := hs.clock.trans hmono
    have hmemory := hs.memory.mono hmono
    obtain rfl := Option.some.inj h
    have hkey : MemoryInv budget (s.limiter.call id budget c).1 c.now
          (s.log.after (s.limiter.call id budget c).2 c) ∧
        (c.IsAllowOrReset → Tight budget s.limiter → Tight budget (s.limiter.call id budget c).1) ∧
        ∀ now key, c = .allow now key → (s.limiter.call id budget c).2.accepts = true →
          (budget key).Admits now (s.log key) := by
      cases c with
      | allow now key =>
          simp only [SlidingWindowRateLimiter.call, Log.after, Call.now] at hmemory hnow ⊢
          by_cases hvalid : (budget key).Valid
          swap
          · -- `ValueError` before anything is touched
            unfold SlidingWindowRateLimiter.allow
            rw [if_neg hvalid]
            refine ⟨by simpa [Answer.accepts, Log.record] using hmemory, fun _ h => h, ?_⟩
            rintro _ _ _ ⟨⟩
          by_cases hfits : floatLimit ≤ (budget key).windowSeconds
          · -- `OverflowError` before anything is touched
            unfold SlidingWindowRateLimiter.allow
            rw [if_pos hvalid, if_pos hfits]
            refine ⟨by simpa [Answer.accepts, Log.record] using hmemory, fun _ h => h, ?_⟩
            rintro _ _ _ ⟨⟩
          rcases allow_spec hmemory hvalid hfits with ⟨m, hallow, hm, hroom, -, htight⟩ |
            ⟨-, m, wait, hallow, hm, -, -, -, -, htight⟩
          · rw [hallow]
            refine ⟨offer_inv hm hvalid hroom, ?_, ?_⟩
            · exact fun _ h => tight_offer hm (htight h) hvalid hnow
            · rintro _ _ ⟨rfl, rfl⟩ haccepts
              exact Budget.answer_fst.mp haccepts
          · rw [hallow]
            refine ⟨by simpa [Answer.accepts, Log.record] using hm, fun _ h => htight h, ?_⟩
            rintro _ _ _ ⟨⟩
      | refund now key =>
          refine ⟨refund_inv hmemory (hs.ordered key), fun h => h.elim, ?_⟩
          rintro _ _ ⟨⟩
      | reset now key =>
          refine ⟨reset_inv hmemory, fun _ h => tight_reset h, ?_⟩
          rintro _ _ ⟨⟩
    obtain ⟨hinv, htight, hadmits⟩ := hkey
    obtain ⟨hordered, hpast, hcapped⟩ := log_of_call hmono hs hadmits
    exact ⟨⟨hinv, hordered, hpast, hcapped, hnow⟩, htight, hmono, rfl, rfl⟩

theorem inv_of_reachable (h : (limiterSystem id budget).Reachable s) : TrackedInv budget s :=
  h.induct (fun _ => inv_of_initial) fun _ _ _ _ hs hstep => (inv_step hs hstep).1

/-! ## Where the store shows -/

/-- As many other keys as the store has room for, each with an accepted attempt in its window. -/
def FullOfLive (budget : String → Budget) (s : Tracked) (now : ℚ) (key : String) : Prop :=
  ∃ keys : List String, keys.Nodup ∧ keys.length = s.limiter.maxKeys ∧ key ∉ keys ∧
    ∀ k ∈ keys, ∃ t ∈ s.log k, t ≤ now ∧ now - (budget k).window < t

theorem fullOfLive {m : SlidingWindowRateLimiter} (hm : MemoryInv budget m now s.log)
    (htight : Tight budget m) (hnone : m.events.get key = none)
    (hlen : m.events.len = s.limiter.maxKeys)
    (hlater : ∀ other expiry, m.expiresAt.get other = some expiry → now < expiry) :
    FullOfLive budget s now key := by
  refine ⟨m.events.keys, m.events.nodup_keys, ?_, ?_, ?_⟩
  · rw [Dict.len_keys, hlen]
  · intro hmem
    exact Dict.mem_keys.mp hmem hnone
  · intro k hk
    obtain ⟨bucket, hget⟩ := Option.ne_none_iff_exists'.mp (Dict.mem_keys.mp hk)
    -- the key expires with one of its attempts, which counts because the key is yet to expire
    obtain ⟨t, ht, hexpiry⟩ := htight k bucket hget
    obtain ⟨_, _, hheld⟩ := hm.held k bucket hget
    have hinside : now - (budget k).window < t := by
      have := hlater k _ hexpiry
      linarith
    have hcounted : t ∈ live (budget k).window now (s.log k) := by
      rw [← hm.agree k, SlidingWindowRateLimiter.attempts, hget]
      exact mem_live.mpr ⟨ht, hinside⟩
    exact ⟨t, (mem_live.mp hcounted).1, hheld.past t ht, hinside⟩

/-- An attempt in its window is in the store. -/
theorem stored_of_live (hs : TrackedInv budget s) {t : ℚ} (ht : t ∈ s.log key)
    (hinside : s.clock - (budget key).window < t) :
    ∃ bucket, s.limiter.events.get key = some bucket ∧ t ∈ bucket := by
  have hcounted : t ∈ live (budget key).window s.clock (s.limiter.attempts key) := by
    rw [hs.memory.agree key]
    exact mem_live.mpr ⟨ht, hinside⟩
  have hmem := (mem_live.mp hcounted).1
  unfold SlidingWindowRateLimiter.attempts at hmem
  cases hget : s.limiter.events.get key with
  | none => simp [hget] at hmem
  | some bucket => exact ⟨bucket, rfl, by simpa [hget] using hmem⟩

/-- Waiting as long as a full budget says makes room. -/
theorem admits_after_wait (hs : TrackedInv budget s) (hnow : s.clock ≤ now)
    (hvalid : (budget key).Valid) {wait : Int} {later : ℚ}
    (hanswer : (budget key).answer now (s.log key) = (false, wait)) (hlater : now + wait ≤ later) :
    (budget key).Admits later (s.log key) := by
  have hcapped : ((live (budget key).window now (s.log key)).length : Int) ≤
      (budget key).maxAttempts :=
    le_trans (by exact_mod_cast length_live_anti hnow) (hs.capped key hvalid)
  unfold Budget.answer at hanswer
  dsimp only at hanswer
  split at hanswer
  swap
  · cases hanswer
  next hfull =>
  have hwait := (Prod.mk.inj hanswer).2
  cases hcounted : live (budget key).window now (s.log key) with
  | nil =>
      rw [hcounted] at hfull
      exact absurd hvalid.1 (by simpa using hfull)
  | cons first rest =>
      rw [hcounted, List.headD_cons] at hwait
      have hceil : (budget key).window - (now - first) ≤ wait := by
        rw [← hwait]
        push_cast
        exact (Int.le_ceil _).trans (le_max_right _ _)
      have hpos : (1 : ℚ) ≤ wait := by
        rw [← hwait]
        push_cast
        exact le_max_left _ _
      have hout : first ≤ later - (budget key).window := by linarith
      have hroom := length_live_lt hcounted (by linarith) hout
      unfold Budget.Admits
      omega

/-- The log of a key that is not called in a run. -/
theorem log_of_run {C : Tracked → Call → Prop} {u : Tracked} (hs : TrackedInv budget s)
    (hrun : ((limiterSystem id budget).restrict C).Run s cs u) (hother : ∀ c ∈ cs, c.key ≠ key) :
    u.log key = s.log key ∧ TrackedInv budget u := by
  induction hrun with
  | nil => exact ⟨rfl, hs⟩
  | @snoc cs c t u hrun hlast ih =>
      obtain ⟨hlog, ht⟩ := ih fun c hc => hother c (by simp [hc])
      obtain ⟨hu, -, -, -, hafter⟩ := inv_step ht hlast.1
      refine ⟨?_, hu⟩
      rw [hafter, Log.after_of_ne (hother c (by simp)).symm, hlog]

/-- **A limiter that does not round refines the ideal limiter.** In every run of `allow` and `reset`,
an attempt is answered with the decision of the ideal limiter, or refused while the key has no live
attempt and as many other keys as the store holds have one. A live attempt is in the store. And
once a key has waited as long as a refusal of its own budget says, without a call in between, its
budget has room. -/
theorem exact_refines_ideal
    (hs : ((limiterSystem id budget).restrict fun _ c => c.IsAllowOrReset).Reachable s)
    (hnow : s.clock ≤ now) (hvalid : (budget key).Valid)
    (hfits : ¬ floatLimit ≤ (budget key).windowSeconds) :
    (∀ t ∈ s.log key, s.clock - (budget key).window < t →
      ∃ bucket, s.limiter.events.get key = some bucket ∧ t ∈ bucket) ∧
    ∃ decision wait, (s.limiter.allow now id key (budget key)).2 = .ok (decision, wait) ∧
      ((decision = true ↔ (budget key).Admits now (s.log key)) ∨
        decision = false ∧ (s.limiter.periodicCleanup now).events.get key = none ∧
          live (budget key).window now (s.log key) = [] ∧ FullOfLive budget s now key) ∧
      ((s.limiter.periodicCleanup now).events.get key ≠ none → decision = false →
        ∀ t u cs later, (limiterSystem id budget).step s (.allow now key) t →
          ((limiterSystem id budget).restrict fun _ c => c.IsAllowOrReset).Run t cs u →
          (∀ c ∈ cs, c.key ≠ key) → u.clock ≤ later → now + wait ≤ later →
          (budget key).Admits later (u.log key)) := by
  have hinv : TrackedInv budget s ∧ Tight budget s.limiter := by
    apply hs.induct
    · intro s hinit
      refine ⟨inv_of_initial hinit, ?_⟩
      intro key bucket hget
      obtain ⟨-, ⟨maxKeys, interval, hnew⟩, -⟩ := hinit
      unfold SlidingWindowRateLimiter.new at hnew
      split at hnew
      · have hempty := congrArg SlidingWindowRateLimiter.events (Except.ok.inj hnew)
        rw [← hempty] at hget
        cases hget
      · cases hnew
    · intro s c t _ hs hstep
      obtain ⟨ht, htight, -⟩ := inv_step hs.1 hstep.1
      exact ⟨ht, htight hstep.2 hs.2⟩
  obtain ⟨hinv, htight⟩ := hinv
  have hmemory := hinv.memory.mono hnow
  refine ⟨fun t ht hinside => stored_of_live hinv ht hinside, ?_⟩
  rcases allow_spec hmemory hvalid hfits with ⟨m, hallow, -, -, -, -⟩ |
    ⟨hunknown, m, wait, hallow, hm, hnone, hlen, -, hlater, htight'⟩
  · -- the answer of the ideal limiter
    cases hideal : (budget key).answer now (s.log key) with
    | mk decision wait =>
    rw [hideal] at hallow
    refine ⟨decision, wait, congrArg Prod.snd hallow, .inl ?_, ?_⟩
    · rw [← Budget.answer_fst, hideal]
    rintro _ rfl t u cs later hstep hrun hother _ hwait
    obtain ⟨ht, -, -, -, hafter⟩ := inv_step hinv hstep
    have hlog : t.log = s.log := by
      rw [hafter]
      show s.log.record key now (Answer.accepts (s.limiter.allow now id key (budget key)).2) = s.log
      rw [hallow]
      rfl
    obtain ⟨hsame, -⟩ := log_of_run ht hrun hother
    rw [hsame, hlog]
    exact admits_after_wait hinv hnow hvalid hideal hwait
  · -- the store is full
    refine ⟨false, wait, congrArg Prod.snd hallow, .inr ⟨rfl, hunknown, hm.live_eq_nil hnone, ?_⟩, ?_⟩
    · exact fullOfLive hm (htight' htight) hnone hlen hlater
    · intro hknown
      exact absurd hunknown hknown

/-! ## Where nothing is rounded -/

variable (budget) in
/-- A call of which nothing is rounded. Only `allow` computes with times, and only on a budget that
it does not refuse. -/
def SlidingWindowRateLimiter.LosslessCall (l : SlidingWindowRateLimiter) : Call → Prop
  | .allow now key => (budget key).Valid → l.Lossless now key (budget key)
  | _ => True

instance (l : SlidingWindowRateLimiter) : DecidablePred (l.LosslessCall budget)
  | .allow now key =>
      inferInstanceAs (Decidable ((budget key).Valid → l.Lossless now key (budget key)))
  | .refund _ _ => .isTrue trivial
  | .reset _ _ => .isTrue trivial

variable (budget) in
/-- The limiter of the source, in runs whose calls round nothing. -/
def losslessSystem : System Tracked Call :=
  (limiterSystem roundDouble budget).restrict fun s c => s.limiter.LosslessCall budget c

theorem call_of_lossless (h : s.limiter.LosslessCall budget c) :
    s.limiter.call roundDouble budget c = s.limiter.call id budget c := by
  cases c with
  | allow now key =>
      show s.limiter.allow now roundDouble key _ = s.limiter.allow now id key _
      by_cases hvalid : (budget key).Valid
      · exact allow_of_lossless (h hvalid)
      · -- `ValueError` before anything is computed
        unfold SlidingWindowRateLimiter.allow
        rw [if_neg hvalid, if_neg hvalid]
  | refund now key => rfl
  | reset now key => rfl

/-- A step that rounds nothing is a step of the limiter that does not round. -/
theorem step_of_lossless (h : (losslessSystem budget).step s c t) :
    (limiterSystem id budget).step s c t := by
  obtain ⟨hstep, hlossless⟩ := h
  replace hstep : stepTracked roundDouble budget s c = some t := hstep
  show stepTracked id budget s c = some t
  unfold stepTracked at hstep ⊢
  rwa [call_of_lossless hlossless] at hstep

/-- **The limiter of a process refines the ideal limiter as long as nothing is rounded.** In every
run of `allow` and `reset` whose calls round nothing, an attempt is answered with the decision of
the ideal limiter, or refused while the key has no live attempt and as many other keys as the store
holds have one. A live attempt is in the store. And once a key has waited as long as a refusal of
its own budget says, without a call in between, its budget has room. -/
theorem limiter_refines_ideal
    (hs : ((losslessSystem budget).restrict fun _ c => c.IsAllowOrReset).Reachable s)
    (hnow : s.clock ≤ now) (hvalid : (budget key).Valid)
    (hlossless : s.limiter.Lossless now key (budget key)) :
    (∀ t ∈ s.log key, s.clock - (budget key).window < t →
      ∃ bucket, s.limiter.events.get key = some bucket ∧ t ∈ bucket) ∧
    ∃ decision wait, (s.limiter.allow now roundDouble key (budget key)).2 = .ok (decision, wait) ∧
      ((decision = true ↔ (budget key).Admits now (s.log key)) ∨
        decision = false ∧ (s.limiter.periodicCleanup now).events.get key = none ∧
          live (budget key).window now (s.log key) = [] ∧ FullOfLive budget s now key) ∧
      ((s.limiter.periodicCleanup now).events.get key ≠ none → decision = false →
        ∀ t u cs later, (limiterSystem roundDouble budget).step s (.allow now key) t →
          ((losslessSystem budget).restrict fun _ c => c.IsAllowOrReset).Run t cs u →
          (∀ c ∈ cs, c.key ≠ key) → u.clock ≤ later → now + wait ≤ later →
          (budget key).Admits later (u.log key)) := by
  have hexact : ∀ s c t, ((losslessSystem budget).restrict fun _ c => c.IsAllowOrReset).step s c t →
      ((limiterSystem id budget).restrict fun _ c => c.IsAllowOrReset).step s c t :=
    fun _ _ _ h => ⟨step_of_lossless h.1, h.2⟩
  have hreach : ((limiterSystem id budget).restrict fun _ c => c.IsAllowOrReset).Reachable s :=
    hs.of_step (fun _ h => h) hexact
  obtain ⟨hstored, decision, wait, hanswer, hdecision, hwaited⟩ :=
    exact_refines_ideal hreach hnow hvalid hlossless.lt_floatLimit
  refine ⟨hstored, decision, wait, ?_, hdecision, ?_⟩
  · rwa [allow_of_lossless hlossless]
  · intro hknown hrefused t u cs later hstep hrun
    exact hwaited hknown hrefused t u cs later (step_of_lossless ⟨hstep, fun _ => hlossless⟩)
      (hrun.of_step hexact)

/-! ### A store of one key -/

/-- One attempt in five seconds for every key. -/
def sampleBudget (_ : String) : Budget := ⟨1, 5⟩

def sampleLimiter : SlidingWindowRateLimiter :=
  ⟨1, 60, .empty, .empty, 0, ⊤, Nat.one_pos, by norm_num⟩

theorem sampleLimiter_initial {clock : ℚ} (h : 0 ≤ clock) :
    Tracked.Initial ⟨sampleLimiter, clock, fun _ => []⟩ := by
  refine ⟨h, ⟨1, 60, ?_⟩, rfl⟩
  unfold SlidingWindowRateLimiter.new
  rw [dif_pos (by norm_num)]
  rfl

def sampleTracked : Tracked :=
  (stepTracked roundDouble sampleBudget ⟨sampleLimiter, 100, fun _ => []⟩
    (.allow 100 "victim")).getD ⟨sampleLimiter, 100, fun _ => []⟩

theorem reachable_sampleTracked :
    ((losslessSystem sampleBudget).restrict fun _ c => c.IsAllowOrReset).Reachable
      sampleTracked := by
  refine ⟨⟨sampleLimiter, 100, fun _ => []⟩, [.allow 100 "victim"],
    sampleLimiter_initial (by norm_num), ?_⟩
  apply System.Run.single
  refine ⟨⟨?_, fun _ => by decide +kernel⟩, trivial⟩
  show stepTracked _ _ _ _ = some sampleTracked
  have hsome : (stepTracked roundDouble sampleBudget ⟨sampleLimiter, 100, fun _ => []⟩
      (.allow 100 "victim")).isSome := by decide +kernel
  rw [sampleTracked, ← Option.get_eq_getD (h := hsome), Option.some_get]

/-- Another key is refused while the one key of the store is live. -/
theorem limiter_refines_ideal_sample :
    ∃ wait, (sampleTracked.limiter.allow 101 roundDouble "other" (sampleBudget "other")).2 =
      .ok (false, wait) ∧ FullOfLive sampleBudget sampleTracked 101 "other" := by
  have hvalid : (sampleBudget "other").Valid := by decide
  have hclock : sampleTracked.clock ≤ 101 := by decide +kernel
  have hlossless : sampleTracked.limiter.Lossless 101 "other" (sampleBudget "other") := by
    decide +kernel
  have hrefused : (sampleTracked.limiter.allow 101 roundDouble "other" (sampleBudget "other")).2 =
      .ok (false, 4) := by decide +kernel
  have hlog : live (sampleBudget "other").window 101 (sampleTracked.log "other") = [] := by
    decide +kernel
  obtain ⟨-, decision, wait, hanswer, hdecision, -⟩ :=
    limiter_refines_ideal reachable_sampleTracked hclock hvalid hlossless
  obtain ⟨rfl, rfl⟩ := Prod.mk.inj (Except.ok.inj (hrefused.symm.trans hanswer))
  refine ⟨4, hrefused, ?_⟩
  rcases hdecision with hideal | ⟨-, -, -, hfull⟩
  · have hadmits : (sampleBudget "other").Admits 101 (sampleTracked.log "other") := by
      unfold Budget.Admits
      rw [hlog]
      decide
    exact absurd (hideal.mpr hadmits) (by decide)
  · exact hfull

/-- One attempt in five seconds, at the readings 0.3, 2.3 and 5.3: the second is refused for three
seconds, and the third, three seconds later, for another one. What is left of the window at the
second reading is a little more than three seconds and is rounded to three. -/
theorem waited_too_short : ¬ ∀ (budget : String → Budget) (s t : Tracked) (now later : ℚ)
    (key : String) (wait : Int),
    ((limiterSystem roundDouble budget).restrict fun _ c => c.IsAllowOrReset).Reachable s →
      (limiterSystem roundDouble budget).step s (.allow now key) t →
        (s.limiter.periodicCleanup now).events.get key ≠ none →
          (s.limiter.allow now roundDouble key (budget key)).2 = .ok (false, wait) →
            now + wait ≤ later →
              (t.limiter.allow later roundDouble key (budget key)).2 = .ok (true, 0) := by
  intro h
  let first : Call := .allow (roundDouble (3 / 10)) "victim"
  let second : Call := .allow (roundDouble (23 / 10)) "victim"
  have hrun : ((stepTracked roundDouble sampleBudget ⟨sampleLimiter, 0, fun _ => []⟩ first).bind
      fun s => (stepTracked roundDouble sampleBudget s second).map fun t =>
        (((s.limiter.periodicCleanup (roundDouble (23 / 10))).events.get "victim").isSome,
          (s.limiter.allow (roundDouble (23 / 10)) roundDouble "victim" ⟨1, 5⟩).2,
          (t.limiter.allow (roundDouble (53 / 10)) roundDouble "victim" ⟨1, 5⟩).2)) =
      some (true, .ok (false, 3), .ok (false, 1)) := by decide +kernel
  obtain ⟨s, hs, hrest⟩ := Option.bind_eq_some_iff.mp hrun
  obtain ⟨t, ht, hsame⟩ := Option.map_eq_some_iff.mp hrest
  obtain ⟨hknown, hanswers⟩ := Prod.mk.inj hsame
  obtain ⟨hrefused, hagain⟩ := Prod.mk.inj hanswers
  have hreach : ((limiterSystem roundDouble sampleBudget).restrict
      fun _ c => c.IsAllowOrReset).Reachable s :=
    ⟨_, [first], sampleLimiter_initial le_rfl, System.Run.single ⟨hs, trivial⟩⟩
  have haccepted := h sampleBudget s t _ (roundDouble (53 / 10)) "victim" 3 hreach ht
    (Option.isSome_iff_ne_none.mp hknown) hrefused (by decide +kernel)
  cases hagain.symm.trans haccepted

end Scap.Limits
