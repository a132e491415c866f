import Scap.Limits.Refinement

/-!
# Attempts that are given back

Several clients attempt and refund on one key, such as the key of a shared address; the other keys
are called as they may. A client refunds an attempt that was accepted and that it has not refunded,
but `refund` takes the newest slot of the bucket, whoever it belongs to.

`unrefunded_le` says that the attempts that stay accepted keep to the budget as long as every
refund finds its own slot to be the newest and nothing is rounded. `others_slot_lost` is a run in
which a refund does not.
-/

namespace Scap.Limits

open Scap.Py Scap.Lib SlidingWindow SlidingWindowRateLimiter

/-! ## Clients -/

variable {Client : Type}

/-- An attempt of a client, named by its time. -/
structure Attempt (Client : Type) where
  client : Client
  time : ℚ
  deriving DecidableEq

/-- What happens to the limiter, seen from one key. -/
inductive Op (Client : Type) where
  | allow (now : ℚ) (client : Client)
  | refund (now : ℚ) (attempt : Attempt Client)
  | elsewhere (c : Call)

/-- The limiter, and the accepted attempts on the key that no client has refunded. -/
structure Shared (Client : Type) where
  tracked : Tracked
  kept : List (Attempt Client)

namespace Shared

def Initial (s : Shared Client) : Prop := s.tracked.Initial ∧ s.kept = []

/-- The times of the kept attempts. -/
def times (s : Shared Client) : List ℚ := s.kept.map Attempt.time

end Shared

variable [DecidableEq Client] (fl : ℚ → ℚ) (budget : String → Budget) (key : String)

def stepShared (s : Shared Client) : Op Client → Option (Shared Client)
  | .allow now client => do
    let tracked ← stepTracked fl budget s.tracked (.allow now key)
    let accepted := (s.tracked.limiter.call fl budget (.allow now key)).2.accepts
    return ⟨tracked, if accepted then s.kept ++ [⟨client, now⟩] else s.kept⟩
  | .refund now attempt => do
    guard (attempt ∈ s.kept)
    let tracked ← stepTracked fl budget s.tracked (.refund now key)
    return ⟨tracked, s.kept.erase attempt⟩
  | .elsewhere c => do
    guard (c.key ≠ key)
    let tracked ← stepTracked fl budget s.tracked c
    return ⟨tracked, s.kept⟩

def sharedSystem : System (Shared Client) (Op Client) :=
  System.ofFun Shared.Initial (stepShared fl budget key)

/-- A refund finds its own slot to be the newest of the bucket, or the bucket empty. -/
def OwnSlotNewest (s : Shared Client) : Op Client → Prop
  | .refund _ attempt => ∀ newest ∈ (s.tracked.limiter.attempts key).getLast?, newest = attempt.time
  | _ => True

instance (s : Shared Client) : DecidablePred (OwnSlotNewest key s)
  | .refund _ attempt => inferInstanceAs
      (Decidable (∀ newest ∈ (s.tracked.limiter.attempts key).getLast?, newest = attempt.time))
  | .allow _ _ => .isTrue trivial
  | .elsewhere _ => .isTrue trivial

/-- A call that rounds nothing, of any key. -/
def LosslessOp (s : Shared Client) : Op Client → Prop
  | .allow now _ => s.tracked.limiter.LosslessCall budget (.allow now key)
  | .elsewhere c => s.tracked.limiter.LosslessCall budget c
  | .refund _ _ => True

instance (s : Shared Client) : DecidablePred (LosslessOp budget key s)
  | .allow now _ => inferInstanceAs
      (Decidable (s.tracked.limiter.LosslessCall budget (.allow now key)))
  | .elsewhere c => inferInstanceAs (Decidable (s.tracked.limiter.LosslessCall budget c))
  | .refund _ _ => .isTrue trivial

/-! ## The invariant -/

variable {budget key} {s t : Shared Client} {op : Op Client} {ops : List (Op Client)}
  {attempt : Attempt Client} {now : ℚ}

/-- The bucket counts the kept attempts, and they keep to the budget. -/
structure SharedInv (budget : String → Budget) (key : String) (s : Shared Client) : Prop where
  tracked : TrackedInv budget s.tracked
  ordered : s.times.Pairwise (· ≤ ·)
  past : ∀ t ∈ s.times, t ≤ s.tracked.clock
  agree : Agree (budget key).window s.tracked.clock (s.tracked.log key) s.times
  sparse : Sparse (budget key).window (budget key).maxAttempts.toNat s.times

omit [DecidableEq Client] in
theorem sharedInv_of_initial (h : s.Initial) : SharedInv budget key s := by
  obtain ⟨htracked, hkept⟩ := h
  have hlog : s.tracked.log key = [] := congrFun htracked.2.2 key
  refine ⟨inv_of_initial htracked, ?_, ?_, ?_, ?_⟩
  · simp [Shared.times, hkept]
  · simp [Shared.times, hkept]
  · simp [Shared.times, hkept, hlog, Agree.refl]
  · simpa [Shared.times, hkept] using sparse_nil

/-- A refund that finds its own slot to be the newest takes back what the client has kept. -/
theorem agree_refund {bucket log : List ℚ} {kept : List (Attempt Client)} {w : ℚ}
    (hmem : attempt ∈ kept) (hbucket : Agree w now bucket log)
    (hkept : Agree w now log (kept.map Attempt.time))
    (hbucketOrdered : bucket.Pairwise (· ≤ ·)) (hlog : log.Pairwise (· ≤ ·))
    (hordered : (kept.map Attempt.time).Pairwise (· ≤ ·))
    (hnewest : ∀ newest ∈ bucket.getLast?, newest = attempt.time) :
    Agree w now log.dropLast ((kept.erase attempt).map Attempt.time) := by
  have hcounted : live w now bucket = live w now (kept.map Attempt.time) := hbucket.trans hkept
  have hperm : (live w now (kept.map Attempt.time)).Perm
      (live w now (attempt.time :: (kept.erase attempt).map Attempt.time)) :=
    ((List.perm_cons_erase hmem).map Attempt.time).filter _
  show live w now _ = live w now _
  rw [live_dropLast hlog, ← hbucket]
  rw [← hcounted] at hperm
  cases hlive : live w now bucket using List.reverseRecOn with
  | nil =>
      -- nothing counts, so neither does what stays
      have hnone : live w now (attempt.time :: (kept.erase attempt).map Attempt.time) = [] := by
        rw [hlive] at hperm
        exact hperm.nil_eq.symm
      have hsub : (live w now ((kept.erase attempt).map Attempt.time)).Sublist [] := by
        rw [← hnone]
        exact (List.sublist_cons_self _ _).filter _
      exact (List.sublist_nil.mp hsub).symm
  | append_singleton init newest =>
      have hlast : bucket.getLast? = some newest := by
        have hne : live w now bucket ≠ [] := by simp [hlive]
        rw [← getLast?_live hbucketOrdered hne, hlive, List.getLast?_concat]
      obtain rfl : newest = attempt.time := hnewest newest hlast
      have hinside : now - w < attempt.time := by
        have hcounts : attempt.time ∈ live w now bucket := by
          rw [hlive]
          exact List.mem_append_right _ (List.mem_singleton.mpr rfl)
        exact (mem_live.mp hcounts).2
      rw [List.dropLast_concat]
      have hstay : init.Perm (live w now ((kept.erase attempt).map Attempt.time)) := by
        have hcons : live w now (attempt.time :: (kept.erase attempt).map Attempt.time) =
            attempt.time :: live w now ((kept.erase attempt).map Attempt.time) := by
          simp [live, hinside]
        rw [hlive, hcons] at hperm
        exact (List.perm_append_singleton _ _).symm.trans hperm |>.cons_inv
      have hinit : init.Pairwise (· ≤ ·) := by
        have hall : (live w now bucket).Pairwise (· ≤ ·) := hbucketOrdered.sublist live_sublist
        rw [hlive] at hall
        exact hall.sublist (List.sublist_append_left _ _)
      have hrest : (live w now ((kept.erase attempt).map Attempt.time)).Pairwise (· ≤ ·) :=
        hordered.sublist (live_sublist.trans (List.erase_sublist.map _))
      exact hstay.eq_of_pairwise' hinit hrest

omit [DecidableEq Client] in
/-- What one call of the limiter leaves alone, as seen from the key. -/
theorem SharedInv.later (hs : SharedInv budget key s) {c : Call} {tracked : Tracked}
    (hstep : (limiterSystem id budget).step s.tracked c tracked) :
    TrackedInv budget tracked ∧ s.tracked.clock ≤ tracked.clock ∧ tracked.clock = c.now ∧
      tracked.log = s.tracked.log.after (s.tracked.limiter.call id budget c).2 c ∧
      (∀ t ∈ s.times, t ≤ tracked.clock) ∧
      Agree (budget key).window tracked.clock (s.tracked.log key) s.times := by
  obtain ⟨htracked, -, hmono, hclock, hlog⟩ := inv_step hs.tracked hstep
  have hle : s.tracked.clock ≤ tracked.clock := hclock ▸ hmono
  exact ⟨htracked, hle, hclock, hlog, fun t ht => (hs.past t ht).trans hle, hs.agree.mono hle⟩

/-- An attempt is accepted on a valid budget only. -/
theorem valid_of_accepts {l : SlidingWindowRateLimiter}
    (h : (l.call id budget (.allow now key)).2.accepts = true) : (budget key).Valid := by
  by_contra hinvalid
  replace h : (l.allow now id key (budget key)).2.accepts = true := h
  unfold SlidingWindowRateLimiter.allow at h
  rw [if_neg hinvalid] at h
  cases h

omit [DecidableEq Client] in
/-- An accepted attempt is kept, and the window that ends with it had room. -/
theorem SharedInv.accept (hs : SharedInv budget key s) {tracked : Tracked} (client : Client)
    (hstep : (limiterSystem id budget).step s.tracked (.allow now key) tracked)
    (haccepts : (s.tracked.limiter.call id budget (.allow now key)).2.accepts = true) :
    SharedInv budget key ⟨tracked, s.kept ++ [⟨client, now⟩]⟩ := by
  obtain ⟨htracked, -, hclock, hlog, hpast, hagree⟩ := hs.later hstep
  have hvalid : (budget key).Valid := valid_of_accepts haccepts
  have hkey : tracked.log key = s.tracked.log key ++ [now] := by
    rw [hlog]
    show s.tracked.log.record key now _ key = _
    rw [Log.record_self, if_pos haccepts]
  have htimes : Shared.times ⟨tracked, s.kept ++ [⟨client, now⟩]⟩ = s.times ++ [now] := by
    simp [Shared.times]
  replace hclock : tracked.clock = now := hclock
  rw [hclock] at hpast hagree
  have hroom : (live (budget key).window now s.times).length <
      (budget key).maxAttempts.toNat := by
    have hcapped := htracked.capped key hvalid
    rw [hkey, hclock, live_append, live_singleton hvalid.window_pos, List.length_append,
      show live _ _ _ = _ from hagree, List.length_singleton] at hcapped
    omega
  refine ⟨htracked, ?_, ?_, ?_, ?_⟩
  · rw [htimes]
    apply List.pairwise_append.mpr
    refine ⟨hs.ordered, List.pairwise_singleton _ _, fun t ht u hu => ?_⟩
    rw [List.mem_singleton.mp hu]
    exact hpast t ht
  · intro t ht
    rw [htimes] at ht
    rcases List.mem_append.mp ht with ht | ht
    · exact hclock ▸ hpast t ht
    · exact (hclock.trans (List.mem_singleton.mp ht).symm).ge
  · rw [htimes, hkey, hclock]
    exact hagree.append [now]
  · rw [htimes]
    exact hs.sparse.append hroom

/-- One step. -/
theorem sharedInv_step (hs : SharedInv budget key s) (hown : OwnSlotNewest key s op)
    (h : (sharedSystem id budget key).step s op t) : SharedInv budget key t := by
  replace h : stepShared id budget key s op = some t := h
  cases op with
  | allow now client =>
      obtain ⟨tracked, hstep, ht⟩ := Option.bind_eq_some_iff.mp h
      obtain rfl := Option.some.inj ht
      split
      · next haccepts => exact hs.accept client hstep haccepts
      · next hrefused =>
        obtain ⟨htracked, -, -, hlog, hpast, hagree⟩ := hs.later hstep
        refine ⟨htracked, hs.ordered, hpast, ?_, hs.sparse⟩
        rw [hlog]
        show Agree _ _ (s.tracked.log.record key now _ key) _
        rw [Log.record_self, if_neg hrefused]
        exact hagree
  | refund now attempt =>
      obtain ⟨_, hmem, h⟩ := Option.bind_eq_some_iff.mp h
      obtain ⟨tracked, hstep, ht⟩ := Option.bind_eq_some_iff.mp h
      obtain rfl := Option.some.inj ht
      obtain ⟨htracked, hle, hclock, hlog, hpast, hagree⟩ := hs.later hstep
      have hsub : ((s.kept.erase attempt).map Attempt.time).Sublist s.times :=
        (List.erase_sublist).map _
      refine ⟨htracked, hs.ordered.sublist hsub, fun t ht => hpast t (hsub.subset ht), ?_,
        hs.sparse.sublist hsub⟩
      rw [hlog]
      show Agree _ _ (Function.update s.tracked.log key (s.tracked.log key).dropLast key) _
      rw [Function.update_self]
      exact agree_refund ((Option.guard_eq_some' _).mp hmem)
        ((hs.tracked.memory.agree key).mono hle) hagree hs.tracked.memory.ordered
        (hs.tracked.ordered key) hs.ordered hown
  | elsewhere c =>
      obtain ⟨_, hother, h⟩ := Option.bind_eq_some_iff.mp h
      obtain ⟨tracked, hstep, ht⟩ := Option.bind_eq_some_iff.mp h
      obtain rfl := Option.some.inj ht
      obtain ⟨htracked, -, -, hlog, hpast, hagree⟩ := hs.later hstep
      refine ⟨htracked, hs.ordered, hpast, ?_, hs.sparse⟩
      rw [hlog, Log.after_of_ne (Ne.symm ((Option.guard_eq_some' _).mp hother))]
      exact hagree

/-- A step that rounds nothing is a step of the limiter that does not round. -/
theorem shared_of_lossless (hlossless : LosslessOp budget key s op)
    (h : (sharedSystem roundDouble budget key).step s op t) :
    (sharedSystem id budget key).step s op t := by
  have htracked {c : Call} (hc : s.tracked.limiter.LosslessCall budget c) :
      stepTracked roundDouble budget s.tracked c = stepTracked id budget s.tracked c := by
    unfold stepTracked
    rw [call_of_lossless hc]
  replace h : stepShared roundDouble budget key s op = some t := h
  show stepShared id budget key s op = some t
  cases op with
  | allow now client =>
      have hcall : s.tracked.limiter.LosslessCall budget (.allow now key) := hlossless
      simpa only [stepShared, htracked hcall, call_of_lossless hcall] using h
  | refund now attempt => exact h
  | elsewhere c =>
      have hcall : s.tracked.limiter.LosslessCall budget c := hlossless
      simpa only [stepShared, htracked hcall] using h

/-- **Refunds that find their own slot do not enlarge the budget.** In every run on a valid budget
in which nothing is rounded and each refund comes while its own slot is the newest of the bucket, or
the bucket is empty, the attempts that are not refunded keep to the budget in every half-open
interval as long as the window. -/
theorem unrefunded_le (hvalid : (budget key).Valid) (hs : s.Initial)
    (hrun : ((sharedSystem roundDouble budget key).restrict fun s op =>
      OwnSlotNewest key s op ∧ LosslessOp budget key s op).Run s ops t) {lo hi : ℚ}
    (hwidth : hi ≤ lo + (budget key).window) :
    (t.times.countP (fun u => lo < u ∧ u ≤ hi) : Int) ≤ (budget key).maxAttempts ∧
      (t.times.countP (fun u => lo ≤ u ∧ u < hi) : Int) ≤ (budget key).maxAttempts := by
  have ht : SharedInv budget key t := by
    refine hrun.preserves ?_ (sharedInv_of_initial hs)
    intro s op t hinv hstep
    obtain ⟨hstep, hown, hlossless⟩ := hstep
    exact sharedInv_step hinv hown (shared_of_lossless hlossless hstep)
  have hmax : ((budget key).maxAttempts.toNat : Int) = (budget key).maxAttempts :=
    Int.toNat_of_nonneg hvalid.1.le
  rw [← hmax]
  exact ⟨by exact_mod_cast ht.sparse.countP_Ioc hwidth,
    by exact_mod_cast ht.sparse.countP_Ico hwidth⟩

/-! ## Two clients behind one address -/

def sampleShared : Shared String :=
  ⟨⟨⟨8, 60, .empty, .empty, 0, ⊤, by decide, by decide⟩, 0, fun _ => []⟩, []⟩

theorem sampleShared_initial : sampleShared.Initial := by
  refine ⟨⟨le_rfl, ⟨8, 60, ?_⟩, rfl⟩, rfl⟩
  unfold SlidingWindowRateLimiter.new
  rw [dif_pos (by norm_num)]
  rfl

/-- Two attempts a minute. -/
def twoAMinute : String → Budget := fun _ => ⟨2, 60⟩

/-- Alice signs in at once and gives her slot back, before and after Bob tries. -/
def ownOps : List (Op String) :=
  [.allow 1 "alice", .refund 2 ⟨"alice", 1⟩, .allow 3 "bob", .allow 4 "alice",
    .refund 5 ⟨"alice", 4⟩, .allow 6 "carol"]

theorem unrefunded_le_sample : ∃ t, ((sharedSystem roundDouble twoAMinute "login:ip").restrict
    fun s op => OwnSlotNewest "login:ip" s op ∧ LosslessOp twoAMinute "login:ip" s op).Run
      sampleShared ownOps t ∧ (t.times.countP (fun u => 0 < u ∧ u ≤ 60) : Int) ≤ 2 := by
  let own : Shared String → Op String → Bool := fun s op =>
    decide (OwnSlotNewest "login:ip" s op ∧ LosslessOp twoAMinute "login:ip" s op)
  obtain ⟨t, ht⟩ : ∃ t, System.exec (System.checked own (stepShared roundDouble twoAMinute
      "login:ip")) sampleShared ownOps = some t :=
    Option.isSome_iff_exists.mp (by decide +kernel)
  have hrun : ((sharedSystem roundDouble twoAMinute "login:ip").restrict fun s op =>
      OwnSlotNewest "login:ip" s op ∧ LosslessOp twoAMinute "login:ip" s op).Run
        sampleShared ownOps t :=
    System.run_of_exec_checked (fun _ _ h => of_decide_eq_true h) ht
  have hwidth : (60 : ℚ) ≤ 0 + (twoAMinute "login:ip").window := by
    norm_num [twoAMinute, Budget.window]
  exact ⟨t, hrun, (unrefunded_le (by decide) sampleShared_initial hrun hwidth).1⟩

/-- Alice gives her slot back after Bob has tried. -/
def othersOps : List (Op String) :=
  [.allow 1 "alice", .allow 59 "bob", .refund 60 ⟨"alice", 1⟩, .allow 62 "carol", .allow 62 "dave"]

/-- Her refund takes Bob's slot, her own leaves the window early, and three attempts of a minute stay
accepted where two are allowed. -/
theorem others_slot_lost : ¬ ∀ (ops : List (Op String)) (t : Shared String),
    (sharedSystem roundDouble twoAMinute "login:ip").Run sampleShared ops t → ∀ lo hi : ℚ,
      hi ≤ lo + (twoAMinute "login:ip").window →
        (t.times.countP (fun u => lo < u ∧ u ≤ hi) : Int) ≤
          (twoAMinute "login:ip").maxAttempts := by
  intro h
  have hexec : (System.exec (stepShared roundDouble twoAMinute "login:ip") sampleShared
      othersOps).map (fun t => t.times.countP fun u => 50 < u ∧ u ≤ 110) = some 3 := by
    decide +kernel
  obtain ⟨t, ht, hcount⟩ := Option.map_eq_some_iff.mp hexec
  have hwidth : (110 : ℚ) ≤ 50 + (twoAMinute "login:ip").window := by
    norm_num [twoAMinute, Budget.window]
  have hle := h othersOps t (System.run_of_exec ht) 50 110 hwidth
  rw [hcount] at hle
  exact absurd hle (by decide)

end Scap.Limits
