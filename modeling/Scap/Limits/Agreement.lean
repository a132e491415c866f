import Scap.Limits.Redis

/-!
# The two limiters agree

`RedisInv` relates the sorted sets of the server to the log of the ideal limiter, as `MemoryInv`
does for the store of one process. Both give the answers of the ideal limiter where nothing is
rounded, so they agree below the capacity of that store, for every key whose budget is positive
(`limiters_agree_iff`). The limiter of the process checks that, the script does not.

* `KeyInv.mono` — a key that has expired counted no more;
* `KeyInv.allow`, `KeyInv.refund`, `KeyInv.reset` — what a call does to the key it names;
* `redis_inv_call` — one call, for every key.
-/

namespace Scap.Limits

open Scap.Py Scap.Lib SlidingWindow

/-! ## The sorted sets against the log -/

open RedisStore RedisSlidingWindowRateLimiter SortedSet

variable {budget : String → Budget} {r : RedisSlidingWindowRateLimiter} {clock now : ℚ} {log : Log}
  {key other member : String} {drawn : List String} {z : SortedSet} {k : RedisKey}

/-- The times the server knows of a key. -/
def RedisSlidingWindowRateLimiter.attempts (r : RedisSlidingWindowRateLimiter) (now : ℚ)
    (key : String) : List ℚ := (r.db.members now (r.name key)).scores

/-- A key does not expire before its attempts have left the window. -/
def Covers (w : ℚ) (k : RedisKey) : Prop :=
  ∃ expiry, k.expireAt = some expiry ∧ ∀ t ∈ k.members.scores, t + w ≤ expiry

/-- The server against the log of one key. -/
structure KeyInv (b : Budget) (r : RedisSlidingWindowRateLimiter) (clock : ℚ) (log : List ℚ)
    (key : String) : Prop where
  agree : Agree b.window clock (r.attempts clock key) log
  past : ∀ t ∈ r.attempts clock key, t ≤ clock
  covered : ∀ k, r.db.lookup clock (r.name key) = some k → Covers b.window k

/-- The server against the log, for the keys whose budget is positive. -/
structure RedisInv (budget : String → Budget) (r : RedisSlidingWindowRateLimiter) (clock : ℚ)
    (log : Log) (drawn : List String) : Prop where
  named : Named r.db drawn
  keys : ∀ key, (budget key).Valid → KeyInv (budget key) r clock (log key) key

theorem name_injective (r : RedisSlidingWindowRateLimiter) : Function.Injective r.name := by
  intro a b h
  exact String.append_right_inj r.keyPrefix |>.mp h

/-- Whether a key is on the server later only depends on whether it has expired. -/
theorem KeyInv.mono {b : Budget} {log : List ℚ} (h : KeyInv b r clock log key)
    (hle : clock ≤ now) : KeyInv b r now log key := by
  have hlater := h.agree.mono hle
  cases hk : r.db.lookup now (r.name key) with
  | some k =>
      have hbefore := lookup_anti hle hk
      have hsame : r.attempts now key = r.attempts clock key := by
        simp only [RedisSlidingWindowRateLimiter.attempts, RedisStore.members, hk, hbefore]
      refine ⟨by rwa [hsame], ?_, ?_⟩
      · intro t ht
        rw [hsame] at ht
        exact (h.past t ht).trans hle
      · intro k' hk'
        obtain rfl := Option.some.inj (hk.symm.trans hk')
        exact h.covered k hbefore
  | none =>
      have hempty : r.attempts now key = [] := by
        simp only [RedisSlidingWindowRateLimiter.attempts, RedisStore.members, hk]
        rfl
      refine ⟨?_, by simp [hempty], by simp [hk]⟩
      rw [hempty]
      refine Eq.trans ?_ hlater
      symm
      -- what the server has forgotten counts no more
      apply SlidingWindow.live_eq_nil
      intro t ht
      unfold RedisSlidingWindowRateLimiter.attempts RedisStore.members at ht
      cases hbefore : r.db.lookup clock (r.name key) with
      | none =>
          rw [hbefore] at ht
          cases ht
      | some k =>
          rw [hbefore] at ht
          obtain ⟨expiry, hexpiry, hcovers⟩ := h.covered k hbefore
          have hgone : expiry < now := by
            by_contra hge
            have hstill : r.db.lookup now (r.name key) = some k := by
              refine lookup_eq_some.mpr ⟨(lookup_eq_some.mp hbefore).1, fun at_ hat => ?_⟩
              rw [hexpiry] at hat
              exact Option.some.inj hat ▸ not_lt.mp hge
            rw [hk] at hstill
            cases hstill
          have := hcovers t ht
          linarith

theorem RedisInv.mono (h : RedisInv budget r clock log drawn) (hle : clock ≤ now) :
    RedisInv budget r now log drawn :=
  ⟨h.named, fun key hvalid => (h.keys key hvalid).mono hle⟩

/-- A command on one key leaves what holds of the others. -/
theorem KeyInv.congr {b : Budget} {log : List ℚ} {db : RedisStore} (h : KeyInv b r now log other)
    (hget : db.get (r.name other) = r.db.get (r.name other)) :
    KeyInv b { r with db := db } now log other := by
  have hlookup : db.lookup now (r.name other) = r.db.lookup now (r.name other) := lookup_congr hget
  have hattempts : RedisSlidingWindowRateLimiter.attempts { r with db := db } now other =
      r.attempts now other := by
    show (db.members now (r.name other)).scores = _
    unfold RedisStore.members
    rw [hlookup]
    rfl
  refine ⟨?_, ?_, ?_⟩
  · rw [hattempts]
    exact h.agree
  · rw [hattempts]
    exact h.past
  · intro k hk
    exact h.covered k (hlookup ▸ hk)

/-- After the script or a command has put a sorted set under a key. -/
theorem KeyInv.put {b : Budget} {log : List ℚ} (h : KeyInv b r now log key) {log' : List ℚ}
    (hsub : z.scores.Sublist (r.attempts now key)) (hagree : Agree b.window now z.scores log') :
    KeyInv b { r with db := r.db.put now (r.name key) z } now log' key := by
  have hattempts : RedisSlidingWindowRateLimiter.attempts
      { r with db := r.db.put now (r.name key) z } now key = z.scores :=
    congrArg scores members_put
  refine ⟨?_, ?_, ?_⟩
  · rwa [hattempts]
  · rw [hattempts]
    exact fun t ht => h.past t (hsub.subset ht)
  · intro k hk
    replace hk : (r.db.put now (r.name key) z).lookup now (r.name key) = some k := hk
    rw [lookup_put] at hk
    obtain ⟨hnonempty, rfl⟩ := of_guarded hk
    -- the key was there, as it had an attempt
    unfold RedisSlidingWindowRateLimiter.attempts RedisStore.members at hsub
    cases hbefore : r.db.lookup now (r.name key) with
    | none =>
        rw [hbefore] at hsub
        have hnil : z.rows = [] := List.map_eq_nil_iff.mp (List.sublist_nil.mp hsub)
        rw [hnil] at hnonempty
        exact absurd rfl hnonempty
    | some k =>
        rw [hbefore] at hsub
        obtain ⟨expiry, hexpiry, hcovers⟩ := h.covered k hbefore
        exact ⟨expiry, hexpiry, fun t ht => hcovers t (hsub.subset ht)⟩

/-! ## The commands keep the sorted sets in step with the log -/

/-- What the script counts is what counts in the log. -/
theorem KeyInv.scores_pruned {b : Budget} {log : List ℚ} (h : KeyInv b r now log key) :
    ((r.db.members now (r.name key)).removeUpTo (now - b.window)).scores =
      live b.window now log := by
  rw [scores_removeUpTo]
  exact h.agree

/-- **The script answers what the ideal limiter answers.** -/
theorem KeyInv.allow_answer {b : Budget} {log : List ℚ} (h : KeyInv b r now log key)
    (hvalid : b.Valid) : (r.allow now key id b member).2 = b.answer now log := by
  unfold RedisSlidingWindowRateLimiter.allow Budget.answer
  have hlength : ((r.db.members now (r.name key)).removeUpTo (now - b.window)).rows.length =
      (live b.window now log).length := by
    rw [← h.scores_pruned]
    exact (List.length_map _).symm
  dsimp only [id]
  rw [h.scores_pruned, hlength]
  split
  · next hfull =>
    cases hcounted : live b.window now log with
    | nil =>
        rw [hcounted] at hfull
        exact absurd hvalid.1 (by simpa using hfull)
    | cons oldest rest => rfl
  · rfl

/-- The script on its own key. -/
theorem KeyInv.allow {log : Log} (h : KeyInv (budget key) r now (log key) key)
    (hnamed : Named r.db drawn) (hvalid : (budget key).Valid) (hfresh : member ∉ drawn) :
    KeyInv (budget key) (r.allow now key id (budget key) member).1 now
      (log.record key now ((budget key).answer now (log key)).1 key) key := by
  have hscores : ((r.db.members now (r.name key)).removeUpTo
      (id (now - id (budget key).window))).scores = live (budget key).window now (log key) :=
    h.scores_pruned
  have hmembers : ∀ m ∈ ((r.db.members now (r.name key)).removeUpTo
      (id (now - id (budget key).window))).rows, m ∈ (r.db.members now (r.name key)).rows :=
    fun m hm => (KeyedTable.mem_filter.mp hm).1
  have hanswer : (r.allow now key id (budget key) member).2 = (budget key).answer now (log key) :=
    h.allow_answer hvalid
  rw [← hanswer, Log.record_self]
  unfold RedisSlidingWindowRateLimiter.allow
  generalize hz : (r.db.members now (r.name key)).removeUpTo (id (now - id (budget key).window)) = z
    at hscores hmembers
  have hsub : z.scores.Sublist (r.attempts now key) := by
    rw [← hz]
    exact (List.filter_sublist).map _
  dsimp only
  split
  · -- refused: the set is only pruned
    exact h.put hsub (by rw [hscores]; exact agree_live)
  · have hadd : (z.add now member).scores = z.scores ++ [now] := by
      apply scores_add
      · rintro m hm rfl
        exact hfresh (hnamed.members m (hmembers m hm))
      · exact fun t ht => h.past t (hsub.subset ht)
    have hlookup : RedisStore.lookup (((r.db.put now (r.name key) z).put now (r.name key)
        (z.add now member)).expire now (r.name key) ((budget key).windowSeconds + 1)) now
          (r.name key) = some ⟨z.add now member,
            some (now + ((budget key).windowSeconds + 1 : Int))⟩ := by
      rw [lookup_expire (by have := hvalid.2; omega), lookup_put, if_neg]
      · rfl
      · intro hempty
        have : (z.add now member).scores = [] := by
          rw [scores, List.isEmpty_iff.mp hempty, List.map_nil]
        simp [hadd] at this
    simp only [if_true]
    have hpast : ∀ t ∈ z.scores ++ [now], t ≤ now := by
      intro t ht
      rcases List.mem_append.mp ht with ht | ht
      · exact h.past t (hsub.subset ht)
      · exact le_of_eq (List.mem_singleton.mp ht)
    have hattempts : RedisSlidingWindowRateLimiter.attempts
        { r with db := ((r.db.put now (r.name key) z).put now (r.name key)
          (z.add now member)).expire now (r.name key) ((budget key).windowSeconds + 1) } now key =
          z.scores ++ [now] := by
      rw [← hadd]
      show SortedSet.scores (RedisStore.members _ now (r.name key)) = _
      unfold RedisStore.members
      rw [hlookup]
      rfl
    refine ⟨?_, ?_, ?_⟩
    · rw [hattempts, hscores]
      exact agree_live.append [now]
    · rw [hattempts]
      exact hpast
    · intro k hk
      obtain rfl := Option.some.inj (hlookup.symm.trans hk)
      refine ⟨_, rfl, fun t ht => ?_⟩
      have hle : t ≤ now := hpast t (hadd ▸ ht)
      show t + (budget key).window ≤ now + (((budget key).windowSeconds + 1 : Int) : ℚ)
      unfold Budget.window
      push_cast
      linarith

theorem KeyInv.refund {b : Budget} {log : List ℚ} (h : KeyInv b r now log key)
    (hordered : log.Pairwise (· ≤ ·)) : KeyInv b (r.refund now key) now log.dropLast key := by
  have hsub : (r.db.members now (r.name key)).popMax.scores.Sublist (r.attempts now key) := by
    rw [scores_popMax]
    exact List.dropLast_sublist _
  refine h.put hsub ?_
  rw [scores_popMax]
  exact h.agree.dropLast (ordered _) hordered

theorem KeyInv.reset {b : Budget} : KeyInv b (r.reset key) now [] key := by
  have hlookup : RedisStore.lookup (r.reset key).db now (r.name key) = none := by
    unfold RedisSlidingWindowRateLimiter.reset RedisStore.lookup
    rw [Dict.get_pop_self]
    rfl
  have hattempts : (r.reset key).attempts now key = [] := by
    unfold RedisSlidingWindowRateLimiter.attempts RedisStore.members
    rw [show (r.reset key).name key = r.name key from rfl, hlookup]
    rfl
  refine ⟨by rw [hattempts]; rfl, by simp [hattempts], ?_⟩
  intro k hk
  cases hlookup.symm.trans hk

/-- **The script rounds nothing where the limiter of the process rounds nothing.** The oldest score
that it keeps is one of the times of the bucket, as both count the same attempts. -/
theorem KeyInv.allow_of_lossless {b : Budget} {log : List ℚ} {l : SlidingWindowRateLimiter}
    (h : KeyInv b r now log key) (hlossless : l.Lossless now key b)
    (hagree : Agree b.window now (l.attempts key) log) :
    r.allow now key roundDouble b member = r.allow now key id b member := by
  obtain ⟨-, hwindow, hcutoff, htimes⟩ := hlossless
  have hscores : ((r.db.members now (r.name key)).removeUpTo (now - b.window)).scores =
      live b.window now (l.attempts key) := h.scores_pruned.trans hagree.symm
  unfold RedisSlidingWindowRateLimiter.allow
  dsimp only [id]
  rw [show roundDouble b.window = b.window from hwindow,
    show roundDouble (now - b.window) = now - b.window from hcutoff]
  cases hkept : ((r.db.members now (r.name key)).removeUpTo (now - b.window)).scores with
  | nil => rfl
  | cons oldest rest =>
      have hstored : oldest ∈ l.attempts key := by
        have hlive : oldest ∈ live b.window now (l.attempts key) := by simp [← hscores, hkept]
        exact (mem_live.mp hlive).1
      obtain ⟨-, hage, hleft⟩ := htimes oldest (List.mem_cons_of_mem _ hstored)
      dsimp only
      rw [show roundDouble (now - oldest) = now - oldest from hage,
        show roundDouble (b.window - (now - oldest)) = _ from hleft]

/-- What a call of the server returns, and what it leaves. -/
def RedisSlidingWindowRateLimiter.call (r : RedisSlidingWindowRateLimiter) (fl : ℚ → ℚ)
    (budget : String → Budget) (member : String) :
    Call → RedisSlidingWindowRateLimiter × Bool × Int
  | .allow now key => r.allow now key fl (budget key) member
  | .refund now key => (r.refund now key, true, 0)
  | .reset _ key => (r.reset key, true, 0)

/-- A call touches the key it names. -/
theorem get_call_of_ne {fl : ℚ → ℚ} {c : Call} (h : other ≠ c.key) :
    (r.call fl budget member c).1.db.get (r.name other) = r.db.get (r.name other) ∧
      (r.call fl budget member c).1.keyPrefix = r.keyPrefix := by
  have hname : r.name other ≠ r.name c.key := (name_injective r).ne h
  cases c with
  | allow now key =>
      replace hname : r.name other ≠ r.name key := hname
      simp only [RedisSlidingWindowRateLimiter.call, RedisSlidingWindowRateLimiter.allow]
      split
      · exact ⟨get_put_of_ne hname, rfl⟩
      · refine ⟨?_, rfl⟩
        show Dict.get (RedisStore.expire _ _ _ _) _ = _
        rw [get_expire_of_ne hname, get_put_of_ne hname, get_put_of_ne hname]
  | refund now key => exact ⟨get_put_of_ne hname, rfl⟩
  | reset now key => exact ⟨Dict.get_pop_of_ne hname, rfl⟩

theorem named_call {fl : ℚ → ℚ} {c : Call} (h : Named r.db drawn) :
    Named (r.call fl budget member c).1.db (member :: drawn) := by
  have hmore : Named r.db (member :: drawn) := fun n k hget m hm =>
    List.mem_cons_of_mem _ (h n k hget m hm)
  cases c with
  | allow now key =>
      simp only [RedisSlidingWindowRateLimiter.call, RedisSlidingWindowRateLimiter.allow]
      have hpruned : ∀ m ∈ ((r.db.members now (r.name key)).removeUpTo
          (fl (now - fl (budget key).window))).rows, m.1 ∈ member :: drawn :=
        fun m hm => hmore.members m (KeyedTable.mem_filter.mp hm).1
      split
      · exact hmore.put hpruned
      · refine ((hmore.put hpruned).put fun m hm => ?_).expire
        rcases KeyedTable.mem_insertNew_or hm with rfl | hm
        · exact List.mem_cons_self
        · exact hpruned m (KeyedTable.mem_filter.mp hm).1
  | refund now key =>
      exact hmore.put fun m hm => hmore.members m (List.dropLast_subset _ hm)
  | reset now key => exact hmore.pop

/-- **A call keeps the server in step with the log**, when the answer that is logged is the one of
the ideal limiter and the script rounds nothing. -/
theorem redis_inv_call {fl : ℚ → ℚ} {c : Call} {answer : Answer} (h : RedisInv budget r c.now log drawn)
    (hordered : ∀ key, (log key).Pairwise (· ≤ ·)) (hfresh : member ∉ drawn)
    (hanswer : ∀ now key, c = .allow now key → (budget key).Valid →
      answer = .ok ((budget key).answer now (log key)))
    (hexact : ∀ now key, c = .allow now key → (budget key).Valid →
      r.allow now key fl (budget key) member = r.allow now key id (budget key) member) :
    RedisInv budget (r.call fl budget member c).1 c.now (log.after answer c) (member :: drawn) := by
  refine ⟨named_call h.named, fun key hvalid => ?_⟩
  have hkey := h.keys key hvalid
  by_cases hsame : key = c.key
  swap
  · have hget : (r.call fl budget member c).1.db.get (r.name key) = r.db.get (r.name key) :=
      (get_call_of_ne hsame).1
    have hpre : (r.call fl budget member c).1.keyPrefix = r.keyPrefix := (get_call_of_ne hsame).2
    rw [Log.after_of_ne hsame]
    have hr : (r.call fl budget member c).1 = { r with db := (r.call fl budget member c).1.db } := by
      rw [← hpre]
    rw [hr]
    exact hkey.congr hget
  subst hsame
  cases c with
  | allow now key =>
      have hlogged := hanswer now key rfl hvalid
      show KeyInv _ (r.allow now key fl (budget key) member).1 now
        (log.record key now answer.accepts key) key
      rw [hlogged, hexact now key rfl hvalid]
      exact hkey.allow h.named hvalid hfresh
  | refund now key =>
      show KeyInv _ (r.refund now key) now (Function.update log key (log key).dropLast key) key
      rw [Function.update_self]
      exact hkey.refund (hordered key)
  | reset now key =>
      show KeyInv _ (r.reset key) now (Function.update log key [] key) key
      rw [Function.update_self]
      exact KeyInv.reset

/-! ## Both limiters under the same calls -/

/-- Both limiters, and the member names that have been drawn. -/
structure Twins where
  tracked : Tracked
  redis : RedisSlidingWindowRateLimiter
  drawn : List String

/-- A new limiter and an empty server. -/
def Twins.Initial (s : Twins) : Prop := s.tracked.Initial ∧ s.redis.db = .empty ∧ s.drawn = []

variable (budget) in
/-- A call of both; the member name is drawn for it and new. -/
def stepTwins (s : Twins) (c : Call × String) : Option Twins :=
  if c.2 ∈ s.drawn then none
  else (stepTracked roundDouble budget s.tracked c.1).map fun tracked =>
    ⟨tracked, (s.redis.call roundDouble budget c.2 c.1).1, c.2 :: s.drawn⟩

/-- The store of the process has the key of the call or room for it, after the cleanups of the
call. -/
def SlidingWindowRateLimiter.HasRoom (l : SlidingWindowRateLimiter) : Call → Prop
  | .allow now key => (l.periodicCleanup now).events.get key = none →
      ((l.periodicCleanup now).makeRoom now).events.len < l.maxKeys
  | _ => True

/-- Both limiters below the key capacity of the store. -/
def belowCapacity (budget : String → Budget) : System Twins (Call × String) :=
  (System.ofFun Twins.Initial (stepTwins budget)).restrict fun s c => s.tracked.limiter.HasRoom c.1

/-- Both below the capacity, in runs whose calls round nothing. -/
def losslessTwins (budget : String → Budget) : System Twins (Call × String) :=
  (belowCapacity budget).restrict fun s c => s.tracked.limiter.LosslessCall budget c.1

/-- Both limiters show the same log. -/
structure TwinsInv (budget : String → Budget) (s : Twins) : Prop where
  tracked : TrackedInv budget s.tracked
  redis : RedisInv budget s.redis s.tracked.clock s.tracked.log s.drawn

/-- With room for the key the limiter of the process answers what the ideal limiter answers. -/
theorem allow_answer_of_hasRoom {l : SlidingWindowRateLimiter} (h : MemoryInv budget l now log)
    (hvalid : (budget key).Valid) (hfits : ¬ floatLimit ≤ (budget key).windowSeconds)
    (hroom : l.HasRoom (.allow now key)) :
    (l.allow now id key (budget key)).2 = .ok ((budget key).answer now (log key)) := by
  rcases allow_spec h hvalid hfits with ⟨m, hallow, -⟩ | ⟨hunknown, m, wait, hallow, -, hnone, -⟩
  · rw [hallow]
  · -- a key that is offered is stored
    exfalso
    have hmax : ((l.periodicCleanup now).makeRoom now).maxKeys = l.maxKeys := by
      unfold SlidingWindowRateLimiter.makeRoom SlidingWindowRateLimiter.periodicCleanup
      split <;> split <;> rfl
    have hoffered : (l.allow now id key (budget key)).1.events.get key ≠ none := by
      unfold SlidingWindowRateLimiter.allow
      rw [if_pos hvalid, if_neg hfits]
      dsimp only
      rw [hunknown]
      show (SlidingWindowRateLimiter.offerNew _ _ _ _ _).1.events.get key ≠ none
      unfold SlidingWindowRateLimiter.offerNew
      dsimp only
      rw [hmax, if_neg (not_le.mpr (hroom hunknown))]
      show (SlidingWindowRateLimiter.offer _ _ _ _ _ _).1.events.get key ≠ none
      unfold SlidingWindowRateLimiter.offer
      dsimp only
      split <;> simp
    rw [hallow] at hoffered
    exact hoffered hnone

theorem twins_initial {s : Twins} (h : s.Initial) : TwinsInv budget s := by
  obtain ⟨htracked, hdb, hdrawn⟩ := h
  obtain ⟨tracked, ⟨keyPrefix, db⟩, drawn⟩ := s
  dsimp only at htracked hdb hdrawn
  subst hdb hdrawn
  refine ⟨inv_of_initial htracked, ?_, fun key _ => ?_⟩
  · intro n k hget
    cases hget
  · have hlog : tracked.log key = [] := by rw [htracked.2.2]
    show KeyInv _ _ tracked.clock (tracked.log key) key
    rw [hlog]
    refine ⟨rfl, ?_, ?_⟩
    · intro t ht
      cases ht
    · intro k hk
      cases hk

/-- A call of both at a time that is not before the clock. -/
theorem stepTwins_eq {s t : Twins} {c : Call × String} (h : stepTwins budget s c = some t) :
    c.2 ∉ s.drawn ∧ stepTracked roundDouble budget s.tracked c.1 = some t.tracked ∧
      t.redis = (s.redis.call roundDouble budget c.2 c.1).1 ∧ t.drawn = c.2 :: s.drawn := by
  unfold stepTwins at h
  split at h
  · cases h
  · next hfresh =>
    obtain ⟨tracked, htracked, rfl⟩ := Option.map_eq_some_iff.mp h
    exact ⟨hfresh, htracked, rfl, rfl⟩

/-- Both limiters at a call on a positive budget that rounds nothing. -/
theorem TwinsInv.allow {s : Twins} (hs : TwinsInv budget s) (member : String)
    (hmono : s.tracked.clock ≤ now)
    (hvalid : (budget key).Valid) (hroom : s.tracked.limiter.HasRoom (.allow now key))
    (hlossless : s.tracked.limiter.Lossless now key (budget key)) :
    (s.tracked.limiter.allow now roundDouble key (budget key)).2 =
        .ok ((budget key).answer now (s.tracked.log key)) ∧
      s.redis.allow now key roundDouble (budget key) member =
        s.redis.allow now key id (budget key) member := by
  have hmemory := hs.tracked.memory.mono hmono
  constructor
  · rw [allow_of_lossless hlossless]
    exact allow_answer_of_hasRoom hmemory hvalid hlossless.lt_floatLimit hroom
  · exact ((hs.redis.mono hmono).keys key hvalid).allow_of_lossless hlossless (hmemory.agree key)

theorem twins_step {s t : Twins} {c : Call × String} (hs : TwinsInv budget s)
    (h : (losslessTwins budget).step s c t) : TwinsInv budget t := by
  obtain ⟨⟨hstep, hroom⟩, hlossless⟩ := h
  obtain ⟨hfresh, htracked, hredis, hdrawn⟩ := stepTwins_eq hstep
  obtain ⟨hinv, -, hmono, hclock, hlog⟩ := inv_step hs.tracked (step_of_lossless ⟨htracked, hlossless⟩)
  refine ⟨hinv, ?_⟩
  rw [← call_of_lossless hlossless] at hlog
  rw [hclock, hlog, hredis, hdrawn]
  have hallow (now : ℚ) (key : String) (hcall : c.1 = .allow now key) (hvalid : (budget key).Valid) :
      (s.tracked.limiter.allow now roundDouble key (budget key)).2 =
          .ok ((budget key).answer now (s.tracked.log key)) ∧
        s.redis.allow now key roundDouble (budget key) c.2 =
          s.redis.allow now key id (budget key) c.2 := by
    rw [hcall] at hmono hroom hlossless
    exact hs.allow _ hmono hvalid hroom (hlossless hvalid)
  refine redis_inv_call (hs.redis.mono hmono) hs.tracked.ordered hfresh ?_ ?_
  · intro now key hcall hvalid
    rw [hcall]
    exact (hallow now key hcall hvalid).1
  · intro now key hcall hvalid
    exact (hallow now key hcall hvalid).2

/-- **Below the key capacity the two limiters give the same decision and the same time to wait just
for the keys with a positive budget**, in every run of `allow`, `refund` and `reset` whose calls
round nothing. For the others the limiter of the process raises and the script answers. -/
theorem limiters_agree_iff {s t : Twins} (hs : (losslessTwins budget).Reachable s)
    (h : (losslessTwins budget).step s (.allow now key, member) t) :
    (s.tracked.limiter.allow now roundDouble key (budget key)).2 =
        .ok (s.redis.allow now key roundDouble (budget key) member).2 ↔ (budget key).Valid := by
  constructor
  · intro hsame
    by_contra hinvalid
    unfold SlidingWindowRateLimiter.allow at hsame
    rw [if_neg hinvalid] at hsame
    cases hsame
  · intro hvalid
    have hinv : TwinsInv budget s :=
      hs.induct (fun _ => twins_initial) fun _ _ _ _ hs hstep => twins_step hs hstep
    obtain ⟨⟨hstep, hroom⟩, hlossless⟩ := h
    obtain ⟨-, htracked, -⟩ := stepTwins_eq hstep
    have hmono : s.tracked.clock ≤ now :=
      (inv_step hinv.tracked (step_of_lossless ⟨htracked, hlossless⟩)).2.2.1
    obtain ⟨hmemory, hredis⟩ := hinv.allow member hmono hvalid hroom (hlossless hvalid)
    calc (s.tracked.limiter.allow now roundDouble key (budget key)).2
        = .ok ((budget key).answer now (s.tracked.log key)) := hmemory
      _ = .ok (s.redis.allow now key id (budget key) member).2 := by
          rw [((hinv.redis.mono hmono).keys key hvalid).allow_answer hvalid]
      _ = .ok (s.redis.allow now key roundDouble (budget key) member).2 := by rw [hredis]

/-! ### Two attempts from one address -/

def sampleTwins : Twins := ⟨⟨sampleLimiter, 100, fun _ => []⟩, ⟨"scap:rate-limit:", .empty⟩, []⟩

theorem sampleTwins_initial : sampleTwins.Initial :=
  ⟨sampleLimiter_initial (by norm_num), rfl, rfl⟩

/-- After one accepted attempt. -/
def sampleTwinsUsed : Twins :=
  (stepTwins sampleBudget sampleTwins (.allow 100 "victim", "m1")).getD sampleTwins

theorem sampleTwinsUsed_reachable : (losslessTwins sampleBudget).Reachable sampleTwinsUsed := by
  refine ⟨sampleTwins, [(.allow 100 "victim", "m1")], sampleTwins_initial, System.Run.single ?_⟩
  refine ⟨⟨?_, fun _ => by decide +kernel⟩, fun _ => by decide +kernel⟩
  show stepTwins _ _ _ = some sampleTwinsUsed
  have hsome : (stepTwins sampleBudget sampleTwins (.allow 100 "victim", "m1")).isSome := by
    decide +kernel
  rw [sampleTwinsUsed, ← Option.get_eq_getD (h := hsome), Option.some_get]

theorem limiters_agree_iff_sample :
    (sampleTwinsUsed.tracked.limiter.allow 102 roundDouble "victim" ⟨1, 5⟩).2 = .ok (false, 3) ∧
      (sampleTwinsUsed.redis.allow 102 "victim" roundDouble ⟨1, 5⟩ "m2").2 = (false, 3) := by
  obtain ⟨t, ht⟩ : ∃ t, stepTwins sampleBudget sampleTwinsUsed (.allow 102 "victim", "m2") = some t :=
    Option.isSome_iff_exists.mp (by decide +kernel)
  have hroom : sampleTwinsUsed.tracked.limiter.HasRoom (.allow 102 "victim") := by
    intro hunknown
    exact absurd hunknown (by decide +kernel)
  have hlossless : sampleTwinsUsed.tracked.limiter.LosslessCall sampleBudget
      (.allow 102 "victim") := fun _ => by decide +kernel
  have hanswer : (sampleTwinsUsed.redis.allow 102 "victim" roundDouble ⟨1, 5⟩ "m2").2 =
      (false, 3) := by
    decide +kernel
  have hsame := (limiters_agree_iff sampleTwinsUsed_reachable ⟨⟨ht, hroom⟩, hlossless⟩).mpr
    (by decide : (sampleBudget "victim").Valid)
  exact ⟨hsame.trans (congrArg _ hanswer), hanswer⟩

/-- A window of no seconds, as a setting can have it: one limiter raises, the other accepts. -/
theorem limiters_disagree : ¬ ∀ (budget : String → Budget) (s t : Twins) (now : ℚ)
    (key member : String), (belowCapacity budget).Reachable s →
      (belowCapacity budget).step s (.allow now key, member) t →
        (s.tracked.limiter.allow now roundDouble key (budget key)).2 =
          .ok (s.redis.allow now key roundDouble (budget key) member).2 := by
  intro h
  obtain ⟨t, ht⟩ : ∃ t, stepTwins (fun _ => ⟨5, 0⟩) sampleTwins (.allow 100 "mfa:1", "m1") = some t :=
    Option.isSome_iff_exists.mp (by decide +kernel)
  have hstep : (belowCapacity fun _ => ⟨5, 0⟩).step sampleTwins (.allow 100 "mfa:1", "m1") t :=
    ⟨ht, fun _ => by decide +kernel⟩
  have hsame := h _ _ _ _ _ _ (System.Reachable.of_init sampleTwins_initial) hstep
  cases hsame

end Scap.Limits
