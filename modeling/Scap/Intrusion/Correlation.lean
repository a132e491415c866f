import Mathlib.Data.List.Dedup
import Mathlib.Data.Prod.Lex
import Mathlib.Data.String.Basic
import Scap.Lib.Episodes
import Scap.Lib.KeyedTable

/-!
# Successful logins after failures

`_authentication_correlations`: two queries over the audit events of a window. The second one cuts
the attempts of every account into episodes that end with a success, keeps the last episode with
enough failures, and reports the most recent of these.

The reference goes through the sorted attempts of one account after the other. The query gives the
same findings (`authentication_correlations`).

Times are microseconds. Rows come in the order of their ids.
-/

namespace Scap.Intrusion

open Scap.Lib

/-- The columns of `audit_events` that the queries read. -/
structure AuditEvent where
  id : Int
  actorId : Option String
  eventType : String
  outcome : String
  ipAddress : Option String
  createdAt : Int
  deriving DecidableEq

structure Anomaly where
  code : String
  severity : String
  message : String
  count : Nat
  windowMinutes : Int
  subject : Option String := none
  mitreTechnique : Option String := none
  sourceCount : Option Nat := none
  evidenceEventId : Option Int := none
  deriving DecidableEq

/-- `MAX_CORRELATION_FINDINGS`. -/
def maxCorrelationFindings : Nat := 100

/-- An event with an actor, as both queries select them. -/
structure Attempt where
  id : Int
  actorId : String
  outcome : String
  ipAddress : Option String
  createdAt : Int
  deriving DecidableEq

/-- `valid_source`. A null address is not one. -/
def Attempt.validSource (a : Attempt) : Bool :=
  match a.ipAddress with
  | none => false
  | some ip => ip ≠ "" && ip ≠ "unknown"

/-- `successful`. -/
def Attempt.successful (a : Attempt) : Bool := a.outcome = "success"

/-- The order of the window rows. -/
def Attempt.position (a : Attempt) : Int ×ₗ Int := toLex (a.createdAt, a.id)

/-- The part that the two `WHERE` clauses share. -/
def attempt? (eventTypes outcomes : List String) (cutoff now : Int) (e : AuditEvent) :
    Option Attempt :=
  match e.actorId with
  | none => none
  | some actor =>
      if e.eventType ∈ eventTypes ∧ e.outcome ∈ outcomes ∧ actor ≠ "" ∧ cutoff ≤ e.createdAt ∧
          e.createdAt ≤ now then
        some ⟨e.id, actor, e.outcome, e.ipAddress, e.createdAt⟩
      else none

/-- `COUNT(DISTINCT ip_address)`. Null is not counted. -/
def sourceCount (attempts : List Attempt) : Nat :=
  (attempts.filterMap Attempt.ipAddress).dedup.length

/-! ## Distributed failures -/

/-- A row of `distributed`. -/
structure Distributed where
  actorId : String
  failures : Nat
  sources : Nat
  evidenceId : Option Int

/-- The failed logins from a valid source. -/
def failedLogins (events : List AuditEvent) (cutoff now : Int) : List Attempt :=
  (events.filterMap (attempt? ["auth.login"] ["failure", "blocked", "denied"] cutoff now)).filter
    Attempt.validSource

/-- `GROUP BY actor_id` with the aggregates. -/
def distributedRows (logins : List Attempt) : List Distributed :=
  (logins.map Attempt.actorId).dedup.map fun actor =>
    let rows := logins.filter fun a => a.actorId = actor
    ⟨actor, rows.length, sourceCount rows, (rows.map Attempt.id).max?⟩

/-- `distributed`. -/
def distributed (events : List AuditEvent) (cutoff now failureThreshold sourceThreshold : Int) :
    List Distributed :=
  (((distributedRows (failedLogins events cutoff now)).filter fun row =>
    failureThreshold ≤ row.failures && sourceThreshold ≤ row.sources).insertionSort fun r q =>
      q.failures < r.failures ∨ q.failures = r.failures ∧ r.actorId ≤ q.actorId).take
    maxCorrelationFindings

def distributedFinding (windowMinutes : Int) (row : Distributed) : Anomaly where
  code := "IDS-DISTRIBUTED-BRUTEFORCE"
  severity := "high"
  message := s!"Tài khoản {row.actorId} có {row.failures} lần đăng nhập thất bại từ " ++
    s!"{row.sources} nguồn trong {windowMinutes} phút; cần điều tra dấu hiệu dò mật khẩu phân tán."
  count := row.failures
  windowMinutes
  subject := some row.actorId
  mitreTechnique := some "T1110.001"
  sourceCount := some row.sources
  evidenceEventId := row.evidenceId

/-! ## Successes after failures -/

/-- A row of `episodes`, and of the answer with `success_at`. -/
structure Sequence where
  actorId : String
  failures : Nat
  sources : Nat
  successId : Int
  successAt : Int
  deriving DecidableEq

/-- The `WHERE` of `ordered`. -/
def orderedAttempts (events : List AuditEvent) (cutoff now : Int) : List Attempt :=
  events.filterMap (attempt? ["auth.login", "auth.mfa.verify"]
    ["success", "failure", "blocked", "denied"] cutoff now)

/-- The partition of an actor. -/
def attemptsOf (attempts : List Attempt) (actor : String) : List Attempt :=
  attempts.filter fun a => a.actorId = actor

/-- `episode`: the successes among the rows of the partition that come before. -/
def episode (attempts : List Attempt) (a : Attempt) : Nat :=
  Episodes.number Attempt.position Attempt.successful (attemptsOf attempts a.actorId) a

/-- What the rows are grouped by. -/
def group (attempts : List Attempt) (a : Attempt) : String × Nat :=
  (a.actorId, episode attempts a)

/-- The aggregates of a group, when it passes `HAVING`. -/
def aggregate (threshold : Int) (actor : String) (rows : List Attempt) : Option Sequence :=
  let successes := rows.filter Attempt.successful
  let failures := rows.filter fun a => !a.successful
  match (successes.map Attempt.id).max?, (successes.map Attempt.createdAt).max? with
  | some successId, some successAt =>
      if threshold ≤ failures.length then
        some ⟨actor, failures.length, sourceCount (failures.filter Attempt.validSource), successId,
          successAt⟩
      else none
  | _, _ => none

/-- `episodes`. -/
def episodes (attempts : List Attempt) (threshold : Int) : List Sequence :=
  (attempts.map (group attempts)).dedup.filterMap fun g =>
    aggregate threshold g.1 (attempts.filter fun a => group attempts a = g)

/-- What `row_number` and the answer go by. -/
def Sequence.recency (s : Sequence) : Int ×ₗ Int := toLex (s.successAt, s.successId)

/-- `rank`. -/
def rank (rows : List Sequence) (s : Sequence) : Nat :=
  1 + rows.countP fun r => r.actorId = s.actorId && decide (s.recency < r.recency)

/-- The `ORDER BY` of the answer. -/
def recentFirst (rows : List Sequence) : List Sequence :=
  rows.insertionSort fun r s =>
    s.recency < r.recency ∨ r.recency = s.recency ∧ r.actorId ≤ s.actorId

/-- The rows of `sequences` before the limit. -/
def rankedFirst (attempts : List Attempt) (threshold : Int) : List Sequence :=
  let rows := episodes attempts threshold
  recentFirst (rows.filter fun s => rank rows s = 1)

def sequenceFinding (windowMinutes : Int) (s : Sequence) : Anomaly where
  code := "IDS-AUTH-SUCCESS-AFTER-FAILURES"
  severity := "high"
  message := s!"Tài khoản {s.actorId} đã hoàn tất đăng nhập sau {s.failures} lần xác thực " ++
    s!"thất bại liên tiếp trong {windowMinutes} phút; cần xác minh với chủ tài khoản."
  count := s.failures
  windowMinutes
  subject := some s.actorId
  mitreTechnique := some "T1110"
  sourceCount := some s.sources
  evidenceEventId := some s.successId

/-- `_authentication_correlations`. -/
def authenticationCorrelations (events : KeyedTable AuditEvent.id)
    (cutoff now windowMinutes failureThreshold distributedSourceThreshold : Int) : List Anomaly :=
  (distributed events.rows cutoff now failureThreshold distributedSourceThreshold).map
      (distributedFinding windowMinutes) ++
    ((rankedFirst (orderedAttempts events.rows cutoff now) failureThreshold).take
      maxCorrelationFindings).map (sequenceFinding windowMinutes)

/-! ## The reference -/

/-- The attempts of an actor, one after the other. -/
def history (attempts : List Attempt) (actor : String) : List Attempt :=
  (attemptsOf attempts actor).insertionSort fun a b => a.position ≤ b.position

/-- What a scan of the history finds last: a success with the failures since the one before. -/
def lastSequence (attempts : List Attempt) (threshold : Int) (actor : String) : Option Sequence :=
  (Episodes.last Attempt.successful (fun failures => threshold ≤ failures.length)
    (history attempts actor)).map fun (failures, success) =>
      ⟨actor, failures.length, sourceCount (failures.filter Attempt.validSource), success.id,
        success.createdAt⟩

/-- One sequence of every actor that has one, the most recent first. -/
def referenceSequences (attempts : List Attempt) (threshold : Int) : List Sequence :=
  recentFirst ((attempts.map Attempt.actorId).dedup.filterMap (lastSequence attempts threshold))

/-! ## One sequence for each success -/

/-- The sequence that a success ends. -/
def sequenceAt (attempts : List Attempt) (success : Attempt) : Sequence :=
  let before := attemptsOf attempts success.actorId
  let failures := before.filter
    (Episodes.since Attempt.position Attempt.successful before success)
  ⟨success.actorId, failures.length, sourceCount (failures.filter Attempt.validSource), success.id,
    success.createdAt⟩

/-- Attempts that have their own ids. -/
structure Identified (attempts : List Attempt) : Prop where
  nodup : attempts.Nodup
  inj : ∀ a ∈ attempts, ∀ b ∈ attempts, a.id = b.id → a = b

section Sequences

variable {attempts : List Attempt} {threshold : Int} {a x y : Attempt} {s t : Sequence}
  {actor : String}

theorem mem_attemptsOf : a ∈ attemptsOf attempts actor ↔ a ∈ attempts ∧ a.actorId = actor := by
  simp [attemptsOf]

theorem position_inj (h : Identified attempts) :
    ∀ a ∈ attemptsOf attempts actor, ∀ b ∈ attemptsOf attempts actor,
      a.position = b.position → a = b := by
  intro a ha b hb hab
  have hid : a.id = b.id := (Prod.ext_iff.mp (toLex.injective hab)).2
  exact h.inj a (mem_attemptsOf.mp ha).1 b (mem_attemptsOf.mp hb).1 hid

/-- Attempts of a group are of one actor. -/
theorem group_eq_iff : group attempts a = group attempts x ↔
    a.actorId = x.actorId ∧
      Episodes.number Attempt.position Attempt.successful (attemptsOf attempts x.actorId) a =
        Episodes.number Attempt.position Attempt.successful (attemptsOf attempts x.actorId) x := by
  rw [group, group, Prod.mk.injEq]
  constructor
  · rintro ⟨hactor, hepisode⟩
    rw [episode, hactor] at hepisode
    exact ⟨hactor, hepisode⟩
  · rintro ⟨hactor, hnumber⟩
    refine ⟨hactor, ?_⟩
    rw [episode, hactor]
    exact hnumber

/-- A group has one success. -/
theorem group_success (h : Identified attempts) (hx : x ∈ attempts) (hy : y ∈ attempts)
    (hxs : x.successful = true) (hys : y.successful = true)
    (hgroup : group attempts y = group attempts x) : y = x := by
  obtain ⟨hactor, hnumber⟩ := group_eq_iff.mp hgroup
  exact Episodes.eq_of_number_eq (position_inj h) (mem_attemptsOf.mpr ⟨hy, hactor⟩)
    (mem_attemptsOf.mpr ⟨hx, rfl⟩) hys hxs hnumber

theorem filter_group_successful (h : Identified attempts) (hx : x ∈ attempts)
    (hxs : x.successful = true) :
    (attempts.filter fun a => group attempts a = group attempts x).filter Attempt.successful =
      [x] := by
  refine List.perm_singleton.mp ?_
  rw [List.perm_ext_iff_of_nodup ((h.nodup.filter _).filter _) (List.nodup_singleton x)]
  intro y
  simp only [List.mem_filter, decide_eq_true_eq, List.mem_singleton]
  constructor
  · rintro ⟨⟨hy, hgroup⟩, hys⟩
    exact group_success h hx hy hxs hys hgroup
  · rintro rfl
    exact ⟨⟨hx, rfl⟩, hxs⟩

/-- The failures of a group are those since the success before. -/
theorem filter_group_failed (h : Identified attempts) (hx : x ∈ attempts)
    (hxs : x.successful = true) :
    (attempts.filter fun a => group attempts a = group attempts x).filter
        (fun a => !a.successful) =
      (attemptsOf attempts x.actorId).filter
        (Episodes.since Attempt.position Attempt.successful (attemptsOf attempts x.actorId) x) := by
  rw [attemptsOf, List.filter_filter, List.filter_filter, ← attemptsOf]
  refine List.filter_congr fun a ha => ?_
  rw [Bool.eq_iff_iff, Bool.and_eq_true, Bool.and_eq_true, decide_eq_true_eq, decide_eq_true_eq,
    group_eq_iff, Bool.not_eq_true']
  by_cases hactor : a.actorId = x.actorId
  · have hnumber := fun hopen : a.successful = false =>
      Episodes.number_eq_iff (position_inj h) (mem_attemptsOf.mpr ⟨ha, hactor⟩)
        (mem_attemptsOf.mpr ⟨hx, rfl⟩) hopen hxs
    constructor
    · rintro ⟨hopen, -, heq⟩
      exact ⟨(hnumber hopen).mp heq, hactor⟩
    · rintro ⟨hsince, -⟩
      have hopen := (Episodes.since_iff.mp hsince).1
      exact ⟨hopen, hactor, (hnumber hopen).mpr hsince⟩
  · simp [hactor]

/-- **A group** gives the sequence of its success, when it has one with enough failures. -/
theorem aggregate_eq_some (h : Identified attempts) {g : String × Nat} :
    aggregate threshold g.1 (attempts.filter fun a => group attempts a = g) = some s ↔
      ∃ x ∈ attempts, x.successful = true ∧ group attempts x = g ∧ s = sequenceAt attempts x ∧
        threshold ≤ s.failures := by
  have hof : ∀ x ∈ attempts, x.successful = true → group attempts x = g →
      aggregate threshold g.1 (attempts.filter fun a => group attempts a = g) =
        if threshold ≤ (sequenceAt attempts x).failures then some (sequenceAt attempts x)
        else none := by
    rintro x hx hxs rfl
    rw [aggregate, filter_group_successful h hx hxs, filter_group_failed h hx hxs]
    rfl
  constructor
  · intro hs
    rcases hrows : (attempts.filter fun a => group attempts a = g).filter Attempt.successful
      with _ | ⟨x, rest⟩
    · rw [aggregate, hrows] at hs
      cases hs
    · have hx : x ∈ (attempts.filter fun a => group attempts a = g).filter Attempt.successful := by
        rw [hrows]
        exact List.mem_cons_self
      simp only [List.mem_filter, decide_eq_true_eq] at hx
      obtain ⟨⟨hmem, hgroup⟩, hxs⟩ := hx
      rw [hof x hmem hxs hgroup] at hs
      split at hs
      · next hthreshold =>
        obtain rfl := Option.some.inj hs
        exact ⟨x, hmem, hxs, hgroup, rfl, hthreshold⟩
      · cases hs
  · rintro ⟨x, hx, hxs, hgroup, rfl, hthreshold⟩
    rw [hof x hx hxs hgroup, if_pos hthreshold]

/-- **The episodes** are the sequences of the successes that have enough failures. -/
theorem mem_episodes (h : Identified attempts) : s ∈ episodes attempts threshold ↔
    ∃ x ∈ attempts, x.successful = true ∧ s = sequenceAt attempts x ∧ threshold ≤ s.failures := by
  simp only [episodes, List.mem_filterMap, List.mem_dedup, aggregate_eq_some h, List.mem_map]
  constructor
  · rintro ⟨g, -, x, hx, hxs, -, hs⟩
    exact ⟨x, hx, hxs, hs⟩
  · rintro ⟨x, hx, hxs, hs⟩
    exact ⟨group attempts x, ⟨x, hx, rfl⟩, x, hx, hxs, rfl, hs⟩

theorem sequenceAt_inj (h : Identified attempts) (hx : x ∈ attempts) (hy : y ∈ attempts)
    (hxy : (sequenceAt attempts x).recency = (sequenceAt attempts y).recency) : x = y := by
  have hid : x.id = y.id := (Prod.ext_iff.mp (toLex.injective hxy)).2
  exact h.inj x hx y hy hid

theorem nodup_episodes (h : Identified attempts) : (episodes attempts threshold).Nodup := by
  refine List.Nodup.filterMap (fun g g' t ht ht' => ?_) (List.nodup_dedup _)
  rw [Option.mem_def, aggregate_eq_some h] at ht ht'
  obtain ⟨x, hx, -, rfl, rfl, -⟩ := ht
  obtain ⟨y, hy, -, rfl, hxy, -⟩ := ht'
  rw [sequenceAt_inj h hx hy (congrArg Sequence.recency hxy)]

/-- The episode that a later one of its actor does not outrank. -/
theorem rank_eq_one_iff {rows : List Sequence} :
    rank rows s = 1 ↔ ∀ r ∈ rows, r.actorId = s.actorId → r.recency ≤ s.recency := by
  rw [rank, Nat.add_eq_left, List.countP_eq_zero]
  simp only [Bool.and_eq_true, decide_eq_true_eq, not_and, not_lt]

/-! ## The scan finds the same -/

theorem perm_history : (history attempts actor).Perm (attemptsOf attempts actor) :=
  List.perm_insertionSort _ _

theorem sorted_history (h : Identified attempts) :
    (history attempts actor).Pairwise fun a b => a.position < b.position := by
  have : Std.Total fun a b : Attempt => a.position ≤ b.position := ⟨fun a b => le_total _ _⟩
  have : IsTrans Attempt fun a b => a.position ≤ b.position := ⟨fun _ _ _ => le_trans⟩
  have hle := List.pairwise_insertionSort (fun a b : Attempt => a.position ≤ b.position)
    (attemptsOf attempts actor)
  have hnodup : (history attempts actor).Nodup := perm_history.nodup_iff.mpr (h.nodup.filter _)
  refine (List.pairwise_and_iff.mpr ⟨hle, hnodup⟩).imp_of_mem fun {a b} ha hb hab => ?_
  refine lt_of_le_of_ne hab.1 fun heq => hab.2 ?_
  exact position_inj h a (perm_history.mem_iff.mp ha) b (perm_history.mem_iff.mp hb) heq

/-- What a history has since a success is what the table has. -/
theorem perm_since_history (hx : x.actorId = actor) :
    ((history attempts actor).filter
        (Episodes.since Attempt.position Attempt.successful (history attempts actor) x)).Perm
      ((attemptsOf attempts x.actorId).filter (Episodes.since Attempt.position Attempt.successful
        (attemptsOf attempts x.actorId) x)) := by
  subst hx
  have hsince : Episodes.since Attempt.position Attempt.successful (history attempts x.actorId) x =
      Episodes.since Attempt.position Attempt.successful (attemptsOf attempts x.actorId) x := by
    funext a
    rw [Bool.eq_iff_iff, Episodes.since_iff, Episodes.since_iff]
    simp only [perm_history.mem_iff]
  rw [hsince]
  exact perm_history.filter _

theorem sourceCount_perm {l l' : List Attempt} (h : l.Perm l') : sourceCount l = sourceCount l' :=
  (h.filterMap _).dedup.length_eq

/-- **The scan of an actor** finds the last of the sequences that have enough failures. -/
theorem lastSequence_eq_some (h : Identified attempts) :
    lastSequence attempts threshold actor = some s ↔
      s ∈ episodes attempts threshold ∧ s.actorId = actor ∧
        ∀ r ∈ episodes attempts threshold, r.actorId = s.actorId → r.recency ≤ s.recency := by
  -- the scan counts what the query counts
  have hlength : ∀ x, x.actorId = actor →
      (((history attempts actor).filter (Episodes.since Attempt.position Attempt.successful
        (history attempts actor) x)).length : Int) = (sequenceAt attempts x).failures := by
    intro x hx
    rw [(perm_since_history hx).length_eq]
    rfl
  have hsequence : ∀ x, x.actorId = actor →
      (⟨actor, ((history attempts actor).filter (Episodes.since Attempt.position
          Attempt.successful (history attempts actor) x)).length,
        sourceCount (((history attempts actor).filter (Episodes.since Attempt.position
          Attempt.successful (history attempts actor) x)).filter Attempt.validSource),
        x.id, x.createdAt⟩ : Sequence) = sequenceAt attempts x := by
    intro x hx
    rw [(perm_since_history hx).length_eq, sourceCount_perm ((perm_since_history hx).filter _)]
    subst hx
    rfl
  simp only [lastSequence, Option.map_eq_some_iff, Prod.exists,
    Episodes.last_eq_some_iff (sorted_history h), perm_history.mem_iff, mem_attemptsOf,
    decide_eq_true_eq, mem_episodes h]
  constructor
  · rintro ⟨_, x, ⟨⟨hx, hactor⟩, hxs, rfl, hthreshold, hlast⟩, rfl⟩
    rw [hlength x hactor] at hthreshold
    rw [hsequence x hactor]
    refine ⟨⟨x, hx, hxs, rfl, hthreshold⟩, hactor, ?_⟩
    rintro _ ⟨y, hy, hys, rfl, hythreshold⟩ hyactor
    have hyactor : y.actorId = actor := hyactor.trans hactor
    exact hlast y ⟨hy, hyactor⟩ hys (by rwa [hlength y hyactor])
  · rintro ⟨⟨x, hx, hxs, rfl, hthreshold⟩, hactor, hlast⟩
    refine ⟨_, x, ⟨⟨hx, hactor⟩, hxs, rfl, by rwa [hlength x hactor], ?_⟩, hsequence x hactor⟩
    rintro y ⟨hy, hyactor⟩ hys hythreshold
    rw [hlength y hyactor] at hythreshold
    exact hlast _ ⟨y, hy, hys, rfl, hythreshold⟩ (hyactor.trans hactor.symm)

/-! ## The query is the reference -/

theorem perm_rankedFirst (h : Identified attempts) :
    ((episodes attempts threshold).filter fun s => rank (episodes attempts threshold) s = 1).Perm
      ((attempts.map Attempt.actorId).dedup.filterMap (lastSequence attempts threshold)) := by
  have hnodup : ((attempts.map Attempt.actorId).dedup.filterMap
      (lastSequence attempts threshold)).Nodup := by
    refine List.Nodup.filterMap (fun u v s hu hv => ?_) (List.nodup_dedup _)
    rw [Option.mem_def, lastSequence_eq_some h] at hu hv
    exact hu.2.1.symm.trans hv.2.1
  rw [List.perm_ext_iff_of_nodup ((nodup_episodes h).filter _) hnodup]
  intro s
  simp only [List.mem_filter, decide_eq_true_eq, rank_eq_one_iff, List.mem_filterMap,
    List.mem_dedup, List.mem_map, lastSequence_eq_some h]
  constructor
  · rintro ⟨hs, hfirst⟩
    obtain ⟨x, hx, -, rfl, -⟩ := (mem_episodes h).mp hs
    exact ⟨x.actorId, ⟨x, hx, rfl⟩, hs, rfl, hfirst⟩
  · rintro ⟨_, -, hs, -, hfirst⟩
    exact ⟨hs, hfirst⟩

/-- Sequences that end with different successes have one order. -/
theorem recentFirst_perm {rows rows' : List Sequence} (h : rows.Perm rows')
    (hinj : ∀ s ∈ rows, ∀ t ∈ rows, s.recency = t.recency → s = t) :
    recentFirst rows = recentFirst rows' := by
  have htotal : Std.Total fun r s : Sequence =>
      s.recency < r.recency ∨ r.recency = s.recency ∧ r.actorId ≤ s.actorId := by
    refine ⟨fun r s => ?_⟩
    rcases lt_trichotomy r.recency s.recency with hlt | heq | hgt
    · exact .inr (.inl hlt)
    · exact (le_total r.actorId s.actorId).imp (fun h => .inr ⟨heq, h⟩)
        fun h => .inr ⟨heq.symm, h⟩
    · exact .inl (.inl hgt)
  have htrans : IsTrans Sequence fun r s =>
      s.recency < r.recency ∨ r.recency = s.recency ∧ r.actorId ≤ s.actorId := by
    refine ⟨fun r s t hrs hst => ?_⟩
    rcases hrs with hrs | ⟨hrs, hle⟩ <;> rcases hst with hst | ⟨hst, hle'⟩
    · exact .inl (hst.trans hrs)
    · exact .inl (hst ▸ hrs)
    · exact .inl (hrs ▸ hst)
    · exact .inr ⟨hrs.trans hst, hle.trans hle'⟩
  have hperm : (recentFirst rows).Perm (recentFirst rows') :=
    (List.perm_insertionSort _ _).trans (h.trans (List.perm_insertionSort _ _).symm)
  refine List.Perm.eq_of_pairwise ?_ (List.pairwise_insertionSort _ _)
    (List.pairwise_insertionSort _ _) hperm
  intro s t hs ht hst hts
  have hs : s ∈ rows := (List.mem_insertionSort _).mp hs
  have ht : t ∈ rows := h.mem_iff.mpr ((List.mem_insertionSort _).mp ht)
  refine hinj s hs t ht ?_
  rcases hst with hst | ⟨hst, -⟩
  · rcases hts with hts | ⟨hts, -⟩
    · exact absurd hst hts.not_gt
    · exact hts.symm
  · exact hst

/-- **The answer of the query.** -/
theorem rankedFirst_eq (h : Identified attempts) :
    rankedFirst attempts threshold = referenceSequences attempts threshold := by
  refine recentFirst_perm (perm_rankedFirst h) fun s hs t ht hst => ?_
  obtain ⟨x, hx, -, rfl, -⟩ := (mem_episodes h).mp (List.mem_of_mem_filter hs)
  obtain ⟨y, hy, -, rfl, -⟩ := (mem_episodes h).mp (List.mem_of_mem_filter ht)
  rw [sequenceAt_inj h hx hy hst]

/-- An attempt has the id of its event. -/
theorem attempt?_id {eventTypes outcomes : List String} {cutoff now : Int} {e : AuditEvent}
    (h : attempt? eventTypes outcomes cutoff now e = some a) : a.id = e.id := by
  unfold attempt? at h
  split at h
  · cases h
  · split at h
    · obtain rfl := Option.some.inj h
      rfl
    · cases h

/-- The attempts of a table are identified. -/
theorem identified (events : KeyedTable AuditEvent.id) (cutoff now : Int) :
    Identified (orderedAttempts events.rows cutoff now) := by
  have hsorted : (orderedAttempts events.rows cutoff now).Pairwise fun a b => a.id < b.id := by
    refine List.Pairwise.filterMap _ (fun e e' hlt a ha b hb => ?_) events.sorted
    rw [attempt?_id ha, attempt?_id hb]
    exact hlt
  refine ⟨hsorted.imp fun hlt heq => hlt.ne (congrArg Attempt.id heq), fun a ha b hb hab => ?_⟩
  obtain ⟨e, he, hea⟩ := List.mem_filterMap.mp ha
  obtain ⟨e', he', heb⟩ := List.mem_filterMap.mp hb
  have hsame : e = e' := by
    refine KeyedTable.eq_of_key he he' ?_
    rw [← attempt?_id hea, ← attempt?_id heb, hab]
  subst hsame
  exact Option.some.inj (hea.symm.trans heb)

/-- **Successes after failures.** The query reports what a scan of each account's attempts finds:
the last success that enough failures precede, with their number and that of their sources. -/
theorem authentication_correlations (events : KeyedTable AuditEvent.id)
    (cutoff now windowMinutes failureThreshold distributedSourceThreshold : Int) :
    authenticationCorrelations events cutoff now windowMinutes failureThreshold
        distributedSourceThreshold =
      (distributed events.rows cutoff now failureThreshold distributedSourceThreshold).map
          (distributedFinding windowMinutes) ++
        ((referenceSequences (orderedAttempts events.rows cutoff now) failureThreshold).take
          maxCorrelationFindings).map (sequenceFinding windowMinutes) := by
  rw [authenticationCorrelations, rankedFirst_eq (identified events cutoff now)]

end Sequences

end Scap.Intrusion
