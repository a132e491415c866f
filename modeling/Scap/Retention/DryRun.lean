import Scap.Retention.Backfill

/-!
# What a dry run reports

After the backfill the two runs call the same rows expired (`expiredReal_fillLegacy`). They order
them differently: a dry run by the stored deadline, in which the legacy rows all come first or all
come last. So the two batches can differ as soon as not all expired rows fit in.

* `sameLoad_of_length_le` — but not when they do;
* `report_eq_iff` — the reports agree just when the two batches carry as many messages, envelopes
  and key epochs;
* `deletes_iff` — and the sweep deletes what it reports, unless a login that it deletes takes passkey
  challenges along;
* `dry_run_faithful_iff` — both together, and when the one run overflows and the other does not.
-/

namespace Scap.Retention

open Scap.Lib Scap.Py

variable {ι : Type*} [LinearOrder ι] {nullsFirst : Bool} {a : Sweep}

/-! ## Expired conversations -/

namespace Sweep

/-- The deadline that is stored, or else the derived one. -/
def deadline (a : Sweep) (s : ChatSession ι) : Int :=
  s.retentionExpiresAt.getD (a.retentionDeadline s)

omit [LinearOrder ι] in
/-- The two readings of "expired" agree: a legacy row expires by its derived deadline. -/
theorem expiredReal_fillLegacy (ha : a.Valid) (r : ι × ChatSession ι) :
    a.expiredReal (a.fillLegacy r).2 = a.expiredDry r.2 := by
  obtain ⟨-, hsecure, hconfidential⟩ := ha
  unfold fillLegacy
  cases hdeadline : r.2.retentionExpiresAt with
  | some deadline => simp [expiredReal, expiredDry, hdeadline]
  | none =>
      show decide (r.2.createdAt.getD a.now + days (a.retentionDays r.2) ≤ a.now) = _
      unfold expiredDry legacyExpired retentionDays
      rw [hdeadline]
      cases r.2.createdAt with
      | none =>
          simp only [Option.getD_none, days]
          split
          · exact decide_eq_false (by omega)
          · exact decide_eq_false (by omega)
      | some createdAt =>
          simp only [Option.getD_some]
          by_cases hmode : r.2.securityMode = some "secure"
          · simp [hmode]
            omega
          · simp [hmode]
            omega

theorem sessionKey_fillLegacy (r r' : ι × ChatSession ι) :
    sessionKey nullsFirst (a.fillLegacy r) ≤ sessionKey nullsFirst (a.fillLegacy r') ↔
      toLex (a.deadline r.2, r.1) ≤ toLex (a.deadline r'.2, r'.1) := by
  have hkey : ∀ r : ι × ChatSession ι, sessionKey nullsFirst (a.fillLegacy r) =
      toLex (0, toLex (a.deadline r.2, r.1)) := by
    intro r
    unfold fillLegacy deadline sessionKey
    cases hdeadline : r.2.retentionExpiresAt with
    | none => rfl
    | some deadline =>
        simp only [Option.isNone_some, Bool.false_eq_true, if_false, hdeadline, orderKey,
          Option.getD_some]
  rw [hkey, hkey, Prod.Lex.toLex_le_toLex]
  simp

end Sweep

/-- The conversations that both runs call expired. -/
def expiredRows (a : Sweep) (db : Database ι) : List (ι × ChatSession ι) :=
  db.sessions.rows.filter fun r => a.expiredDry r.2

/-- The state that the real run selects from. -/
def backfilled (a : Sweep) (db : Database ι) : Database ι :=
  { db with sessions := (backfill a db.sessions).1 }

variable {db : Database ι}

/-- The real run's batch, by the deadline stored or derived. -/
theorem select_backfilled (nullsFirst : Bool) (db : Database ι) (ha : a.Valid) :
    (select nullsFirst a a.expiredReal (backfilled a db)).sessions =
      (firstBy (fun r => toLex (a.deadline r.2, r.1)) a.limit (expiredRows a db)).map
        a.fillLegacy := by
  have hlimit : 0 < a.limit := by
    obtain ⟨⟨hbatch, -⟩, -⟩ := ha
    unfold Sweep.limit
    omega
  show firstBy (sessionKey nullsFirst) a.limit ((backfill a db.sessions).1.rows.filter
    fun r => a.expiredReal r.2) = _
  have hexpired : (db.sessions.rows.map a.fillLegacy).filter (fun r => a.expiredReal r.2) =
      (expiredRows a db).map a.fillLegacy := by
    rw [List.filter_map, expiredRows]
    congr 1
    apply List.filter_congr
    intro r _
    exact Sweep.expiredReal_fillLegacy ha r
  rw [(backfill_eq _ hlimit).1, hexpired, firstBy_map]
  congr 1
  exact firstBy_congr Sweep.sessionKey_fillLegacy

/-! ## The reports -/

/-- The rows of some conversations, conversation by conversation. -/
theorem countOf_eq {ids : List ι} (h : ids.Nodup) (children : List ι) :
    countOf ids children = (ids.map fun id => children.count id).sum := by
  induction ids with
  | nil => simp [countOf]
  | cons id ids ih =>
      obtain ⟨hid, hids⟩ := List.nodup_cons.mp h
      rw [List.map_cons, List.sum_cons, ← ih hids]
      unfold countOf
      clear ih h hids
      induction children with
      | nil => rfl
      | cons x xs ih =>
          rw [List.countP_cons, List.countP_cons, List.count_cons, ih]
          by_cases hx : x = id
          · subst hx
            simp [hid]
            omega
          · simp [hx]
            omega

/-- Among the first `batch_size` expired conversations by the stored deadline. -/
def inDryBatch (nullsFirst : Bool) (a : Sweep) (db : Database ι) (r : ι × ChatSession ι) : Bool :=
  rank (sessionKey nullsFirst) (expiredRows a db) r < a.limit

/-- Among the first `batch_size` expired conversations by the deadline stored or derived. -/
def inRealBatch (a : Sweep) (db : Database ι) (r : ι × ChatSession ι) : Bool :=
  rank (fun r => toLex (a.deadline r.2, r.1)) (expiredRows a db) r < a.limit

/-- What the conversations of the one batch only carry is as much as what those of the other batch
only carry. -/
def SameLoad (nullsFirst : Bool) (a : Sweep) (db : Database ι) (children : List ι) : Prop :=
  (((expiredRows a db).filter fun r => inDryBatch nullsFirst a db r && !inRealBatch a db r).map
    fun r => children.count r.1).sum =
  (((expiredRows a db).filter fun r => inRealBatch a db r && !inDryBatch nullsFirst a db r).map
    fun r => children.count r.1).sum

instance {nullsFirst : Bool} {a : Sweep} {db : Database ι} {children : List ι} :
    Decidable (SameLoad nullsFirst a db children) := inferInstanceAs (Decidable (_ = _))

omit [LinearOrder ι] in
theorem nodup_sessionKey : ((expiredRows a db).map (sessionKey nullsFirst)).Nodup := by
  apply List.Nodup.map_on ?_ (db.sessions.nodup.of_map.filter _)
  intro r hr r' hr' hkey
  apply OrderedDict.row_eq (List.mem_filter.mp hr).1 (List.mem_filter.mp hr').1
  have hid : ∀ x : ι × ChatSession ι,
      (ofLex (ofLex (sessionKey nullsFirst x)).2).2 = x.1 := by
    intro x
    unfold sessionKey
    cases x.2.retentionExpiresAt <;> rfl
  rw [← hid r, ← hid r', hkey]

omit [LinearOrder ι] in
theorem nodup_deadlineKey :
    ((expiredRows a db).map fun r => toLex (a.deadline r.2, r.1)).Nodup := by
  apply List.Nodup.map_on ?_ (db.sessions.nodup.of_map.filter _)
  intro r hr r' hr' hkey
  apply OrderedDict.row_eq (List.mem_filter.mp hr).1 (List.mem_filter.mp hr').1
  simpa using congrArg (fun k => (ofLex k).2) hkey

/-- The two batches carry the same just under the condition. -/
theorem load_eq_iff (children : List ι) :
    ((firstBy (sessionKey nullsFirst) a.limit (expiredRows a db)).map
      fun r => children.count r.1).sum =
    ((firstBy (fun r => toLex (a.deadline r.2, r.1)) a.limit (expiredRows a db)).map
      fun r => children.count r.1).sum ↔ SameLoad nullsFirst a db children := by
  rw [sum_firstBy nodup_sessionKey, sum_firstBy nodup_deadlineKey]
  exact sum_filter_eq_iff

/-- Where the expired conversations fit into one batch, both batches are all of them. -/
theorem sameLoad_of_length_le (h : (expiredRows a db).length ≤ a.limit) (children : List ι) :
    SameLoad nullsFirst a db children := by
  have hdry : ∀ r ∈ expiredRows a db, inDryBatch nullsFirst a db r = true := fun r hr =>
    decide_eq_true (lt_of_lt_of_le (rank_lt_length hr) h)
  have hreal : ∀ r ∈ expiredRows a db, inRealBatch a db r = true := fun r hr =>
    decide_eq_true (lt_of_lt_of_le (rank_lt_length hr) h)
  unfold SameLoad
  rw [List.filter_eq_nil_iff.mpr, List.filter_eq_nil_iff.mpr]
  · intro r hr
    simp [hdry r hr]
  · intro r hr
    simp [hreal r hr]

/-- What a run reports of the conversations that it selects. -/
theorem report_batch {rows : List (ι × ChatSession ι)} (h : (rows.map Prod.fst).Nodup)
    (children : List ι) :
    countOf (rows.map Prod.fst) children = (rows.map fun r => children.count r.1).sum := by
  rw [countOf_eq h, List.map_map]
  rfl

/-- The rows that a dry run selects. -/
def drySelection (nullsFirst : Bool) (a : Sweep) (db : Database ι) : Selection ι :=
  select nullsFirst a a.expiredDry db

/-- The rows that the real run selects and deletes. -/
def realSelection (nullsFirst : Bool) (a : Sweep) (db : Database ι) : Selection ι :=
  select nullsFirst a a.expiredReal (backfilled a db)

/-- What a dry run returns, if it does not overflow. -/
theorem enforceRetention_dry (nullsFirst : Bool) (db : Database ι) (ha : a.Valid)
    (hrange : a.dryOverflows = false) : enforceRetention nullsFirst a true db =
    .ok (db, report db (drySelection nullsFirst a db) (db.sessions.rows.countP isLegacy) true) := by
  obtain ⟨⟨hlow, hhigh⟩, hsecure, hconfidential⟩ := ha
  unfold enforceRetention
  rw [if_neg (by omega), if_neg (by omega), if_pos rfl, hrange]
  rfl

/-- What the real run leaves and returns, if it does not overflow. -/
theorem enforceRetention_real (nullsFirst : Bool) (db : Database ι) (ha : a.Valid)
    (hrange : a.realOverflows db.sessions = false) : enforceRetention nullsFirst a false db =
    .ok (delete (backfilled a db) (realSelection nullsFirst a db),
      report (backfilled a db) (realSelection nullsFirst a db) (db.sessions.rows.countP isLegacy)
        false) := by
  obtain ⟨⟨hlow, hhigh⟩, hsecure, hconfidential⟩ := ha
  have hlimit : 0 < a.limit := by
    unfold Sweep.limit
    omega
  unfold enforceRetention
  rw [if_neg (by omega), if_neg (by omega), if_neg (by decide), hrange,
    ← (backfill_eq db.sessions hlimit).2]
  rfl

/-- A run that overflows raises nothing else. -/
theorem enforceRetention_overflow (nullsFirst : Bool) (db : Database ι) (ha : a.Valid) :
    (a.dryOverflows = true → enforceRetention nullsFirst a true db = .error .overflow) ∧
      (a.realOverflows db.sessions = true →
        enforceRetention nullsFirst a false db = .error .overflow) := by
  obtain ⟨⟨hlow, hhigh⟩, hsecure, hconfidential⟩ := ha
  unfold enforceRetention
  constructor
  · intro hdry
    rw [if_neg (by omega), if_neg (by omega), if_pos rfl, if_pos hdry]
  · intro hreal
    rw [if_neg (by omega), if_neg (by omega), if_neg (by decide), if_pos hreal]

omit [LinearOrder ι] in
theorem map_fst_fillLegacy (rows : List (ι × ChatSession ι)) :
    (rows.map a.fillLegacy).map Prod.fst = rows.map Prod.fst := by
  rw [List.map_map]
  apply List.map_congr_left
  intro r _
  show (a.fillLegacy r).1 = r.1
  unfold Sweep.fillLegacy
  split <;> rfl

omit [LinearOrder ι] in
theorem nodup_batch {κ : Type*} [LinearOrder κ] {key : ι × ChatSession ι → κ}
    (h : ((expiredRows a db).map key).Nodup) :
    ((firstBy key a.limit (expiredRows a db)).map Prod.fst).Nodup := by
  apply List.Nodup.map_on ?_ (nodup_firstBy h)
  intro r hr r' hr' hkey
  exact OrderedDict.row_eq (List.mem_filter.mp (firstBy_subset hr)).1
    (List.mem_filter.mp (firstBy_subset hr')).1 hkey

/-- **The reports agree just when the two batches carry the same.** -/
theorem report_eq_iff (ha : a.Valid) :
    { report db (drySelection nullsFirst a db) (db.sessions.rows.countP isLegacy) true with
      dryRun := false } =
    report (backfilled a db) (realSelection nullsFirst a db) (db.sessions.rows.countP isLegacy)
      false ↔
    SameLoad nullsFirst a db db.messages ∧ SameLoad nullsFirst a db db.envelopes ∧
      SameLoad nullsFirst a db db.keyEpochs := by
  have hdry : (drySelection nullsFirst a db).sessions =
      firstBy (sessionKey nullsFirst) a.limit (expiredRows a db) := rfl
  have hreal := select_backfilled nullsFirst db ha
  have hlength : (drySelection nullsFirst a db).sessions.length =
      (realSelection nullsFirst a db).sessions.length := by
    show (drySelection nullsFirst a db).sessions.length =
      (select nullsFirst a a.expiredReal (backfilled a db)).sessions.length
    rw [hdry, hreal, List.length_map, length_firstBy, length_firstBy]
  have hids : (realSelection nullsFirst a db).sessions.map Prod.fst =
      (firstBy (fun r => toLex (a.deadline r.2, r.1)) a.limit (expiredRows a db)).map Prod.fst := by
    show (select nullsFirst a a.expiredReal (backfilled a db)).sessions.map Prod.fst = _
    rw [hreal, map_fst_fillLegacy]
  have hcount : ∀ children : List ι,
      countOf ((drySelection nullsFirst a db).sessions.map Prod.fst) children =
        countOf ((realSelection nullsFirst a db).sessions.map Prod.fst) children ↔
      SameLoad nullsFirst a db children := by
    intro children
    rw [hids, hdry, report_batch (nodup_batch nodup_sessionKey),
      report_batch (nodup_batch nodup_deadlineKey)]
    exact load_eq_iff children
  have hepochs : ((drySelection nullsFirst a db).sessions.map Prod.fst).Nodup ∧
      ((realSelection nullsFirst a db).sessions.map Prod.fst).Nodup := by
    rw [hids, hdry]
    exact ⟨nodup_batch nodup_sessionKey, nodup_batch nodup_deadlineKey⟩
  rw [← hcount db.messages, ← hcount db.envelopes, ← hcount db.keyEpochs,
    countOf_eq hepochs.1 db.keyEpochs, countOf_eq hepochs.2 db.keyEpochs]
  constructor
  · intro h
    exact ⟨congrArg RetentionResult.encryptedMessages h, congrArg RetentionResult.e2eeEnvelopes h,
      congrArg RetentionResult.wrappedDeksDestroyed h⟩
  · rintro ⟨hmessages, henvelopes, hkeyEpochs⟩
    unfold report
    dsimp only
    rw [hlength, hmessages, henvelopes, hkeyEpochs]
    rfl

/-! ## The deletions -/

section Deletions

variable {ν : Type*} {d : OrderedDict ι ν} {rows : List (ι × ν)}

theorem len_deleteRows (hnodup : rows.Nodup) (hsub : rows ⊆ d.rows) :
    d.len = (deleteRows d rows).len + rows.length := by
  have hdeleted := (OrderedDict.filter_keys_perm hnodup hsub).length_eq
  have hsplit := List.length_eq_length_filter_add (l := d.rows)
    fun r => decide (r.1 ∈ rows.map Prod.fst)
  have hkept : (d.rows.filter fun r => !decide (r.1 ∈ rows.map Prod.fst)) =
      (deleteRows d rows).rows := by
    apply List.filter_congr
    intro r _
    exact (decide_not).symm
  rw [hdeleted, hkept] at hsplit
  unfold OrderedDict.len
  omega

theorem len_selectWhere (p : ν → Bool) (n : Nat) (d : OrderedDict ι ν) :
    d.len = (deleteRows d (selectWhere p n d)).len + (selectWhere p n d).length := by
  have hsub : (selectWhere p n d).Sublist d.rows :=
    (List.take_sublist _ _).trans List.filter_sublist
  exact len_deleteRows (d.nodup.of_map.sublist hsub) hsub.subset

theorem len_firstBy {κ : Type*} [LinearOrder κ] {key : ι × ν → κ} {p : ι × ν → Bool} {n : Nat} :
    d.len = (deleteRows d (firstBy key n (d.rows.filter p))).len +
      (firstBy key n (d.rows.filter p)).length := by
  have hperm := List.perm_insertionSort (fun r r' => key r ≤ key r') (d.rows.filter p)
  have hnodup : (firstBy key n (d.rows.filter p)).Nodup :=
    (hperm.nodup_iff.mpr (d.nodup.of_map.filter p)).sublist (List.take_sublist n _)
  exact len_deleteRows hnodup (List.Subset.trans firstBy_subset (List.filter_subset_self _))

theorem length_children (ids children : List ι) :
    children.length = (children.filter fun id => id ∉ ids).length + countOf ids children := by
  have hsplit := List.length_eq_length_filter_add (l := children) fun id => decide (id ∈ ids)
  have hkept : (children.filter fun id => !decide (id ∈ ids)) =
      children.filter fun id => id ∉ ids := by
    apply List.filter_congr
    intro r _
    exact (decide_not).symm
  rw [hkept] at hsplit
  unfold countOf
  rw [List.countP_eq_length_filter]
  omega

end Deletions

/-- What the real run reports is what its tables lose. -/
structure Deletes (before after : Database ι) (r : RetentionResult) : Prop where
  sessions : before.sessions.len = after.sessions.len + r.expiredSessions
  messages : before.messages.length = after.messages.length + r.encryptedMessages
  envelopes : before.envelopes.length = after.envelopes.length + r.e2eeEnvelopes
  keyEpochs : before.keyEpochs.length = after.keyEpochs.length + r.wrappedDeksDestroyed
  challenges : before.deviceChallenges.len = after.deviceChallenges.len + r.expiredChallenges
  tokens : before.revokedTokens.len = after.revokedTokens.len + r.expiredTokens
  authSessions : before.authSessions.len = after.authSessions.len + r.expiredAuthSessions
  preKeys : before.preKeys.len = after.preKeys.len + r.stalePrekeys
  recoveryCodes : before.recoveryCodes.len = after.recoveryCodes.len + r.expiredRecoveryCodes
  passkeyChallenges :
    before.passkeyChallenges.len = after.passkeyChallenges.len + r.expiredPasskeyChallenges
  phoneChallenges : before.phoneChallenges.len = after.phoneChallenges.len + r.expiredPhoneChallenges

/-- No passkey challenge is bound to a login of the batch, apart from those that have expired and are
in a batch themselves. -/
def ChallengesApart (a : Sweep) (db : Database ι) : Prop :=
  ∀ r ∈ db.passkeyChallenges.rows,
    r ∉ selectWhere (fun c => c.expiresAt ≤ a.now) a.limit db.passkeyChallenges →
    ∀ login, r.2.authSessionId = some login →
      login ∉ (firstBy Prod.snd a.limit (db.authSessions.rows.filter fun r => r.2 ≤ a.now)).map
        Prod.fst

theorem len_backfilled (ha : a.Valid) : (backfilled a db).sessions.len = db.sessions.len := by
  have hlimit : 0 < a.limit := by
    obtain ⟨⟨hbatch, -⟩, -⟩ := ha
    unfold Sweep.limit
    omega
  show (backfill a db.sessions).1.rows.length = db.sessions.rows.length
  rw [(backfill_eq _ hlimit).1, List.length_map]

/-- The challenges that are bound to none of the logins are all of them just when none is bound to
one of the logins. -/
theorem len_unbound {logins : List ι} {d : OrderedDict ι (PasskeyChallenge ι)} :
    d.len = (d.filter fun r => match r.2.authSessionId with
        | none => true
        | some login => login ∉ logins).len ↔
      ∀ r ∈ d.rows, ∀ login, r.2.authSessionId = some login → login ∉ logins := by
  have hrow : ∀ r : ι × PasskeyChallenge ι, (match r.2.authSessionId with
      | none => true
      | some login => decide (login ∉ logins)) = true ↔
      ∀ login, r.2.authSessionId = some login → login ∉ logins := by
    intro r
    cases r.2.authSessionId with
    | none => simp
    | some login => simp
  have hall := List.length_filter_eq_length_iff (l := d.rows) (p := fun r =>
    match r.2.authSessionId with
    | none => true
    | some login => decide (login ∉ logins))
  show d.rows.length = (d.rows.filter _).length ↔ _
  rw [eq_comm, hall]
  exact forall₂_congr fun r _ => hrow r

/-- A row that the deletion leaves is none of the deleted ones. -/
theorem mem_deleteRows {ν : Type*} {d : OrderedDict ι ν} {rows : List (ι × ν)} {r : ι × ν}
    (hsub : rows ⊆ d.rows) : r ∈ (deleteRows d rows).rows ↔ r ∈ d.rows ∧ r ∉ rows := by
  show r ∈ d.rows.filter (fun r => r.1 ∉ rows.map Prod.fst) ↔ _
  rw [List.mem_filter, decide_eq_true_eq]
  apply and_congr_right
  intro hr
  apply not_congr
  constructor
  · intro hkey
    obtain ⟨x, hx, hsame⟩ := List.mem_map.mp hkey
    exact OrderedDict.row_eq (hsub hx) hr hsame ▸ hx
  · exact List.mem_map_of_mem

omit [LinearOrder ι] in
theorem selectWhere_subset {ν : Type*} (p : ν → Bool) (n : Nat) (d : OrderedDict ι ν) :
    selectWhere p n d ⊆ d.rows :=
  ((List.take_sublist _ _).trans List.filter_sublist).subset

/-- **The sweep deletes what it reports, unless a login takes challenges along.** -/
theorem deletes_iff (nullsFirst : Bool) (ha : a.Valid) :
    Deletes db (delete (backfilled a db) (realSelection nullsFirst a db))
      (report (backfilled a db) (realSelection nullsFirst a db) (db.sessions.rows.countP isLegacy)
        false) ↔ ChallengesApart a db := by
  have hids : ((realSelection nullsFirst a db).sessions.map Prod.fst).Nodup := by
    show ((select nullsFirst a a.expiredReal (backfilled a db)).sessions.map Prod.fst).Nodup
    rw [select_backfilled nullsFirst db ha, map_fst_fillLegacy]
    exact nodup_batch nodup_deadlineKey
  have hpasskeys : db.passkeyChallenges.len =
      (deleteRows db.passkeyChallenges (realSelection nullsFirst a db).passkeyChallenges).len +
        (realSelection nullsFirst a db).passkeyChallenges.length :=
    len_selectWhere (fun c : PasskeyChallenge ι => c.expiresAt ≤ a.now) a.limit _
  -- The only table where the report can differ: a deleted login takes its challenges along.
  have hapart : (deleteRows db.passkeyChallenges
        (realSelection nullsFirst a db).passkeyChallenges).len =
      (delete (backfilled a db) (realSelection nullsFirst a db)).passkeyChallenges.len ↔
        ChallengesApart a db := by
    have hsub := selectWhere_subset (fun c : PasskeyChallenge ι => c.expiresAt ≤ a.now) a.limit
      db.passkeyChallenges
    refine len_unbound.trans ?_
    constructor
    · intro h r hr hout
      exact h r ((mem_deleteRows hsub).mpr ⟨hr, hout⟩)
    · intro h r hr
      obtain ⟨hmem, hout⟩ := (mem_deleteRows hsub).mp hr
      exact h r hmem hout
  rw [← hapart]
  constructor
  · intro h
    have hdeleted : db.passkeyChallenges.len =
      (delete (backfilled a db) (realSelection nullsFirst a db)).passkeyChallenges.len +
        (realSelection nullsFirst a db).passkeyChallenges.length := h.passkeyChallenges
    omega
  · intro h
    exact {
      sessions := by
        rw [← len_backfilled ha]
        exact len_firstBy
      messages := length_children _ _
      envelopes := length_children _ _
      keyEpochs := by
        show db.keyEpochs.length = _ + (((realSelection nullsFirst a db).sessions.map
          Prod.fst).map fun id => db.keyEpochs.count id).sum
        rw [← countOf_eq hids]
        exact length_children _ _
      challenges := len_selectWhere (fun expiresAt : Int => expiresAt ≤ a.now) a.limit _
      tokens := len_selectWhere (fun expiresAt : Int => expiresAt ≤ a.now) a.limit _
      authSessions := len_firstBy (d := db.authSessions) (n := a.limit)
      preKeys := len_selectWhere (fun consumedAt : Option Int => consumedAt.isSome) a.limit _
      recoveryCodes := len_selectWhere (fun expiresAt : Int => expiresAt ≤ a.now) a.limit _
      passkeyChallenges := by
        show _ = _ + (realSelection nullsFirst a db).passkeyChallenges.length
        rw [← h]
        exact hpasskeys
      phoneChallenges := len_firstBy (d := db.phoneChallenges) (n := a.limit) }

/-! ## Both together -/

/-- Both runs are refused alike, or the dry run leaves the tables as they are and reports what the
real run reports and deletes. -/
def Faithful (nullsFirst : Bool) (a : Sweep) (db : Database ι) : Prop :=
  (∃ e, enforceRetention nullsFirst a true db = .error e ∧
    enforceRetention nullsFirst a false db = .error e) ∨
  ∃ after dry real, enforceRetention nullsFirst a true db = .ok (db, dry) ∧
    enforceRetention nullsFirst a false db = .ok (after, real) ∧
    { dry with dryRun := false } = real ∧ Deletes db after real

/-- Arguments out of range are refused before anything is read. -/
theorem enforceRetention_invalid (nullsFirst : Bool) (db : Database ι) (ha : ¬ a.Valid) :
    ∃ e, ∀ dryRun, enforceRetention nullsFirst a dryRun db = .error e := by
  by_cases hbatch : a.batchSize < 1 ∨ 5000 < a.batchSize
  · exact ⟨_, fun _ => if_pos hbatch⟩
  · refine ⟨.value "Retention periods must be positive integers.", fun dryRun => ?_⟩
    have hdays : a.secureRetentionDays < 1 ∨ a.confidentialRetentionDays < 1 := by
      unfold Sweep.Valid at ha
      omega
    unfold enforceRetention
    rw [if_neg hbatch, if_pos hdays]

/-- **A dry run is faithful just when** the arguments are refused, or both runs overflow, or neither
does, the two batches carry the same and no deleted login takes a passkey challenge along. -/
theorem dry_run_faithful_iff (nullsFirst : Bool) (a : Sweep) (db : Database ι) :
    Faithful nullsFirst a db ↔ (a.Valid →
      a.dryOverflows = true ∧ a.realOverflows db.sessions = true ∨
      a.dryOverflows = false ∧ a.realOverflows db.sessions = false ∧
        (SameLoad nullsFirst a db db.messages ∧ SameLoad nullsFirst a db db.envelopes ∧
          SameLoad nullsFirst a db db.keyEpochs) ∧ ChallengesApart a db) := by
  by_cases ha : a.Valid
  · obtain ⟨hdry, hreal⟩ := enforceRetention_overflow nullsFirst db ha
    have hdryOk := enforceRetention_dry nullsFirst db ha
    have hrealOk := enforceRetention_real nullsFirst db ha
    rw [forall_prop_of_true ha, ← report_eq_iff ha, ← deletes_iff nullsFirst ha]
    unfold Faithful
    cases hd : a.dryOverflows with
    | true =>
        rw [hdry hd]
        cases hr : a.realOverflows db.sessions with
        | true => simp [hreal hr]
        -- the real run has a result where the dry run has none
        | false => simp [hrealOk hr]
    | false =>
        rw [hdryOk hd]
        cases hr : a.realOverflows db.sessions with
        | true => simp [hreal hr]
        | false =>
            rw [hrealOk hr]
            constructor
            · rintro (⟨e, he, -⟩ | ⟨after, dry, real, h, h', hsame, hdeletes⟩)
              · cases he
              · cases h
                cases h'
                exact .inr ⟨rfl, rfl, hsame, hdeletes⟩
            · rintro (⟨h, -⟩ | ⟨-, -, hsame, hdeletes⟩)
              · cases h
              · exact .inr ⟨_, _, _, rfl, rfl, hsame, hdeletes⟩
  · obtain ⟨e, he⟩ := enforceRetention_invalid nullsFirst db ha
    constructor
    · exact fun _ hvalid => absurd hvalid ha
    · exact fun _ => .inl ⟨e, he true, he false⟩

/-- A legacy conversation with two messages whose derived deadline was sixty days ago, and a dated
one without messages that expired ninety days ago. -/
def mixedSample : Database Nat where
  sessions := ⟨[
    (0, { ownerId := 0, securityMode := some "secure", dataClassification := "internal"
          currentCryptoEpoch := 1, retentionExpiresAt := none, createdAt := some (days 50) }),
    (1, { ownerId := 0, securityMode := some "secure", dataClassification := "internal"
          currentCryptoEpoch := 1, retentionExpiresAt := some (days 110), createdAt := some (days 20) })], by decide⟩
  messages := [0, 0]
  envelopes := []
  keyEpochs := []
  deviceChallenges := .empty
  revokedTokens := .empty
  authSessions := .empty
  preKeys := .empty
  recoveryCodes := .empty
  passkeyChallenges := .empty
  phoneChallenges := .empty

/-- One conversation a sweep. -/
def mixedSweep : Sweep where
  now := days 200
  batchSize := 1
  secureRetentionDays := 90
  confidentialRetentionDays := 7

/-- On SQLite the dry run reports the two messages of the legacy conversation; the sweep deletes the
dated one, and no message. -/
theorem dry_run_unfaithful : ¬ Faithful true mixedSweep mixedSample := by
  have hdry : ((enforceRetention true mixedSweep true mixedSample).map
      fun r => r.2.encryptedMessages) = .ok 2 := by decide +kernel
  have hreal : ((enforceRetention true mixedSweep false mixedSample).map
      fun r => r.2.encryptedMessages) = .ok 0 := by decide +kernel
  rintro (⟨e, h, -⟩ | ⟨after, dry, real, h, h', hsame, -⟩)
  · rw [h] at hdry
    cases hdry
  · rw [h] at hdry
    rw [h'] at hreal
    have htwo : dry.encryptedMessages = 2 := Except.ok.inj hdry
    have hnone : real.encryptedMessages = 0 := Except.ok.inj hreal
    rw [← hsame] at hnone
    exact absurd (htwo.symm.trans hnone) (by decide)

end Scap.Retention
