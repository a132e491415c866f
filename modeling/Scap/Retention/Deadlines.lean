import Mathlib.Data.Int.ConditionallyCompleteOrder
import Mathlib.Order.ConditionallyCompleteLattice.Basic
import Scap.Retention.DryRun
import Scap.Retention.Routes

/-!
# Deadlines only move down

A conversation without a deadline is due at `⊤`. A policy edit takes the minimum of what is due and
the policy's deadline (`due_tightened`), the backfill goes below `⊤`, and nothing else writes the
column of an existing row. So one step leaves no row due later than before (`tightens_step`), and
since no id is drawn twice, neither does a run (`deadline_never_later`).
-/

namespace Scap.Retention

open Scap.Lib Scap.Py Scap.Py.OrderedDict
open Scap.E2ee (HttpError Reply SecurityMode)
open Scap.Sessions (PolicyPayload DataClass)

/-- When a conversation is due, or `⊤`. -/
def ChatSession.due {ι : Type*} (row : ChatSession ι) : WithTop Int :=
  match row.retentionExpiresAt with
  | none => ⊤
  | some deadline => deadline

section Due

variable {ι : Type*} {row : ChatSession ι}

theorem due_eq_coe {d : Int} : row.due = d ↔ row.retentionExpiresAt = some d := by
  unfold ChatSession.due
  cases row.retentionExpiresAt with
  | none => simp
  | some deadline => simp

/-- Below a deadline there is one that is no later. -/
theorem due_le_coe {d : Int} (h : row.due ≤ d) :
    ∃ d', row.retentionExpiresAt = some d' ∧ d' ≤ d := by
  obtain ⟨d', hd', hle⟩ := WithTop.le_coe_iff.mp h
  exact ⟨d', due_eq_coe.mp hd', hle⟩

/-- A policy edit takes the minimum. -/
theorem due_relabel (row : ChatSession ι) (mode : SecurityMode) (d : DataClass) (policy : Int) :
    (relabel row mode d policy).due = min row.due policy := by
  unfold ChatSession.due relabel tightened
  cases row.retentionExpiresAt with
  | none => simp
  | some deadline => simp

theorem due_fillLegacy (a : Sweep) (r : ι × ChatSession ι) : (a.fillLegacy r).2.due ≤ r.2.due := by
  unfold Sweep.fillLegacy
  cases hdeadline : r.2.retentionExpiresAt with
  | none =>
      have htop : r.2.due = ⊤ := by
        unfold ChatSession.due
        rw [hdeadline]
      rw [htop]
      exact le_top
  | some deadline => exact le_refl _

end Due

/-! ## One step -/

variable {ι : Type*} {s t u : Server ι} {id : ι} {row : ChatSession ι} {c : Caller ι}

section Order

variable [DecidableEq ι]

/-- A conversation of `t` is new, or was there in `s` and is due no later. -/
structure Tightens (s t : Server ι) : Prop where
  due : ∀ {id row'}, t.db.sessions.get id = some row' → (id ∉ s.drawn ∧ id ∈ t.drawn) ∨
    ∃ row, s.db.sessions.get id = some row ∧ row'.due ≤ row.due
  drawn : s.drawn ⊆ t.drawn

theorem Tightens.refl (s : Server ι) : Tightens s s :=
  ⟨fun h => .inr ⟨_, h, le_refl _⟩, fun _ h => h⟩

theorem Tightens.trans (h : Tightens s t) (h' : Tightens t u) : Tightens s u where
  due := by
    intro id row'' hrow''
    rcases h'.due hrow'' with ⟨hnew, hid⟩ | ⟨row', hrow', hle'⟩
    · exact .inl ⟨fun hold => hnew (h.drawn hold), hid⟩
    · rcases h.due hrow' with ⟨hnew, hid⟩ | ⟨row, hrow, hle⟩
      · exact .inl ⟨hnew, h'.drawn hid⟩
      · exact .inr ⟨row, hrow, hle'.trans hle⟩
  drawn := List.Subset.trans h.drawn h'.drawn

/-- Rows that are left as they are. -/
theorem Tightens.of_le (hsessions : t.db.sessions ≤ s.db.sessions) (hdrawn : t.drawn = s.drawn) :
    Tightens s t where
  due h := .inr ⟨_, get_of_le hsessions h, le_refl _⟩
  drawn := hdrawn ▸ fun _ h => h

theorem tightens_dropSession (s : Server ι) (id : ι) : Tightens s (dropSession s id) :=
  .of_le pop_le rfl

/-- A row that is written back is due no later. -/
theorem tightens_storeSession {row' : ChatSession ι} (h : s.db.sessions.get id = some row)
    (hdue : row'.due ≤ row.due) : Tightens s (storeSession s id row') where
  due := by
    intro j x hx
    replace hx : (s.db.sessions.set id row').get j = some x := hx
    rw [get_set] at hx
    split at hx
    · next hj =>
      cases hx
      exact .inr ⟨row, hj ▸ h, hdue⟩
    · exact .inr ⟨x, hx, le_refl _⟩
  drawn := fun _ h => h

/-! ### Access -/

/-- What an access comes to: it goes on with a value, is refused, or deletes the conversation. -/
def Accessed {ρ : Type*} (s : Server ι) (id : ι) (p : ρ → Prop) (r : Server ι × Reply ρ) : Prop :=
  (∃ x, r = (s, .ok x) ∧ p x) ∨ (∃ e, r = (s, .error e)) ∨ ∃ e, r = (dropSession s id, .error e)

theorem rejectExpiredSession_cases (s : Server ι) (c : Caller ι) (id : ι) (row : ChatSession ι)
    (k : Nat) : Accessed s id (fun _ => True) (rejectExpiredSession s c id row k) := by
  unfold rejectExpiredSession
  split
  · exact .inl ⟨_, rfl, trivial⟩
  · split
    · exact .inr (.inl ⟨_, rfl⟩)
    · split
      · exact .inl ⟨_, rfl, trivial⟩
      · exact .inr (.inr ⟨_, rfl⟩)

variable (cfg : Settings)

/-- The row that an owner goes on with is the stored one. -/
theorem requireOwnedSession_cases (s : Server ι) (c : Caller ι) (id : ι) (forUpdate : Bool) :
    Accessed s id (fun row => s.db.sessions.get id = some row)
      (requireOwnedSession cfg s c id forUpdate) := by
  unfold requireOwnedSession
  cases hfilter : (s.db.sessions.get id).filter fun row => row.ownerId = c.userId with
  | none => exact .inr (.inl ⟨_, rfl⟩)
  | some row =>
      have hget : s.db.sessions.get id = some row := (Option.filter_eq_some_iff.mp hfilter).1
      dsimp only
      rcases rejectExpiredSession_cases s c id row 0 with ⟨_, h, -⟩ | ⟨e, h⟩ | ⟨e, h⟩
      · rw [h]
        dsimp only
        split
        · exact .inr (.inl ⟨_, rfl⟩)
        · have hagain : Accessed s id (fun _ => True)
              (if forUpdate then rejectExpiredSession s c id row 2 else (s, .ok ())) := by
            split
            · exact rejectExpiredSession_cases s c id row 2
            · exact .inl ⟨_, rfl, trivial⟩
          rcases hagain with ⟨_, h', -⟩ | ⟨e, h'⟩ | ⟨e, h'⟩
          · rw [h']
            dsimp only
            split
            · exact .inr (.inl ⟨_, rfl⟩)
            · exact .inl ⟨row, rfl, hget⟩
          · rw [h']
            exact .inr (.inl ⟨e, rfl⟩)
          · rw [h']
            exact .inr (.inr ⟨e, rfl⟩)
      · rw [h]
        exact .inr (.inl ⟨e, rfl⟩)
      · rw [h]
        exact .inr (.inr ⟨e, rfl⟩)

theorem requirePrivateMemberSession_cases (s : Server ι) (c : Caller ι) (id : ι) :
    Accessed s id (fun row => s.db.sessions.get id = some row)
      (requirePrivateMemberSession cfg s c id) := by
  unfold requirePrivateMemberSession
  split
  · exact .inr (.inl ⟨_, rfl⟩)
  · split
    · exact .inr (.inl ⟨_, rfl⟩)
    · next row hget =>
      split
      · exact .inr (.inl ⟨_, rfl⟩)
      · rcases rejectExpiredSession_cases s c id row 0 with ⟨_, h, -⟩ | ⟨e, h⟩ | ⟨e, h⟩
        · rw [h]
          dsimp only
          split
          · split
            · exact .inr (.inl ⟨_, rfl⟩)
            · exact .inl ⟨row, rfl, hget⟩
          · exact .inr (.inl ⟨_, rfl⟩)
        · rw [h]
          exact .inr (.inl ⟨e, rfl⟩)
        · rw [h]
          exact .inr (.inr ⟨e, rfl⟩)

theorem Accessed.tightens {ρ : Type*} {p : ρ → Prop} {r : Server ι × Reply ρ}
    (h : Accessed s id p r) : Tightens s r.1 := by
  rcases h with ⟨x, rfl, -⟩ | ⟨e, rfl⟩ | ⟨e, rfl⟩
  · exact .refl s
  · exact .refl s
  · exact tightens_dropSession s id

/-! ### Routes -/

/-- A key epoch changes the counter of the row only. -/
theorem tightens_ensureSessionKey {key : KeyOutcome} (h : s.db.sessions.get id = some row)
    (ht : ensureSessionKey s id row key = .ok t) : Tightens s t := by
  unfold ensureSessionKey at ht
  split at ht
  · cases ht
  · cases key with
    | found =>
        cases ht
        exact .refl s
    | created =>
        cases ht
        have hstored : Tightens s (storeSession s id
            { row with currentCryptoEpoch := row.currentCryptoEpoch + 1 }) :=
          tightens_storeSession h (le_refl _)
        exact hstored.trans (.of_le (le_refl _) rfl)
    | failed => cases ht

theorem tightens_switchMode {mode : SecurityMode} {key : KeyOutcome}
    (h : s.db.sessions.get id = some row) (ht : switchMode s c id row mode key = .ok t) :
    Tightens s t := by
  unfold switchMode at ht
  split at ht
  · cases ht
    exact .refl s
  · split at ht
    · have hstored : Tightens s (storeSession s id { row with currentCryptoEpoch := 1 }) :=
        tightens_storeSession h (le_refl _)
      dsimp only at ht
      split at ht
      · cases ht
        exact hstored.trans (.of_le (le_refl _) rfl)
      · cases ht
        exact hstored.trans (.of_le (le_refl _) rfl)
    · split at ht
      · dsimp only at ht
        have hstored : Tightens s (storeSession s id
            { row with currentCryptoEpoch := 0, securityMode := some (modeValue mode) }) :=
          tightens_storeSession h (le_refl _)
        refine Tightens.trans ?_ (tightens_ensureSessionKey ?_ ht)
        · exact hstored.trans (.of_le (le_refl _) rfl)
        · exact get_set_self
      · cases ht
        exact .refl s

theorem tightens_updateSessionSecurity {payload : PolicyPayload} {key : KeyOutcome} :
    Tightens s (updateSessionSecurity cfg s c id payload key).1 := by
  unfold updateSessionSecurity
  split
  · exact .refl s
  · next mode d _ =>
    rcases requireOwnedSession_cases cfg s c id true with ⟨row, h, hget⟩ | ⟨e, h⟩ | ⟨e, h⟩
    · rw [h]
      dsimp only
      split
      · exact .refl s
      · split
        · exact .refl s
        · split
          · exact .refl s
          · next switched hswitched =>
            split
            · exact .refl s
            · next row' hrow' =>
              have hdue : (relabel row' mode d (c.utcnow 4 + days (cfg.retentionDays mode))).due ≤
                  row'.due := by
                rw [due_relabel]
                exact min_le_left _ _
              exact (tightens_switchMode hget hswitched).trans (tightens_storeSession hrow' hdue)
    · rw [h]
      exact .refl s
    · rw [h]
      exact tightens_dropSession s id

/-- A new conversation has a new id. -/
theorem tightens_createSession {payload : PolicyPayload} {key : KeyOutcome} (hid : id ∉ s.drawn) :
    Tightens s (createSession cfg s c payload key id).1 := by
  have hadded : ∀ row : ChatSession ι,
      Tightens s { storeSession s id row with drawn := id :: s.drawn } := by
    intro row
    constructor
    · intro j x hx
      replace hx : (s.db.sessions.set id row).get j = some x := hx
      rw [get_set] at hx
      split at hx
      · next hj => exact .inl ⟨hj ▸ hid, hj ▸ List.mem_cons_self⟩
      · exact .inr ⟨x, hx, le_refl _⟩
    · exact List.subset_cons_self id s.drawn
  unfold createSession
  split
  · exact .refl s
  · split
    · exact .refl s
    · split
      · exact .refl s
      · dsimp only
        split
        · exact .refl s
        · split
          · exact (hadded _).trans (.of_le (le_refl _) rfl)
          · split
            · exact .refl s
            · next hkey => exact (hadded _).trans (tightens_ensureSessionKey get_set_self hkey)

theorem tightens_deleteSession : Tightens s (deleteSession cfg s c id).1 := by
  unfold deleteSession
  rcases requireOwnedSession_cases cfg s c id true with ⟨row, h, -⟩ | ⟨e, h⟩ | ⟨e, h⟩
  · rw [h]
    exact tightens_dropSession s id
  · rw [h]
    exact .refl s
  · rw [h]
    exact tightens_dropSession s id

theorem tightens_sendMessage {answer : Reply Unit} {key : KeyOutcome} :
    Tightens s (sendMessage cfg s c id answer key).1 := by
  unfold sendMessage
  rcases requireOwnedSession_cases cfg s c id true with ⟨row, h, hget⟩ | ⟨e, h⟩ | ⟨e, h⟩
  · rw [h]
    dsimp only
    split
    · exact .refl s
    · split
      · exact .refl s
      · split
        · exact .refl s
        · split
          · exact .refl s
          · next hkey => exact (tightens_ensureSessionKey hget hkey).trans (.of_le (le_refl _) rfl)
  · rw [h]
    exact .refl s
  · rw [h]
    exact tightens_dropSession s id

theorem tightens_sendE2eeEnvelope {check : Reply Unit} :
    Tightens s (sendE2eeEnvelope cfg s c id check).1 := by
  unfold sendE2eeEnvelope
  rcases requirePrivateMemberSession_cases cfg s c id with ⟨row, h, -⟩ | ⟨e, h⟩ | ⟨e, h⟩
  · rw [h]
    dsimp only
    split
    · exact .refl s
    · exact .of_le (le_refl _) rfl
  · rw [h]
    exact .refl s
  · rw [h]
    exact tightens_dropSession s id

end Order

/-! ### The sweep -/

section Swept

variable [LinearOrder ι] {nullsFirst : Bool}

/-- What the backfill makes of a conversation is due no later. -/
theorem due_backfilled {a : Sweep} {db : Database ι} {row' : ChatSession ι} (ha : a.Valid)
    (h : (backfilled a db).sessions.get id = some row') :
    ∃ row, db.sessions.get id = some row ∧ row'.due ≤ row.due := by
  have hlimit : 0 < a.limit := by
    obtain ⟨⟨hbatch, -⟩, -⟩ := ha
    unfold Sweep.limit
    omega
  have hmem : (id, row') ∈ (backfill a db.sessions).1.rows := get_eq_some.mp h
  rw [(backfill_eq _ hlimit).1] at hmem
  obtain ⟨⟨i, row⟩, hrow, hfill⟩ := List.mem_map.mp hmem
  have hid : i = id := by
    have hkey : (a.fillLegacy (i, row)).1 = i := by
      unfold Sweep.fillLegacy
      split <;> rfl
    rw [← hkey, hfill]
  subst hid
  have hdue := due_fillLegacy a (i, row)
  rw [hfill] at hdue
  exact ⟨row, get_eq_some.mpr hrow, hdue⟩

theorem tightens_sweep (a : Sweep) (dryRun : Bool) : Tightens s (sweep nullsFirst s a dryRun) := by
  unfold sweep
  by_cases ha : a.Valid
  · obtain ⟨hdry, hreal⟩ := enforceRetention_overflow nullsFirst s.db ha
    cases dryRun with
    | true =>
        cases hrange : a.dryOverflows with
        | true =>
            rw [hdry hrange]
            exact .refl s
        | false =>
            rw [enforceRetention_dry nullsFirst s.db ha hrange]
            exact .of_le (le_refl _) rfl
    | false =>
        cases hrange : a.realOverflows s.db.sessions with
        | true =>
            rw [hreal hrange]
            exact .refl s
        | false =>
            rw [enforceRetention_real nullsFirst s.db ha hrange]
            constructor
            · intro id row' hrow'
              exact .inr (due_backfilled ha (get_of_le (filter_le _) hrow'))
            · exact fun _ h => h
  · obtain ⟨e, he⟩ := enforceRetention_invalid nullsFirst s.db ha
    rw [he]
    exact .refl s

end Swept

/-! ## Runs -/

section Runs

variable [LinearOrder ι] {nullsFirst : Bool} {cfg : Settings} {a : Action ι}

/-- **A step leaves no conversation due later.** -/
theorem tightens_step (h : (serverSystem nullsFirst cfg).step s a t) : Tightens s t := by
  cases a with
  | createSession c payload key id =>
      replace h : (if id ∈ s.drawn then none else some (createSession cfg s c payload key id).1) =
        some t := h
      obtain ⟨hid, rfl⟩ := of_guarded h
      exact tightens_createSession cfg hid
  | updateSecurity c id payload key => exact Option.some.inj h ▸ tightens_updateSessionSecurity cfg
  | deleteSession c id => exact Option.some.inj h ▸ tightens_deleteSession cfg
  | sendMessage c id answer key => exact Option.some.inj h ▸ tightens_sendMessage cfg
  | sendEnvelope c id check => exact Option.some.inj h ▸ tightens_sendE2eeEnvelope cfg
  | readSession c id =>
      exact Option.some.inj h ▸ (requireOwnedSession_cases cfg s c id false).tightens
  | readPrivateSession c id =>
      exact Option.some.inj h ▸ (requirePrivateMemberSession_cases cfg s c id).tightens
  | sweep a dryRun => exact Option.some.inj h ▸ tightens_sweep a dryRun

theorem tightens_run {as : List (Action ι)} (h : (serverSystem nullsFirst cfg).Run s as t) :
    Tightens s t :=
  h.mono Tightens.refl (fun _ _ _ => Tightens.trans) fun _ _ _ => tightens_step

/-- The id of every conversation is a drawn one. -/
theorem drawn_of_reachable (h : (serverSystem nullsFirst cfg).Reachable s)
    (hrow : s.db.sessions.get id = some row) : id ∈ s.drawn := by
  obtain ⟨s₀, as, hinit, hrun⟩ := h
  have htightens := tightens_run hrun
  rcases htightens.due hrow with ⟨-, hid⟩ | ⟨row₀, hrow₀, -⟩
  · exact hid
  · exact htightens.drawn (hinit id (List.mem_map_of_mem (get_eq_some.mp hrow₀)))

/-- **A deadline that is set never moves later and is never cleared**, as long as the conversation
is there; and once it is gone, its id is not used again. -/
theorem deadline_never_later (hs : (serverSystem nullsFirst cfg).Reachable s)
    {as : List (Action ι)} (hrun : (serverSystem nullsFirst cfg).Run s as t) {d : Int}
    (hrow : s.db.sessions.get id = some row) (hd : row.retentionExpiresAt = some d) :
    t.db.sessions.get id = none ∨ ∃ row' d', t.db.sessions.get id = some row' ∧
      row'.retentionExpiresAt = some d' ∧ d' ≤ d := by
  cases hget : t.db.sessions.get id with
  | none => exact .inl rfl
  | some row' =>
      rcases (tightens_run hrun).due hget with ⟨hnew, -⟩ | ⟨row₀, hrow₀, hdue⟩
      · exact absurd (drawn_of_reachable hs hrow) hnew
      · rw [hrow] at hrow₀
        cases hrow₀
        obtain ⟨d', hd', hle⟩ := due_le_coe (hdue.trans (le_of_eq (due_eq_coe.mpr hd)))
        exact .inr ⟨row', d', rfl, hd', hle⟩

end Runs

/-! ## A run -/

def sampleSettings : Settings where
  highSecurity := false
  maxSessionsPerUser := 10
  maxMessagesPerSession := 100
  secureRetentionDays := 90
  confidentialRetentionDays := 7

/-- Account 5 at a fixed time. -/
def sampleCaller (now : Int) : Caller Nat where
  userId := 5
  mfaEnabled := false
  refusal := none
  utcnow := fun _ => now

/-- After an upgrade: one conversation without a deadline. -/
def upgradedServer : Server Nat where
  db := { mixedSample with
    sessions := ⟨[(0, { ownerId := 5, securityMode := some "secure", dataClassification := "internal"
                        currentCryptoEpoch := 0, retentionExpiresAt := none
                        createdAt := some 0 })], by decide⟩
    messages := [] }
  members := []
  drawn := [0]

/-- A sweep gives the conversation its deadline. -/
def sampleBackfill : List (Action Nat) := [.sweep { mixedSweep with now := days 50 } false]

/-- Then its owner makes it confidential, and a sweep finds it not yet expired. -/
def sampleEdit : List (Action Nat) := [
  .updateSecurity (sampleCaller (days 60)) 0 ⟨"confidential", "confidential"⟩ .found,
  .sweep { mixedSweep with now := days 65 } false]

def backfilledServer : Server Nat :=
  (System.exec (stepServer true sampleSettings) upgradedServer sampleBackfill).get
    (by decide +kernel)

def editedServer : Server Nat :=
  (System.exec (stepServer true sampleSettings) backfilledServer sampleEdit).get
    (by decide +kernel)

/-- The deadline of the conversation in the two states. -/
theorem sampleDeadlines :
    (backfilledServer.db.sessions.get 0).bind (·.retentionExpiresAt) = some (days 90) ∧
      (editedServer.db.sessions.get 0).bind (·.retentionExpiresAt) = some (days 67) := by
  decide +kernel

theorem reachable_backfilledServer :
    (serverSystem true sampleSettings).Reachable backfilledServer := by
  have hinit : ∀ id ∈ upgradedServer.db.sessions.rows.map Prod.fst, id ∈ upgradedServer.drawn := by
    decide
  exact ⟨upgradedServer, sampleBackfill, hinit, System.run_of_exec (Option.some_get _).symm⟩

theorem run_editedServer :
    (serverSystem true sampleSettings).Run backfilledServer sampleEdit editedServer :=
  System.run_of_exec (Option.some_get _).symm

theorem deadline_never_later_sample : editedServer.db.sessions.get 0 = none ∨
    ∃ row' d', editedServer.db.sessions.get 0 = some row' ∧
      row'.retentionExpiresAt = some d' ∧ d' ≤ days 90 := by
  obtain ⟨row, hrow, hd⟩ := Option.bind_eq_some_iff.mp sampleDeadlines.1
  exact deadline_never_later reachable_backfilledServer run_editedServer hrow hd

end Scap.Retention
