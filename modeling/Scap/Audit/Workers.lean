import Scap.Audit.Tamper

/-!
# Workers that anchor

`anchorSystem` lets any number of workers run `anchor`, `maybe_anchor` and
`ensure_latest_anchored`, one `SELECT`, delivery or `INSERT` at a time, while the application appends
events. The sink and the database may fail wherever they are used, a worker may die anywhere, and
between calls an attacker may replace both tables.

* `planAnchor_eq` — the parts of a call that nobody interrupts are `_anchor`;
* `progress_of_quiet` — what a step of a worker can change;
* `Signs.cleared` — the checkpoint of an event verifies wherever the event is.
-/

namespace Scap.Audit.Anchoring

open Scap.Py Scap.Lib

/-! ## The calls -/

/-- Which method has called `_anchor`. -/
inductive Entry where
  | anchor
  | maybeAnchor
  | ensureLatestAnchored (probeExternal : Bool)
  deriving DecidableEq, Repr

/-- How far a call has come. -/
inductive Phase where
  /-- Nothing read yet. -/
  | begun
  /-- `verify_latest` has read the newest checkpoint. -/
  | checking (head : AuditCheckpoint)
  /-- The newest checkpoint is intact. -/
  | checkingHistory (head : AuditCheckpoint)
  /-- The earlier checkpoints are intact. -/
  | verified
  /-- The latest event has been read. -/
  | read (latest : AuditRow)
  /-- Signed and not delivered. -/
  | signed (c : AuditCheckpoint)
  /-- Delivered and not inserted. -/
  | delivered (c : AuditCheckpoint)
  /-- `ensure_latest_anchored` verifies once more. -/
  | reporting
  deriving DecidableEq, Repr

structure Call where
  worker : Nat
  entry : Entry
  phase : Phase
  deriving DecidableEq, Repr

structure State where
  events : AuditTable
  checkpoints : CheckpointTable
  calls : KeyedTable Call.worker

/-- How `db.commit()` and `db.refresh()` end, but for an `IntegrityError`. -/
inductive Commit where
  | persisted
  | commitFailed
  | refreshFailed
  deriving DecidableEq, Repr

/-- What the surroundings contribute to the next part of a call: the clock, the answer of the sink,
the fate of the transaction, and whether a probe is due. -/
structure Surroundings where
  now : Int
  answer : Option Digest
  commit : Commit
  probeDue : Bool

inductive CallError where
  | anchor (e : AnchorError)
  | delivery
  | unavailable
  deriving DecidableEq, Repr

inductive Reply where
  | pending
  | nothing
  | checkpoint (c : AuditCheckpoint)
  | report (v : CheckpointVerification)
  | failed (e : CallError)
  deriving DecidableEq, Repr

inductive Action where
  /-- `INSERT` of an event, whatever its hash columns. -/
  | append (id : Int) (e : AuditEvent) (now : Int)
  /-- The attacker replaces both tables. -/
  | rewrite (events : AuditTable) (checkpoints : CheckpointTable)
  | anchor (worker : Nat)
  | maybeAnchor (worker : Nat) (eventId : Int)
  | ensureLatestAnchored (worker : Nat) (probeExternal backoff : Bool)
  /-- The next part of a call. -/
  | advance (worker : Nat) (x : Surroundings)
  /-- The worker dies. -/
  | abandon (worker : Nat)

def State.enter (s : State) (worker : Nat) (entry : Entry) : State :=
  { s with calls := s.calls.insertNew ⟨worker, entry, .begun⟩ }

/-- The call of one worker goes on to a phase. -/
def setPhase (worker : Nat) (phase : Phase) (call : Call) : Call :=
  if call.worker = worker then { call with phase := phase } else call

theorem worker_setPhase (worker : Nat) (phase : Phase) (call : Call) :
    (setPhase worker phase call).worker = call.worker := by
  unfold setPhase
  split <;> rfl

def State.goto (s : State) (worker : Nat) (phase : Phase) : State :=
  { s with calls := s.calls.modify (setPhase worker phase) (worker_setPhase worker phase) }

def State.finish (s : State) (worker : Nat) : State :=
  { s with calls := s.calls.filter fun call => call.worker ≠ worker }

/-- After `_anchor`, `ensure_latest_anchored` goes on and the other two return. -/
def State.conclude (s : State) (call : Call) : State :=
  match call.entry with
  | .ensureLatestAnchored _ => s.goto call.worker .reporting
  | _ => s.finish call.worker

section Model

variable (d : Deployment)

/-- The part of `verify_latest` about the checkpoints before the newest one. -/
def historyIntact (events : AuditTable) (checkpoints : CheckpointTable) (head : AuditCheckpoint) :
    Bool :=
  (checkpoints.rows.filter fun c => c.lastEventId < head.lastEventId).all fun c =>
    reasonIn d.hmac d.service events c = none

/-- `verify_latest(db).intact` once the newest checkpoint has been read. -/
def headIntact (events : AuditTable) (checkpoints : CheckpointTable) (head : AuditCheckpoint) :
    Bool :=
  decide (reasonIn d.hmac d.service events head = none) && historyIntact d events checkpoints head

/-- `_anchor` between the latest event and the signature. -/
def planLatest (now : Int) (latest : AuditRow) (checkpoints : CheckpointTable) :
    Except AnchorError AnchorPlan :=
  match latest.event.entryHash with
  | none => .ok .nothing
  | some hash =>
    if hash = "" then .ok .nothing
    else if validSha256Digest (some hash) = false then
      .error (.integrity "The latest audit event hash is invalid.")
    else match checkpoints.find? latest.id with
      | some existing => .ok (.existing existing)
      | none =>
        let checkpointId := d.uuid5 (Int.repr latest.id ++ ":" ++ hash)
        let createdAt := latest.event.createdAt.getD (.ofUtc now)
        match canonicalCheckpoint checkpointId latest.id hash createdAt with
        | none => .error .invalidFields
        | some payload => .ok (.fresh {
            id := checkpointId
            lastEventId := latest.id
            rootHash := hash
            signature := signCheckpoint d.hmac d.service.key payload
            externalReceipt := none
            deliveredAt := none
            createdAt := createdAt })

/-- `_deliver` as `_anchor` uses it. -/
def deliver (x : Surroundings) (c : AuditCheckpoint) : Option AuditCheckpoint :=
  if d.service.endpoint = true then
    x.answer.map fun response => { c with
      externalReceipt := some ("sha256:" ++ hexdigest response)
      deliveredAt := some (.ofUtc x.now) }
  else some c

/-- The `INSERT` of `_anchor`. -/
def persist (x : Surroundings) (checkpoints : CheckpointTable) (c : AuditCheckpoint) :
    CheckpointTable × Except AnchorError AuditCheckpoint :=
  match x.commit with
  | .persisted => commitAnchor d.service d.dialect checkpoints c
  | .commitFailed => (checkpoints, .error .notPersisted)
  | .refreshFailed => ((commitAnchor d.service d.dialect checkpoints c).1, .error .notPersisted)

/-- The end of `ensure_latest_anchored`. -/
def report (s : State) (probeExternal : Bool) (x : Surroundings) : Reply :=
  let verification := verifyLatest d.hmac d.service s.events s.checkpoints
  if probeExternal && d.service.endpoint && verification.fullyAnchored && x.probeDue &&
      x.answer.isNone then .failed .delivery
  else .report verification

/-- The next part of a call. -/
def advance (s : State) (call : Call) (x : Surroundings) : State × Reply :=
  match call.phase with
  | .begun =>
    match s.checkpoints.last? with
    | none => (s.goto call.worker .verified, .pending)
    | some head => (s.goto call.worker (.checking head), .pending)
  | .checking head =>
    if reasonIn d.hmac d.service s.events head = none then
      (s.goto call.worker (.checkingHistory head), .pending)
    else (s.finish call.worker,
      .failed (.anchor (.integrity "The existing audit checkpoint is not intact.")))
  | .checkingHistory head =>
    if historyIntact d s.events s.checkpoints head then (s.goto call.worker .verified, .pending)
    else (s.finish call.worker,
      .failed (.anchor (.integrity "The existing audit checkpoint is not intact.")))
  | .verified =>
    match s.events.last? with
    | none => (s.conclude call, .nothing)
    | some latest => (s.goto call.worker (.read latest), .pending)
  | .read latest =>
    match planLatest d x.now latest s.checkpoints with
    | .error e => (s.finish call.worker, .failed (.anchor e))
    | .ok .nothing => (s.conclude call, .nothing)
    | .ok (.existing c) => (s.conclude call, .checkpoint c)
    | .ok (.fresh c) => (s.goto call.worker (.signed c), .pending)
  | .signed c =>
    match deliver d x c with
    | none => (s.finish call.worker, .failed .delivery)
    | some c => (s.goto call.worker (.delivered c), .pending)
  | .delivered c =>
    let persisted := persist d x s.checkpoints c
    let s' : State := { s with checkpoints := persisted.1 }
    match persisted.2 with
    | .error e => (s'.finish call.worker, .failed (.anchor e))
    | .ok c => (s'.conclude call, .checkpoint c)
  | .reporting =>
    match call.entry with
    | .ensureLatestAnchored probeExternal => (s.finish call.worker, report d s probeExternal x)
    | _ => (s.finish call.worker, .pending)

/-- `interval` is the number of new events after which `maybe_anchor` anchors. -/
def perform (interval : Int) (s : State) : Action → State × Reply
  | .append id e now =>
    match s.events.insert? ⟨id, e.stored d.dialect now⟩ with
    | none => (s, .pending)
    | some events => ({ s with events := events }, .pending)
  | .rewrite events checkpoints =>
    ({ s with events := events, checkpoints := checkpoints }, .pending)
  | .anchor worker => (s.enter worker .anchor, .pending)
  | .maybeAnchor worker eventId =>
    if eventId - s.checkpoints.last?.elim 0 AuditCheckpoint.lastEventId < interval then
      (s, .nothing)
    else (s.enter worker .maybeAnchor, .pending)
  | .ensureLatestAnchored worker probeExternal backoff =>
    if probeExternal && d.service.endpoint && backoff then (s, .failed .unavailable)
    else
      let verification := verifyLatest d.hmac d.service s.events s.checkpoints
      if verification.latestEventId = none then (s, .report verification)
      else if verification.fullyAnchored = true then
        ({ s with calls := s.calls.insertNew ⟨worker, .ensureLatestAnchored probeExternal,
          .reporting⟩ }, .pending)
      else (s.enter worker (.ensureLatestAnchored probeExternal), .pending)
  | .advance worker x =>
    match s.calls.find? worker with
    | none => (s, .pending)
    | some call => advance d s call x
  | .abandon worker => (s.finish worker, .pending)

/-- `created_at` is not null and holds what the column returns. -/
def Stamped (r : AuditRow) : Prop :=
  ∃ x, r.event.createdAt = some x ∧ d.dialect.stored x = x

/-- The attacker acts between calls, and on tables the schema allows. -/
def Admissible (s : State) : Action → Prop
  | .rewrite events _ => s.calls.rows = [] ∧ ∀ r ∈ events.rows, Stamped d r
  | _ => True

/-- Application, workers and attacker, from empty tables. -/
def anchorSystem (interval : Int) : System State Action where
  init s := s = ⟨.empty, .empty, .empty⟩
  step s a t := Admissible d s a ∧ t = (perform d interval s a).1

/-- The id, root hash and signature of the checkpoint of an event. -/
def checkpointFields (eventId : Int) (hash : String) (createdAt : DateTime) :
    Option (String × String × String) :=
  let id := d.uuid5 (Int.repr eventId ++ ":" ++ hash)
  (canonicalCheckpoint id eventId hash createdAt).map fun payload =>
    (id, hash, signCheckpoint d.hmac d.service.key payload)

end Model

/-- Everybody but the attacker. -/
def Action.honest : Action → Prop
  | .rewrite _ _ => False
  | _ => True

/-- No event is appended and nothing is rewritten. -/
def Action.quiet : Action → Prop
  | .append _ _ _ => False
  | .rewrite _ _ => False
  | _ => True

variable {d : Deployment} {interval : Int} {s t u : State} {events : AuditTable}
  {checkpoints : CheckpointTable} {c : AuditCheckpoint} {r latest : AuditRow} {call : Call}
  {x : Surroundings} {a : Action}

/-! ## The parts of a call are `_anchor` -/

theorem cleared_of_historyIntact {head : AuditCheckpoint}
    (h : historyIntact d events checkpoints head = true) (hc : c ∈ checkpoints.rows)
    (hlt : c.lastEventId < head.lastEventId) : reasonIn d.hmac d.service events c = none := by
  have hmem : c ∈ checkpoints.rows.filter fun c => c.lastEventId < head.lastEventId :=
    List.mem_filter.mpr ⟨hc, decide_eq_true hlt⟩
  exact of_decide_eq_true (List.all_eq_true.mp h c hmem)

/-- `headIntact` is what `verify_latest` reports. -/
theorem verifyLatest_intact : (verifyLatest d.hmac d.service events checkpoints).intact =
    checkpoints.last?.elim false (headIntact d events checkpoints) := by
  cases hlast : checkpoints.last? with
  | none => simp [verifyLatest, hlast]
  | some head =>
      show _ = headIntact d events checkpoints head
      rw [Bool.eq_iff_iff]
      constructor
      · intro h
        apply Bool.and_eq_true_iff.mpr
        refine ⟨decide_eq_true (reasonIn_of_intact h (List.mem_of_getLast? hlast)), ?_⟩
        refine List.all_eq_true.mpr fun c hc => decide_eq_true ?_
        exact reasonIn_of_intact h (List.mem_filter.mp hc).1
      · intro h
        obtain ⟨hhead, hhistory⟩ := Bool.and_eq_true_iff.mp h
        refine intact_of_reasonIn hlast fun c hc => ?_
        rcases KeyedTable.eq_or_lt_last hlast hc with rfl | hlt
        · exact of_decide_eq_true hhead
        · exact cleared_of_historyIntact hhistory hc hlt

/-- A call that nobody interrupts decides as `planAnchor` does. -/
theorem planAnchor_eq (now : Int) :
    planAnchor d.hmac d.service d.uuid5 now events checkpoints =
      if checkpoints.last?.any (fun head => !headIntact d events checkpoints head) then
        .error (.integrity "The existing audit checkpoint is not intact.")
      else events.last?.elim (.ok .nothing) fun latest => planLatest d now latest checkpoints := by
  have hguard : ((verifyLatest d.hmac d.service events checkpoints).present = true ∧
      (verifyLatest d.hmac d.service events checkpoints).intact = false) ↔
      checkpoints.last?.any (fun head => !headIntact d events checkpoints head) = true := by
    rw [verifyLatest_intact]
    cases hlast : checkpoints.last? with
    | none => simp [verifyLatest, hlast]
    | some head =>
        have hpresent : (verifyLatest d.hmac d.service events checkpoints).present = true := by
          unfold verifyLatest
          simp only [hlast]
          split
          · rfl
          · split <;> rfl
        simp [hpresent]
  unfold planAnchor
  simp only [hguard]
  split
  · rfl
  · cases events.last? with
    | none => rfl
    | some latest => rfl

/-! ## What one step does -/

/-- How the phase of one call can follow another. -/
def Follows (d : Deployment) (s : State) : Phase → Phase → Prop
  | .begun, .checking head => s.checkpoints.last? = some head
  | .begun, .verified => s.checkpoints.last? = none
  | .checking head, .checkingHistory head' =>
      head' = head ∧ reasonIn d.hmac d.service s.events head = none
  | .checkingHistory head, .verified => historyIntact d s.events s.checkpoints head = true
  | .verified, .read latest => s.events.last? = some latest
  | .read latest, .signed c => ∃ now, planLatest d now latest s.checkpoints = .ok (.fresh c)
  | .signed c, .delivered c' => ∃ x, deliver d x c = some c'
  | _, .reporting => True
  | _, _ => False

/-- A step that leaves the events alone. -/
structure Progress (d : Deployment) (s t : State) : Prop where
  events : t.events = s.events
  checkpoints : t.checkpoints = s.checkpoints ∨ ∃ call ∈ s.calls.rows, ∃ c,
    call.phase = .delivered c ∧
      t.checkpoints = (commitAnchor d.service d.dialect s.checkpoints c).1
  calls : ∀ call' ∈ t.calls.rows, call' ∈ s.calls.rows ∨ call'.phase = .begun ∨
    call'.phase = .reporting ∨
    ∃ call ∈ s.calls.rows, call.worker = call'.worker ∧ Follows d s call.phase call'.phase

theorem Progress.refl : Progress d s s := ⟨rfl, .inl rfl, fun _ h => .inl h⟩

theorem mem_finish {worker : Nat} (h : call ∈ (s.finish worker).calls.rows) :
    call ∈ s.calls.rows ∧ call.worker ≠ worker := by
  obtain ⟨hmem, hne⟩ := KeyedTable.mem_filter.mp h
  exact ⟨hmem, of_decide_eq_true hne⟩

theorem mem_goto {worker : Nat} {phase : Phase} (h : call ∈ (s.goto worker phase).calls.rows) :
    call ∈ s.calls.rows ∨ call.worker = worker ∧ call.phase = phase := by
  obtain ⟨old, hold, rfl⟩ := List.mem_map.mp h
  unfold setPhase
  split
  · next hworker => exact .inr ⟨hworker, rfl⟩
  · exact .inl hold

theorem progress_finish {worker : Nat} : Progress d s (s.finish worker) :=
  ⟨rfl, .inl rfl, fun _ h => .inl (mem_finish h).1⟩

theorem progress_goto {phase : Phase} (hcall : call ∈ s.calls.rows)
    (h : Follows d s call.phase phase) : Progress d s (s.goto call.worker phase) := by
  refine ⟨rfl, .inl rfl, fun call' hmem => ?_⟩
  rcases mem_goto hmem with hold | ⟨hworker, hphase⟩
  · exact .inl hold
  · exact .inr (.inr (.inr ⟨call, hcall, hworker.symm, hphase ▸ h⟩))

theorem mem_conclude {call' : Call} (h : call' ∈ (s.conclude call).calls.rows) :
    call' ∈ s.calls.rows ∨ call'.phase = .reporting := by
  unfold State.conclude at h
  split at h
  · rcases mem_goto h with hold | ⟨-, hphase⟩
    · exact .inl hold
    · exact .inr hphase
  · exact .inl (mem_finish h).1

theorem conclude_tables : (s.conclude call).events = s.events ∧
    (s.conclude call).checkpoints = s.checkpoints := by
  unfold State.conclude
  split <;> exact ⟨rfl, rfl⟩

theorem progress_conclude : Progress d s (s.conclude call) :=
  ⟨conclude_tables.1, .inl conclude_tables.2, fun _ h => (mem_conclude h).imp_right
    fun hphase => .inr (.inl hphase)⟩

theorem persist_table : (persist d x checkpoints c).1 = checkpoints ∨
    (persist d x checkpoints c).1 = (commitAnchor d.service d.dialect checkpoints c).1 := by
  unfold persist
  split
  · exact .inr rfl
  · exact .inl rfl
  · exact .inr rfl

theorem progress_advance (hcall : call ∈ s.calls.rows) :
    Progress d s (advance d s call x).1 := by
  unfold advance
  split
  · next hphase =>
    split
    · next hlast => exact progress_goto hcall (by rw [hphase]; exact hlast)
    · next head hlast => exact progress_goto hcall (by rw [hphase]; exact hlast)
  · next head hphase =>
    split
    · next hintact => exact progress_goto hcall (by rw [hphase]; exact ⟨rfl, hintact⟩)
    · exact progress_finish
  · next head hphase =>
    split
    · next hintact => exact progress_goto hcall (by rw [hphase]; exact hintact)
    · exact progress_finish
  · next hphase =>
    split
    · exact progress_conclude
    · next latest hlast => exact progress_goto hcall (by rw [hphase]; exact hlast)
  · next latest hphase =>
    split
    · exact progress_finish
    · exact progress_conclude
    · exact progress_conclude
    · next c hplan => exact progress_goto hcall (by rw [hphase]; exact ⟨_, hplan⟩)
  · next c hphase =>
    split
    · exact progress_finish
    · next c' hdeliver => exact progress_goto hcall (by rw [hphase]; exact ⟨_, hdeliver⟩)
  · next c hphase =>
    -- the only part that touches a table
    have htable : (persist d x s.checkpoints c).1 = s.checkpoints ∨ ∃ call ∈ s.calls.rows, ∃ c',
        call.phase = .delivered c' ∧ (persist d x s.checkpoints c).1 =
          (commitAnchor d.service d.dialect s.checkpoints c').1 :=
      persist_table.imp_right fun h => ⟨call, hcall, c, hphase, h⟩
    dsimp only
    split
    · exact ⟨rfl, htable, fun call' h => .inl (mem_finish h).1⟩
    · refine ⟨conclude_tables.1, ?_, fun call' h => ?_⟩
      · rw [conclude_tables.2]
        exact htable
      · exact (mem_conclude h).imp_right fun hphase => .inr (.inl hphase)
  · split
    · exact progress_finish
    · exact progress_finish

theorem progress_enter {worker : Nat} {entry : Entry} : Progress d s (s.enter worker entry) := by
  refine ⟨rfl, .inl rfl, fun call' h => ?_⟩
  rcases KeyedTable.mem_insertNew_or h with rfl | hold
  · exact .inr (.inl rfl)
  · exact .inl hold

theorem progress_of_quiet (ha : a.quiet) : Progress d s (perform d interval s a).1 := by
  cases a with
  | append id e now => exact ha.elim
  | rewrite events checkpoints => exact ha.elim
  | anchor worker => exact progress_enter
  | maybeAnchor worker eventId =>
      unfold perform
      dsimp only
      split
      · exact Progress.refl
      · exact progress_enter
  | ensureLatestAnchored worker probeExternal backoff =>
      unfold perform
      dsimp only
      split
      · exact Progress.refl
      · split
        · exact Progress.refl
        · split
          · refine ⟨rfl, .inl rfl, fun call' h => ?_⟩
            rcases KeyedTable.mem_insertNew_or h with rfl | hold
            · exact .inr (.inr (.inl rfl))
            · exact .inl hold
          · exact progress_enter
  | advance worker x =>
      unfold perform
      dsimp only
      split
      · exact Progress.refl
      · next call hfind => exact progress_advance (KeyedTable.find?_eq_some hfind).1
  | abandon worker => exact progress_finish

/-- An `INSERT` of an event, or nothing. -/
theorem perform_append (id : Int) (e : AuditEvent) (now : Int) :
    (perform d interval s (.append id e now)).1 = s ∨
      ∃ events, s.events.insert? ⟨id, e.stored d.dialect now⟩ = some events ∧
        (perform d interval s (.append id e now)).1 = { s with events := events } := by
  unfold perform
  dsimp only
  split
  · exact .inl rfl
  · next events hinsert => exact .inr ⟨events, hinsert, rfl⟩

/-! ## The checkpoint of an event -/

/-- Every checkpoint verifies against the events. -/
def Cleared (d : Deployment) (events : AuditTable) (checkpoints : CheckpointTable) : Prop :=
  ∀ c ∈ checkpoints.rows, reasonIn d.hmac d.service events c = none

/-- `c` is the checkpoint of the event `r`. -/
structure Signs (d : Deployment) (r : AuditRow) (c : AuditCheckpoint) : Prop where
  event : r.id = c.lastEventId
  hash : r.event.entryHash = some c.rootHash
  createdAt : r.event.createdAt = some c.createdAt
  fields : checkpointFields d r.id c.rootHash c.createdAt = some (c.id, c.rootHash, c.signature)

/-- With an endpoint the sink has acknowledged the checkpoint. -/
def Receipted (d : Deployment) (c : AuditCheckpoint) : Prop :=
  d.service.endpoint = true →
    (∃ response, c.externalReceipt = some ("sha256:" ++ hexdigest response)) ∧
      c.deliveredAt.isSome = true

theorem reasonIn_mono (h : reasonIn d.hmac d.service events c = none) {events' : AuditTable}
    (hsub : ∀ r ∈ events.rows, r ∈ events'.rows) :
    reasonIn d.hmac d.service events' c = none := by
  obtain ⟨r, -, hfind, -⟩ := reasonIn_eq_none h
  obtain ⟨hmem, hid⟩ := KeyedTable.find?_eq_some hfind
  have hfind' : events'.find? c.lastEventId = some r :=
    KeyedTable.find?_iff.mpr ⟨hsub r hmem, hid⟩
  unfold reasonIn at h ⊢
  rwa [hfind', ← hfind]

/-- The checkpoint of an event verifies wherever that event is in the table. -/
theorem Signs.cleared (h : Signs d r c) (hr : r ∈ events.rows) :
    reasonIn d.hmac d.service events c = none := by
  obtain ⟨payload, hpayload, hfields⟩ := Option.map_eq_some_iff.mp h.fields
  simp only [Prod.mk.injEq, true_and] at hfields
  obtain ⟨hid, hsignature⟩ := hfields
  rw [hid, h.event] at hpayload
  have hroot : validSha256Digest (some c.rootHash) = true := by
    unfold canonicalCheckpoint at hpayload
    split at hpayload
    · cases hpayload
    · next hvalid => exact Bool.not_eq_false _ ▸ (not_or.mp hvalid).2
  have hsigned : validSha256Digest (some c.signature) = true := by
    rw [← hsignature]
    exact validSha256Digest_hexdigest _
  have hfind : events.find? c.lastEventId = some r := KeyedTable.find?_iff.mpr ⟨hr, h.event⟩
  have htext : c.payload = some payload := hpayload
  unfold reasonIn integrityReason
  simp [hfind, hroot, htext, hsigned, hsignature, h.hash]

theorem Signs.stored (h : Signs d r c) (hr : Stamped d r) : Signs d r (c.stored d.dialect) := by
  obtain ⟨x, hx, hstored⟩ := hr
  obtain rfl : x = c.createdAt := Option.some.inj (hx.symm.trans h.createdAt)
  refine ⟨h.event, h.hash, ?_, ?_⟩
  · show r.event.createdAt = some (d.dialect.stored c.createdAt)
    rw [hstored, hx]
  · show checkpointFields d r.id c.rootHash (d.dialect.stored c.createdAt) = _
    rw [hstored]
    exact h.fields

theorem Receipted.stored (h : Receipted d c) : Receipted d (c.stored d.dialect) := by
  intro hendpoint
  obtain ⟨hreceipt, hdelivered⟩ := h hendpoint
  refine ⟨hreceipt, ?_⟩
  show (c.deliveredAt.map d.dialect.stored).isSome = true
  rwa [Option.isSome_map]

/-- What `_anchor` signs is the checkpoint of the event it has read. -/
theorem signs_of_plan {now : Int} (hr : Stamped d latest)
    (h : planLatest d now latest checkpoints = .ok (.fresh c)) : Signs d latest c := by
  obtain ⟨x, hx, -⟩ := hr
  unfold planLatest at h
  split at h
  · cases h
  · next hash hhash =>
    split at h
    · cases h
    · split at h
      · cases h
      · split at h
        · cases h
        · rw [hx, Option.getD_some] at h
          dsimp only at h
          split at h
          · cases h
          · next payload hpayload =>
            cases h
            refine ⟨rfl, hhash, hx, ?_⟩
            show (canonicalCheckpoint _ _ _ _).map _ = _
            rw [hpayload]
            rfl

theorem planLatest_existing {now : Int}
    (h : planLatest d now latest checkpoints = .ok (.existing c)) :
    c ∈ checkpoints.rows ∧ c.lastEventId = latest.id := by
  unfold planLatest at h
  split at h
  · cases h
  · split at h
    · cases h
    · split at h
      · cases h
      · split at h
        · next existing hfind =>
          cases h
          exact KeyedTable.find?_eq_some hfind
        · dsimp only at h
          split at h <;> cases h

/-- Delivery adds the receipt and nothing else. -/
theorem deliver_spec {c' : AuditCheckpoint} (h : deliver d x c = some c') (hr : Signs d r c) :
    Signs d r c' ∧ Receipted d c' ∧ c'.lastEventId = c.lastEventId := by
  unfold deliver at h
  split at h
  · obtain ⟨response, hanswer, rfl⟩ := Option.map_eq_some_iff.mp h
    exact ⟨⟨hr.event, hr.hash, hr.createdAt, hr.fields⟩, fun _ => ⟨⟨response, rfl⟩, rfl⟩, rfl⟩
  · next hendpoint =>
    cases h
    exact ⟨hr, fun h => absurd h hendpoint, rfl⟩

end Scap.Audit.Anchoring
