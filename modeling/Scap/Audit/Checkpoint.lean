import Scap.Audit.Chain

/-!
# Signed checkpoints

A checkpoint signs the id and hash of the last audit event. `planAnchor` is `_anchor` up to the
signature, `commitAnchor` what it does after delivery, and `verifyLatest` the check of every
checkpoint that is still present.

* `reasonIn_of_intact` — an intact report clears every checkpoint of the table;
* `reasonIn_eq_none` — what it means for one checkpoint to be cleared;
* `payload_injective` — the signed text determines the signed fields.
-/

namespace Scap.Audit

open Scap.Py Scap.Lib

/-- A row of `audit_checkpoints`. -/
structure AuditCheckpoint where
  id : String
  lastEventId : Int
  rootHash : String
  signature : String
  externalReceipt : Option String
  deliveredAt : Option DateTime
  createdAt : DateTime
  deriving DecidableEq, Repr

/-- The table `audit_checkpoints`; `last_event_id` is unique. -/
abbrev CheckpointTable := KeyedTable AuditCheckpoint.lastEventId

/-- `canonical_checkpoint`; `none` is its `ValueError`. -/
def canonicalCheckpoint (checkpointId : String) (lastEventId : Int) (rootHash : String)
    (createdAt : DateTime) : Option String :=
  if lastEventId < 1 ∨ validSha256Digest (some rootHash) = false then none
  else some (dumps [
    ("format", .str "scap-audit-checkpoint-v1"),
    ("checkpoint_id", .str checkpointId),
    ("last_event_id", .int lastEventId),
    ("root_hash", .str rootHash),
    ("created_at", .str (canonicalDatetime (some createdAt)))])

/-- `sign_checkpoint`. -/
def signCheckpoint (hmac : HmacSha256) (key : ByteArray) (payload : String) : String :=
  hexdigest (hmac key payload.toUTF8)

/-- The text a checkpoint row is signed under. -/
def AuditCheckpoint.payload (c : AuditCheckpoint) : Option String :=
  canonicalCheckpoint c.id c.lastEventId c.rootHash c.createdAt

/-- Two checkpoints agree on everything the signature covers. -/
structure SameSigned (c d : AuditCheckpoint) : Prop where
  id : c.id = d.id
  lastEventId : c.lastEventId = d.lastEventId
  rootHash : c.rootHash = d.rootHash
  createdAt : canonicalDatetime (some c.createdAt) = canonicalDatetime (some d.createdAt)

theorem payload_eq_some {c : AuditCheckpoint} {text : String} (h : c.payload = some text) :
    ∃ fields, text = dumps fields ∧ sortKeys fields = [
      ("checkpoint_id", .str c.id),
      ("created_at", .str (canonicalDatetime (some c.createdAt))),
      ("format", .str "scap-audit-checkpoint-v1"),
      ("last_event_id", .int c.lastEventId),
      ("root_hash", .str c.rootHash)] := by
  unfold AuditCheckpoint.payload canonicalCheckpoint at h
  split at h
  · cases h
  · refine ⟨_, (Option.some.inj h).symm, ?_⟩
    simp [sortKeys, List.insertionSort, List.orderedInsert]

/-- The signed text determines the signed fields. -/
theorem payload_injective {c d : AuditCheckpoint} {text : String} (hc : c.payload = some text)
    (hd : d.payload = some text) : SameSigned c d := by
  obtain ⟨fc, hfc, hsc⟩ := payload_eq_some hc
  obtain ⟨fd, hfd, hsd⟩ := payload_eq_some hd
  have hkeys : (sortKeys fc).map Prod.fst = (sortKeys fd).map Prod.fst := by
    simp only [hsc, hsd, List.map_cons, List.map_nil]
  have hm := dumps_cancel hkeys (by rw [← hfc, ← hfd])
  rw [hsc, hsd] at hm
  simp only [List.cons.injEq, Prod.mk.injEq, true_and, and_true, Scalar.str.injEq,
    Scalar.int.injEq] at hm
  exact ⟨hm.1, hm.2.2.1, hm.2.2.2, hm.2.1⟩

/-- Agreeing on the signed fields is agreeing on the text. -/
theorem SameSigned.payload_eq {c d : AuditCheckpoint} (h : SameSigned c d) :
    c.payload = d.payload := by
  unfold AuditCheckpoint.payload canonicalCheckpoint
  rw [h.id, h.lastEventId, h.rootHash, h.createdAt]

/-! ## Verification -/

/-- `CheckpointVerification`. -/
structure CheckpointVerification where
  present : Bool
  intact : Bool
  externallyDelivered : Bool
  lastEventId : Option Int
  latestEventId : Option Int
  unanchoredEvents : Nat
  fresh : Bool
  fullyAnchored : Bool
  reason : Option String
  rootHash : Option String
  failedCheckpointId : Option String
  failedCheckpointEventId : Option Int
  deriving DecidableEq, Repr

/-- The parts of `AuditCheckpointService` the local operations read. -/
structure AuditCheckpointService where
  key : ByteArray
  maxUnanchoredEvents : Nat
  /-- Whether a WORM endpoint is configured. -/
  endpoint : Bool

section Verify

variable (hmac : HmacSha256) (service : AuditCheckpointService)

/-- `_integrity_reason`. -/
def integrityReason (checkpoint : AuditCheckpoint) (eventId : Option Int)
    (entryHash : Option String) : Option String :=
  if eventId = none then some "anchored_event_missing"
  else if validSha256Digest (some checkpoint.rootHash) = false then
    some "checkpoint_root_mismatch"
  else match checkpoint.payload with
    | none => some "checkpoint_fields_invalid"
    | some payload =>
      if validSha256Digest (some checkpoint.signature) = false ∨
          signCheckpoint hmac service.key payload ≠ checkpoint.signature then
        some "checkpoint_signature_mismatch"
      else if validSha256Digest entryHash = false ∨ entryHash ≠ some checkpoint.rootHash then
        some "checkpoint_root_mismatch"
      else none

/-- `_integrity_reason` of a checkpoint against the event it names. -/
def reasonIn (events : AuditTable) (checkpoint : AuditCheckpoint) : Option String :=
  let event := events.find? checkpoint.lastEventId
  integrityReason hmac service checkpoint (event.map AuditRow.id)
    (event.bind fun r => r.event.entryHash)

/-- `verify_latest`. -/
def verifyLatest (events : AuditTable) (checkpoints : CheckpointTable) : CheckpointVerification :=
  let latestEventId := events.last?.map AuditRow.id
  match checkpoints.last? with
  | none => {
      present := false, intact := false, externallyDelivered := false
      lastEventId := none, latestEventId := latestEventId
      unanchoredEvents := events.rows.length
      fresh := false, fullyAnchored := false
      reason := some "missing_checkpoint", rootHash := none
      failedCheckpointId := none, failedCheckpointEventId := none }
  | some checkpoint =>
    let unanchored := events.rows.countP fun r => checkpoint.lastEventId < r.id
    let delivered := checkpoint.deliveredAt.isSome &&
      checkpoint.externalReceipt.elim false fun receipt => receipt ≠ ""
    let failed (c : AuditCheckpoint) (reason : String) : CheckpointVerification := {
      present := true, intact := false, externallyDelivered := delivered
      lastEventId := some checkpoint.lastEventId, latestEventId := latestEventId
      unanchoredEvents := unanchored
      fresh := false, fullyAnchored := false
      reason := some reason, rootHash := none
      failedCheckpointId := some c.id, failedCheckpointEventId := some c.lastEventId }
    match reasonIn hmac service events checkpoint with
    | some reason => failed checkpoint reason
    | none =>
      let history := checkpoints.rows.filter fun c => c.lastEventId < checkpoint.lastEventId
      match history.findSome? fun c => (reasonIn hmac service events c).map fun m => (c, m) with
      | some (previous, reason) => failed previous ("historical_" ++ reason)
      | none => {
          present := true, intact := true, externallyDelivered := delivered
          lastEventId := some checkpoint.lastEventId, latestEventId := latestEventId
          unanchoredEvents := unanchored
          fresh := unanchored ≤ service.maxUnanchoredEvents
          fullyAnchored := delivered && unanchored == 0
          reason := none, rootHash := some checkpoint.rootHash
          failedCheckpointId := none, failedCheckpointEventId := none }

end Verify

variable {hmac : HmacSha256} {service : AuditCheckpointService} {events : AuditTable}
  {checkpoints : CheckpointTable} {c : AuditCheckpoint}

/-- An intact report clears every checkpoint, not only the latest. -/
theorem reasonIn_of_intact (h : (verifyLatest hmac service events checkpoints).intact = true)
    (hc : c ∈ checkpoints.rows) : reasonIn hmac service events c = none := by
  unfold verifyLatest at h
  dsimp only at h
  split at h
  · cases h
  · next last hlast =>
    split at h
    · cases h
    · next hreason =>
      split at h
      · cases h
      · next hhistory =>
        rcases KeyedTable.eq_or_lt_last hlast hc with rfl | hlt
        · exact hreason
        · have hmem : c ∈ checkpoints.rows.filter fun d => d.lastEventId < last.lastEventId :=
            List.mem_filter.mpr ⟨hc, by simpa using hlt⟩
          exact Option.map_eq_none_iff.mp (List.findSome?_eq_none_iff.mp hhistory c hmem)

/-- Conversely, a report is intact when there is a checkpoint and all are cleared. -/
theorem intact_of_reasonIn {last : AuditCheckpoint} (hlast : checkpoints.last? = some last)
    (h : ∀ c ∈ checkpoints.rows, reasonIn hmac service events c = none) :
    (verifyLatest hmac service events checkpoints).intact = true := by
  have hmem : last ∈ checkpoints.rows := List.mem_of_getLast? hlast
  have hhistory : ((checkpoints.rows.filter fun c => c.lastEventId < last.lastEventId).findSome?
      fun c => (reasonIn hmac service events c).map fun m => (c, m)) = none :=
    List.findSome?_eq_none_iff.mpr fun c hc => by
      rw [h c (List.mem_filter.mp hc).1]
      rfl
  unfold verifyLatest
  simp only [hlast, h last hmem, hhistory]

/-- What it takes for a checkpoint to be cleared. -/
theorem reasonIn_eq_none (h : reasonIn hmac service events c = none) :
    ∃ r payload, events.find? c.lastEventId = some r ∧ r.event.entryHash = some c.rootHash ∧
      c.payload = some payload ∧ signCheckpoint hmac service.key payload = c.signature := by
  unfold reasonIn integrityReason at h
  dsimp only at h
  split at h
  · cases h
  · next hevent =>
    obtain ⟨r, hr⟩ : ∃ r, events.find? c.lastEventId = some r := by
      cases hfind : events.find? c.lastEventId with
      | none => exact absurd (by rw [hfind]; rfl) hevent
      | some r => exact ⟨r, rfl⟩
    split at h
    · cases h
    · split at h
      · cases h
      · next payload hpayload =>
        split at h
        · cases h
        · next hsignature =>
          split at h
          · cases h
          · next hhash =>
            refine ⟨r, payload, hr, ?_, hpayload, not_not.mp (not_or.mp hsignature).2⟩
            have := not_not.mp (not_or.mp hhash).2
            rwa [hr] at this

/-! ## Anchoring -/

/-- The exceptions `_anchor` raises itself. -/
inductive AnchorError where
  | integrity (message : String)
  | invalidFields
  | notPersisted
  deriving DecidableEq, Repr

/-- What `_anchor` has decided before it delivers anything. -/
inductive AnchorPlan where
  | nothing
  | existing (c : AuditCheckpoint)
  | fresh (c : AuditCheckpoint)
  deriving DecidableEq, Repr

section Anchor

variable (hmac : HmacSha256) (service : AuditCheckpointService)

/-- `_anchor` up to the signature. `uuid5` is `uuid.uuid5` in the checkpoint namespace. -/
def planAnchor (uuid5 : String → String) (now : Int) (events : AuditTable)
    (checkpoints : CheckpointTable) : Except AnchorError AnchorPlan :=
  let previous := verifyLatest hmac service events checkpoints
  if previous.present = true ∧ previous.intact = false then
    .error (.integrity "The existing audit checkpoint is not intact.")
  else match events.last? with
    | none => .ok .nothing
    | some latest =>
      match latest.event.entryHash with
      | none => .ok .nothing
      | some hash =>
        if hash = "" then .ok .nothing
        else if validSha256Digest (some hash) = false then
          .error (.integrity "The latest audit event hash is invalid.")
        else match checkpoints.find? latest.id with
          | some existing => .ok (.existing existing)
          | none =>
            let checkpointId := uuid5 (Int.repr latest.id ++ ":" ++ hash)
            let createdAt := latest.event.createdAt.getD (.ofUtc now)
            match canonicalCheckpoint checkpointId latest.id hash createdAt with
            | none => .error .invalidFields
            | some payload => .ok (.fresh {
                id := checkpointId
                lastEventId := latest.id
                rootHash := hash
                signature := signCheckpoint hmac service.key payload
                externalReceipt := none
                deliveredAt := none
                createdAt := createdAt })

/-- A checkpoint as the database returns it. -/
def AuditCheckpoint.stored (dialect : Dialect) (c : AuditCheckpoint) : AuditCheckpoint :=
  { c with
    deliveredAt := c.deliveredAt.map dialect.stored
    createdAt := dialect.stored c.createdAt }

/-- `_anchor` from the `INSERT` on: the table afterwards, and the checkpoint it returns. A conflict
is accepted if another worker has inserted the same checkpoint. -/
def commitAnchor (dialect : Dialect) (checkpoints : CheckpointTable) (c : AuditCheckpoint) :
    CheckpointTable × Except AnchorError AuditCheckpoint :=
  let inserted :=
    if checkpoints.rows.any fun d => d.id = c.id then none
    else checkpoints.insert? (c.stored dialect)
  match inserted with
  | some checkpoints' => (checkpoints', .ok (c.stored dialect))
  | none =>
    match checkpoints.find? c.lastEventId with
    | some concurrent =>
      if concurrent.id = c.id ∧ concurrent.rootHash = c.rootHash ∧
          concurrent.signature = c.signature ∧
          (service.endpoint = false ∨ concurrent.deliveredAt.isSome = true) then
        (checkpoints, .ok concurrent)
      else (checkpoints, .error .notPersisted)
    | none => (checkpoints, .error .notPersisted)

end Anchor

variable {uuid5 : String → String} {now : Int} {dialect : Dialect}

/-- A fresh checkpoint signs the last event. -/
theorem planAnchor_fresh
    (h : planAnchor hmac service uuid5 now events checkpoints = .ok (.fresh c)) :
    ∃ last payload, events.last? = some last ∧ last.id = c.lastEventId ∧
      last.event.entryHash = some c.rootHash ∧
      c.createdAt = last.event.createdAt.getD (.ofUtc now) ∧
      c.payload = some payload ∧ c.signature = signCheckpoint hmac service.key payload := by
  unfold planAnchor at h
  dsimp only at h
  split at h
  · cases h
  · split at h
    · cases h
    · next last hlast =>
      split at h
      · cases h
      · next hash hhash =>
        split at h
        · cases h
        · split at h
          · cases h
          · split at h
            · cases h
            · split at h
              · cases h
              · next payload hpayload =>
                cases h
                exact ⟨last, payload, hlast, rfl, hhash, rfl, hpayload, rfl⟩

/-- Committing adds at most the one row. -/
theorem mem_commitAnchor {d : AuditCheckpoint}
    (h : d ∈ (commitAnchor service dialect checkpoints c).1.rows) :
    d = c.stored dialect ∨ d ∈ checkpoints.rows := by
  unfold commitAnchor at h
  dsimp only at h
  split at h
  · next inserted hinserted =>
    split at hinserted
    · cases hinserted
    · exact (KeyedTable.mem_insert? hinserted).mp h
  · split at h
    · split at h <;> exact .inr h
    · exact .inr h

end Scap.Audit
