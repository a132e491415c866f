import Scap.Audit.Chain
import Scap.Lib.Run
import Mathlib.Data.List.TakeWhile

/-!
# Sealer, verifier and repair tool agree

`recordAudits` is the only writer of the audit table. `batchSystem` is the table under a sequence of
its batches, the sealing key being configured or not from one batch to the next.

* `consistent_of_reachable` — every table so reached is consistent;
* `sealer_verifier_repair_agree` — what the verifier therefore says of it, and what the repair tool
  does to any table whatever.
-/

namespace Scap.Audit

open Scap.Py Scap.Lib

/-! ## `record_audits` -/

/-- What a caller of `record_audits` passes for one event. `detailsJson` is `safe_json(details)`
and `sampledOut` the verdict of the anonymous-denial sampler. -/
structure AuditSpec where
  eventType : String
  actorId : Option String
  targetType : Option String
  targetId : Option String
  outcome : String
  detailsJson : String
  sampledOut : Bool
  deriving DecidableEq, Repr

/-- What the request contributes to every event. -/
structure RequestContext where
  clientIp : String
  userAgent : Option String
  requestId : Option String
  deriving DecidableEq, Repr

/-- `s[:n]`. -/
def truncate (n : Nat) (s : String) : String := String.ofList (s.toList.take n)

/-- `value[:n] if value else None`. -/
def truncateOrNone (n : Nat) (s : Option String) : Option String :=
  s.bind fun v => if v = "" then none else some (truncate n v)

/-- `_prepare_audit`. -/
def prepareAudit (request : RequestContext) (spec : AuditSpec) : Option AuditEvent :=
  if spec.sampledOut then none
  else some {
    actorId := spec.actorId
    eventType := truncate 64 spec.eventType
    targetType := truncateOrNone 32 spec.targetType
    targetId := truncateOrNone 64 spec.targetId
    outcome := truncate 16 spec.outcome
    ipAddress := some request.clientIp
    userAgent := request.userAgent
    requestId := request.requestId
    detailsJson := spec.detailsJson
    createdAt := none
    prevHash := none
    entryHash := none }

/-- An event about to be inserted, with the clock it is inserted at and the gap the id sequence
shows before it. -/
structure Insertion where
  event : AuditEvent
  now : Int
  gap : Nat

/-- One insertion of a batch: sealed on the table so far when a key is configured. -/
def insertEvent (hmac : HmacSha256) (dialect : Dialect) (key : Option ByteArray) (t : AuditTable)
    (i : Insertion) : AuditTable :=
  match key with
  | none => append dialect i.now t i.gap i.event
  | some k => append dialect i.now t i.gap (sealEvent hmac k t i.now i.event)

/-- A call of `record_audits`: the request, the specs in order, and for each of them the clock and
the id gap its insertion will see. -/
structure Batch where
  request : RequestContext
  specs : List (AuditSpec × Int × Nat)

/-- The list `prepared` of `record_audits`. -/
def Batch.prepared (b : Batch) : List Insertion :=
  b.specs.filterMap fun s => (prepareAudit b.request s.1).map fun e => ⟨e, s.2.1, s.2.2⟩

/-- `record_audits`, committed. -/
def recordAudits (hmac : HmacSha256) (dialect : Dialect) (key : Option ByteArray) (t : AuditTable)
    (b : Batch) : AuditTable :=
  b.prepared.foldl (insertEvent hmac dialect key) t

/-- The audit table under batches; a label says whether the key is configured for its batch. -/
def batchSystem (hmac : HmacSha256) (dialect : Dialect) (key : ByteArray) :
    System AuditTable (Bool × Batch) where
  init t := t = KeyedTable.empty
  step t b t' := t' = recordAudits hmac dialect (if b.1 then some key else none) t b.2

/-! ## Every reachable table is consistent -/

section Reachable

variable {hmac : HmacSha256} {dialect : Dialect} {key : ByteArray} {t : AuditTable}

/-- A prepared event carries no hash and no time yet. -/
theorem prepared_fresh {b : Batch} {i : Insertion} (h : i ∈ b.prepared) :
    i.event.entryHash = none ∧ i.event.StampedUtc := by
  obtain ⟨s, -, hs⟩ := List.mem_filterMap.mp h
  obtain ⟨e, he, rfl⟩ := Option.map_eq_some_iff.mp hs
  unfold prepareAudit at he
  split at he
  · cases he
  · cases he
    exact ⟨rfl, fun d hd => by cases hd⟩

/-- Either way of inserting a fresh event keeps the table consistent. -/
theorem consistent_insertEvent {sealing : Bool} {i : Insertion}
    (hfresh : i.event.entryHash = none ∧ i.event.StampedUtc)
    (h : Consistent hmac key GENESIS_HASH t.rows) :
    Consistent hmac key GENESIS_HASH
      (insertEvent hmac dialect (if sealing then some key else none) t i).rows := by
  cases sealing with
  | false => exact consistent_append.mpr ⟨h, continues_of_unsealed hfresh.1, trivial⟩
  | true =>
      refine consistent_append.mpr ⟨h, ?_, trivial⟩
      rw [← lastHash_of_consistent h]
      exact continues_sealEvent hfresh.2

theorem consistent_recordAudits {sealing : Bool} {b : Batch}
    (h : Consistent hmac key GENESIS_HASH t.rows) :
    Consistent hmac key GENESIS_HASH
      (recordAudits hmac dialect (if sealing then some key else none) t b).rows := by
  have hfresh := fun i (hi : i ∈ b.prepared) => prepared_fresh hi
  unfold recordAudits
  generalize b.prepared = prepared at hfresh
  induction prepared generalizing t with
  | nil => exact h
  | cons i is ih =>
      exact ih (consistent_insertEvent (hfresh i List.mem_cons_self) h)
        fun j hj => hfresh j (List.mem_cons_of_mem _ hj)

theorem consistent_of_reachable (h : (batchSystem hmac dialect key).Reachable t) :
    Consistent hmac key GENESIS_HASH t.rows := by
  refine System.Reachable.induct (I := fun t => Consistent hmac key GENESIS_HASH t.rows) ?_ ?_ h
  · rintro t rfl
    trivial
  · rintro t ⟨sealing, b⟩ t' - ht rfl
    exact consistent_recordAudits ht

end Reachable

/-! ## The repair tool on any table -/

/-- The number of rows before the first unsealed one. -/
def sealedPrefix (t : AuditTable) : Nat := (t.rows.takeWhile AuditRow.isSealed).length

theorem take_sealedPrefix (t : AuditTable) :
    t.rows.take (sealedPrefix t) = t.rows.takeWhile AuditRow.isSealed :=
  (List.prefix_iff_eq_take.mp (List.takeWhile_prefix _)).symm

/-- **Sealer, verifier and repair agree.** Part one: over every sequence of batches and for every
`limit`, `verify_chain` finds no mismatch, is strictly intact exactly on rows that are all sealed,
and counts what a plain count counts. Part two: on every table, `reseal_unsealed` raises and changes
nothing, or touches only unsealed rows and leaves a table that is strictly intact exactly when the
sealed prefix was. -/
theorem sealer_verifier_repair_agree (hmac : HmacSha256) (dialect : Dialect) (key : ByteArray) :
    (∀ t, (batchSystem hmac dialect key).Reachable t → ∀ limit : Option Nat,
      (verifyChain hmac key t limit false).intact = true ∧
      (verifyChain hmac key t limit false).reason = none ∧
      ((verifyChain hmac key t limit true).intact = true ↔
        ∀ r ∈ limit.elim t.rows t.rows.take, r.event.entryHash ≠ none) ∧
      ∀ strict, Counts (verifyChain hmac key t limit strict) (limit.elim t.rows t.rows.take)) ∧
    ∀ (t : AuditTable) (now : Int),
      ((∃ id, resealUnsealed hmac key dialect now t = (t, .error id)) ∨
        ∃ t' n, resealUnsealed hmac key dialect now t = (t', .ok n) ∧
          List.Forall₂ (fun r r' : AuditRow =>
            r'.id = r.id ∧ (r.event.entryHash ≠ none → r' = r)) t.rows t'.rows ∧
          ((verifyChain hmac key t' none true).intact = true ↔
            (verifyChain hmac key t (some (sealedPrefix t)) true).intact = true)) := by
  refine ⟨fun t ht limit => ?_, fun t now => ?_⟩
  · have hcons : Consistent hmac key GENESIS_HASH (limit.elim t.rows t.rows.take) := by
      cases limit with
      | none => exact consistent_of_reachable ht
      | some n => exact (consistent_of_reachable ht).take n
    have hcounts := verifyRows_of_consistent hcons
    have hintact : (verifyChain hmac key t limit false).intact = true :=
      (hcounts false).2.1.mpr (by simp)
    refine ⟨hintact, ?_, ?_, fun strict => (hcounts strict).1⟩
    · have hreason := (hcounts false).2.2
      rwa [show (verifyRows hmac key (limit.elim t.rows t.rows.take) false).intact = true
        from hintact, if_pos rfl] at hreason
    · refine (hcounts true).2.1.trans ?_
      simp [AuditRow.isSealed, Option.isSome_iff_ne_none]
  · unfold resealUnsealed
    split
    · next id _ => exact .inl ⟨id, rfl⟩
    · next hgap =>
      obtain ⟨hiff, hall⟩ := consistent_resealRows hmac key dialect now GENESIS_HASH hgap
      refine .inr ⟨_, _, rfl, resealRows_forall₂, ?_⟩
      refine Iff.trans (verifyRows_strict.trans ?_) verifyRows_strict.symm
      rw [Option.elim_some, take_sealedPrefix]
      refine ⟨fun h => ⟨hiff.mp h.1, fun r hr => List.mem_takeWhile_imp hr⟩, fun h => ?_⟩
      exact ⟨hiff.mpr h.1, hall⟩

/-! ### A table that was begun without a key -/

/-- The start of the application, as it is audited. -/
def startedBatch (now : Int) : Batch where
  request := ⟨"127.0.0.1", none, none⟩
  specs := [(⟨"app.started", none, none, none, "success", "\x7b\x7d", false⟩, now, 0)]

/-- A code that is the same for every message. -/
def constantHmac : HmacSha256 := fun _ _ => ⟨List.replicate 32 1, List.length_replicate⟩

/-- One start before the key was configured and one after it. -/
def begunTable : AuditTable :=
  recordAudits constantHmac .sqlite (some .empty)
    (recordAudits constantHmac .sqlite none .empty (startedBatch 0)) (startedBatch 1)

theorem reachable_begunTable : (batchSystem constantHmac .sqlite .empty).Reachable begunTable :=
  ⟨.empty, [(false, startedBatch 0), (true, startedBatch 1)], rfl,
    System.Run.snoc (System.Run.single rfl) rfl⟩

/-- The first row was not sealed, which only the strict verification reports. -/
theorem sealer_verifier_repair_agree_sample :
    (verifyChain constantHmac .empty begunTable none false).intact = true ∧
      (verifyChain constantHmac .empty begunTable none true).intact = false := by
  obtain ⟨hruns, -⟩ := sealer_verifier_repair_agree constantHmac .sqlite .empty
  obtain ⟨hintact, -, hstrict, -⟩ := hruns begunTable reachable_begunTable none
  have hunsealed : ∃ r ∈ begunTable.rows, r.event.entryHash = none := by decide +kernel
  refine ⟨hintact, Bool.eq_false_iff.mpr fun h => ?_⟩
  obtain ⟨r, hr, hnone⟩ := hunsealed
  exact hstrict.mp h r hr hnone

end Scap.Audit
