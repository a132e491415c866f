import Mathlib.Data.Rat.Floor
import Scap.Lib.Buckets
import Scap.Py.OrderedDict

/-!
# `AvailabilityMonitor`

The responses of the last minute are counted in a ring of sixty buckets, one for each second. Of the
denials of anonymous requests one a minute is sampled for each kind of event, and the next sample
reports how many were suppressed.

Readings of the clock are rational numbers. The mean of the latencies, the one float that a snapshot
reports, is left out.
-/

namespace Scap.Availability

open Scap.Py Scap.Lib

/-! ## Responses -/

/-- `_STATUS_LABELS`. -/
def statusLabels : List String := ["1xx", "2xx", "3xx", "4xx", "5xx", "unanswered"]

/-- `_LATENCY_LABELS`. -/
def latencyLabels : List String :=
  ["0_100", "100_500", "500_1000", "1000_5000", "5000_10000", "10000_plus"]

/-- `_REJECTION_LABELS`. -/
def rejectionLabels : List String := ["request_rate", "request_capacity", "request_source_capacity",
  "rate_backend_unavailable", "password_capacity", "security_dependency_unavailable",
  "readiness_dependency", "ai_capacity_or_quota", "gradio_unavailable", "anonymous_rate_denials",
  "other"]

/-- `_AUDIT_SAMPLE_LABELS`. -/
def auditSampleLabels : List String := ["auth.login", "auth.register",
  "auth.password_reset.request", "auth.password_reset", "auth.passkey.login", "other"]

/-- The arguments of `observe_response`. -/
structure Response where
  statusCode : Option Int
  /-- `elapsed_seconds * 1000`, if that is finite. -/
  elapsedMs : Option ℚ
  streaming : Bool
  deriving DecidableEq

/-- `status_index`. -/
def Response.statusIndex (r : Response) : Fin 6 :=
  match r.statusCode with
  | some code => if 100 ≤ code ∧ code ≤ 599 then Fin.ofNat 6 (code / 100 - 1).toNat else 5
  | none => 5

/-- `latency_ms`. -/
def Response.latencyMs (r : Response) : ℚ :=
  match r.elapsedMs with
  | some ms => if ms < 0 then 0 else ms
  | none => 0

/-- The first of `_LATENCY_BOUNDS_MS` that is not exceeded. -/
def Response.latencyIndex (r : Response) : Fin 6 :=
  if r.latencyMs ≤ 100 then 0
  else if r.latencyMs ≤ 500 then 1
  else if r.latencyMs ≤ 1000 then 2
  else if r.latencyMs ≤ 5000 then 3
  else if r.latencyMs ≤ 10000 then 4
  else 5

def Response.throttled (r : Response) : Bool := r.statusCode = some 429 || r.statusCode = some 503

/-- Latencies are counted for answers only. -/
def Response.answered (r : Response) : Bool := r.statusIndex ≠ 5

/-! ## Counts -/

/-- What a `_ResponseBucket` counts. -/
structure Tallies where
  statuses : Fin 6 → Nat
  kinds : Bool → Nat
  latencies : Fin 6 → Nat
  throttled : Nat

namespace Tallies

def zero : Tallies := ⟨fun _ => 0, fun _ => 0, fun _ => 0, 0⟩

/-- `counts[index] += 1`. -/
def bump {ι : Type} [DecidableEq ι] (counts : ι → Nat) (index : ι) : ι → Nat :=
  Function.update counts index (counts index + 1)

/-- What `observe_response` does to the bucket of its second. -/
def observe (t : Tallies) (r : Response) : Tallies where
  statuses := bump t.statuses r.statusIndex
  kinds := bump t.kinds r.streaming
  latencies := if r.answered then bump t.latencies r.latencyIndex else t.latencies
  throttled := if r.throttled then t.throttled + 1 else t.throttled

/-- The sums over some buckets. -/
def sum (buckets : List (Bucket Tallies)) : Tallies where
  statuses i := (buckets.map fun b => b.content.statuses i).sum
  kinds streaming := (buckets.map fun b => b.content.kinds streaming).sum
  latencies i := (buckets.map fun b => b.content.latencies i).sum
  throttled := (buckets.map fun b => b.content.throttled).sum

end Tallies

/-! ## The monitor -/

structure AvailabilityMonitor where
  counts : OrderedDict String Nat
  /-- `none` is minus infinity. -/
  lastEmit : Option ℚ
  sinceEmit : Nat
  auditSamples : OrderedDict String (ℚ × Nat)
  responseBuckets : Fin 60 → Bucket Tallies

structure Alert where
  code : String
  severity : String
  count : Nat
  deriving DecidableEq, Repr

/-- What `snapshot` returns. -/
structure Snapshot where
  rejections : OrderedDict String Nat
  anonymousAuditSuppressed : Nat
  requests : Nat
  responses : Nat
  statusClasses : List (String × Nat)
  regular : Nat
  stream : Nat
  latencyBucketsMs : List (String × Nat)
  throttledResponses : Nat
  slowResponses : Nat
  alerts : List Alert

/-- The details of an `availability.overload` event. -/
structure Summary where
  rejectionsSincePreviousSummary : Nat
  reason : String
  deriving DecidableEq, Repr

namespace AvailabilityMonitor

def start : AvailabilityMonitor where
  counts := .empty
  lastEmit := none
  sinceEmit := 0
  auditSamples := .empty
  responseBuckets := fun _ => ⟨-1, .zero⟩

variable (m : AvailabilityMonitor) (now : ℚ)

/-- `self._counts[label] = self._counts.get(label, 0) + 1`. -/
def countLabel (label : String) : OrderedDict String Nat :=
  m.counts.set label ((m.counts.get label).getD 0 + 1)

/-- `observe_response`. -/
def observeResponse (r : Response) : AvailabilityMonitor :=
  { m with responseBuckets := Buckets.record .zero Tallies.observe m.responseBuckets ⌊now⌋ r }

/-- `reject`, and the event it emits. -/
def reject (reason : String) : AvailabilityMonitor × Option Summary :=
  let reason := if reason ∈ rejectionLabels then reason else "other"
  let m := { m with counts := m.countLabel reason, sinceEmit := m.sinceEmit + 1 }
  if m.lastEmit.any fun last => now - last < 60 then (m, none)
  else ({ m with sinceEmit := 0, lastEmit := some now }, some ⟨m.sinceEmit, reason⟩)

/-- `sample_anonymous_audit`. -/
def sampleAnonymousAudit (eventType : String) : AvailabilityMonitor × Option Nat :=
  let eventType := if eventType ∈ auditSampleLabels then eventType else "other"
  let m := { m with counts := m.countLabel "anonymous_rate_denials" }
  -- without an entry the last sample is infinitely long ago
  match m.auditSamples.get eventType with
  | some (last, suppressed) =>
    if now - last < 60 then
      ({ m with auditSamples := m.auditSamples.set eventType (last, suppressed + 1) }, none)
    else ({ m with auditSamples := m.auditSamples.set eventType (now, 0) }, some suppressed)
  | none => ({ m with auditSamples := m.auditSamples.set eventType (now, 0) }, some 0)

/-- The counts that are still to be reported. -/
def suppressed : Nat := (m.auditSamples.values.map Prod.snd).sum

/-- The counts of the last minute. -/
def recent : Tallies := .sum (Buckets.window m.responseBuckets ⌊now⌋)

/-- The alerts. `responses * 0.1` and `responses * 0.2` are rounded, but not past an integer. -/
def alerts (t : Tallies) (responses slow : Nat) : List Alert :=
  (if 5 ≤ t.throttled then [⟨"http_overload", "medium", t.throttled⟩] else []) ++
  (if 5 ≤ t.statuses 4 ∧ responses ≤ 10 * t.statuses 4 then
    [⟨"http_server_errors", "high", t.statuses 4⟩] else []) ++
  (if 5 ≤ t.statuses 5 then [⟨"http_unanswered", "medium", t.statuses 5⟩] else []) ++
  (if 20 ≤ responses ∧ responses ≤ 5 * slow then [⟨"http_slow_headers", "medium", slow⟩] else [])

/-- `snapshot`. -/
def snapshot : Snapshot :=
  let t := m.recent now
  let requests := ((List.finRange 6).map t.statuses).sum
  let responses := requests - t.statuses 5
  let slow := t.latencies 3 + t.latencies 4 + t.latencies 5
  { rejections := m.counts
    anonymousAuditSuppressed := m.suppressed
    requests := requests
    responses := responses
    statusClasses := statusLabels.zip ((List.finRange 6).map t.statuses)
    regular := t.kinds false
    stream := t.kinds true
    latencyBucketsMs := latencyLabels.zip ((List.finRange 6).map t.latencies)
    throttledResponses := t.throttled
    slowResponses := slow
    alerts := alerts t responses slow }

end AvailabilityMonitor

/-! ## Calls -/

inductive Call where
  | observeResponse (now : ℚ) (r : Response)
  | reject (now : ℚ) (reason : String)
  | sampleAnonymousAudit (now : ℚ) (eventType : String)

namespace AvailabilityMonitor

def call (m : AvailabilityMonitor) : Call → AvailabilityMonitor
  | .observeResponse now r => m.observeResponse now r
  | .reject now reason => (m.reject now reason).1
  | .sampleAnonymousAudit now eventType => (m.sampleAnonymousAudit now eventType).1

/-- What is left after some calls. -/
def after (m : AvailabilityMonitor) (calls : List Call) : AvailabilityMonitor := calls.foldl call m

/-- What the denials among the calls are answered: the suppressed count of a sample, or nothing. -/
def answers : AvailabilityMonitor → List Call → List (Option Nat)
  | _, [] => []
  | m, .sampleAnonymousAudit now eventType :: calls =>
    (m.sampleAnonymousAudit now eventType).2 ::
      answers (m.sampleAnonymousAudit now eventType).1 calls
  | m, .observeResponse now r :: calls => answers (m.observeResponse now r) calls
  | m, .reject now reason :: calls => answers (m.reject now reason).1 calls

end AvailabilityMonitor

/-- The observation that a call makes. -/
def Call.observation? : Call → Option (ℚ × Response)
  | .observeResponse now r => some (now, r)
  | _ => none

/-- The observations of some calls, with their times. -/
def observations (calls : List Call) : List (ℚ × Response) := calls.filterMap Call.observation?

/-- The last sixty of the seconds, of which the current one is the last. -/
def InWindow (now time : ℚ) : Prop := ⌊now⌋ - 60 < ⌊time⌋ ∧ ⌊time⌋ ≤ ⌊now⌋

instance (now time : ℚ) : Decidable (InWindow now time) := inferInstanceAs (Decidable (_ ∧ _))

end Scap.Availability
