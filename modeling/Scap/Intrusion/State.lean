import Mathlib.Data.Prod.Lex
import Mathlib.Data.String.Basic
import Scap.Py.Dict

/-!
# The shared intrusion state

`PersistentIntrusionState`: for every tracked source the times of its last hits, as many for a hit
as its severity weighs, and until when it is banned; and the latest detections. A method runs in
one transaction under the writer lock, so a call is one step at one reading of the database clock.

Times are microseconds. `score_times_json` is the list it is written from.
-/

namespace Scap.Intrusion

open Scap.Py Scap.Lib

/-- A detection: what the state reads of it, and the text of `as_dict`. -/
structure Detection where
  sourceIp : String
  severity : String
  payloadJson : String
  deriving DecidableEq, Repr

/-- `IntrusionDetection`. -/
structure DetectionRow where
  id : Nat
  payloadJson : String
  deriving DecidableEq, Repr

/-- `IntrusionSource` without its key. -/
structure Source where
  scoreTimes : List Int
  lastSeenAt : Int
  blockedUntil : Option Int
  deriving DecidableEq, Repr

/-- The settings. -/
structure Settings where
  blockThreshold : Nat
  blockSeconds : Nat
  history : Nat
  maxSources : Nat
  blockThreshold_pos : 0 < blockThreshold
  blockSeconds_pos : 0 < blockSeconds
  history_pos : 0 < history
  maxSources_pos : 0 < maxSources

/-- The window of the scores and the length of a ban. -/
def Settings.block (cfg : Settings) : Int := cfg.blockSeconds * 1000000

theorem Settings.block_pos (cfg : Settings) : 0 < cfg.block := by
  have := cfg.blockSeconds_pos
  unfold Settings.block
  omega

/-- The two tables, and the next id of a detection. -/
structure IntrusionDb where
  detections : KeyedTable DetectionRow.id
  nextId : Nat
  sources : Dict String Source

/-- `_SEVERITY_WEIGHT.get(severity, 1)`. -/
def severityWeight (severity : String) : Nat :=
  if severity = "high" then 3 else if severity = "medium" then 2 else 1

namespace IntrusionDb

variable (cfg : Settings) (db : IntrusionDb) (now : Int)

/-- What `_prune_sources` deletes. -/
def stale (r : String × Source) : Bool :=
  match r.2.blockedUntil with
  | some until_ => until_ ≤ now
  | none => r.2.lastSeenAt ≤ now - cfg.block

/-- `_prune_sources`. -/
def pruneSources : IntrusionDb := { db with sources := db.sources.filter fun r => !stale cfg now r }

/-- `_retain_detection`. -/
def retainDetection (d : Detection) : IntrusionDb :=
  let detections := db.detections.insertNew ⟨db.nextId, d.payloadJson⟩
  -- `ORDER BY id DESC OFFSET history - 1 LIMIT 1`
  let detections := match detections.rows.reverse[cfg.history - 1]? with
    | some oldest => detections.filter fun r => oldest.id ≤ r.id
    | none => detections
  { db with detections := detections, nextId := db.nextId + 1 }

/-- The unblocked source that comes first by `last_seen_at, source_ip`. -/
def oldestUnblocked : Option (String × Source) :=
  let unblocked := db.sources.rows.filter fun r => r.2.blockedUntil.isNone
  (unblocked.insertionSort fun a b => toLex (a.2.lastSeenAt, a.1) ≤ toLex (b.2.lastSeenAt, b.1)).head?

/-- The score of a source with a hit: the last times inside the window. -/
def hitScores (source : Source) (weight : Nat) : List Int :=
  let cutoff := now - cfg.block
  let scores := source.scoreTimes.filter (fun stamp => cutoff < stamp) ++ List.replicate weight now
  scores.drop (scores.length - cfg.blockThreshold)

/-- A source with a hit, and whether the hit bans it. -/
def hit (source : Source) (weight : Nat) : Source × Bool :=
  let scores := hitScores cfg now source weight
  if cfg.blockThreshold ≤ scores.length ∧ source.blockedUntil = none then
    (⟨scores, now, some (now + cfg.block)⟩, true)
  else (⟨scores, now, source.blockedUntil⟩, false)

/-- A source with a hit, put back into the table. -/
def recordHit (d : Detection) (source : Source) : IntrusionDb × Bool :=
  let (source, blocked) := hit cfg now source (severityWeight d.severity)
  ({ db with sources := db.sources.set d.sourceIp source }, blocked)

/-- `_record_locked`. -/
def recordLocked (d : Detection) : IntrusionDb × Bool :=
  let db := db.retainDetection cfg d
  match db.sources.get d.sourceIp with
  | some source => db.recordHit cfg now d source
  | none =>
    if cfg.maxSources ≤ db.sources.len then
      match db.oldestUnblocked with
      | none => (db, false)
      | some oldest =>
        { db with sources := db.sources.pop oldest.1 }.recordHit cfg now d ⟨[], now, none⟩
    else db.recordHit cfg now d ⟨[], now, none⟩

/-- The loop of `_record_many_locked`. -/
def recordAll : IntrusionDb → List Detection → IntrusionDb × Bool
  | db, [] => (db, false)
  | db, d :: ds =>
    let (db, blocked) := db.recordLocked cfg now d
    let (db, newlyBlocked) := recordAll db ds
    (db, blocked || newlyBlocked)

/-- `record_many`. -/
def recordMany (ds : List Detection) : IntrusionDb × Bool :=
  if ds.isEmpty then (db, false) else recordAll cfg now (db.pruneSources cfg now) ds

/-- `is_blocked`. -/
def isBlocked (sourceIp : String) : Bool × Int :=
  match (db.sources.get sourceIp).bind Source.blockedUntil with
  | some until_ =>
    if now < until_ then (true, max 1 ((until_ - now) / 1000000)) else (false, 0)
  | none => (false, 0)

/-- `unblock`. -/
def unblock (sourceIp : String) : IntrusionDb × Bool :=
  match db.sources.get sourceIp with
  | none => (db, false)
  | some source =>
    ({ db with sources := db.sources.pop sourceIp }, source.blockedUntil.any fun until_ => now < until_)

end IntrusionDb

end Scap.Intrusion
