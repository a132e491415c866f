import Mathlib.Data.Prod.Lex
import Mathlib.Data.String.Basic
import Scap.Lib.Batch
import Scap.Py.OrderedDict

/-!
# `enforce_retention`

The tables a sweep reads, with the columns it looks at, and the sweep itself, which is one
transaction. A table's rows stand in the order in which the database yields them where no
`ORDER BY` says another. `ι` is the type of the primary keys.

Times are microseconds since 1970. A `datetime` ends with the year 9999 and begins with the year 1, and
a sum or a difference outside of it raises `OverflowError`: the dry run subtracts the periods from the
time of the sweep, and the real run adds them to the times of the rows that it backfills, so they do
not raise it together. `nullsFirst` says where the database sorts a missing deadline: SQLite first,
PostgreSQL last.
-/

namespace Scap.Retention

open Scap.Lib Scap.Py

/-- `timedelta(days=n)`. -/
def days (n : Int) : Int := n * 86400000000

/-- `datetime.min`. -/
def minTime : Int := -62135596800000000

/-- `datetime.max`. -/
def maxTime : Int := 253402300799999999

/-! ## Rows -/

structure ChatSession (ι : Type*) where
  ownerId : ι
  securityMode : Option String
  dataClassification : String
  currentCryptoEpoch : Nat
  retentionExpiresAt : Option Int
  createdAt : Option Int
  deriving DecidableEq

/-- `WebAuthnChallenge`. -/
structure PasskeyChallenge (ι : Type*) where
  authSessionId : Option ι
  expiresAt : Int
  deriving DecidableEq

/-- `SecurityPhoneChallenge`. -/
structure PhoneChallenge where
  createdAt : Int
  expiresAt : Int
  deriving DecidableEq

/-- The tables. Of a message, an envelope and a key epoch only its conversation is read; of a
challenge, a token, a login and a code when it expires, and of a prekey when it was consumed. -/
structure Database (ι : Type*) where
  sessions : OrderedDict ι (ChatSession ι)
  messages : List ι
  envelopes : List ι
  keyEpochs : List ι
  deviceChallenges : OrderedDict ι Int
  revokedTokens : OrderedDict ι Int
  authSessions : OrderedDict ι Int
  preKeys : OrderedDict ι (Option Int)
  recoveryCodes : OrderedDict ι Int
  passkeyChallenges : OrderedDict ι (PasskeyChallenge ι)
  phoneChallenges : OrderedDict ι PhoneChallenge

structure RetentionResult where
  expiredSessions : Nat
  retentionDeadlinesBackfilled : Nat
  encryptedMessages : Nat
  e2eeEnvelopes : Nat
  wrappedDeksDestroyed : Nat
  expiredChallenges : Nat
  expiredTokens : Nat
  expiredAuthSessions : Nat
  stalePrekeys : Nat
  expiredRecoveryCodes : Nat
  expiredPasskeyChallenges : Nat
  expiredPhoneChallenges : Nat
  dryRun : Bool
  deriving DecidableEq, Repr

/-- What `enforce_retention` raises. -/
inductive RetentionError where
  /-- `ValueError`. -/
  | value (message : String)
  /-- `OverflowError`. -/
  | overflow
  deriving DecidableEq, Repr

/-- The arguments of `enforce_retention`, apart from `dry_run`. -/
structure Sweep where
  now : Int
  batchSize : Int
  secureRetentionDays : Int
  confidentialRetentionDays : Int
  deriving DecidableEq, Repr

namespace Sweep

variable {ι : Type*} (a : Sweep) (s : ChatSession ι)

/-- What is checked first. -/
def Valid : Prop :=
  (1 ≤ a.batchSize ∧ a.batchSize ≤ 5000) ∧ 1 ≤ a.secureRetentionDays ∧
    1 ≤ a.confidentialRetentionDays

instance : Decidable a.Valid := inferInstanceAs (Decidable (_ ∧ _))

def limit : Nat := a.batchSize.toNat

/-- The days of a mode: an unknown one gets the shorter period. -/
def retentionDays : Int :=
  if s.securityMode = some "secure" then a.secureRetentionDays else a.confidentialRetentionDays

/-- `retention_deadline`. -/
def retentionDeadline : Int := s.createdAt.getD a.now + days (a.retentionDays s)

/-- `legacy_expired`, the dry run's reading of a row without a deadline. -/
def legacyExpired : Bool :=
  match s.createdAt with
  | none => false
  | some createdAt =>
    (s.securityMode = some "secure" && createdAt ≤ a.now - days a.secureRetentionDays) ||
      (s.securityMode ≠ some "secure" && createdAt ≤ a.now - days a.confidentialRetentionDays)

/-- A dry run raises `OverflowError`: one of the differences that it computes is no `datetime`. This is
so too for a period that is too long for a `timedelta`. -/
def dryOverflows : Bool :=
  [a.secureRetentionDays, a.confidentialRetentionDays, 2].any fun n => a.now - days n < minTime

/-- The real run raises it: the deadline of a row that it backfills is no `datetime`, or the difference
that both runs compute. -/
def realOverflows (sessions : OrderedDict ι (ChatSession ι)) : Bool :=
  a.now - days 2 < minTime || sessions.rows.any fun r =>
    r.2.retentionExpiresAt.isNone && maxTime < a.retentionDeadline r.2

/-- `expired_clause` of a dry run. -/
def expiredDry : Bool :=
  match s.retentionExpiresAt with
  | some deadline => deadline ≤ a.now
  | none => a.legacyExpired s

/-- `expired_clause` after the backfill. -/
def expiredReal : Bool :=
  match s.retentionExpiresAt with
  | some deadline => deadline ≤ a.now
  | none => true

/-- The row with the deadline that the backfill gives it. -/
def fill : ChatSession ι := { s with retentionExpiresAt := some (a.retentionDeadline s) }

end Sweep

/-! ## Queries -/

section Queries

variable {ι ν : Type*} [LinearOrder ι]

/-- `ORDER BY retention_expires_at, id`. -/
def orderKey (nullsFirst : Bool) (deadline : Option Int) (id : ι) : Int ×ₗ Int ×ₗ ι :=
  match deadline with
  | some deadline => toLex (0, toLex (deadline, id))
  | none => toLex (if nullsFirst then -1 else 1, toLex (0, id))

def sessionKey (nullsFirst : Bool) (r : ι × ChatSession ι) : Int ×ₗ Int ×ₗ ι :=
  orderKey nullsFirst r.2.retentionExpiresAt r.1

/-- `WHERE p LIMIT n`. -/
def selectWhere (p : ν → Bool) (n : Nat) (d : OrderedDict ι ν) : List (ι × ν) :=
  (d.rows.filter fun r => p r.2).take n

/-- `db.delete` of each of the rows. -/
def deleteRows (d : OrderedDict ι ν) (rows : List (ι × ν)) : OrderedDict ι ν :=
  d.filter fun r => r.1 ∉ rows.map Prod.fst

/-- `count(*)` of the rows that belong to one of the conversations. -/
def countOf (ids : List ι) (rows : List ι) : Nat := rows.countP fun id => id ∈ ids

end Queries

/-! ## The sweep -/

section Enforce

variable {ι : Type*} [LinearOrder ι] (nullsFirst : Bool) (a : Sweep)

/-- The rows without a deadline after `lastId`, by id, one batch of them. -/
def legacyBatch (sessions : OrderedDict ι (ChatSession ι)) (lastId : Option ι) :
    List (ι × ChatSession ι) :=
  firstBy Prod.fst a.limit (sessions.rows.filter fun r =>
    r.2.retentionExpiresAt.isNone && match lastId with
      | none => true
      | some lastId => lastId < r.1)

/-- `row.retention_expires_at = ...` for each of the rows. -/
def fillRows (sessions : OrderedDict ι (ChatSession ι)) (ids : List ι) :
    OrderedDict ι (ChatSession ι) where
  rows := sessions.rows.map fun r => if r.1 ∈ ids then (r.1, a.fill r.2) else r
  nodup := by
    have hkeys : (sessions.rows.map fun r => if r.1 ∈ ids then (r.1, a.fill r.2) else r).map
        Prod.fst = sessions.rows.map Prod.fst := by
      rw [List.map_map]
      apply List.map_congr_left
      intro r _
      show (if r.1 ∈ ids then (r.1, a.fill r.2) else r).1 = r.1
      split <;> rfl
    rw [hkeys]
    exact sessions.nodup

/-- The loop of `_backfill_retention_deadlines`, for at most so many rounds. -/
def backfillFrom : Nat → OrderedDict ι (ChatSession ι) → Option ι → Nat →
    OrderedDict ι (ChatSession ι) × Nat
  | 0, sessions, _, backfilled => (sessions, backfilled)
  | fuel + 1, sessions, lastId, backfilled =>
    let rows := legacyBatch a sessions lastId
    match rows.getLast? with
    | none => (sessions, backfilled)
    | some last =>
      backfillFrom fuel (fillRows a sessions (rows.map Prod.fst)) (some last.1)
        (backfilled + rows.length)

/-- `_backfill_retention_deadlines`. Each round fills a row. -/
def backfill (sessions : OrderedDict ι (ChatSession ι)) : OrderedDict ι (ChatSession ι) × Nat :=
  backfillFrom a (sessions.len + 1) sessions none 0

/-- The rows that a sweep selects. -/
structure Selection (ι : Type*) where
  sessions : List (ι × ChatSession ι)
  challenges : List (ι × Int)
  tokens : List (ι × Int)
  authSessions : List (ι × Int)
  preKeys : List (ι × Option Int)
  recoveryCodes : List (ι × Int)
  passkeyChallenges : List (ι × PasskeyChallenge ι)
  phoneChallenges : List (ι × PhoneChallenge)

def select (expired : ChatSession ι → Bool) (db : Database ι) : Selection ι where
  sessions := firstBy (sessionKey nullsFirst) a.limit
    (db.sessions.rows.filter fun r => expired r.2)
  challenges := selectWhere (fun expiresAt => expiresAt ≤ a.now) a.limit db.deviceChallenges
  tokens := selectWhere (fun expiresAt => expiresAt ≤ a.now) a.limit db.revokedTokens
  authSessions := firstBy Prod.snd a.limit (db.authSessions.rows.filter fun r => r.2 ≤ a.now)
  preKeys := selectWhere (fun consumedAt => consumedAt.isSome) a.limit db.preKeys
  recoveryCodes := selectWhere (fun expiresAt => expiresAt ≤ a.now) a.limit db.recoveryCodes
  passkeyChallenges :=
    selectWhere (fun c => c.expiresAt ≤ a.now) a.limit db.passkeyChallenges
  phoneChallenges := firstBy (fun r => toLex (r.2.createdAt, r.1)) a.limit
    (db.phoneChallenges.rows.filter fun r =>
      r.2.createdAt ≤ a.now - days 2 && r.2.expiresAt ≤ a.now)

/-- The counts of a selection. -/
def report (db : Database ι) (rows : Selection ι) (backfilled : Nat) (dryRun : Bool) :
    RetentionResult :=
  let sessionIds := rows.sessions.map Prod.fst
  { expiredSessions := rows.sessions.length
    retentionDeadlinesBackfilled := backfilled
    encryptedMessages := countOf sessionIds db.messages
    e2eeEnvelopes := countOf sessionIds db.envelopes
    wrappedDeksDestroyed := (sessionIds.map fun id => db.keyEpochs.count id).sum
    expiredChallenges := rows.challenges.length
    expiredTokens := rows.tokens.length
    expiredAuthSessions := rows.authSessions.length
    stalePrekeys := rows.preKeys.length
    expiredRecoveryCodes := rows.recoveryCodes.length
    expiredPasskeyChallenges := rows.passkeyChallenges.length
    expiredPhoneChallenges := rows.phoneChallenges.length
    dryRun }

/-- The deletions. A conversation takes its messages, envelopes and key epochs with it, and a login
the passkey challenges that are bound to it. -/
def delete (db : Database ι) (rows : Selection ι) : Database ι :=
  let sessionIds := rows.sessions.map Prod.fst
  let logins := rows.authSessions.map Prod.fst
  { sessions := deleteRows db.sessions rows.sessions
    messages := db.messages.filter fun id => id ∉ sessionIds
    envelopes := db.envelopes.filter fun id => id ∉ sessionIds
    keyEpochs := db.keyEpochs.filter fun id => id ∉ sessionIds
    deviceChallenges := deleteRows db.deviceChallenges rows.challenges
    revokedTokens := deleteRows db.revokedTokens rows.tokens
    authSessions := deleteRows db.authSessions rows.authSessions
    preKeys := deleteRows db.preKeys rows.preKeys
    recoveryCodes := deleteRows db.recoveryCodes rows.recoveryCodes
    passkeyChallenges := (deleteRows db.passkeyChallenges rows.passkeyChallenges).filter
      fun r => match r.2.authSessionId with
        | none => true
        | some login => login ∉ logins
    phoneChallenges := deleteRows db.phoneChallenges rows.phoneChallenges }

/-- `enforce_retention`. What raises is rolled back. -/
def enforceRetention (dryRun : Bool) (db : Database ι) :
    Except RetentionError (Database ι × RetentionResult) :=
  if a.batchSize < 1 ∨ 5000 < a.batchSize then
    .error (.value "Retention batch_size must be between 1 and 5000.")
  else if a.secureRetentionDays < 1 ∨ a.confidentialRetentionDays < 1 then
    .error (.value "Retention periods must be positive integers.")
  else if dryRun then
    if a.dryOverflows then .error .overflow
    else
      let backfilled := db.sessions.rows.countP fun r => r.2.retentionExpiresAt.isNone
      let rows := select nullsFirst a a.expiredDry db
      .ok (db, report db rows backfilled true)
  else if a.realOverflows db.sessions then .error .overflow
  else
    let (sessions, backfilled) := backfill a db.sessions
    let db := { db with sessions }
    let rows := select nullsFirst a a.expiredReal db
    .ok (delete db rows, report db rows backfilled false)

end Enforce

end Scap.Retention
