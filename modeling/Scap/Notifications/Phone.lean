import Mathlib.Data.Prod.Lex
import Mathlib.Data.String.Basic
import Scap.Lib.KeyedTable
import Scap.Lib.Run
import Scap.Py.Hmac

/-!
# Verification of a phone number

The challenges that are sent by SMS, and all that other operations do to their rows: removal of the
number, the end of a session and the retention sweep.

Every route holds the row lock of the account while it works, so that one is one step. A request
that is throttled, does not authenticate or fails before its transaction is committed changes
nothing here and is no step. `issued` and `attempted` are only for what is said about runs.

Times are microseconds. Workers may read clocks that differ, by a day at most.
-/

namespace Scap.Notifications

open Scap.Lib Scap.Py

/-- `timedelta(hours=1)`. -/
def hour : Int := 3600000000

/-- `timedelta(days=1)`. -/
def day : Int := 24 * hour

/-- A row of `security_phone_challenges`. -/
structure Challenge where
  id : String
  userId : String
  authSessionId : Option String
  phoneHash : String
  phoneCiphertext : String
  phoneNonce : String
  codeHash : String
  attempts : Nat
  expiresAt : Int
  consumedAt : Option Int
  createdAt : Int
  deriving DecidableEq, Repr

/-- A row of `security_phones`. -/
structure SecurityPhone where
  userId : String
  phoneCiphertext : String
  phoneNonce : String
  verifiedAt : Int
  deriving DecidableEq, Repr

structure Store where
  /-- The latest reading of a clock. -/
  clock : Int
  challenges : KeyedTable Challenge.id
  phones : KeyedTable SecurityPhone.userId
  /-- The account and the time of every challenge so far. -/
  issued : List (String × Int)
  /-- The challenge, by its identifier and its time, of every attempt so far. -/
  attempted : List (String × Int)

def Store.initial (clock : Int) : Store := ⟨clock, .empty, .empty, [], []⟩

/-- `decryptUserSecret` fails where `decrypt_user_secret` raises. -/
structure Settings where
  hmac : HmacSha256
  recoveryKey : ByteArray
  smsEnabled : Bool
  decryptUserSecret : (userId ciphertext nonce field : String) → Option String

variable (cfg : Settings)

/-! ## Texts -/

/-- A character of `[0-9]`. -/
def isDigit (c : Char) : Bool := '0' ≤ c && c ≤ '9'

/-- `normalize_phone`. -/
def normalizePhone (value : String) : Option String :=
  match value.toList with
  | '+' :: first :: rest =>
    if '1' ≤ first && first ≤ '9' && 7 ≤ rest.length && rest.length ≤ 14 && rest.all isDigit then
      some value
    else none
  | _ => none

/-- `keyed_digest`. -/
def keyedDigest (label value : String) : String :=
  hexdigest (cfg.hmac cfg.recoveryKey ("scap-notifications:v1:" ++ label ++ ":" ++ value).toUTF8)

/-! ## Operations

The routes answer with a status. -/

/-- `consumed_at = now` on the challenges of the account that are not consumed. -/
def consumeAll (t : KeyedTable Challenge.id) (userId : String) (now : Int) :
    KeyedTable Challenge.id :=
  t.modify (fun c => if c.userId = userId ∧ c.consumedAt = none then
    { c with consumedAt := some now } else c) fun c => by split <;> rfl

/-- The evidence of a challenge is not needed any more. -/
def outdated (now : Int) (c : Challenge) : Bool :=
  c.createdAt ≤ now - 2 * day && c.expiresAt ≤ now

/-- `request_phone`, when `uuid4` yields `id`, `randbelow` the code and the encryption `secret`. -/
def requestPhone (s : Store) (now : Int) (userId jti phone id code : String)
    (secret : String × String) : Store × Nat :=
  if !cfg.smsEnabled then (s, 501)
  else match normalizePhone phone with
    | none => (s, 422)
    | some phone =>
      let digest := keyedDigest cfg "phone-target" phone
      let rows := s.challenges.rows
      let hourCount := rows.countP fun c => c.userId = userId && now - hour < c.createdAt
      let dayCount := rows.countP fun c => c.userId = userId && now - day < c.createdAt
      let targetCount := rows.countP fun c => c.phoneHash = digest && now - hour < c.createdAt
      if 3 ≤ hourCount ∨ 10 ≤ dayCount ∨ 3 ≤ targetCount then (s, 429)
      else
        let challenges := s.challenges.filter fun c => !(c.userId = userId && outdated now c)
        let challenges := consumeAll challenges userId now
        let challenge : Challenge :=
          ⟨id, userId, some jti, digest, secret.1, secret.2,
            keyedDigest cfg ("phone-code:" ++ id) code, 0, now + 5 * 60000000, none, now⟩
        -- a duplicate identifier is an `IntegrityError`, and the transaction is rolled back
        match challenges.insert? challenge with
        | none => (s, 500)
        | some challenges => ({ s with challenges, issued := s.issued ++ [(userId, now)] }, 202)

/-- What `verify_phone` asks of a challenge. -/
def Challenge.valid (c : Challenge) (now : Int) (userId jti : String) : Bool :=
  c.userId = userId && c.authSessionId = some jti && c.consumedAt = none && now < c.expiresAt

/-- The challenge after an attempt. -/
def Challenge.attempt (c : Challenge) (now : Int) (right : Bool) : Challenge :=
  { c with
    attempts := c.attempts + 1
    consumedAt := if right || 5 ≤ c.attempts + 1 then some now else c.consumedAt }

/-- The store after an attempt at a challenge. -/
def Store.attempt (s : Store) (now : Int) (c : Challenge) (right : Bool) : Store :=
  let challenges := s.challenges.modify
    (fun d => if d.id = c.id then d.attempt now right else d) fun d => by split <;> rfl
  { s with challenges, attempted := s.attempted ++ [(c.id, c.createdAt)] }

/-- `verify_phone`, when the encryption yields `secret`. -/
def verifyPhone (s : Store) (now : Int) (userId jti challengeId code : String)
    (secret : String × String) : Store × Nat :=
  match s.challenges.find? challengeId with
  | none => (s, 400)
  | some c =>
    if !c.valid now userId jti then (s, 400)
    else if keyedDigest cfg ("phone-code:" ++ c.id) code ≠ c.codeHash then
      (s.attempt now c false, 400)
    else match cfg.decryptUserSecret userId c.phoneCiphertext c.phoneNonce
        ("security-phone-challenge:" ++ c.id) with
      | none => (s, 500)
      | some _ =>
        let s := s.attempt now c true
        let phones := (s.phones.filter fun p => p.userId ≠ userId).insertNew
          ⟨userId, secret.1, secret.2, now⟩
        ({ s with phones }, 200)

/-- `remove_phone`. -/
def removePhone (s : Store) (now : Int) (userId : String) : Store :=
  { s with
    phones := s.phones.filter fun p => p.userId ≠ userId
    challenges := s.challenges.modify (fun c => if c.userId = userId then
      { c with
        consumedAt := some now
        phoneCiphertext := ""
        phoneNonce := ""
        codeHash := String.ofList (List.replicate 64 '0') } else c) fun c => by split <;> rfl }

/-- The row of a session is deleted: `ON DELETE SET NULL`. -/
def endSession (s : Store) (jti : String) : Store :=
  { s with
    challenges := s.challenges.modify (fun c => if c.authSessionId = some jti then
      { c with authSessionId := none } else c) fun c => by split <;> rfl }

/-- `expired_phone_challenges`. -/
def expiredPhoneChallenges (s : Store) (now : Int) (batchSize : Nat) : List Challenge :=
  ((s.challenges.rows.filter (outdated now)).insertionSort fun c d =>
    toLex (c.createdAt, c.id) ≤ toLex (d.createdAt, d.id)).take batchSize

/-- The part of the retention sweep that deletes challenges. -/
def sweep (s : Store) (now : Int) (batchSize : Nat) : Store :=
  { s with
    challenges := s.challenges.filter fun c =>
      c.id ∉ (expiredPhoneChallenges s now batchSize).map Challenge.id }

/-! ## Runs -/

inductive Op where
  | requestPhone (userId jti phone id code : String) (secret : String × String)
  | verifyPhone (userId jti challengeId code : String) (secret : String × String)
  | removePhone (userId : String)
  | endSession (jti : String)
  | sweep (batchSize : Nat)
  deriving DecidableEq, Repr

/-- What an operation does when it reads `now`. -/
def perform (s : Store) (now : Int) : Op → Store
  | .requestPhone userId jti phone id code secret =>
    (requestPhone cfg s now userId jti phone id code secret).1
  | .verifyPhone userId jti challengeId code secret =>
    (verifyPhone cfg s now userId jti challengeId code secret).1
  | .removePhone userId => removePhone s now userId
  | .endSession jti => endSession s jti
  | .sweep batchSize => sweep s now batchSize

def step (s : Store) (a : Int × Op) : Option Store :=
  if s.clock - day ≤ a.1 then some { perform cfg s a.1 a.2 with clock := max s.clock a.1 }
  else none

def phoneSystem : System Store (Int × Op) :=
  .ofFun (fun s => ∃ clock, s = .initial clock) (step cfg)

/-- When the account was sent a challenge. -/
def issuedTo (issued : List (String × Int)) (userId : String) : List Int :=
  (issued.filter fun e => e.1 = userId).map Prod.snd

end Scap.Notifications
