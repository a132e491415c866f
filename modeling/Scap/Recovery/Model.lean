import Mathlib.Data.List.Infix
import Mathlib.Data.List.MinMax
import Scap.Lib.KeyedTable
import Scap.Lib.Run
import Scap.Py.Hmac
import Scap.Py.Text
import Scap.Py.Value

/-!
# Account recovery

The codes that are sent by email, for a new recovery address and for a forgotten password, and all
that other requests do to what these codes depend on: the password, the recovery address, the
account itself.

Every route holds the row lock of the account while it works, so that one is one step. The two
routes for a forgotten password look the account up before they lock it; that is a step of its own,
and what it found stays in `found`. A request that is throttled or does not authenticate changes
nothing here and is no step. The undelivered code of `request_password_reset` is burned in a second
transaction.

`log` and `asked` are only for what is said about runs: what has happened, and what HMAC has been
asked. `lower` is `str.lower`.
-/

namespace Scap.Recovery

open Scap.Lib Scap.Py

/-! ## Rows -/

/-- The second factor of a row of `users`, with its unused `mfa_recovery_codes`. -/
structure MfaFields where
  mfaEnabled : Bool
  mfaSecretCiphertext : Option String
  mfaSecretNonce : Option String
  mfaLastCounter : Int
  mfaFailedAttempts : Nat
  mfaLockedUntil : Option Int
  recoveryCodes : List String
  deriving DecidableEq, Repr

/-- A row of `users`. -/
structure User where
  id : String
  username : String
  passwordHash : String
  isActive : Bool
  tokenVersion : Nat
  failedLoginAttempts : Nat
  lockedUntil : Option Int
  mfa : MfaFields
  deriving DecidableEq, Repr

/-- A row of `account_emails`. -/
structure AccountEmail where
  userId : String
  email : String
  normalizedEmail : String
  verifiedAt : Int
  deriving DecidableEq, Repr

inductive Purpose where
  | passwordReset
  | emailVerify
  deriving DecidableEq, Repr

/-- A row of `account_recovery_codes`. -/
structure RecoveryCode where
  id : String
  userId : String
  purpose : Purpose
  codeHash : String
  targetEmail : Option String
  attempts : Nat
  expiresAt : Int
  consumedAt : Option Int
  createdAt : Int
  deriving DecidableEq, Repr

/-- What the history of codes is made of. -/
inductive Event where
  | issued (id userId : String) (purpose : Purpose) (expiresAt : Int)
  | guessed (id : String)
  | accepted (id : String) (time : Int)
  | passwordChanged (userId : String)
  | mailboxChanged (userId : String)
  deriving DecidableEq, Repr

structure Store where
  clock : Int
  users : KeyedTable User.id
  emails : KeyedTable AccountEmail.userId
  codes : KeyedTable RecoveryCode.id
  /-- Every identifier given out so far. -/
  drawn : List String
  /-- Every password hash computed so far; each has a salt of its own. -/
  hashes : List String
  /-- The accounts that requests have looked up before locking them. -/
  found : List String
  /-- Keys and messages of HMAC so far. -/
  asked : List (ByteArray × ByteArray)
  /-- What has happened, the latest first. -/
  log : List Event

def Store.initial (clock : Int) : Store := ⟨clock, .empty, .empty, .empty, [], [], [], [], []⟩

structure Settings where
  hmac : HmacSha256
  lower : List Char → List Char
  recoveryKey : ByteArray
  passwordResetMinutes : Nat

variable (cfg : Settings)

/-! ## Texts -/

/-- `CODE_ALPHABET`. -/
def codeAlphabet : List Char := "abcdefghjkmnpqrstuvwxyz23456789".toList

/-- `CODE_LENGTH`. -/
def codeLength : Nat := 10

/-- `MAX_CODE_ATTEMPTS`. -/
def maxCodeAttempts : Nat := 5

/-- What `issue_code` draws. -/
def isCode (code : String) : Bool :=
  code.toList.length = codeLength && code.toList.all (codeAlphabet.contains ·)

def normalizeCode (value : String) : String :=
  String.ofList ((cfg.lower (value.toList.filter fun c => !isSpace c && c ≠ '-')).take 32)

/-- The characters of the local part in `_EMAIL_RE`. -/
def isLocal (c : Char) : Bool := c.isAlphanum || "!#$%&'*+/=?^_\x60\x7b|\x7d~.-".toList.contains c

/-- The characters of a label in `_EMAIL_RE`. -/
def isLabel (c : Char) : Bool := c.isAlphanum || c = '-'

/-- `_EMAIL_RE.fullmatch`, on the two sides of the `@`. -/
def matchesEmail (name domain : List Char) : Bool :=
  1 ≤ name.length && name.length ≤ 64 && name.all isLocal &&
    2 ≤ (domain.splitOn '.').length &&
    (domain.splitOn '.').all fun label => !label.isEmpty && label.all isLabel

def normalizeEmail (value : String) : Option String :=
  let candidate := (strip value).toList
  if 254 < candidate.length ∨
      candidate.any (fun c => "\r\n\x00<>,;\" ".toList.contains c) = true then none
  else match candidate.splitOn '@' with
    | [name, domain] =>
      if matchesEmail name domain = false then none
      else if domain.head? = some '-' ∨ ['.', '.'] <:+: candidate ∨ name.head? = some '.' ∨
          name.getLast? = some '.' then none
      else some (String.ofList (candidate.map Char.toLower))
    | _ => none

/-! ## Keys and hashes -/

/-- What `derive_password_reset_key` authenticates. -/
def resetContext (userId passwordHash normalizedEmail : String) : ByteArray :=
  (Value.dumps .ascii (.arr [.str "secure-chat:password-reset:v1", .str userId, .str passwordHash,
    .str normalizedEmail])).toUTF8

def derivePasswordResetKey (key : ByteArray) (userId passwordHash normalizedEmail : String) :
    ByteArray :=
  ⟨(cfg.hmac key (resetContext userId passwordHash normalizedEmail)).val.toArray⟩

/-- `_hash_code`. -/
def hashCode (key : ByteArray) (code : String) : String := hexdigest (cfg.hmac key code.toUTF8)

/-! ## Writing to the store -/

def Store.ask (s : Store) (key message : ByteArray) : Store :=
  { s with asked := (key, message) :: s.asked }

def Store.record (s : Store) (e : Event) : Store := { s with log := e :: s.log }

/-- `consumed_at = now` on the codes that satisfy `p` and are not consumed. -/
def burnWhere (t : KeyedTable RecoveryCode.id) (p : RecoveryCode → Bool) (now : Int) :
    KeyedTable RecoveryCode.id :=
  t.modify (fun c => if p c && c.consumedAt = none then { c with consumedAt := some now } else c)
    fun c => by split <;> rfl

def Store.burn (s : Store) (p : RecoveryCode → Bool) : Store :=
  { s with codes := burnWhere s.codes p s.clock }

/-- A write to columns of an account. -/
def Store.updateUser (s : Store) (userId : String) (f : User → User)
    (h : ∀ u, (f u).id = u.id := by intro _; rfl) : Store :=
  let users := s.users.modify (fun u => if u.id = userId then f u else u)
    fun u => by split <;> simp [h]
  { s with users }

/-- A password hash is computed for the account and stored. -/
def Store.setPassword (s : Store) (userId passwordHash : String) : Store :=
  let s := s.updateUser userId fun u => { u with passwordHash }
  { s with hashes := passwordHash :: s.hashes }

/-- `lock_user_row`. -/
def lockUserRow (s : Store) (userId : String) : Option User :=
  (s.users.find? userId).filter fun u => u.isActive

/-! ## Issuing and consuming -/

def issueCode (s : Store) (key : ByteArray) (userId : String) (purpose : Purpose)
    (targetEmail : Option String) (id code : String) : Store :=
  let s := s.burn fun c => c.userId = userId && c.purpose = purpose
  let expiresAt := s.clock + cfg.passwordResetMinutes * 60000000
  { (s.ask key code.toUTF8).record (.issued id userId purpose expiresAt) with
    codes := s.codes.insertNew
      ⟨id, userId, purpose, hashCode cfg key code, targetEmail, 0, expiresAt, none, s.clock⟩
    drawn := id :: s.drawn }

/-- `ORDER BY created_at DESC LIMIT 1` among the codes that are not consumed. -/
def newestActive? (s : Store) (userId : String) (purpose : Purpose) : Option RecoveryCode :=
  @List.argmax _ Int Int.instLinearOrder.toPreorder Int.decLt (·.createdAt)
    (s.codes.rows.filter fun c =>
      c.userId = userId && c.purpose = purpose && c.consumedAt = none)

/-- A wrong guess on a code; the fifth one retires it. -/
def RecoveryCode.miss (c : RecoveryCode) (now : Int) : RecoveryCode :=
  { c with
    attempts := c.attempts + 1
    consumedAt := if maxCodeAttempts ≤ c.attempts + 1 then some now else c.consumedAt }

def wrongGuess (s : Store) (id : String) : Store :=
  let codes := s.codes.modify (fun c => if c.id = id then c.miss s.clock else c)
    fun c => by split <;> rfl
  { s.record (.guessed id) with codes }

/-- `candidate.isascii()`. -/
def isAscii (candidate : String) : Bool := candidate.toList.all fun c => c.toNat < 128

/-- The hash of what was presented; only ASCII is hashed. -/
def presentedHash (key : ByteArray) (candidate : String) : String :=
  if isAscii candidate then hashCode cfg key candidate else ""

/-- The store after a candidate has been hashed, if it is. -/
def Store.present (s : Store) (key : ByteArray) (candidate : String) : Store :=
  if isAscii candidate then s.ask key candidate.toUTF8 else s

def consumeCode (s : Store) (key : ByteArray) (userId : String) (purpose : Purpose)
    (code : String) : Store × Option RecoveryCode :=
  match newestActive? s userId purpose with
  | none => (s, none)
  | some c =>
    let candidate := normalizeCode cfg code
    let s' := s.present key candidate
    if c.expiresAt ≤ s.clock then (s, none)
    else if candidate.toList.length ≠ codeLength then (wrongGuess s c.id, none)
    else if presentedHash cfg key candidate ≠ c.codeHash then (wrongGuess s' c.id, none)
    else (s'.burn fun r => r.id = c.id, some c)

/-! ## Routes

Each answers with a status. -/

def requestEmailVerification (s : Store) (userId email id code : String) : Store × Nat :=
  match normalizeEmail email, lockUserRow s userId with
  | none, _ => (s, 422)
  | some _, none => (s, 401)
  | some normalized, some user =>
    (issueCode cfg s cfg.recoveryKey user.id .emailVerify (some normalized) id code, 202)

/-- The rest of `verify_account_email`, once the code is consumed. -/
def bindMailbox (s : Store) (record : RecoveryCode) (target : String) : Option Store :=
  if s.emails.rows.any fun m => m.normalizedEmail = target && m.userId ≠ record.userId then none
  else
    let s' : Store := { s.record (.accepted record.id s.clock) with
      emails := (s.emails.filter fun m => m.userId ≠ record.userId).insertNew
        ⟨record.userId, target, target, s.clock⟩ }
    if (s.emails.find? record.userId).map (·.email) = some target then some s'
    else some ((s'.burn fun c => c.userId = record.userId && c.purpose = .passwordReset).record
      (.mailboxChanged record.userId))

/-- A unique violation rolls everything back, the consumption of the code included. -/
def verifyAccountEmail (s : Store) (userId code : String) : Store × Nat :=
  match lockUserRow s userId with
  | none => (s, 401)
  | some user =>
    match consumeCode cfg s cfg.recoveryKey user.id .emailVerify code with
    | (s', none) => (s', 400)
    | (s', some record) =>
      match record.targetEmail with
      | none => (s', 400)
      | some target =>
        if target = "" then (s', 400)
        else match bindMailbox s' record target with
          | none => (s, 409)
          | some s'' => (s'', 200)

def removeAccountEmail (s : Store) (userId : String) : Store × Nat :=
  match lockUserRow s userId with
  | none => (s, 401)
  | some user =>
    match s.emails.find? user.id with
    | none => (s, 404)
    | some _ =>
      ({ (s.burn fun c => c.userId = user.id).record (.mailboxChanged user.id) with
        emails := s.emails.filter fun m => m.userId ≠ user.id }, 204)

def findAccount (s : Store) (identifier : String) : Option User :=
  match normalizeEmail identifier with
  | some normalized =>
    match s.emails.rows.find? fun m => m.normalizedEmail = normalized with
    | none => none
    | some m => s.users.find? m.userId
  | none => s.users.rows.find? fun u =>
      u.username = String.ofList (cfg.lower (strip identifier).toList)

/-- What follows the lookup in `request_password_reset`; `limited` is the answer of the limiter. -/
def requestPasswordReset (s : Store) (userId id code : String) (limited : Bool) : Store × Nat :=
  match lockUserRow s userId with
  | none => (s, 202)
  | some user =>
    match s.emails.find? user.id with
    | none => (s, 202)
    | some email =>
      if limited then (s, 202)
      else
        let key := derivePasswordResetKey cfg cfg.recoveryKey user.id user.passwordHash
          email.normalizedEmail
        let s := s.ask cfg.recoveryKey
          (resetContext user.id user.passwordHash email.normalizedEmail)
        (issueCode cfg s key user.id .passwordReset none id code, 202)

/-- `MailUnavailable`, in the transaction after the one that issued the code. -/
def burnUndelivered (s : Store) (id : String) : Store := s.burn fun c => c.id = id

/-- The rest of `confirm_password_reset`, once the code is consumed. -/
def replacePassword (s : Store) (userId passwordHash : String) (record : RecoveryCode) : Store :=
  let s := (s.record (.accepted record.id s.clock)).setPassword userId passwordHash
  let s := s.updateUser userId fun u =>
    { u with failedLoginAttempts := 0, lockedUntil := none, tokenVersion := u.tokenVersion + 1 }
  (s.burn fun c => c.userId = userId && c.purpose = .passwordReset).record (.passwordChanged userId)

/-- What follows the lookup in `confirm_password_reset`. -/
def confirmPasswordReset (s : Store) (userId code passwordHash : String) (compromised : Bool) :
    Store × Nat :=
  if compromised then (s, 400)
  else match lockUserRow s userId with
    | none => (s, 400)
    | some user =>
      match s.emails.find? user.id with
      | none => (s, 400)
      | some email =>
        let key := derivePasswordResetKey cfg cfg.recoveryKey user.id user.passwordHash
          email.normalizedEmail
        let s := s.ask cfg.recoveryKey
          (resetContext user.id user.passwordHash email.normalizedEmail)
        match consumeCode cfg s key user.id .passwordReset code with
        | (s', none) => (s', 400)
        | (s', some record) => (replacePassword s' user.id passwordHash record, 204)

/-- What follows the checks in `change_password`. -/
def changePassword (s : Store) (userId passwordHash : String) : Store :=
  ((s.setPassword userId passwordHash).updateUser userId fun u =>
    { u with
      mfa := { u.mfa with mfaFailedAttempts := 0, mfaLockedUntil := none }
      tokenVersion := u.tokenVersion + 1 }).record (.passwordChanged userId)

/-- `scripts/reset_vps_passwords.py`, for one account. -/
def resetVpsPassword (s : Store) (userId passwordHash : String) : Store :=
  (changePassword s userId passwordHash).updateUser userId fun u =>
    { u with failedLoginAttempts := 0, lockedUntil := none }

/-! ## Steps -/

/-- The last seven are what other routes do to the rows that recovery depends on, whatever leads
them to it. `sweep` is a batch of the retention job. -/
inductive Op where
  | requestEmailVerification (userId email id code : String)
  | verifyAccountEmail (userId code : String)
  | removeAccountEmail (userId : String)
  | findAccount (identifier : String)
  | requestPasswordReset (userId id code : String) (limited : Bool)
  | burnUndelivered (id : String)
  | confirmPasswordReset (userId code passwordHash : String) (compromised : Bool)
  | changePassword (userId passwordHash : String)
  | resetVpsPassword (userId passwordHash : String)
  | tick (microseconds : Nat)
  | register (id username passwordHash : String)
  | deleteUser (userId : String)
  | setActive (userId : String) (isActive : Bool)
  | throttleLogin (userId : String) (failedLoginAttempts : Nat) (lockedUntil : Option Int)
  | rehash (userId passwordHash : String)
  | setMfa (userId : String) (mfa : MfaFields)
  | sweep (ids : List String)
  deriving DecidableEq, Repr

/-- What a step draws is new: identifiers and salted hashes. -/
def Op.draws (s : Store) : Op → Bool
  | .requestEmailVerification _ _ id code => !s.drawn.contains id && isCode code
  | .requestPasswordReset _ id code _ => !s.drawn.contains id && isCode code
  | .confirmPasswordReset _ _ passwordHash _ => !s.hashes.contains passwordHash
  | .changePassword _ passwordHash => !s.hashes.contains passwordHash
  | .resetVpsPassword _ passwordHash => !s.hashes.contains passwordHash
  | .register id _ passwordHash => !s.drawn.contains id && !s.hashes.contains passwordHash
  | .rehash _ passwordHash => !s.hashes.contains passwordHash
  | _ => true

def perform (s : Store) : Op → Store
  | .requestEmailVerification userId email id code =>
      (requestEmailVerification cfg s userId email id code).1
  | .verifyAccountEmail userId code => (verifyAccountEmail cfg s userId code).1
  | .removeAccountEmail userId => (removeAccountEmail s userId).1
  | .findAccount identifier =>
      { s with found := ((findAccount cfg s identifier).map (·.id)).toList ++ s.found }
  | .requestPasswordReset userId id code limited =>
      if s.found.contains userId then (requestPasswordReset cfg s userId id code limited).1 else s
  | .burnUndelivered id => burnUndelivered s id
  | .confirmPasswordReset userId code passwordHash compromised =>
      if s.found.contains userId then
        (confirmPasswordReset cfg s userId code passwordHash compromised).1
      else s
  | .changePassword userId passwordHash => changePassword s userId passwordHash
  | .resetVpsPassword userId passwordHash => resetVpsPassword s userId passwordHash
  | .tick microseconds => { s with clock := s.clock + microseconds }
  | .register id username passwordHash =>
      { s with
        users := s.users.insertNew
          ⟨id, username, passwordHash, true, 1, 0, none, ⟨false, none, none, 0, 0, none, []⟩⟩
        drawn := id :: s.drawn
        hashes := passwordHash :: s.hashes }
  | .deleteUser userId =>
      { s with
        users := s.users.filter fun u => u.id ≠ userId
        emails := s.emails.filter fun m => m.userId ≠ userId
        codes := s.codes.filter fun c => c.userId ≠ userId }
  | .setActive userId isActive => s.updateUser userId fun u => { u with isActive }
  | .throttleLogin userId failedLoginAttempts lockedUntil =>
      s.updateUser userId fun u => { u with failedLoginAttempts, lockedUntil }
  | .rehash userId passwordHash => s.setPassword userId passwordHash
  | .setMfa userId mfa => s.updateUser userId fun u => { u with mfa }
  | .sweep ids =>
      { s with codes := s.codes.filter fun c => !(c.expiresAt ≤ s.clock && ids.contains c.id) }

def step (s : Store) (op : Op) : Option Store :=
  if op.draws s then some (perform cfg s op) else none

def Initial (s : Store) : Prop := s = Store.initial s.clock

/-- Accounts and their recovery under any requests. -/
abbrev recoverySystem : System Store Op := System.ofFun Initial (step cfg)

end Scap.Recovery
