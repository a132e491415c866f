import Mathlib.Data.String.Basic
import Scap.Lib.KeyedTable

/-!
# Accounts, sessions and the credentials handed out for them

The rows the authentication code reads and writes (`users`, `auth_sessions`, `revoked_tokens`), the
payloads of the three signed tokens, and the helpers that every route is made of:
`issueAccessSession`, `revokeAllAuthSessions`, `revokeAuthSessionFamily`, `expireAuthSession`, the
two row locks.

Each function is one database transaction or a part of one: the routes take the account row's lock
before they read what they decide on, so their transactions on one account are serial. Signed
tokens cannot be forged, so the store keeps a list of those handed out and a request presents one
of them. Two columns of the store are not in the database: `origin` and `activity` record, for each
session family, when it was signed in and its last recorded activity.
-/

namespace Scap.Auth

open Scap.Lib

/-! ## Time -/

/-- Whole seconds in microseconds, the unit of every timestamp. -/
def seconds (n : Nat) : Int := n * 1000000

def minutes (n : Nat) : Int := seconds (60 * n)

def hours (n : Nat) : Int := minutes (60 * n)

/-- The whole second a JWT timestamp keeps. -/
def wholeSecond (t : Int) : Int := t / 1000000 * 1000000

theorem wholeSecond_le (t : Int) : wholeSecond t ≤ t := by
  unfold wholeSecond
  omega

/-! ## Rows and tokens -/

/-- The settings the session code reads. -/
structure Settings where
  accessTokenMinutes : Nat
  mfaChallengeMinutes : Nat
  sessionAbsoluteHours : Nat
  sessionIdleMinutes : Nat
  stepUpMinutes : Nat
  tokenReuseGraceSeconds : Nat
  /-- `security_profile == "high"`. -/
  highSecurity : Bool
  deriving DecidableEq, Repr

structure User where
  id : String
  role : String
  isActive : Bool
  mfaEnabled : Bool
  tokenVersion : Int
  deriving DecidableEq, Repr

/-- A row of `auth_sessions`. `session_family_id` is not nullable and never empty. -/
structure AuthSession where
  jti : String
  userId : String
  sessionFamilyId : String
  issuedAt : Int
  expiresAt : Int
  revokedAt : Option Int
  lastActivityAt : Option Int
  rootIssuedAt : Option Int
  lastStepUpAt : Option Int
  deriving DecidableEq, Repr

structure RevokedToken where
  jti : String
  userId : String
  expiresAt : Int
  reason : String
  createdAt : Int
  deriving DecidableEq, Repr

/-- The payload of an access token. -/
structure BearerToken where
  sub : String
  ver : Int
  jti : String
  iat : Int
  exp : Int
  deriving DecidableEq, Repr

/-- The payload of an MFA challenge. -/
structure MfaChallenge where
  sub : String
  ver : Int
  jti : String
  exp : Int
  deriving DecidableEq, Repr

/-- The payload of an export ticket. -/
structure ExportTicket where
  sub : String
  sid : String
  ver : Int
  parentJti : String
  jti : String
  exp : Int
  deriving DecidableEq, Repr

structure Store where
  clock : Int
  users : KeyedTable User.id
  sessions : KeyedTable AuthSession.jti
  revokedTokens : KeyedTable RevokedToken.jti
  bearers : List BearerToken
  challenges : List MfaChallenge
  tickets : List ExportTicket
  /-- Every UUID drawn so far. -/
  drawn : List String
  /-- When a family was signed in. -/
  origin : String → Option Int
  /-- A family's last recorded activity. -/
  activity : String → Option Int

def Store.initial (clock : Int) : Store :=
  ⟨clock, .empty, .empty, .empty, [], [], [], [], fun _ => none, fun _ => none⟩

/-! ## Deadlines -/

/-- The sign-in a session descends from: `root_issued_at or issued_at`. -/
def AuthSession.root (r : AuthSession) : Int := r.rootIssuedAt.getD r.issuedAt

/-- `last_activity_at or issued_at`. -/
def AuthSession.lastActivity (r : AuthSession) : Int := r.lastActivityAt.getD r.issuedAt

/-- `auth_session_expiry_reason`. -/
def authSessionExpiryReason (cfg : Settings) (r : AuthSession) (now : Int) : Option String :=
  if now ≥ r.expiresAt then some "token_lifetime_exceeded"
  else if now ≥ r.root + hours cfg.sessionAbsoluteHours then some "absolute_lifetime_exceeded"
  else if now ≥ r.lastActivity + minutes cfg.sessionIdleMinutes then some "idle_timeout"
  else none

theorem authSessionExpiryReason_eq_none {cfg : Settings} {r : AuthSession} {now : Int}
    (h : authSessionExpiryReason cfg r now = none) :
    now < r.root + hours cfg.sessionAbsoluteHours ∧
      now < r.lastActivity + minutes cfg.sessionIdleMinutes := by
  unfold authSessionExpiryReason at h
  split at h
  · cases h
  · split at h
    · cases h
    · split at h
      · cases h
      · omega

/-- What PyJWT checks of the times in a bearer. -/
def Store.decodes (s : Store) (b : BearerToken) : Bool := b.iat ≤ s.clock && s.clock < b.exp

/-! ## Locks -/

/-- `lock_user_row`. -/
def lockUserRow (s : Store) (userId : String) (requireActive : Bool) : Option User :=
  (s.users.find? userId).filter fun u => !requireActive || u.isActive

/-- `lock_auth_session_row`. -/
def lockAuthSessionRow (s : Store) (jti userId : String) : Option AuthSession :=
  (s.sessions.find? jti).filter fun r => r.userId = userId && r.revokedAt = none

theorem lockUserRow_eq_some {s : Store} {userId : String} {requireActive : Bool} {u : User}
    (h : lockUserRow s userId requireActive = some u) :
    s.users.find? userId = some u ∧ (requireActive = true → u.isActive = true) := by
  obtain ⟨hfind, hactive⟩ := Option.filter_eq_some_iff.mp h
  refine ⟨hfind, fun hreq => ?_⟩
  simpa [hreq] using hactive

theorem lockAuthSessionRow_eq_some {s : Store} {jti userId : String} {r : AuthSession}
    (h : lockAuthSessionRow s jti userId = some r) :
    r ∈ s.sessions.rows ∧ r.jti = jti ∧ r.userId = userId ∧ r.revokedAt = none := by
  obtain ⟨hfind, hrow⟩ := Option.filter_eq_some_iff.mp h
  obtain ⟨hmem, hjti⟩ := KeyedTable.find?_eq_some hfind
  simp only [Bool.and_eq_true, decide_eq_true_eq] at hrow
  exact ⟨hmem, hjti, hrow.1, hrow.2⟩

/-! ## Issuing -/

/-- `TokenService.issue`. -/
def issue (cfg : Settings) (now : Int) (u : User) (jti : String) : BearerToken where
  sub := u.id
  ver := u.tokenVersion
  jti := jti
  iat := wholeSecond now
  exp := wholeSecond (now + minutes cfg.accessTokenMinutes)

/-- The optional arguments of `issue_access_session`. -/
structure Inherited where
  rootIssuedAt : Option Int
  lastActivityAt : Option Int
  lastStepUpAt : Option Int
  sessionFamilyId : Option String
  markStepUp : Bool

/-- The session row of `issue_access_session`. -/
def issuedSession (cfg : Settings) (now : Int) (u : User) (jti : String) (inh : Inherited) :
    AuthSession :=
  let token := issue cfg now u jti
  { jti := jti
    userId := u.id
    sessionFamilyId := inh.sessionFamilyId.getD jti
    issuedAt := token.iat
    expiresAt := token.exp
    revokedAt := none
    lastActivityAt := some (inh.lastActivityAt.getD token.iat)
    rootIssuedAt := some (inh.rootIssuedAt.getD (max token.iat now))
    lastStepUpAt := if inh.markStepUp then some token.iat else inh.lastStepUpAt }

/-- `issue_access_session`. -/
def issueAccessSession (cfg : Settings) (s : Store) (u : User) (jti : String) (inh : Inherited) :
    Store :=
  { s with
    sessions := s.sessions.insertNew (issuedSession cfg s.clock u jti inh)
    bearers := s.bearers ++ [issue cfg s.clock u jti]
    drawn := jti :: s.drawn }

/-- `finish_sign_in`: a session that starts a family. -/
def finishSignIn (cfg : Settings) (s : Store) (u : User) (jti : String) : Store :=
  { issueAccessSession cfg s u jti ⟨none, none, none, none, true⟩ with
    origin := Function.update s.origin jti (some s.clock)
    activity := Function.update s.activity jti (some (wholeSecond s.clock)) }

/-! ## Revoking -/

/-- The family's rows that are still live. -/
def liveFamily (s : Store) (userId familyId : String) : List AuthSession :=
  s.sessions.rows.filter fun r =>
    r.userId = userId && r.sessionFamilyId = familyId && r.revokedAt = none

/-- `revoked_at = now` on the rows that satisfy `p` and are live. -/
def revokeWhere (t : KeyedTable AuthSession.jti) (p : AuthSession → Bool) (now : Int) :
    KeyedTable AuthSession.jti :=
  t.modify (fun r => if p r && r.revokedAt = none then { r with revokedAt := some now } else r)
    fun r => by split <;> rfl

/-- `revoke_all_auth_sessions`. -/
def revokeAllAuthSessions (s : Store) (userId : String) : Store :=
  { s with
    sessions := revokeWhere s.sessions (fun r => r.userId = userId) s.clock
    users := s.users.modify
      (fun u => if u.id = userId then { u with tokenVersion := u.tokenVersion + 1 } else u)
      fun u => by split <;> rfl }

/-- `revoke_auth_session_family`. -/
def revokeAuthSessionFamily (s : Store) (userId familyId reason : String) : Store :=
  { s with
    sessions := revokeWhere s.sessions
      (fun r => r.userId = userId && r.sessionFamilyId = familyId) s.clock
    revokedTokens := (liveFamily s userId familyId).foldl
      (fun t r => t.insertNew ⟨r.jti, userId, r.expiresAt, reason, s.clock⟩) s.revokedTokens }

/-- `expire_auth_session`. -/
def expireAuthSession (s : Store) (r : AuthSession) (reason : String) : Store :=
  { s with
    sessions := revokeWhere s.sessions (fun x => x.jti = r.jti) s.clock
    revokedTokens := s.revokedTokens.insertNew ⟨r.jti, r.userId, r.expiresAt, reason, s.clock⟩ }

/-- `last_activity_at = max(now, last_activity_at or issued_at)`. -/
def recordActivity (s : Store) (r : AuthSession) : Store :=
  let latest := max s.clock r.lastActivity
  { s with
    sessions := s.sessions.modify
      (fun x => if x.jti = r.jti then { x with lastActivityAt := some latest } else x)
      fun x => by split <;> rfl
    activity := Function.update s.activity r.sessionFamilyId (some latest) }

/-- `last_step_up_at = verified_at`. -/
def recordStepUp (s : Store) (r : AuthSession) : Store :=
  { s with
    sessions := s.sessions.modify
      (fun x => if x.jti = r.jti then { x with lastStepUpAt := some s.clock } else x)
      fun x => by split <;> rfl }

/-- A `RevokedToken` row for a one-time token, or for a bearer that has none yet. -/
def denyToken (s : Store) (jti userId : String) (expiresAt : Int) (reason : String) : Store :=
  { s with
    revokedTokens := s.revokedTokens.insertNew ⟨jti, userId, expiresAt, reason, s.clock⟩ }

end Scap.Auth
