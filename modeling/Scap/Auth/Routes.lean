import Scap.Auth.Model
import Scap.Lib.Run

/-!
# The routes

`currentUser` is the dependency every authenticated route runs first, in a transaction of its own;
the routes then take the account lock and check the bearer again. What a route decides from data
outside this model (a password, a TOTP code, the ownership of a chat) is an argument `refusal`, the
HTTP status of a refusal or `none`; rate limits, which only ever refuse, are left out.
-/

namespace Scap.Auth

open Scap.Lib

/-- A transaction's reply. -/
abbrev Reply := Except Nat

variable (cfg : Settings)

/-! ## Presenting a bearer -/

/-- `detect_rotated_token_reuse`. -/
def detectRotatedTokenReuse (s : Store) (u : User) (r : AuthSession) (revoked : RevokedToken) :
    Store :=
  if s.clock - revoked.createdAt < seconds cfg.tokenReuseGraceSeconds then s
  else if lockUserRow s u.id true = none then s
  else revokeAuthSessionFamily s u.id r.sessionFamilyId "token_reuse"

/-- `current_user`. The locked second half re-reads everything the first half has read, so one
reading of the store stands for both. -/
def currentUser (s : Store) (metadataPath : Bool) (b : BearerToken) : Store × Reply User :=
  if s.decodes b = false then (s, .error 401)
  else match s.users.find? b.sub, s.sessions.find? b.jti with
    | some u, some r =>
      match s.revokedTokens.find? b.jti with
      | some revoked =>
        if revoked.reason = "refresh" ∧ r.userId = u.id then
          (detectRotatedTokenReuse cfg s u r revoked, .error 401)
        else (s, .error 401)
      | none =>
        if u.isActive = true ∧ b.ver = u.tokenVersion ∧ r.userId = u.id ∧ r.revokedAt = none then
          match authSessionExpiryReason cfg r s.clock with
          | some reason => (expireAuthSession s r reason, .error 401)
          | none => (if metadataPath then s else recordActivity s r, .ok u)
        else (s, .error 401)
    | _, _ => (s, .error 401)

/-- `require_recent_step_up`. -/
def recentStepUp (s : Store) (r : AuthSession) : Bool :=
  r.lastStepUpAt.elim false fun at_ => s.clock - at_ ≤ minutes cfg.stepUpMinutes

/-- `lock_account_mutation`: the account as re-read under the lock, and the session. -/
def lockAccountMutation (s : Store) (b : BearerToken) (stepUp : Bool) :
    Reply (User × AuthSession) :=
  if s.decodes b = false then .error 401
  else match lockUserRow s b.sub true with
    | none => .error 401
    | some u =>
      if b.ver ≠ u.tokenVersion then .error 401
      else match lockAuthSessionRow s b.jti u.id with
        | none => .error 401
        | some r =>
          if s.revokedTokens.find? b.jti ≠ none ∨
              authSessionExpiryReason cfg r s.clock ≠ none then .error 401
          else if stepUp = true ∧ recentStepUp cfg s r = false then .error 403
          else .ok (u, r)

/-- `lock_admin_mutation`, with the account it is to change. -/
def lockAdminMutation (s : Store) (b : BearerToken) (targetId : String) : Reply User :=
  match lockAccountMutation cfg s b false with
  | .error e => .error e
  | .ok (actor, r) =>
    if actor.role ≠ "admin" then .error 403
    else if cfg.highSecurity = true ∧ actor.mfaEnabled = false then .error 403
    else if recentStepUp cfg s r = false then .error 403
    else match s.users.find? targetId with
      | none => .error 404
      | some target => .ok target

/-! ## Signing in -/

/-- `login`: a session, or an MFA challenge under the same UUID. -/
def login (s : Store) (userId : String) (refusal : Option Nat) (jti : String) :
    Store × Reply Unit :=
  match lockUserRow s userId false, refusal with
  | some u, none =>
    if u.isActive = false then (s, .error 401)
    else if u.mfaEnabled then
      let challenge : MfaChallenge :=
        ⟨u.id, u.tokenVersion, jti, wholeSecond (s.clock + minutes cfg.mfaChallengeMinutes)⟩
      ({ s with challenges := s.challenges ++ [challenge], drawn := jti :: s.drawn }, .ok ())
    else (finishSignIn cfg s u jti, .ok ())
  | _, some status => (s, .error status)
  | none, none => (s, .error 401)

/-- `passkey_authentication_verify`. -/
def passkeyLogin (s : Store) (userId : String) (refusal : Option Nat) (jti : String) :
    Store × Reply Unit :=
  match lockUserRow s userId false, refusal with
  | some u, none =>
    if u.isActive = false then (s, .error 401) else (finishSignIn cfg s u jti, .ok ())
  | _, some status => (s, .error status)
  | none, none => (s, .error 401)

/-- `mfa_verify`. The factor is claimed on the account row while it has the challenge's version. -/
def mfaVerify (s : Store) (c : MfaChallenge) (refusal : Option Nat) (jti : String) :
    Store × Reply Unit :=
  if c.exp ≤ s.clock then (s, .error 401)
  else if s.revokedTokens.find? c.jti ≠ none then (s, .error 401)
  else match s.users.find? c.sub with
    | none => (s, .error 401)
    | some u =>
      if u.isActive = false ∨ c.ver ≠ u.tokenVersion ∨ u.mfaEnabled = false then (s, .error 401)
      else match refusal with
        | some status => (s, .error status)
        | none =>
          (finishSignIn cfg (denyToken s c.jti u.id c.exp "mfa_challenge_used") u jti, .ok ())

/-- `refresh_session`. -/
def refreshSession (s : Store) (b : BearerToken) (jti : String) : Store × Reply BearerToken :=
  if s.decodes b = false then (s, .error 401)
  else match lockUserRow s b.sub true with
    | none => (s, .error 401)
    | some u =>
      if b.ver ≠ u.tokenVersion then (s, .error 401)
      else match lockAuthSessionRow s b.jti u.id with
        | none => (s, .error 401)
        | some old =>
          if s.revokedTokens.find? b.jti ≠ none then (s, .error 401)
          else match authSessionExpiryReason cfg old s.clock with
            | some reason => (expireAuthSession s old reason, .error 401)
            | none =>
              let issued := issueAccessSession cfg s u jti {
                rootIssuedAt := some old.root
                lastActivityAt := some old.lastActivity
                lastStepUpAt := old.lastStepUpAt
                sessionFamilyId := some old.sessionFamilyId
                markStepUp := false }
              let denied := denyToken issued b.jti u.id b.exp "refresh"
              let sessions := revokeWhere denied.sessions (fun x => x.jti = old.jti) s.clock
              ({ denied with sessions := sessions }, .ok (issue cfg s.clock u jti))

/-! ## Signing out -/

/-- `logout`. -/
def logout (s : Store) (b : BearerToken) : Store × Reply Unit :=
  if s.decodes b = false then (s, .error 401)
  else match lockUserRow s b.sub true with
    | none => (s, .error 401)
    | some u =>
      if b.ver ≠ u.tokenVersion then (s, .error 401)
      else
        let live := lockAuthSessionRow s b.jti u.id
        let source := live.or (s.sessions.find? b.jti)
        let s' := match source.filter fun r => r.userId = u.id with
          | none => revokeAllAuthSessions s u.id
          | some r => revokeAuthSessionFamily s u.id r.sessionFamilyId "logout"
        (if live = none then denyToken s' b.jti u.id b.exp "logout" else s', .ok ())

/-- `revoke_auth_session`. -/
def revokeAuthSession (s : Store) (b : BearerToken) (sessionJti : String) : Store × Reply Unit :=
  match lockAccountMutation cfg s b true with
  | .error e => (s, .error e)
  | .ok (u, _) =>
    match (s.sessions.find? sessionJti).filter fun r => r.userId = u.id with
    | none => (s, .error 404)
    | some r =>
      if (liveFamily s u.id r.sessionFamilyId).isEmpty then (s, .error 404)
      else (revokeAuthSessionFamily s u.id r.sessionFamilyId "session_revoke", .ok ())

/-! ## Changes that revoke everything -/

/-- A change of an account's other columns. -/
def setAccount (s : Store) (userId role : String) (isActive mfaEnabled : Bool) : Store :=
  let users := s.users.modify
    (fun u => if u.id = userId then
      { u with role := role, isActive := isActive, mfaEnabled := mfaEnabled } else u)
    fun u => by split <;> rfl
  { s with users := users }

/-- `logout_all`. -/
def logoutAll (s : Store) (b : BearerToken) : Store × Reply Unit :=
  match lockAccountMutation cfg s b true with
  | .error e => (s, .error e)
  | .ok (u, _) => (revokeAllAuthSessions s u.id, .ok ())

/-- `change_password`. -/
def changePassword (s : Store) (b : BearerToken) (refusal : Option Nat) : Store × Reply Unit :=
  match lockAccountMutation cfg s b false, refusal with
  | .error e, _ => (s, .error e)
  | .ok _, some status => (s, .error status)
  | .ok (u, _), none => (revokeAllAuthSessions s u.id, .ok ())

/-- `confirm_password_reset`. -/
def confirmPasswordReset (s : Store) (userId : String) (refusal : Option Nat) :
    Store × Reply Unit :=
  match lockUserRow s userId true, refusal with
  | some u, none => (revokeAllAuthSessions s u.id, .ok ())
  | _, some status => (s, .error status)
  | none, none => (s, .error 400)

/-- `mfa_activate` and `mfa_disable`: the flag goes to `enable` unless it is there already. -/
def setMfa (enable : Bool) (s : Store) (b : BearerToken) (refusal : Option Nat) :
    Store × Reply Unit :=
  match lockAccountMutation cfg s b false with
  | .error e => (s, .error e)
  | .ok (u, _) =>
    if u.mfaEnabled = enable then (s, .error 409)
    else match refusal with
      | some status => (s, .error status)
      | none =>
        (revokeAllAuthSessions (setAccount s u.id u.role u.isActive enable) u.id, .ok ())

/-- `mfa_activate`. -/
def mfaActivate (s : Store) (b : BearerToken) (refusal : Option Nat) : Store × Reply Unit :=
  setMfa cfg true s b refusal

/-- `mfa_disable`. -/
def mfaDisable (s : Store) (b : BearerToken) (refusal : Option Nat) : Store × Reply Unit :=
  setMfa cfg false s b refusal

/-- `admin_change_role`. -/
def adminChangeRole (s : Store) (b : BearerToken) (targetId role : String) : Store × Reply Unit :=
  match lockAdminMutation cfg s b targetId with
  | .error e => (s, .error e)
  | .ok target =>
    if target.id = b.sub then (s, .error 400)
    else (revokeAllAuthSessions (setAccount s target.id role target.isActive target.mfaEnabled)
      target.id, .ok ())

/-- `update_user_status`. -/
def updateUserStatus (s : Store) (b : BearerToken) (targetId : String) (isActive : Bool) :
    Store × Reply Unit :=
  match lockAdminMutation cfg s b targetId with
  | .error e => (s, .error e)
  | .ok target =>
    if target.id = b.sub ∧ isActive = false then (s, .error 400)
    else if target.isActive = isActive then (s, .ok ())
    else (revokeAllAuthSessions (setAccount s target.id target.role isActive target.mfaEnabled)
      target.id, .ok ())

/-- `admin_delete_user`: the account goes, and its sessions with it. -/
def adminDeleteUser (s : Store) (b : BearerToken) (targetId : String) : Store × Reply Unit :=
  match lockAdminMutation cfg s b targetId with
  | .error e => (s, .error e)
  | .ok target =>
    if target.id = b.sub then (s, .error 400)
    else if target.role = "admin" then (s, .error 400)
    else ({ s with
      users := s.users.filter fun u => u.id ≠ target.id
      sessions := s.sessions.filter fun r => r.userId ≠ target.id }, .ok ())

/-! ## Step-up and export -/

/-- `step_up_authentication` and `passkey_step_up_verify`. -/
def stepUpAuthentication (s : Store) (b : BearerToken) (refusal : Option Nat) :
    Store × Reply Unit :=
  match lockAccountMutation cfg s b false, refusal with
  | .error e, _ => (s, .error e)
  | .ok _, some status => (s, .error status)
  | .ok (_, r), none => (recordStepUp s r, .ok ())

/-- `create_export_ticket`. -/
def createExportTicket (s : Store) (b : BearerToken) (sid : String) (refusal : Option Nat)
    (jti : String) : Store × Reply Unit :=
  match lockAccountMutation cfg s b true, refusal with
  | .error e, _ => (s, .error e)
  | .ok _, some status => (s, .error status)
  | .ok (u, r), none =>
    let ticket : ExportTicket :=
      ⟨u.id, sid, u.tokenVersion, r.jti, jti, wholeSecond (s.clock + seconds 60)⟩
    ({ s with tickets := s.tickets ++ [ticket], drawn := jti :: s.drawn }, .ok ())

/-- `consume_export_ticket`. -/
def consumeExportTicket (s : Store) (k : ExportTicket) (refusal : Option Nat) :
    Store × Reply Unit :=
  if k.exp ≤ s.clock then (s, .error 404)
  else if s.revokedTokens.find? k.jti ≠ none then (s, .error 410)
  else match lockUserRow s k.sub true with
    | none => (s, .error 404)
    | some u =>
      if k.ver ≠ u.tokenVersion then (s, .error 404)
      else match lockAuthSessionRow s k.parentJti u.id with
        | none => (s, .error 404)
        | some parent =>
          if s.revokedTokens.find? k.parentJti ≠ none then (s, .error 404)
          else match authSessionExpiryReason cfg parent s.clock with
            | some reason => (expireAuthSession s parent reason, .error 404)
            | none =>
              match refusal with
              | some status => (s, .error status)
              | none => (denyToken s k.jti k.sub k.exp "export_consumed", .ok ())

/-! ## The system -/

/-- `enforce_retention` on the two tables; a batch is some of the expired rows. -/
def sweep (s : Store) (jtis : List String) : Store :=
  { s with
    sessions := s.sessions.filter fun r => !(decide (r.expiresAt ≤ s.clock) && jtis.contains r.jti)
    revokedTokens := s.revokedTokens.filter fun r =>
      !(decide (r.expiresAt ≤ s.clock) && jtis.contains r.jti) }

/-- What can happen next. A UUID argument is one the server draws in the step. -/
inductive Action where
  | tick (microseconds : Nat)
  | register (id : String) (role : String)
  | login (userId : String) (refusal : Option Nat) (jti : String)
  | passkeyLogin (userId : String) (refusal : Option Nat) (jti : String)
  | mfaVerify (c : MfaChallenge) (refusal : Option Nat) (jti : String)
  | request (metadataPath : Bool) (b : BearerToken)
  | refresh (b : BearerToken) (jti : String)
  | logout (b : BearerToken)
  | revokeSession (b : BearerToken) (sessionJti : String)
  | logoutAll (b : BearerToken)
  | changePassword (b : BearerToken) (refusal : Option Nat)
  | passwordReset (userId : String) (refusal : Option Nat)
  | mfaActivate (b : BearerToken) (refusal : Option Nat)
  | mfaDisable (b : BearerToken) (refusal : Option Nat)
  | changeRole (b : BearerToken) (targetId role : String)
  | updateStatus (b : BearerToken) (targetId : String) (isActive : Bool)
  | deleteUser (b : BearerToken) (targetId : String)
  | stepUp (b : BearerToken) (refusal : Option Nat)
  | createTicket (b : BearerToken) (sid : String) (refusal : Option Nat) (jti : String)
  | consumeTicket (k : ExportTicket) (refusal : Option Nat)
  | sweep (jtis : List String)
  deriving DecidableEq, Repr

/-- The store after an action; `none` where it presents a token that was never handed out or draws
a UUID that was drawn before. -/
def stepStore (s : Store) : Action → Option Store
  | .tick d => some { s with clock := s.clock + d }
  | .register id role =>
      if id ∈ s.drawn then none
      else some { s with
        users := s.users.insertNew ⟨id, role, true, false, 1⟩
        drawn := id :: s.drawn }
  | .login userId refusal jti => if jti ∈ s.drawn then none else (login cfg s userId refusal jti).1
  | .passkeyLogin userId refusal jti =>
      if jti ∈ s.drawn then none else (passkeyLogin cfg s userId refusal jti).1
  | .mfaVerify c refusal jti =>
      if jti ∈ s.drawn ∨ c ∉ s.challenges then none else (mfaVerify cfg s c refusal jti).1
  | .request metadataPath b =>
      if b ∉ s.bearers then none else (currentUser cfg s metadataPath b).1
  | .refresh b jti =>
      if jti ∈ s.drawn ∨ b ∉ s.bearers then none else (refreshSession cfg s b jti).1
  | .logout b => if b ∉ s.bearers then none else (logout s b).1
  | .revokeSession b j => if b ∉ s.bearers then none else (revokeAuthSession cfg s b j).1
  | .logoutAll b => if b ∉ s.bearers then none else (logoutAll cfg s b).1
  | .changePassword b refusal => if b ∉ s.bearers then none else (changePassword cfg s b refusal).1
  | .passwordReset userId refusal => (confirmPasswordReset s userId refusal).1
  | .mfaActivate b refusal => if b ∉ s.bearers then none else (mfaActivate cfg s b refusal).1
  | .mfaDisable b refusal => if b ∉ s.bearers then none else (mfaDisable cfg s b refusal).1
  | .changeRole b target role =>
      if b ∉ s.bearers then none else (adminChangeRole cfg s b target role).1
  | .updateStatus b target isActive =>
      if b ∉ s.bearers then none else (updateUserStatus cfg s b target isActive).1
  | .deleteUser b target => if b ∉ s.bearers then none else (adminDeleteUser cfg s b target).1
  | .stepUp b refusal => if b ∉ s.bearers then none else (stepUpAuthentication cfg s b refusal).1
  | .createTicket b sid refusal jti =>
      if jti ∈ s.drawn ∨ b ∉ s.bearers then none else (createExportTicket cfg s b sid refusal jti).1
  | .consumeTicket k refusal =>
      if k ∉ s.tickets then none else (consumeExportTicket cfg s k refusal).1
  | .sweep jtis => some (sweep s jtis)

/-- The platform from an empty database on. -/
def authSystem : System Store Action :=
  System.ofFun (fun s => ∃ clock, s = Store.initial clock) (stepStore cfg)

end Scap.Auth
