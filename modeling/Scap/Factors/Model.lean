import Scap.Auth.Routes
import Scap.Py.Text

/-!
# One-time factors

`FactorStore` is the authentication store with what can authorise an operation once: the TOTP secret
of an account and the last time step it accepted, recovery codes, and WebAuthn challenges. MFA
challenges and export tickets are in the authentication store, and `revoked_tokens` is their ledger.

A route behind a row lock is one step. `mfa_verify` reads before it locks and is two steps, with a
`Pending` between them: `beginMfaVerify` matches the code against what it has read, and
`finishMfaVerify` claims the factor with conditional updates. A successful reply lists the factors
that authorised it. Retention, which deletes expired rows of the ledger, is not among the requests.

`hotp` is the code of a time step, `isDigit` is `str.isdigit` of one character, and `recovers` says
whether a recovery code, once cleaned, verifies against a stored hash.
-/

namespace Scap.Factors

open Scap.Lib Scap.Py Scap.Auth

/-! ## Rows -/

/-- A row of `mfa_recovery_codes`. -/
structure RecoveryCode where
  id : String
  userId : String
  codeHash : String
  usedAt : Option Int
  deriving DecidableEq, Repr

inductive Purpose where
  | register
  | authenticate
  | stepUp
  deriving DecidableEq, Repr

/-- A row of `webauthn_challenges`. -/
structure WebAuthnChallenge where
  id : String
  userId : Option String
  authSessionId : Option String
  purpose : Purpose
  expiresAt : Int
  consumedAt : Option Int
  deriving DecidableEq, Repr

/-- What can authorise an operation once. -/
inductive Factor where
  | totp (secret : String) (counter : Int)
  | recovery (id : String)
  | mfaChallenge (jti : String)
  | ticket (jti : String)
  | webauthn (id : String)
  deriving DecidableEq, Repr

/-- What a code has matched: a time step of the secret, or unused recovery codes. -/
inductive Matched where
  | totp (secret : String) (counter : Int)
  | recovery (ids : List String)
  deriving DecidableEq, Repr

/-- An `mfa_verify` that has read and not yet claimed. -/
structure Pending where
  challenge : MfaChallenge
  found : Matched
  deriving DecidableEq, Repr

structure FactorStore where
  auth : Store
  /-- `mfa_secret_ciphertext`, opened. -/
  mfaSecret : String → Option String
  mfaLastCounter : String → Int
  recoveryCodes : KeyedTable RecoveryCode.id
  webauthn : KeyedTable WebAuthnChallenge.id
  pending : List Pending
  /-- Every secret generated so far. -/
  secrets : List String

def FactorStore.initial (clock : Int) : FactorStore :=
  ⟨Store.initial clock, fun _ => none, fun _ => 0, .empty, .empty, [], []⟩

variable (hotp : String → Int → String) (isDigit : Char → Bool)
  (recovers : String → String → Bool) (cfg : Settings)

/-! ## Matching -/

/-- The time step of a code. -/
def totpCounter (now : Int) : Int := now / 30000000

/-- `TotpService.verify`. Comparing a candidate outside ASCII raises. -/
def verifyTotp (secret code : String) (now : Int) (afterCounter : Option Int) :
    Reply (Option Int) :=
  let candidate := (strip code).toList.filter (· ≠ ' ')
  if candidate.length ≠ 6 ∨ candidate.all isDigit = false then .ok none
  else
    let current := totpCounter now
    let counters := [current - 1, current, current + 1].filter fun counter =>
      0 ≤ counter && afterCounter.all (· < counter)
    if counters ≠ [] ∧ candidate.all (fun c => c.toNat < 128) = false then .error 500
    else .ok (counters.find? fun counter => hotp secret counter = String.ofList candidate)

/-- The unused recovery codes of an account that the code verifies against. -/
def matchRecovery (s : FactorStore) (userId code : String) : List String :=
  (s.recoveryCodes.rows.filter fun r =>
    r.userId = userId && r.usedAt = none && recovers r.codeHash code).map (·.id)

/-- What a code matches: a time step first, then recovery codes. -/
def matchCode (s : FactorStore) (userId secret code : String) : Reply Matched :=
  match verifyTotp hotp isDigit secret code s.auth.clock (some (s.mfaLastCounter userId)) with
  | .error status => .error status
  | .ok (some counter) => .ok (.totp secret counter)
  | .ok none => .ok (.recovery (matchRecovery recovers s userId code))

/-! ## Claiming -/

/-- `claim_totp_counter`. -/
def claimTotpCounter (s : FactorStore) (userId : String) (counter : Int)
    (expectedVersion : Option Int) : Option FactorStore :=
  match s.auth.users.find? userId with
  | none => none
  | some u =>
    if u.mfaEnabled = true ∧ s.mfaLastCounter userId < counter ∧
        expectedVersion.all (· = u.tokenVersion) = true then
      some { s with mfaLastCounter := Function.update s.mfaLastCounter userId counter }
    else none

/-- `claim_mfa_account_version`. -/
def claimMfaAccountVersion (s : FactorStore) (userId : String) (expectedVersion : Int) : Bool :=
  ((s.auth.users.find? userId).filter fun u =>
    u.mfaEnabled && u.tokenVersion = expectedVersion).isSome

/-- `used_at = now`. -/
def burnRecovery (s : FactorStore) (id : String) : FactorStore :=
  { s with
    recoveryCodes := s.recoveryCodes.modify
      (fun r => if r.id = id then { r with usedAt := some s.auth.clock } else r)
      fun r => by split <;> rfl }

/-- The loop of `consume_recovery_code` over the codes it has matched. -/
def consumeRecoveryCode (s : FactorStore) (userId : String) (expectedVersion : Option Int) :
    List String → Option (FactorStore × String)
  | [] => none
  | id :: ids =>
      if expectedVersion.any (fun v => !claimMfaAccountVersion s userId v) then none
      else if (s.recoveryCodes.find? id).any (fun r => r.usedAt = none) then
        some (burnRecovery s id, id)
      else consumeRecoveryCode s userId expectedVersion ids

/-- Claims what a code has matched. -/
def claimMatched (s : FactorStore) (userId : String) (expectedVersion : Option Int) :
    Matched → Option (FactorStore × Factor)
  | .totp secret counter =>
      (claimTotpCounter s userId counter expectedVersion).map fun t => (t, .totp secret counter)
  | .recovery ids =>
      (consumeRecoveryCode s userId expectedVersion ids).map fun (t, id) => (t, .recovery id)

/-! ## Signing in with a second factor -/

/-- `mfa_verify`, up to the claim. -/
def beginMfaVerify (s : FactorStore) (c : MfaChallenge) (code : String) (refusal : Option Nat) :
    FactorStore × Reply (List Factor) :=
  if c.exp ≤ s.auth.clock then (s, .error 401)
  else if s.auth.revokedTokens.find? c.jti ≠ none then (s, .error 401)
  else match s.auth.users.find? c.sub with
    | none => (s, .error 401)
    | some u =>
      if u.isActive = false ∨ c.ver ≠ u.tokenVersion ∨ u.mfaEnabled = false then (s, .error 401)
      else match refusal, s.mfaSecret u.id with
        | some status, _ => (s, .error status)
        | none, none => (s, .error 401)
        | none, some secret =>
          match matchCode hotp isDigit recovers s u.id secret code with
          | .error status => (s, .error status)
          | .ok found => ({ s with pending := ⟨c, found⟩ :: s.pending }, .ok [])

/-- `mfa_verify`, from the claim on. What is claimed is rolled back where the challenge is in the
ledger by now. -/
def finishMfaVerify (s : FactorStore) (p : Pending) (jti : String) :
    FactorStore × Reply (List Factor) :=
  let s := { s with pending := s.pending.erase p }
  match claimMatched s p.challenge.sub (some p.challenge.ver) p.found,
    s.auth.users.find? p.challenge.sub with
  | some (t, factor), some u =>
    if s.auth.revokedTokens.find? p.challenge.jti ≠ none then (s, .error 401)
    else
      let denied := denyToken t.auth p.challenge.jti u.id p.challenge.exp "mfa_challenge_used"
      ({ t with auth := finishSignIn cfg denied u jti },
        .ok [.mfaChallenge p.challenge.jti, factor])
  | _, _ => (s, .error 401)

/-! ## Enrolling -/

/-- `mfa_enroll`. -/
def mfaEnroll (s : FactorStore) (b : BearerToken) (secret : String) :
    FactorStore × Reply (List Factor) :=
  match lockAccountMutation cfg s.auth b true with
  | .error e => (s, .error e)
  | .ok (u, _) =>
    if u.mfaEnabled then (s, .error 409)
    else
      ({ s with
        mfaSecret := Function.update s.mfaSecret u.id (some secret)
        secrets := secret :: s.secrets }, .ok [])

/-- The rows of new recovery codes, each with its identifier and its hash. -/
def newRecoveryCodes (t : KeyedTable RecoveryCode.id) (userId : String)
    (codes : List (String × String)) : KeyedTable RecoveryCode.id :=
  codes.foldl (fun t code => t.insertNew ⟨code.1, userId, code.2, none⟩) t

/-- `mfa_activate`. -/
def mfaActivate (s : FactorStore) (b : BearerToken) (code : String)
    (codes : List (String × String)) : FactorStore × Reply (List Factor) :=
  match lockAccountMutation cfg s.auth b false with
  | .error e => (s, .error e)
  | .ok (u, _) =>
    if u.mfaEnabled then (s, .error 409)
    else match s.mfaSecret u.id with
      | none => (s, .error 409)
      | some secret =>
        match verifyTotp hotp isDigit secret code s.auth.clock none with
        | .error status => (s, .error status)
        | .ok none => (s, .error 400)
        | .ok (some counter) =>
          if s.mfaLastCounter u.id < counter then
            let auth := (Auth.mfaActivate cfg s.auth b none).1
            ({ s with
              auth := { auth with drawn := codes.map (·.1) ++ auth.drawn }
              mfaLastCounter := Function.update s.mfaLastCounter u.id counter
              recoveryCodes := newRecoveryCodes s.recoveryCodes u.id codes },
              .ok [.totp secret counter])
          else (s, .error 409)

/-- `mfa_disable`. `sensitive` says whether policy denies it. -/
def mfaDisable (s : FactorStore) (b : BearerToken) (passwordOk : Bool) (code : String)
    (sensitive : Bool) : FactorStore × Reply (List Factor) :=
  match lockAccountMutation cfg s.auth b false with
  | .error e => (s, .error e)
  | .ok (u, _) =>
    if u.mfaEnabled = false then (s, .error 409)
    else if passwordOk = false then (s, .error 401)
    else
      let matched : Reply Matched :=
        match s.mfaSecret u.id with
        | none => .ok (.recovery (matchRecovery recovers s u.id code))
        | some secret => matchCode hotp isDigit recovers s u.id secret code
      match matched with
      | .error status => (s, .error status)
      | .ok found =>
        match claimMatched s u.id (some u.tokenVersion) found with
        | none => (s, .error 401)
        | some (t, factor) =>
          if sensitive then (s, .error 409)
          else
            ({ t with
              auth := (Auth.mfaDisable cfg t.auth b none).1
              mfaSecret := Function.update t.mfaSecret u.id none
              mfaLastCounter := Function.update t.mfaLastCounter u.id 0
              recoveryCodes := t.recoveryCodes.filter fun r => r.userId ≠ u.id },
              .ok [factor])

/-! ## Step-up and export -/

/-- `step_up_authentication`. -/
def stepUpAuthentication (s : FactorStore) (b : BearerToken) (passwordOk : Bool)
    (code : Option String) : FactorStore × Reply (List Factor) :=
  match lockAccountMutation cfg s.auth b false with
  | .error e => (s, .error e)
  | .ok (u, _) =>
    if passwordOk = false then (s, .error 401)
    else if u.mfaEnabled = false then
      ({ s with auth := (Auth.stepUpAuthentication cfg s.auth b none).1 }, .ok [])
    else match s.mfaSecret u.id, code.filter (· ≠ "") with
      | some secret, some code =>
        match matchCode hotp isDigit recovers s u.id secret code with
        | .error status => (s, .error status)
        | .ok found =>
          match claimMatched s u.id none found with
          | none => (s, .error 401)
          | some (t, factor) =>
            ({ t with auth := (Auth.stepUpAuthentication cfg t.auth b none).1 }, .ok [factor])
      | _, _ => (s, .error 401)

/-- `consume_export_ticket`. -/
def consumeExportTicket (s : FactorStore) (k : ExportTicket) (refusal : Option Nat) :
    FactorStore × Reply (List Factor) :=
  match Auth.consumeExportTicket cfg s.auth k refusal with
  | (auth, .error e) => ({ s with auth := auth }, .error e)
  | (auth, .ok _) => ({ s with auth := auth }, .ok [.ticket k.jti])

/-! ## Passkeys -/

/-- `_new_challenge`. -/
def newChallenge (s : FactorStore) (purpose : Purpose) (userId authSessionId : Option String)
    (id : String) : FactorStore × Reply (List Factor) :=
  let row : WebAuthnChallenge :=
    ⟨id, userId, authSessionId, purpose, s.auth.clock + seconds 180, none⟩
  ({ s with
    auth := { s.auth with drawn := id :: s.auth.drawn }
    webauthn := s.webauthn.insertNew row }, .ok [])

/-- `passkey_registration_options`, `passkey_step_up_options` and
`passkey_authentication_options`, in that order of purposes. -/
def passkeyOptions (s : FactorStore) (purpose : Purpose) (b : BearerToken)
    (refusal : Option Nat) (id : String) : FactorStore × Reply (List Factor) :=
  match purpose with
  | .authenticate =>
    match refusal with
    | some status => (s, .error status)
    | none => newChallenge s .authenticate none none id
  | .register =>
    match lockAccountMutation cfg s.auth b true, refusal with
    | .error e, _ => (s, .error e)
    | .ok _, some status => (s, .error status)
    | .ok (u, _), none => newChallenge s .register (some u.id) none id
  | .stepUp =>
    match lockAccountMutation cfg s.auth b false, refusal with
    | .error e, _ => (s, .error e)
    | .ok _, some status => (s, .error status)
    | .ok (u, r), none => newChallenge s .stepUp (some u.id) (some r.jti) id

/-- `_consume_challenge`. -/
def consumeChallenge (s : FactorStore) (id : String) (purpose : Purpose)
    (userId authSessionId : Option String) : Option FactorStore :=
  match (s.webauthn.find? id).filter fun r =>
      r.purpose = purpose && r.userId = userId && r.authSessionId = authSessionId &&
        r.consumedAt = none && s.auth.clock < r.expiresAt with
  | none => none
  | some _ =>
    some { s with
      webauthn := s.webauthn.modify
        (fun r => if r.id = id then { r with consumedAt := some s.auth.clock } else r)
        fun r => by split <;> rfl }

/-- `passkey_registration_verify`. What the ceremony itself refuses, it refuses with the challenge
consumed. -/
def passkeyRegistrationVerify (s : FactorStore) (b : BearerToken) (challengeId : String)
    (refusal : Option Nat) : FactorStore × Reply (List Factor) :=
  match lockAccountMutation cfg s.auth b true with
  | .error e => (s, .error e)
  | .ok (u, _) =>
    match consumeChallenge s challengeId .register (some u.id) none, refusal with
    | none, _ => (s, .error 400)
    | some t, some status => (t, .error status)
    | some t, none => (t, .ok [.webauthn challengeId])

/-- `passkey_step_up_verify`. -/
def passkeyStepUpVerify (s : FactorStore) (b : BearerToken) (challengeId : String)
    (refusal : Option Nat) : FactorStore × Reply (List Factor) :=
  match lockAccountMutation cfg s.auth b false with
  | .error e => (s, .error e)
  | .ok (u, r) =>
    match consumeChallenge s challengeId .stepUp (some u.id) (some r.jti), refusal with
    | none, _ => (s, .error 401)
    | some t, some status => (t, .error status)
    | some t, none =>
      ({ t with auth := (Auth.stepUpAuthentication cfg t.auth b none).1 },
        .ok [.webauthn challengeId])

/-- `passkey_authentication_verify`. The account is the owner of the presented credential. -/
def passkeyAuthenticationVerify (s : FactorStore) (userId : String) (challengeId : String)
    (refusal : Option Nat) (jti : String) : FactorStore × Reply (List Factor) :=
  match consumeChallenge s challengeId .authenticate none none with
  | none => (s, .error 401)
  | some t =>
    match passkeyLogin cfg t.auth userId refusal jti with
    | (_, .error status) => (t, .error status)
    | (auth, .ok _) => ({ t with auth := auth }, .ok [.webauthn challengeId])

/-! ## The system -/

/-- What can happen next. `request` is any request that takes no one-time factor. -/
inductive Action where
  | request (a : Auth.Action)
  | beginMfaVerify (c : MfaChallenge) (code : String) (refusal : Option Nat)
  | finishMfaVerify (p : Pending) (jti : String)
  | mfaEnroll (b : BearerToken) (secret : String)
  | mfaActivate (b : BearerToken) (code : String) (codes : List (String × String))
  | mfaDisable (b : BearerToken) (passwordOk : Bool) (code : String) (sensitive : Bool)
  | stepUp (b : BearerToken) (passwordOk : Bool) (code : Option String)
  | consumeTicket (k : ExportTicket) (refusal : Option Nat)
  | passkeyOptions (purpose : Purpose) (b : BearerToken) (refusal : Option Nat) (id : String)
  | passkeyRegister (b : BearerToken) (challengeId : String) (refusal : Option Nat)
  | passkeyStepUp (b : BearerToken) (challengeId : String) (refusal : Option Nat)
  | passkeyLogin (userId challengeId : String) (refusal : Option Nat) (jti : String)
  deriving DecidableEq, Repr

/-- The requests that take no factor; those that do have actions of their own. -/
def takesNoFactor : Auth.Action → Bool
  | .passkeyLogin .. | .mfaVerify .. | .mfaActivate .. | .mfaDisable .. | .stepUp ..
  | .consumeTicket .. | .sweep .. => false
  | _ => true

/-- What a client can present, and what the server can draw. -/
def admissible (s : FactorStore) : Action → Bool
  | .request a => takesNoFactor a && (stepStore cfg s.auth a).isSome
  | .beginMfaVerify c _ _ => c ∈ s.auth.challenges
  | .finishMfaVerify p jti => p ∈ s.pending && jti ∉ s.auth.drawn
  | .mfaEnroll b secret => b ∈ s.auth.bearers && secret ∉ s.secrets
  | .mfaActivate b _ codes =>
      b ∈ s.auth.bearers && codes.all (fun code => code.1 ∉ s.auth.drawn) &&
        (codes.map (·.1)).Nodup
  | .mfaDisable b .. => b ∈ s.auth.bearers
  | .stepUp b .. => b ∈ s.auth.bearers
  | .consumeTicket k _ => k ∈ s.auth.tickets
  | .passkeyOptions purpose b _ id =>
      (purpose = .authenticate || b ∈ s.auth.bearers) && id ∉ s.auth.drawn
  | .passkeyRegister b .. => b ∈ s.auth.bearers
  | .passkeyStepUp b .. => b ∈ s.auth.bearers
  | .passkeyLogin _ _ _ jti => jti ∉ s.auth.drawn

/-- The store after an action, and the reply. -/
def perform (s : FactorStore) : Action → FactorStore × Reply (List Factor)
  | .request a => ({ s with auth := (stepStore cfg s.auth a).getD s.auth }, .ok [])
  | .beginMfaVerify c code refusal => beginMfaVerify hotp isDigit recovers s c code refusal
  | .finishMfaVerify p jti => finishMfaVerify cfg s p jti
  | .mfaEnroll b secret => mfaEnroll cfg s b secret
  | .mfaActivate b code codes => mfaActivate hotp isDigit cfg s b code codes
  | .mfaDisable b passwordOk code sensitive =>
      mfaDisable hotp isDigit recovers cfg s b passwordOk code sensitive
  | .stepUp b passwordOk code => stepUpAuthentication hotp isDigit recovers cfg s b passwordOk code
  | .consumeTicket k refusal => consumeExportTicket cfg s k refusal
  | .passkeyOptions purpose b refusal id => passkeyOptions cfg s purpose b refusal id
  | .passkeyRegister b challengeId refusal => passkeyRegistrationVerify cfg s b challengeId refusal
  | .passkeyStepUp b challengeId refusal => passkeyStepUpVerify cfg s b challengeId refusal
  | .passkeyLogin userId challengeId refusal jti =>
      passkeyAuthenticationVerify cfg s userId challengeId refusal jti

def stepFactors (s : FactorStore) (a : Action) : Option FactorStore :=
  if admissible cfg s a then some (perform hotp isDigit recovers cfg s a).1 else none

/-- The factors that authorise an action: none where it fails. -/
def redeems (s : FactorStore) (a : Action) : List Factor :=
  match (perform hotp isDigit recovers cfg s a).2 with
  | .ok factors => factors
  | .error _ => []

/-- The platform from an empty database on. -/
def factorSystem : System FactorStore Action :=
  System.ofFun (fun s => ∃ clock, s = FactorStore.initial clock)
    (stepFactors hotp isDigit recovers cfg)

end Scap.Factors
