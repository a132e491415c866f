import Scap.Factors.Model

/-!
# Stored passkeys

The stored passkeys next to the factors. `registrationOptions` counts the passkeys of the account
before it hands out a challenge; `verifyRegistration`, which stores the new one, does not count.
So the number of an account's passkeys stays within the limit just as long as every registration
is verified below it (`passkeys_bounded_iff`), which the count of the options does not guarantee
(`passkey_limit_exceeded`).
-/

namespace Scap.Factors

open Scap.Lib Scap.Auth

/-- `MAX_PASSKEYS_PER_USER`. -/
def maxPasskeysPerUser : Nat := 10

/-- A row of `webauthn_credentials`. -/
structure Passkey where
  id : String
  userId : String
  credentialId : String
  name : String
  deriving DecidableEq, Repr

structure PasskeyStore where
  factors : FactorStore
  passkeys : KeyedTable Passkey.id

namespace PasskeyStore

/-- The passkeys of an account. -/
def ofUser (s : PasskeyStore) (userId : String) : List Passkey :=
  s.passkeys.rows.filter fun r => r.userId = userId

/-- What the deletion of accounts leaves: `ON DELETE CASCADE`. -/
def cascade (s : PasskeyStore) : PasskeyStore :=
  { s with passkeys := s.passkeys.filter fun r => (s.factors.auth.users.find? r.userId).isSome }

end PasskeyStore

section

variable (hotp : String → Int → String) (isDigit : Char → Bool)
  (recovers : String → String → Bool) (cfg : Settings)

/-- `passkey_registration_options`. `refusal` is the rate limit's. -/
def registrationOptions (s : PasskeyStore) (b : BearerToken) (refusal : Option Nat) (id : String) :
    PasskeyStore × Reply Unit :=
  match refusal, lockAccountMutation cfg s.factors.auth b true with
  | some status, _ => (s, .error status)
  | none, .error e => (s, .error e)
  | none, .ok (u, _) =>
    if maxPasskeysPerUser ≤ (s.ofUser u.id).length then (s, .error 409)
    else ({ s with factors := (newChallenge s.factors .register (some u.id) none id).1 }, .ok ())

/-- `verify_registration`, for an account that is locked. `verified` is the credential that the
library has verified, if it has verified one; a refusal leaves the challenge consumed. -/
def verifyRegistration (s : PasskeyStore) (userId challengeId : String) (verified : Option String)
    (name id : String) : PasskeyStore × Reply Unit :=
  match consumeChallenge s.factors challengeId .register (some userId) none with
  | none => (s, .error 400)
  | some factors =>
    match verified with
    | none => ({ s with factors := factors }, .error 400)
    | some credentialId =>
      if s.passkeys.rows.any fun r => r.credentialId = credentialId then
        ({ s with factors := factors }, .error 400)
      else
        (⟨factors, s.passkeys.insertNew ⟨id, userId, credentialId, name⟩⟩, .ok ())

/-- `passkey_registration_verify`. -/
def registrationVerify (s : PasskeyStore) (b : BearerToken) (challengeId : String)
    (verified : Option String) (name id : String) : PasskeyStore × Reply Unit :=
  match lockAccountMutation cfg s.factors.auth b true with
  | .error e => (s, .error e)
  | .ok (u, _) => verifyRegistration s u.id challengeId verified name id

/-- `delete_passkey`. -/
def deletePasskey (s : PasskeyStore) (b : BearerToken) (passkeyId : String) :
    PasskeyStore × Reply Unit :=
  match lockAccountMutation cfg s.factors.auth b true with
  | .error e => (s, .error e)
  | .ok (u, _) =>
    match (s.passkeys.find? passkeyId).filter fun r => r.userId = u.id with
    | none => (s, .error 404)
    | some row => ({ s with passkeys := s.passkeys.filter fun r => r.id ≠ row.id }, .ok ())

/-! ## The system -/

/-- What can happen next. `factor` is any request that registers no passkey. -/
inductive PasskeyAction where
  | factor (a : Action)
  | options (b : BearerToken) (refusal : Option Nat) (id : String)
  | verify (b : BearerToken) (challengeId : String) (verified : Option String) (name id : String)
  | delete (b : BearerToken) (passkeyId : String)
  deriving DecidableEq, Repr

/-- The requests that belong to a registration have actions of their own. -/
def registersNothing : Action → Bool
  | .passkeyOptions .register .. | .passkeyRegister .. => false
  | _ => true

/-- The store after an action; `none` where it presents a token that was never handed out or draws
a UUID that was drawn before. -/
def stepPasskeys (s : PasskeyStore) : PasskeyAction → Option PasskeyStore
  | .factor a =>
      if registersNothing a then
        (stepFactors hotp isDigit recovers cfg s.factors a).map fun factors =>
          PasskeyStore.cascade { s with factors := factors }
      else none
  | .options b refusal id =>
      if b ∈ s.factors.auth.bearers ∧ id ∉ s.factors.auth.drawn then
        some (registrationOptions cfg s b refusal id).1
      else none
  | .verify b challengeId verified name id =>
      if b ∈ s.factors.auth.bearers ∧ s.passkeys.find? id = none then
        some (registrationVerify cfg s b challengeId verified name id).1
      else none
  | .delete b passkeyId =>
      if b ∈ s.factors.auth.bearers then some (deletePasskey cfg s b passkeyId).1 else none

/-- The platform from an empty database on. -/
def passkeySystem : System PasskeyStore PasskeyAction :=
  System.ofFun (fun s => ∃ clock, s = ⟨FactorStore.initial clock, .empty⟩)
    (stepPasskeys hotp isDigit recovers cfg)

/-- The account for which the action stores a passkey. -/
def registers (s : PasskeyStore) : PasskeyAction → Option String
  | .verify b challengeId (some credentialId) _ _ =>
      match lockAccountMutation cfg s.factors.auth b true with
      | .error _ => none
      | .ok (u, _) =>
        if (consumeChallenge s.factors challengeId .register (some u.id) none).isSome ∧
            (s.passkeys.rows.any fun r => r.credentialId = credentialId) = false then
          some u.id
        else none
  | _ => none

end

/-! ## The limit -/

variable {hotp : String → Int → String} {isDigit : Char → Bool}
  {recovers : String → String → Bool} {cfg : Settings} {s t : PasskeyStore} {a : PasskeyAction}
  {as : List PasskeyAction} {userId : String}

/-- No account has more passkeys than the limit. -/
def Bounded (s : PasskeyStore) : Prop := ∀ userId, (s.ofUser userId).length ≤ maxPasskeysPerUser

/-- The action stores a passkey for an account below the limit, if it stores one. -/
def BelowLimit (cfg : Settings) (s : PasskeyStore) (a : PasskeyAction) : Prop :=
  ∀ userId, registers cfg s a = some userId → (s.ofUser userId).length < maxPasskeysPerUser

/-- One passkey more for the account, if any, and not more for the others. -/
def Grows (s t : PasskeyStore) (registered : Option String) : Prop :=
  ∀ userId, if registered = some userId then
      (t.ofUser userId).length = (s.ofUser userId).length + 1
    else (t.ofUser userId).length ≤ (s.ofUser userId).length

theorem grows_same (h : t.passkeys = s.passkeys) : Grows s t none := by
  intro userId
  rw [if_neg (by simp)]
  unfold PasskeyStore.ofUser
  rw [h]

theorem grows_filter {p : Passkey → Bool} {factors : FactorStore} :
    Grows s ⟨factors, s.passkeys.filter p⟩ none := by
  intro userId
  rw [if_neg (by simp)]
  apply List.Sublist.length_le
  exact List.filter_sublist.filter _

/-- A new row. -/
theorem grows_insert {factors : FactorStore} {row : Passkey}
    (hfresh : ∀ r ∈ s.passkeys.rows, r.id ≠ row.id) :
    Grows s ⟨factors, s.passkeys.insertNew row⟩ (some row.userId) := by
  intro userId
  have hperm := (KeyedTable.perm_insertNew hfresh).filter fun r => r.userId = userId
  show if _ then (List.filter _ _).length = _ else (List.filter _ _).length ≤ _
  rw [hperm.length_eq]
  split
  · next howner =>
    obtain rfl := Option.some.inj howner
    rw [List.filter_cons_of_pos (by simp), List.length_cons]
    rfl
  · next howner =>
    rw [List.filter_cons_of_neg (by simpa using howner)]
    exact le_refl _

theorem grows_verify {b : BearerToken} {challengeId name id : String} {verified : Option String}
    (hfresh : ∀ r ∈ s.passkeys.rows, r.id ≠ id) :
    Grows s (registrationVerify cfg s b challengeId verified name id).1
      (registers cfg s (.verify b challengeId verified name id)) := by
  unfold registrationVerify
  cases hlock : lockAccountMutation cfg s.factors.auth b true with
  | error e => cases verified <;> simpa [registers, hlock] using grows_same rfl
  | ok account =>
      obtain ⟨u, r⟩ := account
      dsimp only
      unfold verifyRegistration
      cases hconsume : consumeChallenge s.factors challengeId .register (some u.id) none with
      | none => cases verified <;> simpa [registers, hlock, hconsume] using grows_same rfl
      | some factors =>
          cases verified with
          | none => exact grows_same rfl
          | some credentialId =>
              cases hknown : s.passkeys.rows.any fun r => r.credentialId = credentialId with
              | true =>
                  have hsame : Grows s { s with factors := factors } none := grows_same rfl
                  simpa [registers, hlock, hconsume, hknown] using hsame
              | false =>
                  have hmore : Grows s
                      ⟨factors, s.passkeys.insertNew ⟨id, u.id, credentialId, name⟩⟩ (some u.id) :=
                    grows_insert hfresh
                  simpa [registers, hlock, hconsume, hknown] using hmore

/-- **What a step does to the number of passkeys.** -/
theorem grows_of_step (h : (passkeySystem hotp isDigit recovers cfg).step s a t) :
    Grows s t (registers cfg s a) := by
  replace h : stepPasskeys hotp isDigit recovers cfg s a = some t := h
  unfold stepPasskeys at h
  cases a with
  | factor a =>
      dsimp only at h
      split at h
      · obtain ⟨factors, -, rfl⟩ := Option.map_eq_some_iff.mp h
        exact grows_filter
      · cases h
  | options b refusal id =>
      dsimp only at h
      obtain ⟨-, rfl⟩ := of_allowed h
      apply grows_same
      unfold registrationOptions
      repeat' split
      all_goals rfl
  | delete b passkeyId =>
      dsimp only at h
      obtain ⟨-, rfl⟩ := of_allowed h
      unfold deletePasskey
      repeat' split
      all_goals first
        | exact grows_same rfl
        | exact grows_filter
  | verify b challengeId verified name id =>
      dsimp only at h
      obtain ⟨hadmissible, rfl⟩ := of_allowed h
      exact grows_verify (KeyedTable.find?_eq_none.mp hadmissible.2)

theorem bounded_of_initial {clock : Int} : Bounded ⟨FactorStore.initial clock, .empty⟩ :=
  fun _ => Nat.zero_le _

/-- One step keeps the limit just when it registers below it. -/
theorem bounded_step (hs : Bounded s) (h : (passkeySystem hotp isDigit recovers cfg).step s a t) :
    Bounded t ↔ BelowLimit cfg s a := by
  have hgrows := grows_of_step h
  constructor
  · intro ht userId hregisters
    have hlength := hgrows userId
    rw [if_pos hregisters] at hlength
    have := ht userId
    omega
  · intro hbelow userId
    have hlength := hgrows userId
    split at hlength
    · next hregisters =>
      have := hbelow userId hregisters
      omega
    · exact hlength.trans (hs userId)

/-- **An account stays within the limit of passkeys just as long as every registration is verified
while it is below it**, whatever else any of its sessions requests. -/
theorem passkeys_bounded_iff {clock : Int}
    (h : (passkeySystem hotp isDigit recovers cfg).Run ⟨FactorStore.initial clock, .empty⟩ as t) :
    (∀ bs u, bs <+: as →
      (passkeySystem hotp isDigit recovers cfg).Run ⟨FactorStore.initial clock, .empty⟩ bs u →
        Bounded u) ↔
      ((passkeySystem hotp isDigit recovers cfg).restrict (BelowLimit cfg)).Run
        ⟨FactorStore.initial clock, .empty⟩ as t :=
  System.Run.restrict_iff System.ofFun_deterministic bounded_of_initial
    (fun _ _ _ hs hstep => bounded_step hs hstep) h

/-! ### Two registrations at once -/

def samplePasskeySettings : Settings := ⟨30, 5, 8, 30, 5, 30, false⟩

/-- The second of the bearer that signs in at the given microsecond. -/
def passkeyBearer (jti : String) (at_ : Int) : BearerToken :=
  ⟨"alice", 1, jti, at_, at_ + 1800000000⟩

/-- Options and verification of the passkeys with the given names. -/
def registerAll (b : BearerToken) (names : List String) : List PasskeyAction :=
  names.flatMap fun name =>
    [.options b none ("c-" ++ name), .verify b ("c-" ++ name) (some name) name ("p-" ++ name)]

/-- Nine passkeys. -/
def samplePasskeyRun : List PasskeyAction :=
  [.factor (.request (.register "alice" "user")),
    .factor (.request (.login "alice" none "t-1"))] ++
  registerAll (passkeyBearer "t-1" 0) ["1", "2", "3", "4", "5", "6", "7", "8", "9"] ++
  -- an hour later, when the rate limit allows more options
  [.factor (.request (.tick 3600000000)),
    .factor (.request (.login "alice" none "t-2"))]

/-- Two challenges are handed out while there are nine passkeys, and both are verified. -/
def sampleTwoRegistrations : List PasskeyAction :=
  let b := passkeyBearer "t-2" 3600000000
  [.options b none "c-a", .options b none "c-b", .verify b "c-a" (some "a") "a" "p-a",
    .verify b "c-b" (some "b") "b" "p-b"]

def stepSample : PasskeyStore → PasskeyAction → Option PasskeyStore :=
  stepPasskeys (fun _ _ => "") Char.isDigit (fun _ _ => false) samplePasskeySettings

def samplePasskeyStore : PasskeyStore := ⟨FactorStore.initial 0, .empty⟩

def belowLimit (s : PasskeyStore) (a : PasskeyAction) : Bool :=
  (registers samplePasskeySettings s a).all fun u => (s.ofUser u).length < maxPasskeysPerUser

/-- The run of nine registrations stays within the limit. -/
theorem passkeys_bounded_iff_sample : ∃ t,
    (passkeySystem (fun _ _ => "") Char.isDigit (fun _ _ => false) samplePasskeySettings).Run
      samplePasskeyStore samplePasskeyRun t ∧ Bounded t ∧ (t.ofUser "alice").length = 9 := by
  have hcheck : ∀ s a, belowLimit s a = true → BelowLimit samplePasskeySettings s a := by
    intro s a hall userId hregisters
    unfold belowLimit at hall
    rw [hregisters] at hall
    simpa using hall
  obtain ⟨t, ht⟩ : ∃ t, System.exec (System.checked belowLimit stepSample) samplePasskeyStore
      samplePasskeyRun = some t := Option.isSome_iff_exists.mp (by decide +kernel)
  have hlength : ((System.exec (System.checked belowLimit stepSample) samplePasskeyStore
      samplePasskeyRun).map fun t => (t.ofUser "alice").length) = some 9 := by decide +kernel
  rw [ht] at hlength
  have hrun : ((passkeySystem (fun _ _ => "") Char.isDigit (fun _ _ => false)
      samplePasskeySettings).restrict (BelowLimit samplePasskeySettings)).Run samplePasskeyStore
      samplePasskeyRun t := System.run_of_exec_checked hcheck ht
  refine ⟨t, hrun.of_restrict, ?_, Option.some.inj hlength⟩
  exact (passkeys_bounded_iff hrun.of_restrict).mpr hrun _ t (List.prefix_refl _) hrun.of_restrict

/-- Eleven passkeys. -/
theorem passkey_limit_exceeded : ¬ ∀ (hotp : String → Int → String) (isDigit : Char → Bool)
    (recovers : String → String → Bool) (cfg : Settings) (t : PasskeyStore),
    (passkeySystem hotp isDigit recovers cfg).Reachable t → Bounded t := by
  intro h
  obtain ⟨t, ht⟩ : ∃ t, System.exec stepSample samplePasskeyStore
      (samplePasskeyRun ++ sampleTwoRegistrations) = some t :=
    Option.isSome_iff_exists.mp (by decide +kernel)
  have hlength : ((System.exec stepSample samplePasskeyStore
      (samplePasskeyRun ++ sampleTwoRegistrations)).map fun t => (t.ofUser "alice").length) =
        some 11 := by decide +kernel
  rw [ht] at hlength
  have heleven : (t.ofUser "alice").length = 11 := Option.some.inj hlength
  have hbounded := h _ _ _ _ t ⟨_, _, ⟨0, rfl⟩, System.run_of_exec ht⟩ "alice"
  rw [heleven] at hbounded
  exact absurd hbounded (by decide)

end Scap.Factors
