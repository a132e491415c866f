import Scap.Auth.Ledger
import Scap.Factors.Model
import Scap.Lib.OneTime

/-!
# What every step respects

`Extends` is the preorder that every step climbs: the ledger grows, an account keeps its second
factor unless its version rises, the last counter of a secret does not fall while the account has
that secret, a row that is marked stays marked, and whatever is new has an identifier that was not
drawn before. A claim is read once into `Claimed`.
-/

namespace Scap.Factors

open Scap.Lib Scap.Auth

variable {hotp : String → Int → String} {isDigit : Char → Bool}
  {recovers : String → String → Bool} {cfg : Settings} {s t u : FactorStore} {a : Action}
  {b : BearerToken} {userId : String}

/-! ## What every step respects -/

def RecoveryCode.Used (r : RecoveryCode) : Prop := r.usedAt ≠ none

def WebAuthnChallenge.Used (r : WebAuthnChallenge) : Prop := r.consumedAt ≠ none

/-- What every step keeps. -/
structure Extends (s t : FactorStore) : Prop where
  accounts : AccountsKept s.auth t.auth
  ledger : LedgerGrows s.auth t.auth
  secrets : s.secrets ⊆ t.secrets
  totp : ∀ userId secret, t.mfaSecret userId = some secret →
    s.mfaSecret userId = some secret ∧ s.mfaLastCounter userId ≤ t.mfaLastCounter userId ∨
      secret ∉ s.secrets
  recovery : Consumes RecoveryCode.id RecoveryCode.Used s.recoveryCodes.rows s.auth.drawn
    t.recoveryCodes.rows t.auth.drawn
  webauthn : Consumes WebAuthnChallenge.id WebAuthnChallenge.Used s.webauthn.rows s.auth.drawn
    t.webauthn.rows t.auth.drawn

theorem Extends.trans (h : Extends s t) (h' : Extends t u) : Extends s u where
  accounts := h.accounts.trans h'.accounts
  ledger := h.ledger.trans h'.ledger
  secrets := List.Subset.trans h.secrets h'.secrets
  totp := by
    intro userId secret hsecret
    rcases h'.totp userId secret hsecret with ⟨hsecret', hle'⟩ | hnew
    · rcases h.totp userId secret hsecret' with ⟨hsecret'', hle⟩ | hnew
      · exact .inl ⟨hsecret'', hle.trans hle'⟩
      · exact .inr hnew
    · exact .inr fun hold => hnew (h.secrets hold)
  recovery := h.recovery.trans h.accounts.drawn h'.accounts.drawn h'.recovery
  webauthn := h.webauthn.trans h.accounts.drawn h'.accounts.drawn h'.webauthn

/-- A step of the authentication store alone. -/
theorem extends_auth {auth : Store} (haccounts : AccountsKept s.auth auth)
    (hledger : LedgerGrows s.auth auth) : Extends s { s with auth := auth } where
  accounts := haccounts
  ledger := hledger
  secrets := List.Subset.refl _
  totp _ _ hsecret := .inl ⟨hsecret, le_refl _⟩
  recovery := .of_subset (List.Subset.refl _)
  webauthn := .of_subset (List.Subset.refl _)

theorem Extends.refl (s : FactorStore) : Extends s s :=
  extends_auth (.of_eq (List.Subset.refl _) rfl) (.refl _)

/-- The requests in progress are not among the factors. -/
theorem extends_pending {ps : List Pending} : Extends s { s with pending := ps } :=
  ⟨(Extends.refl s).accounts, (Extends.refl s).ledger, (Extends.refl s).secrets,
    (Extends.refl s).totp, (Extends.refl s).recovery, (Extends.refl s).webauthn⟩

/-! ## Claims -/

/-- What a claim does, by what was matched. -/
inductive Claimed (s : FactorStore) (userId : String) (expected : Option Int) :
    Matched → FactorStore → Factor → Prop
  | totp (secret : String) (counter : Int) (account : User)
      (hfind : s.auth.users.find? userId = some account) (hmfa : account.mfaEnabled = true)
      (hversion : expected.all (· = account.tokenVersion) = true)
      (hlater : s.mfaLastCounter userId < counter) :
      Claimed s userId expected (.totp secret counter)
        { s with mfaLastCounter := Function.update s.mfaLastCounter userId counter }
        (.totp secret counter)
  | recovery (ids : List String) (r : RecoveryCode) (hr : r ∈ s.recoveryCodes.rows)
      (hunused : r.usedAt = none) :
      Claimed s userId expected (.recovery ids) (burnRecovery s r.id) (.recovery r.id)

theorem consumeRecoveryCode_some {expected : Option Int} {ids : List String} {id : String}
    (h : consumeRecoveryCode s userId expected ids = some (t, id)) :
    ∃ r ∈ s.recoveryCodes.rows, r.id = id ∧ r.usedAt = none ∧ t = burnRecovery s id := by
  induction ids with
  | nil => cases h
  | cons first ids ih =>
      unfold consumeRecoveryCode at h
      split at h
      · cases h
      · split at h
        · next hunused =>
          cases h
          cases hrow : s.recoveryCodes.find? id with
          | none =>
              rw [hrow] at hunused
              cases hunused
          | some r =>
              rw [hrow] at hunused
              obtain ⟨hr, hid⟩ := KeyedTable.find?_eq_some hrow
              exact ⟨r, hr, hid, of_decide_eq_true hunused, rfl⟩
        · exact ih h

theorem claimMatched_some {expected : Option Int} {found : Matched} {f : Factor}
    (h : claimMatched s userId expected found = some (t, f)) :
    Claimed s userId expected found t f := by
  cases found with
  | totp secret counter =>
      obtain ⟨t', hclaim, hpair⟩ := Option.map_eq_some_iff.mp h
      obtain ⟨rfl, rfl⟩ := Prod.mk.inj hpair
      unfold claimTotpCounter at hclaim
      split at hclaim
      · cases hclaim
      · next account hfind =>
        split at hclaim
        · next hconditions =>
          obtain ⟨hmfa, hlater, hversion⟩ := hconditions
          obtain rfl := Option.some.inj hclaim
          exact .totp secret counter account hfind hmfa hversion hlater
        · cases hclaim
  | recovery ids =>
      obtain ⟨⟨t', id⟩, hclaim, hpair⟩ := Option.map_eq_some_iff.mp h
      obtain ⟨rfl, rfl⟩ := Prod.mk.inj hpair
      obtain ⟨r, hr, rfl, hunused, rfl⟩ := consumeRecoveryCode_some hclaim
      exact .recovery ids r hr hunused

theorem extends_burnRecovery (s : FactorStore) (id : String) : Extends s (burnRecovery s id) := by
  have hsame := Extends.refl s
  refine ⟨hsame.accounts, hsame.ledger, hsame.secrets, hsame.totp, ?_, hsame.webauthn⟩
  intro r' hr'
  obtain ⟨r, hr, rfl⟩ := List.mem_map.mp hr'
  refine .inl ⟨r, hr, ?_, ?_⟩
  · split <;> rfl
  · split
    · intro _
      exact Option.some_ne_none _
    · exact fun hused => hused

theorem Claimed.extends {expected : Option Int} {found : Matched} {f : Factor}
    (h : Claimed s userId expected found t f) : Extends s t := by
  cases h with
  | totp secret counter account hfind hmfa hversion hlater =>
      have hsame := Extends.refl s
      refine ⟨hsame.accounts, hsame.ledger, hsame.secrets, ?_, hsame.recovery, hsame.webauthn⟩
      intro id secret' hsecret
      refine .inl ⟨hsecret, ?_⟩
      dsimp only
      by_cases hid : id = userId
      · rw [hid, Function.update_self]
        exact hlater.le
      · rw [Function.update_of_ne hid]
  | recovery ids r hr hunused => exact extends_burnRecovery s r.id

/-! ## Route by route -/

theorem extends_finishMfaVerify {p : Pending} {jti : String} :
    Extends s (finishMfaVerify cfg s p jti).1 := by
  unfold finishMfaVerify
  dsimp only
  split
  · next t f account hclaim hfind =>
    split
    · exact extends_pending
    · have hpending : Extends s { s with pending := s.pending.erase p } := extends_pending
      apply (hpending.trans (claimMatched_some hclaim).extends).trans
      apply extends_auth
      · exact .of_eq (List.subset_cons_self _ _) rfl
      · exact ledger_denyToken
  · exact extends_pending

theorem extends_beginMfaVerify {c : MfaChallenge} {code : String} {refusal : Option Nat} :
    Extends s (beginMfaVerify hotp isDigit recovers s c code refusal).1 := by
  unfold beginMfaVerify
  repeat' split
  all_goals first
    | exact .refl s
    | exact extends_pending

/-- A new secret has not been seen. -/
theorem extends_mfaEnroll {secret : String} (hfresh : secret ∉ s.secrets) :
    Extends s (mfaEnroll cfg s b secret).1 := by
  unfold mfaEnroll
  split
  · exact .refl s
  · next account session _ =>
    split
    · exact .refl s
    · have hsame := Extends.refl s
      refine ⟨hsame.accounts, hsame.ledger, List.subset_cons_self _ _, ?_, hsame.recovery,
        hsame.webauthn⟩
      intro id secret' hsecret
      dsimp only at hsecret
      by_cases hid : id = account.id
      · rw [hid, Function.update_self] at hsecret
        exact .inr (Option.some.inj hsecret ▸ hfresh)
      · rw [Function.update_of_ne hid] at hsecret
        exact .inl ⟨hsecret, le_refl _⟩

theorem mem_newRecoveryCodes {codes : List (String × String)} {rows : KeyedTable RecoveryCode.id}
    {r : RecoveryCode} (h : r ∈ (newRecoveryCodes rows userId codes).rows) :
    r ∈ rows.rows ∨ r.id ∈ codes.map (·.1) := by
  unfold newRecoveryCodes at h
  induction codes generalizing rows with
  | nil => exact .inl h
  | cons code codes ih =>
      rcases ih h with hr | hr
      · rcases KeyedTable.mem_insertNew_or hr with rfl | hr
        · exact .inr List.mem_cons_self
        · exact .inl hr
      · exact .inr (List.mem_cons_of_mem _ hr)

theorem extends_mfaActivate {code : String} {codes : List (String × String)}
    (hfresh : ∀ c ∈ codes, c.1 ∉ s.auth.drawn) :
    Extends s (mfaActivate hotp isDigit cfg s b code codes).1 := by
  unfold mfaActivate
  repeat' split
  all_goals try exact .refl s
  next account session _ _ _ _ _ _ counter _ hlater =>
    have haccounts : AccountsKept s.auth (Auth.mfaActivate cfg s.auth b none).1 :=
      accountsKept_of_effects effects_setMfa
    have hledger : LedgerGrows s.auth (Auth.mfaActivate cfg s.auth b none).1 := ledger_setMfa
    have hsame := Extends.refl s
    refine ⟨?_, hledger, hsame.secrets, ?_, ?_, ?_⟩
    · refine haccounts.trans (.of_eq ?_ rfl)
      exact List.subset_append_right _ _
    · intro id secret' hsecret
      refine .inl ⟨hsecret, ?_⟩
      dsimp only
      by_cases hid : id = account.id
      · rw [hid, Function.update_self]
        exact hlater.le
      · rw [Function.update_of_ne hid]
    · intro r' hr'
      rcases mem_newRecoveryCodes hr' with hold | hnew
      · exact .inl ⟨r', hold, rfl, fun hused => hused⟩
      · refine .inr ⟨?_, List.mem_append_left _ hnew⟩
        obtain ⟨c, hc, hid⟩ := List.mem_map.mp hnew
        exact hid ▸ hfresh c hc
    · exact .of_subset (List.Subset.refl _)

/-- Without a secret, no time step of it can be accepted any more. -/
theorem extends_disabled (s : FactorStore) (userId : String) :
    Extends s { s with
      auth := (Auth.mfaDisable cfg s.auth b none).1
      mfaSecret := Function.update s.mfaSecret userId none
      mfaLastCounter := Function.update s.mfaLastCounter userId 0
      recoveryCodes := s.recoveryCodes.filter fun r => r.userId ≠ userId } := by
  refine ⟨accountsKept_of_effects effects_setMfa, ledger_setMfa, List.Subset.refl _, ?_, ?_, ?_⟩
  · intro id secret hsecret
    dsimp only at hsecret ⊢
    by_cases hid : id = userId
    · rw [hid, Function.update_self] at hsecret
      cases hsecret
    · rw [Function.update_of_ne hid] at hsecret ⊢
      exact .inl ⟨hsecret, le_refl _⟩
  · apply Consumes.of_subset
    intro r hr
    exact (KeyedTable.mem_filter.mp hr).1
  · exact .of_subset (List.Subset.refl _)

theorem extends_mfaDisable {passwordOk sensitive : Bool} {code : String} :
    Extends s (mfaDisable hotp isDigit recovers cfg s b passwordOk code sensitive).1 := by
  unfold mfaDisable
  dsimp only
  repeat' split
  all_goals try exact .refl s
  next hclaim _ => exact (claimMatched_some hclaim).extends.trans (extends_disabled _ _)

theorem extends_stepUp {auth : Store} {refusal : Option Nat}
    (h : auth = (Auth.stepUpAuthentication cfg s.auth b refusal).1) :
    Extends s { s with auth := auth } := by
  rw [h]
  exact extends_auth (accountsKept_of_effects effects_stepUpAuthentication)
    ledger_stepUpAuthentication

theorem extends_stepUpAuthentication {passwordOk : Bool} {code : Option String} :
    Extends s (stepUpAuthentication hotp isDigit recovers cfg s b passwordOk code).1 := by
  unfold stepUpAuthentication
  repeat' split
  all_goals try exact .refl s
  · exact extends_stepUp rfl
  · next hclaim => exact (claimMatched_some hclaim).extends.trans (extends_stepUp rfl)

theorem extends_consumeExportTicket {k : ExportTicket} {refusal : Option Nat} :
    Extends s (consumeExportTicket cfg s k refusal).1 := by
  have hextends : Extends s
      { s with auth := (Auth.consumeExportTicket cfg s.auth k refusal).1 } :=
    extends_auth (accountsKept_of_effects effects_consumeExportTicket) ledger_consumeExportTicket
  unfold consumeExportTicket
  split
  · next hconsumed => rwa [hconsumed] at hextends
  · next hconsumed => rwa [hconsumed] at hextends

/-! ### Passkeys -/

theorem extends_newChallenge {purpose : Purpose} {owner session : Option String} {id : String}
    (hfresh : id ∉ s.auth.drawn) : Extends s (newChallenge s purpose owner session id).1 := by
  have hsame := Extends.refl s
  refine ⟨.of_eq (List.subset_cons_self _ _) rfl, .of_eq rfl, hsame.secrets, hsame.totp,
    .of_subset (List.Subset.refl _), ?_⟩
  intro r' hr'
  rcases KeyedTable.mem_insertNew_or hr' with rfl | hr'
  · exact .inr ⟨hfresh, List.mem_cons_self⟩
  · exact .inl ⟨r', hr', rfl, fun hused => hused⟩

theorem extends_passkeyOptions {purpose : Purpose} {refusal : Option Nat} {id : String}
    (hfresh : id ∉ s.auth.drawn) : Extends s (passkeyOptions cfg s purpose b refusal id).1 := by
  unfold passkeyOptions
  repeat' split
  all_goals first
    | exact .refl s
    | exact extends_newChallenge hfresh

/-- A challenge is consumed by marking its row, which was not marked. -/
theorem consumeChallenge_some {id : String} {purpose : Purpose} {owner session : Option String}
    (h : consumeChallenge s id purpose owner session = some t) :
    (∃ r ∈ s.webauthn.rows, r.id = id ∧ r.consumedAt = none) ∧ t.auth = s.auth ∧ Extends s t ∧
      t.pending = s.pending ∧ t.mfaSecret = s.mfaSecret ∧
      ∀ r ∈ t.webauthn.rows, r.id = id → r.consumedAt ≠ none := by
  unfold consumeChallenge at h
  split at h
  · cases h
  · next row hrow =>
    obtain rfl := Option.some.inj h
    obtain ⟨hfind, hchecks⟩ := Option.filter_eq_some_iff.mp hrow
    obtain ⟨hmem, hid⟩ := KeyedTable.find?_eq_some hfind
    simp only [Bool.and_eq_true, decide_eq_true_eq] at hchecks
    have hsame := Extends.refl s
    refine ⟨⟨row, hmem, hid, hchecks.1.2⟩, rfl, ⟨hsame.accounts, hsame.ledger, hsame.secrets,
      hsame.totp, hsame.recovery, ?_⟩, rfl, rfl, ?_⟩
    · intro r' hr'
      obtain ⟨r, hr, rfl⟩ := List.mem_map.mp hr'
      refine .inl ⟨r, hr, ?_, ?_⟩
      · split <;> rfl
      · split
        · intro _
          exact Option.some_ne_none _
        · exact fun hused => hused
    · intro r' hr' hrid
      obtain ⟨r, hr, rfl⟩ := List.mem_map.mp hr'
      split at hrid
      · next hsameid =>
        rw [if_pos hsameid]
        exact Option.some_ne_none _
      · next hother => exact absurd hrid hother

theorem extends_passkeyRegistrationVerify {challengeId : String} {refusal : Option Nat} :
    Extends s (passkeyRegistrationVerify cfg s b challengeId refusal).1 := by
  unfold passkeyRegistrationVerify
  repeat' split
  all_goals first
    | exact .refl s
    | next hconsumed _ => exact (consumeChallenge_some hconsumed).2.2.1
    | next hconsumed => exact (consumeChallenge_some hconsumed).2.2.1

theorem extends_passkeyStepUpVerify {challengeId : String} {refusal : Option Nat} :
    Extends s (passkeyStepUpVerify cfg s b challengeId refusal).1 := by
  unfold passkeyStepUpVerify
  split
  · exact .refl s
  · split
    · exact .refl s
    · next hconsumed => exact (consumeChallenge_some hconsumed).2.2.1
    · next hconsumed => exact (consumeChallenge_some hconsumed).2.2.1.trans (extends_stepUp rfl)

theorem extends_passkeyAuthenticationVerify {challengeId jti : String} {refusal : Option Nat}
    (hfresh : jti ∉ s.auth.drawn) :
    Extends s (passkeyAuthenticationVerify cfg s userId challengeId refusal jti).1 := by
  unfold passkeyAuthenticationVerify
  split
  · exact .refl s
  · next t hconsumed =>
    obtain ⟨-, hauth, hextends, -⟩ := consumeChallenge_some hconsumed
    have hlogin : Extends t
        { t with auth := (Auth.passkeyLogin cfg t.auth userId refusal jti).1 } :=
      extends_auth (accountsKept_of_effects (effects_passkeyLogin (hauth ▸ hfresh)))
        ledger_passkeyLogin
    split
    · exact hextends
    · next hok =>
      rw [hok] at hlogin
      exact hextends.trans hlogin

/-- **Every step extends the store.** -/
theorem extends_of_step (h : (factorSystem hotp isDigit recovers cfg).step s a t) :
    Extends s t := by
  replace h : stepFactors hotp isDigit recovers cfg s a = some t := h
  unfold stepFactors at h
  obtain ⟨hadmissible, rfl⟩ := of_allowed h
  -- A request of the authentication routes extends the ledger; the factor routes have a lemma each.
  cases a with
  | request a =>
      simp only [admissible, Bool.and_eq_true] at hadmissible
      obtain ⟨hplain, hsome⟩ := hadmissible
      obtain ⟨auth, hstep⟩ := Option.isSome_iff_exists.mp hsome
      have hsweep : ∀ jtis, a ≠ .sweep jtis := by
        rintro jtis rfl
        cases hplain
      have hauth : (authSystem cfg).step s.auth a auth := hstep
      show Extends s { s with auth := (stepStore cfg s.auth a).getD s.auth }
      rw [hstep]
      exact extends_auth (accountsKept_of_effects (effects_of_step hauth))
        (ledger_of_step hsweep hstep)
  | beginMfaVerify c code refusal =>
      unfold perform
      exact extends_beginMfaVerify
  | finishMfaVerify p jti =>
      unfold perform
      exact extends_finishMfaVerify
  | mfaEnroll b secret =>
      simp only [admissible, Bool.and_eq_true, decide_eq_true_eq] at hadmissible
      unfold perform
      exact extends_mfaEnroll hadmissible.2
  | mfaActivate b code codes =>
      simp only [admissible, Bool.and_eq_true, List.all_eq_true, decide_eq_true_eq]
        at hadmissible
      unfold perform
      exact extends_mfaActivate hadmissible.1.2
  | mfaDisable b passwordOk code sensitive =>
      unfold perform
      exact extends_mfaDisable
  | stepUp b passwordOk code =>
      unfold perform
      exact extends_stepUpAuthentication
  | consumeTicket k refusal =>
      unfold perform
      exact extends_consumeExportTicket
  | passkeyOptions purpose b refusal id =>
      simp only [admissible, Bool.and_eq_true, decide_eq_true_eq] at hadmissible
      unfold perform
      exact extends_passkeyOptions hadmissible.2
  | passkeyRegister b challengeId refusal =>
      unfold perform
      exact extends_passkeyRegistrationVerify
  | passkeyStepUp b challengeId refusal =>
      unfold perform
      exact extends_passkeyStepUpVerify
  | passkeyLogin userId challengeId refusal jti =>
      simp only [admissible, decide_eq_true_eq] at hadmissible
      unfold perform
      exact extends_passkeyAuthenticationVerify hadmissible

theorem extends_of_run {as : List Action}
    (h : (factorSystem hotp isDigit recovers cfg).Run s as t) : Extends s t :=
  h.mono Extends.refl (fun _ _ _ => Extends.trans) fun _ _ _ => extends_of_step

end Scap.Factors
