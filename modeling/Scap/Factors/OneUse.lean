import Scap.Factors.Secrets

/-!
# A factor is used once

`Spent` says of each kind of factor why it cannot be used again: the account has accepted this or a
later time step of the secret, the row is marked, the token is in the ledger. What is spent stays
spent along `Extends`; a reply that lists a factor comes from a state in which it is not spent and
leaves one in which it is (`redeemed_of_step`).
-/

namespace Scap.Factors

open Scap.Lib Scap.Auth

variable {hotp : String → Int → String} {isDigit : Char → Bool}
  {recovers : String → String → Bool} {cfg : Settings} {s t u : FactorStore} {a : Action}
  {b : BearerToken} {userId : String}

/-! ## Spent factors -/

/-- The factor has been used, and cannot be used again. -/
def Spent (s : FactorStore) : Factor → Prop
  | .totp secret counter => secret ∈ s.secrets ∧
      ∀ userId, s.mfaSecret userId = some secret → counter ≤ s.mfaLastCounter userId
  | .recovery id =>
      UsedUp RecoveryCode.id RecoveryCode.Used s.recoveryCodes.rows s.auth.drawn id
  | .mfaChallenge jti => ∃ r ∈ s.auth.revokedTokens.rows, r.jti = jti
  | .ticket jti => ∃ r ∈ s.auth.revokedTokens.rows, r.jti = jti
  | .webauthn id =>
      UsedUp WebAuthnChallenge.id WebAuthnChallenge.Used s.webauthn.rows s.auth.drawn id

/-- **What is spent stays spent.** -/
theorem Spent.extends {f : Factor} (h : Spent s f) (hst : Extends s t) : Spent t f := by
  cases f with
  | totp secret counter =>
      obtain ⟨hseen, hlast⟩ := h
      refine ⟨hst.secrets hseen, ?_⟩
      intro userId hsecret
      rcases hst.totp userId secret hsecret with ⟨hold, hle⟩ | hnew
      · exact (hlast userId hold).trans hle
      · exact absurd hseen hnew
  | recovery id => exact UsedUp.of_consumes h hst.accounts.drawn hst.recovery
  | mfaChallenge jti =>
      obtain ⟨r, hr, hjti⟩ := h
      exact ⟨r, hst.ledger r hr, hjti⟩
  | ticket jti =>
      obtain ⟨r, hr, hjti⟩ := h
      exact ⟨r, hst.ledger r hr, hjti⟩
  | webauthn id => exact UsedUp.of_consumes h hst.accounts.drawn hst.webauthn

/-- What the secret of an account accepted is spent where its last counter says so. -/
theorem spent_totp {secret : String} {counter : Int} (hs : FactorInv s)
    (hsecret : s.mfaSecret userId = some secret) :
    Spent s (.totp secret counter) ↔ counter ≤ s.mfaLastCounter userId := by
  constructor
  · intro hspent
    exact hspent.2 userId hsecret
  · intro hle
    refine ⟨hs.secrets userId secret hsecret, ?_⟩
    intro id hid
    rw [hs.owner id userId secret hid hsecret]
    exact hle

/-- A claim succeeds on what is not spent, and spends it. -/
theorem Claimed.spent {expected : Option Int} {found : Matched} {f : Factor} (hs : FactorInv s)
    (h : Claimed s userId expected found t f)
    (hsecret : ∀ secret counter, found = .totp secret counter →
      s.mfaSecret userId = some secret) :
    ¬ Spent s f ∧ Spent t f := by
  cases h with
  | totp secret counter account hfind hmfa hversion hlater =>
      have hcurrent := hsecret secret counter rfl
      constructor
      · intro hspent
        have hle := (spent_totp hs hcurrent).mp hspent
        omega
      · refine ⟨hs.secrets userId secret hcurrent, ?_⟩
        intro id hid
        obtain rfl := hs.owner id userId secret hid hcurrent
        dsimp only
        rw [Function.update_self]
  | recovery ids r hr hunused =>
      constructor
      · intro hspent
        exact hspent.used r hr rfl hunused
      · refine ⟨hs.recovery r hr, ?_⟩
        intro r' hr' hid
        obtain ⟨x, -, rfl⟩ := List.mem_map.mp hr'
        split at hid
        · next hsame =>
          rw [if_pos hsame]
          exact Option.some_ne_none _
        · next hother => exact absurd hid hother

theorem Claimed.ne_mfaChallenge {expected : Option Int} {found : Matched} {f : Factor}
    {jti : String} (h : Claimed s userId expected found t f) : f ≠ .mfaChallenge jti := by
  cases h <;> nofun

theorem mem_denyToken {s : Store} {jti owner reason : String} {exp : Int} :
    ∃ r ∈ (denyToken s jti owner exp reason).revokedTokens.rows, r.jti = jti :=
  KeyedTable.exists_insertNew s.revokedTokens ⟨jti, owner, exp, reason, s.clock⟩

theorem not_mem_ledger {s : Store} {jti : String} (h : s.revokedTokens.find? jti = none) :
    ¬ ∃ r ∈ s.revokedTokens.rows, r.jti = jti := by
  rintro ⟨r, hr, hjti⟩
  exact KeyedTable.find?_eq_none.mp h r hr hjti

/-! ## What authorises a reply -/

/-- The factors of a reply, over the step that gives it. -/
def Redeemed (s : FactorStore) (r : FactorStore × Reply (List Factor)) : Prop :=
  ∀ factors, r.2 = .ok factors → factors.Nodup ∧ ∀ f ∈ factors, ¬ Spent s f ∧ Spent r.1 f

theorem redeemed_error {e : Nat} : Redeemed s (t, .error e) := fun _ h => nomatch h

theorem redeemed_nil : Redeemed s (t, .ok []) := by
  intro factors h
  obtain rfl := Except.ok.inj h
  exact ⟨List.nodup_nil, fun f hf => absurd hf List.not_mem_nil⟩

theorem redeemed_singleton {f : Factor} (hbefore : ¬ Spent s f) (hafter : Spent t f) :
    Redeemed s (t, .ok [f]) := by
  intro factors h
  obtain rfl := Except.ok.inj h
  refine ⟨List.nodup_singleton f, ?_⟩
  intro g hg
  obtain rfl := List.mem_singleton.mp hg
  exact ⟨hbefore, hafter⟩

theorem redeemed_beginMfaVerify {c : MfaChallenge} {code : String} {refusal : Option Nat} :
    Redeemed s (beginMfaVerify hotp isDigit recovers s c code refusal) := by
  unfold beginMfaVerify
  repeat' split
  all_goals first
    | exact redeemed_error
    | exact redeemed_nil

theorem redeemed_mfaEnroll {secret : String} : Redeemed s (mfaEnroll cfg s b secret) := by
  unfold mfaEnroll
  repeat' split
  all_goals first
    | exact redeemed_error
    | exact redeemed_nil

theorem redeemed_passkeyOptions {purpose : Purpose} {refusal : Option Nat} {id : String} :
    Redeemed s (passkeyOptions cfg s purpose b refusal id) := by
  unfold passkeyOptions
  repeat' split
  all_goals first
    | exact redeemed_error
    | exact redeemed_nil

theorem redeemed_finishMfaVerify {p : Pending} {jti : String} (hs : FactorInv s)
    (hp : p ∈ s.pending) : Redeemed s (finishMfaVerify cfg s p jti) := by
  unfold finishMfaVerify
  dsimp only
  split
  · next t f account hclaim hfind =>
    split
    · exact redeemed_error
    · next hledger =>
      have hclaimed := claimMatched_some hclaim
      have herase : Extends s { s with pending := s.pending.erase p } := extends_pending
      have hinv : FactorInv { s with pending := s.pending.erase p } :=
        hs.step herase (.same rfl) fun q hq => .inl (List.erase_subset hq)
      -- the claim itself checks that the account is as the request has read it
      have hsecret : ∀ secret counter, p.found = .totp secret counter →
          s.mfaSecret p.challenge.sub = some secret := by
        intro secret counter hfound
        rw [hfound] at hclaimed
        cases hclaimed with
        | totp _ _ account hfind hmfa hversion hlater =>
            obtain ⟨hrow, hid⟩ := KeyedTable.find?_eq_some hfind
            have hver : p.challenge.ver = account.tokenVersion := of_decide_eq_true hversion
            exact (hs.pending p hp).secret secret counter hfound account hrow hid hver.symm hmfa
      obtain ⟨hbefore, hafter⟩ := hclaimed.spent hinv hsecret
      have hsignin : Extends t { t with
          auth := finishSignIn cfg (denyToken t.auth p.challenge.jti account.id p.challenge.exp
            "mfa_challenge_used") account jti } :=
        extends_auth (.of_eq (List.subset_cons_self _ _) rfl) ledger_denyToken
      have hdenied : ¬ Spent s (.mfaChallenge p.challenge.jti) :=
        not_mem_ledger (not_not.mp hledger)
      intro factors hok
      obtain rfl := Except.ok.inj hok
      constructor
      · simpa using hclaimed.ne_mfaChallenge.symm
      · intro g hg
        rcases List.mem_cons.mp hg with rfl | hg
        · exact ⟨hdenied, mem_denyToken⟩
        · obtain rfl := List.mem_singleton.mp hg
          exact ⟨fun hspent => hbefore (hspent.extends herase), hafter.extends hsignin⟩
  · exact redeemed_error

theorem redeemed_mfaActivate {code : String} {codes : List (String × String)}
    (hs : FactorInv s) : Redeemed s (mfaActivate hotp isDigit cfg s b code codes) := by
  unfold mfaActivate
  repeat' split
  all_goals try exact redeemed_error
  next account _ _ _ _ secret hsecret _ counter _ hlater =>
    apply redeemed_singleton
    · intro hspent
      have hle := (spent_totp hs hsecret).mp hspent
      omega
    · refine ⟨hs.secrets account.id secret hsecret, ?_⟩
      intro id hid
      obtain rfl := hs.owner id account.id secret hid hsecret
      dsimp only
      rw [Function.update_self]

theorem redeemed_mfaDisable {passwordOk sensitive : Bool} {code : String} (hs : FactorInv s) :
    Redeemed s (mfaDisable hotp isDigit recovers cfg s b passwordOk code sensitive) := by
  unfold mfaDisable
  split
  · exact redeemed_error
  · next account session _ =>
    split
    · exact redeemed_error
    · split
      · exact redeemed_error
      · dsimp only
        split
        · exact redeemed_error
        · next found hfound =>
          split
          · exact redeemed_error
          · next t f hclaim =>
            have hcurrent : ∀ secret counter, found = .totp secret counter →
                s.mfaSecret account.id = some secret := by
              rintro secret counter rfl
              split at hfound
              · cases hfound
              · next current hsecret =>
                rw [matchCode_totp hfound]
                exact hsecret
            obtain ⟨hbefore, hafter⟩ := (claimMatched_some hclaim).spent hs hcurrent
            split
            · exact redeemed_error
            · exact redeemed_singleton hbefore (hafter.extends (extends_disabled _ _))

theorem redeemed_stepUpAuthentication {passwordOk : Bool} {code : Option String}
    (hs : FactorInv s) :
    Redeemed s (stepUpAuthentication hotp isDigit recovers cfg s b passwordOk code) := by
  unfold stepUpAuthentication
  repeat' split
  all_goals try exact redeemed_error
  · exact redeemed_nil
  · next account _ _ _ _ _ _ secret _ hsecret _ _ found hfound _ t f hclaim =>
    have hclaimed := claimMatched_some hclaim
    have hcurrent : ∀ secret' counter, found = .totp secret' counter →
        s.mfaSecret account.id = some secret' := by
      rintro secret' counter rfl
      rw [matchCode_totp hfound]
      exact hsecret
    obtain ⟨hbefore, hafter⟩ := hclaimed.spent hs hcurrent
    exact redeemed_singleton hbefore (hafter.extends (extends_stepUp rfl))

/-- A ticket is consumed by entering it in the ledger. -/
theorem consumeExportTicket_ok {st st' : Store} {k : ExportTicket} {refusal : Option Nat} {x : Unit}
    (h : Auth.consumeExportTicket cfg st k refusal = (st', .ok x)) :
    st.revokedTokens.find? k.jti = none ∧ ∃ r ∈ st'.revokedTokens.rows, r.jti = k.jti := by
  unfold Auth.consumeExportTicket at h
  split at h
  · cases h
  · split at h
    · cases h
    · next hledger =>
      refine ⟨not_not.mp hledger, ?_⟩
      repeat' split at h
      all_goals cases h
      exact mem_denyToken

theorem redeemed_consumeExportTicket {k : ExportTicket} {refusal : Option Nat} :
    Redeemed s (consumeExportTicket cfg s k refusal) := by
  unfold consumeExportTicket
  split
  · exact redeemed_error
  · next auth _ hok =>
    obtain ⟨hledger, hentered⟩ := consumeExportTicket_ok hok
    exact redeemed_singleton (not_mem_ledger hledger) hentered

/-- A consumed challenge was not spent before. -/
theorem redeemed_webauthn {id : String} {purpose : Purpose} {owner session : Option String}
    (hs : FactorInv s) (h : consumeChallenge s id purpose owner session = some t)
    (hst : Extends t u) : Redeemed s (u, .ok [.webauthn id]) := by
  obtain ⟨⟨r, hr, hid, hunused⟩, hauth, -, -, -, hused⟩ := consumeChallenge_some h
  have hafter : Spent t (.webauthn id) := ⟨hauth ▸ hid ▸ hs.webauthn r hr, hused⟩
  apply redeemed_singleton
  · intro hspent
    exact hspent.used r hr hid hunused
  · exact hafter.extends hst

theorem redeemed_passkeyRegistrationVerify {challengeId : String} {refusal : Option Nat}
    (hs : FactorInv s) : Redeemed s (passkeyRegistrationVerify cfg s b challengeId refusal) := by
  unfold passkeyRegistrationVerify
  repeat' split
  all_goals try exact redeemed_error
  next hconsumed => exact redeemed_webauthn hs hconsumed (.refl _)

theorem redeemed_passkeyStepUpVerify {challengeId : String} {refusal : Option Nat}
    (hs : FactorInv s) : Redeemed s (passkeyStepUpVerify cfg s b challengeId refusal) := by
  unfold passkeyStepUpVerify
  repeat' split
  all_goals try exact redeemed_error
  next hconsumed => exact redeemed_webauthn hs hconsumed (extends_stepUp rfl)

theorem redeemed_passkeyAuthenticationVerify {challengeId jti : String} {refusal : Option Nat}
    (hs : FactorInv s) (hfresh : jti ∉ s.auth.drawn) :
    Redeemed s (passkeyAuthenticationVerify cfg s userId challengeId refusal jti) := by
  unfold passkeyAuthenticationVerify
  split
  · exact redeemed_error
  · next t hconsumed =>
    split
    · exact redeemed_error
    · next auth _ hok =>
      have hauth := (consumeChallenge_some hconsumed).2.1
      have hlogin : Extends t
          { t with auth := (Auth.passkeyLogin cfg t.auth userId refusal jti).1 } :=
        extends_auth (accountsKept_of_effects (effects_passkeyLogin (hauth ▸ hfresh)))
          ledger_passkeyLogin
      rw [hok] at hlogin
      exact redeemed_webauthn hs hconsumed hlogin

/-- **A factor is redeemed while it is not spent, and is spent from then on.** -/
theorem redeemed_of_step (hs : FactorInv s)
    (hstep : (factorSystem hotp isDigit recovers cfg).step s a t) :
    (redeems hotp isDigit recovers cfg s a).Nodup ∧
      ∀ f ∈ redeems hotp isDigit recovers cfg s a, ¬ Spent s f ∧ Spent t f := by
  replace hstep : stepFactors hotp isDigit recovers cfg s a = some t := hstep
  unfold stepFactors at hstep
  obtain ⟨hadmissible, rfl⟩ := of_allowed hstep
  clear hstep
  have hredeemed : Redeemed s (perform hotp isDigit recovers cfg s a) := by
    unfold perform
    cases a with
    | request a => exact redeemed_nil
    | beginMfaVerify c code refusal => exact redeemed_beginMfaVerify
    | finishMfaVerify p jti =>
        simp only [admissible, Bool.and_eq_true, decide_eq_true_eq] at hadmissible
        exact redeemed_finishMfaVerify hs hadmissible.1
    | mfaEnroll b secret => exact redeemed_mfaEnroll
    | mfaActivate b code codes => exact redeemed_mfaActivate hs
    | mfaDisable b passwordOk code sensitive => exact redeemed_mfaDisable hs
    | stepUp b passwordOk code => exact redeemed_stepUpAuthentication hs
    | consumeTicket k refusal => exact redeemed_consumeExportTicket
    | passkeyOptions purpose b refusal id => exact redeemed_passkeyOptions
    | passkeyRegister b challengeId refusal => exact redeemed_passkeyRegistrationVerify hs
    | passkeyStepUp b challengeId refusal => exact redeemed_passkeyStepUpVerify hs
    | passkeyLogin userId challengeId refusal jti =>
        simp only [admissible, decide_eq_true_eq] at hadmissible
        exact redeemed_passkeyAuthenticationVerify hs hadmissible
  unfold redeems
  split
  · next factors hok => exact hredeemed factors hok
  · exact ⟨List.nodup_nil, fun f hf => absurd hf List.not_mem_nil⟩

/-- **One-time factors.** What authorises one successful operation authorises no later one, whatever
requests are interleaved. -/
theorem one_time_factors (hs : (factorSystem hotp isDigit recovers cfg).Reachable s)
    (hstep : (factorSystem hotp isDigit recovers cfg).step s a t) :
    (redeems hotp isDigit recovers cfg s a).Nodup ∧
      ∀ f ∈ redeems hotp isDigit recovers cfg s a, ∀ as u a' v,
        (factorSystem hotp isDigit recovers cfg).Run t as u →
        (factorSystem hotp isDigit recovers cfg).step u a' v →
          f ∉ redeems hotp isDigit recovers cfg u a' := by
  obtain ⟨hnodup, hspends⟩ := redeemed_of_step (factorInv_of_reachable hs) hstep
  refine ⟨hnodup, ?_⟩
  intro f hf as u a' v hrun hlast hagain
  have hspent : Spent u f := (hspends f hf).2.extends (extends_of_run hrun)
  have hu := factorInv_of_reachable ((hs.step hstep).run hrun)
  exact ((redeemed_of_step hu hlast).2 f hagain).1 hspent

/-! ### Two clients race on one challenge -/

def sampleSettings : Settings := ⟨30, 5, 8, 30, 5, 30, false⟩

def sampleHotp (_ : String) (_ : Int) : String := "123456"

def sampleRecovers (hash code : String) : Bool := hash = code

def sampleBearer : BearerToken := ⟨"alice", 1, "t-1", 60000000, 1860000000⟩

def sampleChallenge : MfaChallenge := ⟨"alice", 2, "c-1", 420000000⟩

/-- One client has matched a time step and the other a recovery code. -/
def sampleRun : List Action := [
  .request (.register "alice" "user"),
  .request (.tick 60000000),
  .request (.login "alice" none "t-1"),
  .mfaEnroll sampleBearer "secret",
  .mfaActivate sampleBearer "123 456" [("r-1", "backup")],
  .request (.tick 60000000),
  .request (.login "alice" none "c-1"),
  .beginMfaVerify sampleChallenge "123456" none,
  .beginMfaVerify sampleChallenge "backup" none]

def sampleStore : FactorStore :=
  (System.exec (stepFactors sampleHotp Char.isDigit sampleRecovers sampleSettings)
    (FactorStore.initial 0) sampleRun).get (by decide +kernel)

theorem reachable_sampleStore :
    (factorSystem sampleHotp Char.isDigit sampleRecovers sampleSettings).Reachable sampleStore :=
  ⟨FactorStore.initial 0, sampleRun, ⟨0, rfl⟩, System.run_of_exec (Option.some_get _).symm⟩

def sampleFinish : Action := .finishMfaVerify ⟨sampleChallenge, .totp "secret" 3⟩ "t-2"

theorem one_time_factors_sample :
    ∃ t, (factorSystem sampleHotp Char.isDigit sampleRecovers sampleSettings).step sampleStore
        sampleFinish t ∧
      redeems sampleHotp Char.isDigit sampleRecovers sampleSettings sampleStore sampleFinish =
        [.mfaChallenge "c-1", .totp "secret" 3] ∧
      ∀ as u a v,
        (factorSystem sampleHotp Char.isDigit sampleRecovers sampleSettings).Run t as u →
        (factorSystem sampleHotp Char.isDigit sampleRecovers sampleSettings).step u a v →
          .mfaChallenge "c-1" ∉
            redeems sampleHotp Char.isDigit sampleRecovers sampleSettings u a := by
  have hadmissible : admissible sampleSettings sampleStore sampleFinish = true := by
    decide +kernel
  have hredeems : redeems sampleHotp Char.isDigit sampleRecovers sampleSettings sampleStore
      sampleFinish = [.mfaChallenge "c-1", .totp "secret" 3] := by decide +kernel
  have hstep : (factorSystem sampleHotp Char.isDigit sampleRecovers sampleSettings).step
      sampleStore sampleFinish
      (perform sampleHotp Char.isDigit sampleRecovers sampleSettings sampleStore
        sampleFinish).1 := if_pos hadmissible
  refine ⟨_, hstep, hredeems, ?_⟩
  intro as u a v hrun hlast
  refine (one_time_factors reachable_sampleStore hstep).2 _ ?_ as u a v hrun hlast
  rw [hredeems]
  exact List.mem_cons_self

end Scap.Factors
