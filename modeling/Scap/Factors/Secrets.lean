import Scap.Auth.Revocation
import Scap.Factors.Extends

/-!
# Secrets and requests in progress

`mfa_verify` reads a secret and a last counter before it locks the account. `PendingOk` says what is
left of that reading: as long as the account has the version of the challenge and a second factor,
its secret is the one the code was matched with. The secret changes in two routes only
(`SecretsChange`), and both leave the version behind or find the second factor turned off.
-/

namespace Scap.Factors

open Scap.Lib Scap.Auth

variable {hotp : String → Int → String} {isDigit : Char → Bool}
  {recovers : String → String → Bool} {cfg : Settings} {s t u : FactorStore} {a : Action}
  {b : BearerToken} {userId : String}

/-! ## Invariants -/

/-- While the account has the challenge's version and a second factor, its secret is the one that
was matched. -/
structure PendingOk (s : FactorStore) (p : Pending) : Prop where
  drawn : p.challenge.sub ∈ s.auth.drawn
  behind : ∀ v ∈ s.auth.users.rows, v.id = p.challenge.sub → p.challenge.ver ≤ v.tokenVersion
  secret : ∀ secret counter, p.found = .totp secret counter → ∀ v ∈ s.auth.users.rows,
    v.id = p.challenge.sub → v.tokenVersion = p.challenge.ver → v.mfaEnabled = true →
      s.mfaSecret p.challenge.sub = some secret

/-- The secret may change only with the version of its account, or while it is not in use. -/
def KeepsSecret (s t : FactorStore) (userId : String) : Prop :=
  t.mfaSecret userId = s.mfaSecret userId ∨
    ∀ v ∈ s.auth.users.rows, v.id = userId → ∀ w ∈ t.auth.users.rows, w.id = userId →
      v.mfaEnabled = false ∨ v.tokenVersion < w.tokenVersion

theorem PendingOk.extends {p : Pending} (h : PendingOk s p) (hst : Extends s t)
    (hkeeps : KeepsSecret s t p.challenge.sub) : PendingOk t p := by
  have hold : ∀ w ∈ t.auth.users.rows, w.id = p.challenge.sub →
      ∃ v ∈ s.auth.users.rows, v.id = p.challenge.sub ∧ SameOrRaised v w := by
    intro w hw hid
    rcases hst.accounts.users w hw with ⟨v, hv, hvw⟩ | ⟨hnew, -⟩
    · exact ⟨v, hv, hvw.1.trans hid, hvw⟩
    · exact absurd (hid ▸ h.drawn) hnew
  refine ⟨hst.accounts.drawn h.drawn, ?_, ?_⟩
  · intro w hw hid
    obtain ⟨v, hv, hvid, -, hsame⟩ := hold w hw hid
    have hle := h.behind v hv hvid
    rcases hsame with ⟨hver, -⟩ | hlt
    · exact hver ▸ hle
    · omega
  · intro secret counter hfound w hw hid hver hmfa
    obtain ⟨v, hv, hvid, -, hsame⟩ := hold w hw hid
    have hle := h.behind v hv hvid
    rcases hsame with ⟨hversame, hmfasame⟩ | hlt
    · have hsecret := h.secret secret counter hfound v hv hvid (hversame.trans hver)
        (hmfasame.trans hmfa)
      rcases hkeeps with hkept | hchanged
      · exact hkept.trans hsecret
      · rcases hchanged v hv hvid w hw hid with hoff | hraised
        · rw [hmfasame, hmfa] at hoff
          cases hoff
        · omega
    · omega

/-- No two accounts share a TOTP secret. -/
structure FactorInv (s : FactorStore) : Prop where
  accounts : ∀ v ∈ s.auth.users.rows, v.id ∈ s.auth.drawn
  secrets : ∀ userId secret, s.mfaSecret userId = some secret → secret ∈ s.secrets
  owner : ∀ userId userId' secret, s.mfaSecret userId = some secret →
    s.mfaSecret userId' = some secret → userId = userId'
  recovery : ∀ r ∈ s.recoveryCodes.rows, r.id ∈ s.auth.drawn
  webauthn : ∀ r ∈ s.webauthn.rows, r.id ∈ s.auth.drawn
  pending : ∀ p ∈ s.pending, PendingOk s p

/-- What a step does to the secrets. -/
inductive SecretsChange (s t : FactorStore) : Prop
  | same (h : t.mfaSecret = s.mfaSecret)
  | enrolled (userId secret : String) (hfresh : secret ∉ s.secrets)
      (hoff : ∀ v ∈ s.auth.users.rows, v.id = userId → v.mfaEnabled = false)
      (hsecrets : t.secrets = secret :: s.secrets)
      (h : t.mfaSecret = Function.update s.mfaSecret userId (some secret))
  | cleared (userId : String)
      (hraised : ∀ v ∈ s.auth.users.rows, v.id = userId → ∀ w ∈ t.auth.users.rows,
        w.id = userId → v.tokenVersion < w.tokenVersion)
      (h : t.mfaSecret = Function.update s.mfaSecret userId none)

theorem SecretsChange.keepsSecret (h : SecretsChange s t) (userId : String) :
    KeepsSecret s t userId := by
  cases h with
  | same h => exact .inl (congrFun h userId)
  | enrolled id secret hfresh hoff hsecrets h =>
      by_cases hid : userId = id
      · right
        intro v hv hvid w hw hwid
        exact .inl (hoff v hv (hvid.trans hid))
      · left
        rw [h, Function.update_of_ne hid]
  | cleared id hraised h =>
      by_cases hid : userId = id
      · right
        intro v hv hvid w hw hwid
        exact .inr (hraised v hv (hvid.trans hid) w hw (hwid.trans hid))
      · left
        rw [h, Function.update_of_ne hid]

/-- A secret is an old one, or new and of one account. -/
theorem SecretsChange.origin (h : SecretsChange s t) {secret : String}
    (hsecret : t.mfaSecret userId = some secret) :
    s.mfaSecret userId = some secret ∨ secret ∉ s.secrets ∧ secret ∈ t.secrets ∧
      ∀ id, t.mfaSecret id = some secret → s.mfaSecret id = some secret ∨ id = userId := by
  cases h with
  | same h => exact .inl (h ▸ hsecret)
  | enrolled owner fresh hfresh hoff hsecrets h =>
      rw [h] at hsecret ⊢
      by_cases hid : userId = owner
      · rw [hid, Function.update_self] at hsecret
        obtain rfl := Option.some.inj hsecret
        refine .inr ⟨hfresh, hsecrets ▸ List.mem_cons_self, ?_⟩
        intro id hid'
        by_cases hsame : id = owner
        · exact .inr (hsame.trans hid.symm)
        · rw [Function.update_of_ne hsame] at hid'
          exact .inl hid'
      · rw [Function.update_of_ne hid] at hsecret
        exact .inl hsecret
  | cleared owner hraised h =>
      rw [h] at hsecret
      by_cases hid : userId = owner
      · rw [hid, Function.update_self] at hsecret
        cases hsecret
      · rw [Function.update_of_ne hid] at hsecret
        exact .inl hsecret

/-- The invariant over a step, from what it does to accounts, secrets and requests. -/
theorem FactorInv.step (hs : FactorInv s) (hst : Extends s t) (hsecrets : SecretsChange s t)
    (hpending : ∀ p ∈ t.pending, p ∈ s.pending ∨ PendingOk s p) : FactorInv t := by
  refine ⟨?_, ?_, ?_, hst.recovery.keys_drawn hst.accounts.drawn hs.recovery,
    hst.webauthn.keys_drawn hst.accounts.drawn hs.webauthn, ?_⟩
  · intro w hw
    rcases hst.accounts.users w hw with ⟨v, hv, hvw⟩ | ⟨-, hdrawn⟩
    · exact hvw.1 ▸ hst.accounts.drawn (hs.accounts v hv)
    · exact hdrawn
  · intro id secret hsecret
    rcases hsecrets.origin hsecret with hold | ⟨-, hnew, -⟩
    · exact hst.secrets (hs.secrets id secret hold)
    · exact hnew
  · intro id id' secret hsecret hsecret'
    rcases hsecrets.origin hsecret with hold | ⟨hfresh, -, honly⟩
    · rcases hsecrets.origin hsecret' with hold' | ⟨hfresh, -⟩
      · exact hs.owner id id' secret hold hold'
      · exact absurd (hs.secrets id secret hold) hfresh
    · rcases honly id' hsecret' with hold' | hsame
      · exact absurd (hs.secrets id' secret hold') hfresh
      · exact hsame.symm
  · intro p hp
    rcases hpending p hp with hold | hnew
    · exact (hs.pending p hold).extends hst (hsecrets.keepsSecret _)
    · exact hnew.extends hst (hsecrets.keepsSecret _)

/-! ## What a route does to secrets and requests -/

/-- A route that neither begins a request nor touches a secret. -/
structure Quiet (s t : FactorStore) : Prop where
  secrets : t.mfaSecret = s.mfaSecret
  pending : t.pending ⊆ s.pending

theorem Quiet.refl (s : FactorStore) : Quiet s s := ⟨rfl, List.Subset.refl _⟩

theorem Claimed.quiet {expected : Option Int} {found : Matched} {f : Factor}
    (h : Claimed s userId expected found t f) : Quiet s t := by
  cases h <;> exact ⟨rfl, List.Subset.refl _⟩

theorem matchCode_totp {secret code secret' : String} {counter : Int}
    (h : matchCode hotp isDigit recovers s userId secret code = .ok (.totp secret' counter)) :
    secret' = secret := by
  unfold matchCode at h
  split at h
  · cases h
  · cases h
    rfl
  · cases h

theorem quiet_finishMfaVerify {p : Pending} {jti : String} :
    Quiet s (finishMfaVerify cfg s p jti).1 := by
  have herase : Quiet s { s with pending := s.pending.erase p } := ⟨rfl, List.erase_subset⟩
  unfold finishMfaVerify
  dsimp only
  split
  · next t f account hclaim hfind =>
    split
    · exact herase
    · have hclaimed := (claimMatched_some hclaim).quiet
      exact ⟨hclaimed.secrets, List.Subset.trans hclaimed.pending herase.pending⟩
  · exact herase

theorem quiet_mfaActivate {code : String} {codes : List (String × String)} :
    Quiet s (mfaActivate hotp isDigit cfg s b code codes).1 := by
  unfold mfaActivate
  repeat' split
  all_goals exact ⟨rfl, List.Subset.refl _⟩

theorem quiet_stepUpAuthentication {passwordOk : Bool} {code : Option String} :
    Quiet s (stepUpAuthentication hotp isDigit recovers cfg s b passwordOk code).1 := by
  unfold stepUpAuthentication
  repeat' split
  all_goals try exact ⟨rfl, List.Subset.refl _⟩
  next hclaim =>
    have hclaimed := (claimMatched_some hclaim).quiet
    exact ⟨hclaimed.secrets, hclaimed.pending⟩

theorem quiet_consumeExportTicket {k : ExportTicket} {refusal : Option Nat} :
    Quiet s (consumeExportTicket cfg s k refusal).1 := by
  unfold consumeExportTicket
  split <;> exact ⟨rfl, List.Subset.refl _⟩

theorem quiet_passkeyOptions {purpose : Purpose} {refusal : Option Nat} {id : String} :
    Quiet s (passkeyOptions cfg s purpose b refusal id).1 := by
  unfold passkeyOptions
  repeat' split
  all_goals exact ⟨rfl, List.Subset.refl _⟩

theorem quiet_consumeChallenge {id : String} {purpose : Purpose} {owner session : Option String}
    (h : consumeChallenge s id purpose owner session = some t) : Quiet s t := by
  obtain ⟨-, -, -, hpending, hsecrets, -⟩ := consumeChallenge_some h
  exact ⟨hsecrets, hpending ▸ List.Subset.refl _⟩

theorem quiet_passkeyRegistrationVerify {challengeId : String} {refusal : Option Nat} :
    Quiet s (passkeyRegistrationVerify cfg s b challengeId refusal).1 := by
  unfold passkeyRegistrationVerify
  split
  · exact .refl s
  · split
    · exact .refl s
    · next hconsumed => exact quiet_consumeChallenge hconsumed
    · next hconsumed => exact quiet_consumeChallenge hconsumed

theorem quiet_passkeyStepUpVerify {challengeId : String} {refusal : Option Nat} :
    Quiet s (passkeyStepUpVerify cfg s b challengeId refusal).1 := by
  unfold passkeyStepUpVerify
  split
  · exact .refl s
  · split
    · exact .refl s
    · next hconsumed => exact quiet_consumeChallenge hconsumed
    · next hconsumed =>
      have hquiet := quiet_consumeChallenge hconsumed
      exact ⟨hquiet.secrets, hquiet.pending⟩

theorem quiet_passkeyAuthenticationVerify {challengeId jti : String} {refusal : Option Nat} :
    Quiet s (passkeyAuthenticationVerify cfg s userId challengeId refusal jti).1 := by
  unfold passkeyAuthenticationVerify
  split
  · exact .refl s
  · next hconsumed =>
    have hquiet := quiet_consumeChallenge hconsumed
    split
    · exact hquiet
    · exact ⟨hquiet.secrets, hquiet.pending⟩

/-- A request begins with a factor of its account as it is. -/
theorem beginMfaVerify_spec {c : MfaChallenge} {code : String} {refusal : Option Nat}
    (hs : FactorInv s) :
    (beginMfaVerify hotp isDigit recovers s c code refusal).1 = s ∨
      ∃ p, PendingOk s p ∧ (beginMfaVerify hotp isDigit recovers s c code refusal).1 =
        { s with pending := p :: s.pending } := by
  unfold beginMfaVerify
  split
  · exact .inl rfl
  · split
    · exact .inl rfl
    · split
      · exact .inl rfl
      · next account hfind =>
        obtain ⟨hrow, hid⟩ := KeyedTable.find?_eq_some hfind
        split
        · exact .inl rfl
        · next hchecks =>
          split
          · exact .inl rfl
          · exact .inl rfl
          · next secret hsecret =>
            split
            · exact .inl rfl
            · next found hfound =>
              have hver : c.ver = account.tokenVersion :=
                not_not.mp (not_or.mp (not_or.mp hchecks).2).1
              have honly : ∀ v ∈ s.auth.users.rows, v.id = c.sub → v = account :=
                fun v hv hvid => KeyedTable.eq_of_key hv hrow (hvid.trans hid.symm)
              refine .inr ⟨⟨c, found⟩, ⟨hid ▸ hs.accounts account hrow, ?_, ?_⟩, rfl⟩
              · intro v hv hvid
                rw [honly v hv hvid]
                exact hver.le
              · intro secret' counter hmatched v hv hvid hversion hmfa
                dsimp only at hmatched ⊢
                rw [hmatched] at hfound
                rw [matchCode_totp hfound, ← hid, hsecret]

theorem secretsChange_mfaEnroll {secret : String} (hfresh : secret ∉ s.secrets) :
    SecretsChange s (mfaEnroll cfg s b secret).1 ∧
      (mfaEnroll cfg s b secret).1.pending = s.pending := by
  unfold mfaEnroll
  split
  · exact ⟨.same rfl, rfl⟩
  · next account session hlock =>
    split
    · exact ⟨.same rfl, rfl⟩
    · next hoff =>
      refine ⟨.enrolled account.id secret hfresh ?_ rfl rfl, rfl⟩
      obtain ⟨-, hfind, -⟩ := lockAccountMutation_ok hlock
      obtain ⟨hrow, hid⟩ := KeyedTable.find?_eq_some hfind
      intro v hv hvid
      rw [KeyedTable.eq_of_key hv hrow hvid]
      exact eq_false_of_ne_true hoff

/-- Turning the second factor off raises the version. -/
theorem raised_of_disabled {account : User} {session : AuthSession}
    (hlock : lockAccountMutation cfg s.auth b false = .ok (account, session))
    (hon : account.mfaEnabled = true) :
    ∀ v ∈ s.auth.users.rows, v.id = account.id →
      ∀ w ∈ (Auth.mfaDisable cfg s.auth b none).1.users.rows, w.id = account.id →
        v.tokenVersion < w.tokenVersion := by
  obtain ⟨-, hfind, -⟩ := lockAccountMutation_ok hlock
  obtain ⟨hrow, hid⟩ := KeyedTable.find?_eq_some hfind
  have hok : (setMfa cfg false s.auth b none).2 = .ok () := by
    unfold setMfa
    rw [hlock]
    simp [hon]
  obtain ⟨v', hv', w', hw', hvid', hwid', hlt⟩ := versionRaised_setMfa hok
  intro v hv hvid w hw hwid
  rw [KeyedTable.eq_of_key hv hv' (hvid.trans (hid.trans hvid'.symm)),
    KeyedTable.eq_of_key hw hw' (hwid.trans (hid.trans hwid'.symm))]
  exact hlt

theorem Claimed.auth {expected : Option Int} {found : Matched} {f : Factor}
    (h : Claimed s userId expected found t f) : t.auth = s.auth := by
  cases h <;> rfl

theorem secretsChange_mfaDisable {passwordOk sensitive : Bool} {code : String} :
    SecretsChange s (mfaDisable hotp isDigit recovers cfg s b passwordOk code sensitive).1 ∧
      (mfaDisable hotp isDigit recovers cfg s b passwordOk code sensitive).1.pending ⊆
        s.pending := by
  have hsame : SecretsChange s s ∧ s.pending ⊆ s.pending := ⟨.same rfl, List.Subset.refl _⟩
  unfold mfaDisable
  split
  · exact hsame
  · next account session hlock =>
    split
    · exact hsame
    · next hon =>
      split
      · exact hsame
      · dsimp only
        split
        · exact hsame
        · split
          · exact hsame
          · next t f hclaim =>
            split
            · exact hsame
            · have hclaimed := claimMatched_some hclaim
              refine ⟨.cleared account.id ?_ ?_, hclaimed.quiet.pending⟩
              · rw [hclaimed.auth]
                exact raised_of_disabled hlock (eq_true_of_ne_false hon)
              · rw [hclaimed.quiet.secrets]

theorem factorInv_of_step (hs : FactorInv s)
    (hstep : (factorSystem hotp isDigit recovers cfg).step s a t) : FactorInv t := by
  have hst := extends_of_step hstep
  have hquiet {t : FactorStore} (hst : Extends s t) (h : Quiet s t) : FactorInv t :=
    hs.step hst (.same h.secrets) fun p hp => .inl (h.pending hp)
  replace hstep : stepFactors hotp isDigit recovers cfg s a = some t := hstep
  unfold stepFactors at hstep
  obtain ⟨hadmissible, rfl⟩ := of_allowed hstep
  clear hstep
  unfold perform at hst ⊢
  cases a with
  | request a => exact hquiet hst ⟨rfl, List.Subset.refl _⟩
  | beginMfaVerify c code refusal =>
      rcases beginMfaVerify_spec hs with hsame | ⟨p, hp, hbegun⟩
      · rw [hsame]
        exact hs
      · rw [hbegun] at hst ⊢
        refine hs.step hst (.same rfl) ?_
        intro q hq
        rcases List.mem_cons.mp hq with rfl | hq
        · exact .inr hp
        · exact .inl hq
  | finishMfaVerify p jti => exact hquiet hst quiet_finishMfaVerify
  | mfaEnroll b secret =>
      simp only [admissible, Bool.and_eq_true, decide_eq_true_eq] at hadmissible
      have henroll : SecretsChange s (mfaEnroll cfg s b secret).1 ∧
          (mfaEnroll cfg s b secret).1.pending = s.pending := secretsChange_mfaEnroll hadmissible.2
      obtain ⟨hsecrets, hpending⟩ := henroll
      exact hs.step hst hsecrets fun p hp => .inl (hpending ▸ hp)
  | mfaActivate b code codes => exact hquiet hst quiet_mfaActivate
  | mfaDisable b passwordOk code sensitive =>
      obtain ⟨hsecrets, hpending⟩ := secretsChange_mfaDisable
      exact hs.step hst hsecrets fun p hp => .inl (hpending hp)
  | stepUp b passwordOk code => exact hquiet hst quiet_stepUpAuthentication
  | consumeTicket k refusal => exact hquiet hst quiet_consumeExportTicket
  | passkeyOptions purpose b refusal id => exact hquiet hst quiet_passkeyOptions
  | passkeyRegister b challengeId refusal => exact hquiet hst quiet_passkeyRegistrationVerify
  | passkeyStepUp b challengeId refusal => exact hquiet hst quiet_passkeyStepUpVerify
  | passkeyLogin userId challengeId refusal jti =>
      exact hquiet hst quiet_passkeyAuthenticationVerify

theorem factorInv_of_reachable (h : (factorSystem hotp isDigit recovers cfg).Reachable s) :
    FactorInv s := by
  refine System.Reachable.induct (I := FactorInv) ?_ ?_ h
  · rintro s ⟨clock, rfl⟩
    constructor <;> simp [FactorStore.initial, Store.initial]
  · exact fun s a t _ hs hstep => factorInv_of_step hs hstep

end Scap.Factors
