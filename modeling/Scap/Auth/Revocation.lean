import Scap.Auth.Accounts

/-!
# Revocation is final

* `stale_of_raise` — once the version of an account is raised, all earlier credentials are behind
  it, and `Stale.rise` keeps them there;
* `versionRaised_of_step` — every operation that promises to revoke everything raises the version;
* `familyDead_of_reuse` — a rotated token presented after the grace interval closes its family, and
  `familyDead_of_run` keeps it closed;
* `revocation_is_final` — what follows for runs.
-/

namespace Scap.Auth

open Scap.Lib

variable {cfg : Settings} {s t : Store} {b : BearerToken} {userId : String}

/-! ## Credentials behind their account -/

/-- The account the credential names is gone for good or ahead of it. -/
def Stale (s : Store) (c : String × Int) : Prop :=
  c.1 ∈ s.drawn ∧ ∀ u ∈ s.users.rows, u.id = c.1 → c.2 < u.tokenVersion

theorem Stale.rise {c : String × Int} (h : Stale s c) (hrise : VersionsRise s t) : Stale t c := by
  refine ⟨hrise.drawn h.1, fun v hv hid => ?_⟩
  rcases hrise.rise v hv with ⟨u, hu, huv, hle⟩ | ⟨hnew, -⟩
  · exact lt_of_lt_of_le (h.2 u hu (huv.trans hid)) hle
  · exact absurd (hid ▸ h.1) hnew

/-- The account's version is higher in `t` than in `s`. -/
def VersionRaised (userId : String) (s t : Store) : Prop :=
  ∃ u ∈ s.users.rows, ∃ v ∈ t.users.rows,
    u.id = userId ∧ v.id = userId ∧ u.tokenVersion < v.tokenVersion

/-- Once the version is raised, all earlier credentials are behind it. -/
theorem stale_of_raise (hs : AuthInv s) (hraised : VersionRaised userId s t)
    (hrise : VersionsRise s t) {c : String × Int} (hc : c ∈ s.claims) (hid : c.1 = userId) :
    Stale t c := by
  obtain ⟨u, hu, v, hv, huid, hvid, hlt⟩ := hraised
  refine ⟨hrise.drawn (hs.claim.claimDrawn c hc), fun w hw hwid => ?_⟩
  have hle := hs.claim.notAhead c hc u hu (huid.trans hid.symm)
  have heq : w = v := KeyedTable.eq_of_key hw hv (by rw [hwid, hid, hvid])
  rw [heq]
  exact lt_of_le_of_lt hle hlt

/-- What a route that compares versions sees of a stale credential. -/
theorem Stale.ne {c : String × Int} (h : Stale s c) {u : User}
    (hfind : s.users.find? c.1 = some u) : c.2 ≠ u.tokenVersion := by
  obtain ⟨hmem, hid⟩ := KeyedTable.find?_eq_some hfind
  exact ne_of_lt (h.2 u hmem hid)

/-! ## What the other routes accept -/

theorem account_of_refresh {jti : String} {new : BearerToken}
    (h : (refreshSession cfg s b jti).2 = .ok new) :
    (∃ u, s.users.find? b.sub = some u ∧ b.ver = u.tokenVersion) ∧
      ∃ r ∈ s.sessions.rows, r.jti = b.jti ∧ r.revokedAt = none := by
  unfold refreshSession at h
  split at h
  · cases h
  · split at h
    · cases h
    · next u hlock =>
      split at h
      · cases h
      · next hver =>
        split at h
        · cases h
        · next old hrow =>
          obtain ⟨hmem, hjti, -, hlive⟩ := lockAuthSessionRow_eq_some hrow
          exact ⟨⟨u, (lockUserRow_eq_some hlock).1, not_not.mp hver⟩, old, hmem, hjti, hlive⟩

theorem account_of_logout (h : (logout s b).2 = .ok ()) :
    ∃ u, s.users.find? b.sub = some u ∧ b.ver = u.tokenVersion := by
  unfold logout at h
  split at h
  · cases h
  · split at h
    · cases h
    · next u hlock =>
      split at h
      · cases h
      · next hver => exact ⟨u, (lockUserRow_eq_some hlock).1, not_not.mp hver⟩

theorem account_of_mfaVerify {c : MfaChallenge} {refusal : Option Nat} {jti : String}
    (h : (mfaVerify cfg s c refusal jti).2 = .ok ()) :
    ∃ u, s.users.find? c.sub = some u ∧ c.ver = u.tokenVersion := by
  unfold mfaVerify at h
  split at h
  · cases h
  · split at h
    · cases h
    · split at h
      · cases h
      · next u hfind =>
        split at h
        · cases h
        · next hguard =>
          refine ⟨u, hfind, ?_⟩
          simpa using (not_or.mp (not_or.mp hguard).2).1

theorem account_of_consumeExportTicket {k : ExportTicket} {refusal : Option Nat}
    (h : (consumeExportTicket cfg s k refusal).2 = .ok ()) :
    ∃ u, s.users.find? k.sub = some u ∧ k.ver = u.tokenVersion := by
  unfold consumeExportTicket at h
  split at h
  · cases h
  · split at h
    · cases h
    · split at h
      · cases h
      · next u hlock =>
        split at h
        · cases h
        · next hver => exact ⟨u, (lockUserRow_eq_some hlock).1, not_not.mp hver⟩

/-! ## Refusals -/

/-- No authenticated route, and no refresh, accepts the bearer. -/
structure BearerRefused (cfg : Settings) (s : Store) (b : BearerToken) : Prop where
  request : ¬ Accepts cfg s b
  mutation : ∀ stepUp x, lockAccountMutation cfg s b stepUp ≠ .ok x
  refresh : ∀ jti x, (refreshSession cfg s b jti).2 ≠ .ok x

theorem BearerRefused.of_stale (h : Stale s (b.sub, b.ver)) : BearerRefused cfg s b where
  request haccepts := by
    obtain ⟨u, r, hfind, -, hver, -⟩ := row_of_accepts haccepts
    exact h.ne hfind hver
  mutation stepUp x hok := by
    obtain ⟨u, r⟩ := x
    obtain ⟨-, hfind, -, hver, -⟩ := lockAccountMutation_ok hok
    exact h.ne hfind hver
  refresh jti x hok := by
    obtain ⟨⟨u, hfind, hver⟩, -⟩ := account_of_refresh hok
    exact h.ne hfind hver

theorem BearerRefused.of_dead (h : ∀ r ∈ s.sessions.rows, r.jti = b.jti → r.revokedAt ≠ none) :
    BearerRefused cfg s b where
  request haccepts := by
    obtain ⟨-, r, -, -, -, hr, hjti, hlive, -⟩ := row_of_accepts haccepts
    exact h r hr hjti hlive
  mutation stepUp x hok := by
    obtain ⟨u, r⟩ := x
    obtain ⟨-, -, -, -, hr, hjti, -, hlive⟩ := lockAccountMutation_ok hok
    exact h r hr hjti hlive
  refresh jti x hok := by
    obtain ⟨-, r, hr, hjti, hlive⟩ := account_of_refresh hok
    exact h r hr hjti hlive

/-! ## Who raises the version -/

/-- The operations that revoke everything of an account, where they succeed; a status update does
where it changes the status. -/
def RevokesAll (cfg : Settings) (s : Store) (userId : String) : Action → Prop
  | .logoutAll b => b.sub = userId ∧ (logoutAll cfg s b).2 = .ok ()
  | .changePassword b refusal => b.sub = userId ∧ (changePassword cfg s b refusal).2 = .ok ()
  | .passwordReset id refusal => id = userId ∧ (confirmPasswordReset s id refusal).2 = .ok ()
  | .mfaActivate b refusal => b.sub = userId ∧ (mfaActivate cfg s b refusal).2 = .ok ()
  | .mfaDisable b refusal => b.sub = userId ∧ (mfaDisable cfg s b refusal).2 = .ok ()
  | .changeRole b targetId role =>
      targetId = userId ∧ (adminChangeRole cfg s b targetId role).2 = .ok ()
  | .updateStatus b targetId isActive =>
      targetId = userId ∧ (updateUserStatus cfg s b targetId isActive).2 = .ok () ∧
        (s.users.find? targetId).map User.isActive ≠ some isActive
  | _ => False

theorem versionRaised_revokeAll {u : User} (hfind : s.users.find? userId = some u) :
    VersionRaised userId s (revokeAllAuthSessions s userId) := by
  obtain ⟨hu, rfl⟩ := KeyedTable.find?_eq_some hfind
  refine ⟨u, hu, _, List.mem_map_of_mem hu, rfl, ?_, ?_⟩
  · rw [if_pos rfl]
  · rw [if_pos rfl]
    exact Int.lt_succ u.tokenVersion

theorem versionRaised_setAccount {u : User} {role : String} {isActive mfaEnabled : Bool}
    (hfind : s.users.find? userId = some u) :
    VersionRaised userId s
      (revokeAllAuthSessions (setAccount s userId role isActive mfaEnabled) userId) := by
  have hfind' : (setAccount s userId role isActive mfaEnabled).users.find? userId =
      some { u with role := role, isActive := isActive, mfaEnabled := mfaEnabled } := by
    rw [setAccount, KeyedTable.find?_modify, hfind, Option.map_some,
      if_pos (KeyedTable.find?_eq_some hfind).2]
  obtain ⟨w, hw, v, hv, hwid, hvid, hlt⟩ := versionRaised_revokeAll hfind'
  obtain ⟨hu, hid⟩ := KeyedTable.find?_eq_some hfind
  obtain ⟨hmem, hid'⟩ := KeyedTable.find?_eq_some hfind'
  obtain rfl := KeyedTable.eq_of_key hw hmem (hwid.trans hid'.symm)
  exact ⟨u, hu, v, hv, hid, hvid, hlt⟩

theorem lockAdminMutation_ok {targetId : String} {target : User}
    (h : lockAdminMutation cfg s b targetId = .ok target) :
    s.users.find? targetId = some target ∧ target.id = targetId := by
  unfold lockAdminMutation at h
  split at h
  · cases h
  · split at h
    · cases h
    · split at h
      · cases h
      · split at h
        · cases h
        · split at h
          · cases h
          · next hfind =>
            obtain rfl := Except.ok.inj h
            exact ⟨hfind, (KeyedTable.find?_eq_some hfind).2⟩

theorem versionRaised_of_locked {stepUp : Bool} {u : User} {r : AuthSession}
    (h : lockAccountMutation cfg s b stepUp = .ok (u, r)) :
    VersionRaised b.sub s (revokeAllAuthSessions s u.id) := by
  obtain ⟨-, hfind, -⟩ := lockAccountMutation_ok h
  rw [(KeyedTable.find?_eq_some hfind).2]
  exact versionRaised_revokeAll hfind

theorem versionRaised_setMfa {enable : Bool} {refusal : Option Nat}
    (h : (setMfa cfg enable s b refusal).2 = .ok ()) :
    VersionRaised b.sub s (setMfa cfg enable s b refusal).1 := by
  unfold setMfa at h ⊢
  split at h
  · cases h
  · next u r hlock =>
    split at h
    · cases h
    · split at h
      · cases h
      · next hchange _ =>
        obtain ⟨-, hfind, -⟩ := lockAccountMutation_ok hlock
        simp only [if_neg hchange]
        rw [(KeyedTable.find?_eq_some hfind).2]
        exact versionRaised_setAccount hfind

/-- A step that revokes all sessions of an account raises its token version. -/
theorem versionRaised_of_step {a : Action} (hstep : (authSystem cfg).step s a t)
    (h : RevokesAll cfg s userId a) : VersionRaised userId s t := by
  replace hstep : stepStore cfg s a = some t := hstep
  cases a with
  | logoutAll b =>
      obtain ⟨rfl, hok⟩ := h
      obtain ⟨-, rfl⟩ := of_guarded hstep
      unfold logoutAll at hok ⊢
      split at hok
      · cases hok
      · next hlock =>
        dsimp only
        exact versionRaised_of_locked hlock
  | changePassword b refusal =>
      obtain ⟨rfl, hok⟩ := h
      obtain ⟨-, rfl⟩ := of_guarded hstep
      unfold changePassword at hok ⊢
      split at hok
      · cases hok
      · cases hok
      · next hlock =>
        dsimp only
        exact versionRaised_of_locked hlock
  | passwordReset id refusal =>
      obtain ⟨rfl, hok⟩ := h
      obtain rfl := Option.some.inj hstep
      unfold confirmPasswordReset at hok ⊢
      split at hok
      · next u hlock =>
        have hfind := (lockUserRow_eq_some hlock).1
        dsimp only
        rw [(KeyedTable.find?_eq_some hfind).2]
        exact versionRaised_revokeAll hfind
      · cases hok
      · cases hok
  | mfaActivate b refusal =>
      obtain ⟨rfl, hok⟩ := h
      obtain ⟨-, rfl⟩ := of_guarded hstep
      exact versionRaised_setMfa hok
  | mfaDisable b refusal =>
      obtain ⟨rfl, hok⟩ := h
      obtain ⟨-, rfl⟩ := of_guarded hstep
      exact versionRaised_setMfa hok
  | changeRole b targetId role =>
      obtain ⟨rfl, hok⟩ := h
      obtain ⟨-, rfl⟩ := of_guarded hstep
      unfold adminChangeRole at hok ⊢
      split at hok
      · cases hok
      · next target hlock =>
        split at hok
        · cases hok
        · next hself =>
          obtain ⟨hfind, hid⟩ := lockAdminMutation_ok hlock
          simp only [if_neg hself]
          rw [hid]
          exact versionRaised_setAccount hfind
  | updateStatus b targetId isActive =>
      obtain ⟨rfl, hok, hchange⟩ := h
      obtain ⟨-, rfl⟩ := of_guarded hstep
      unfold updateUserStatus at hok ⊢
      split at hok
      · cases hok
      · next target hlock =>
        split at hok
        · cases hok
        · next hself =>
          obtain ⟨hfind, hid⟩ := lockAdminMutation_ok hlock
          -- a change to the status that the account has already revokes nothing
          have hne : target.isActive ≠ isActive := by
            intro heq
            rw [hfind] at hchange
            exact hchange (congrArg some heq)
          simp only [if_neg hself, if_neg hne]
          rw [hid]
          exact versionRaised_setAccount hfind
  | _ => exact absurd h id

/-! ## Dead families -/

/-- No session of the family is live. -/
def FamilyDead (s : Store) (f : String) : Prop :=
  f ∈ s.drawn ∧ ∀ r ∈ s.sessions.rows, r.sessionFamilyId = f → r.revokedAt ≠ none

/-- Where the sessions of the next store come from. -/
theorem row_effect (hs : FamilyInv s) (h : Effect cfg s t) {x : AuthSession}
    (hx : x ∈ t.sessions.rows) :
    (∃ r ∈ s.sessions.rows, Follows x r) ∨ x.sessionFamilyId ∉ s.drawn ∨
      ∃ old ∈ s.sessions.rows, old.revokedAt = none ∧
        old.sessionFamilyId = x.sessionFamilyId := by
  have hsame : ∀ x ∈ s.sessions.rows, ∃ r ∈ s.sessions.rows, Follows x r :=
    fun x hx => ⟨x, hx, (Descends.refl x).toFollows⟩
  have hrevoked : ∀ p now, ∀ x ∈ (revokeWhere s.sessions p now).rows,
      ∃ r ∈ s.sessions.rows, Follows x r := by
    intro p now x hx
    obtain ⟨r, hr, hd⟩ := descends_of_mem_revokeWhere hx
    exact ⟨r, hr, hd.toFollows⟩
  cases h with
  | deleteUser userId => exact .inl (hsame x (KeyedTable.mem_filter.mp hx).1)
  | setAccount userId role isActive mfaEnabled => exact .inl (hrevoked _ _ x hx)
  | revokeAll userId => exact .inl (hrevoked _ _ x hx)
  | revokeFamily userId familyId reason => exact .inl (hrevoked _ _ x hx)
  | expire r reason => exact .inl (hrevoked _ _ x hx)
  | activity r hr hlive => exact .inl (follows_of_mem_recordActivity hx)
  | stepUp r hr hlive =>
      obtain ⟨q, hq, hd⟩ := descends_of_mem_recordStepUp hx
      exact .inl ⟨q, hq, hd.toFollows⟩
  | signIn u jti hu hactive hfresh =>
      rcases (mem_insert_fresh hs hfresh rfl).mp hx with rfl | hx
      · exact .inr (.inl hfresh)
      · exact .inl (hsame x hx)
  | rotate u old jti hu hactive hold howner hlive hfresh =>
      rcases mem_rotateSession hs hold hfresh hx with rfl | ⟨r, hr, hd, -⟩
      · exact .inr (.inr ⟨old, hold, hlive, rfl⟩)
      · exact .inl ⟨r, hr, hd.toFollows⟩
  | sweep jtis => exact .inl (hsame x (KeyedTable.mem_filter.mp hx).1)
  | _ => exact .inl (hsame x hx)

theorem familyDead_effect (hs : FamilyInv s) (h : Effect cfg s t) {f : String}
    (hdead : FamilyDead s f) : FamilyDead t f := by
  refine ⟨(usersRenewed_effect h).drawn hdead.1, fun x hx hfamily => ?_⟩
  rcases row_effect hs h hx with ⟨r, hr, hd⟩ | hnew | ⟨old, hold, hlive, hsame⟩
  · exact fun hlive => hdead.2 r hr (hd.family.symm.trans hfamily) (hd.live hlive)
  · exact absurd (hfamily ▸ hdead.1) hnew
  · exact absurd hlive (hdead.2 old hold (hsame.trans hfamily))

theorem familyDead_effects (hs : FamilyInv s) (h : Effects cfg s t) {f : String}
    (hdead : FamilyDead s f) : FamilyDead t f := by
  induction h with
  | refl => exact hdead
  | tail hfirst hlast ih => exact familyDead_effect (familyInv_effects hs hfirst) hlast ih

theorem familyDead_of_run (hs : FamilyInv s) {as : List Action}
    (h : (authSystem cfg).Run s as t) {f : String} (hdead : FamilyDead s f) : FamilyDead t f := by
  have hboth : FamilyInv t ∧ FamilyDead t f := by
    refine System.Run.preserves (I := fun t => FamilyInv t ∧ FamilyDead t f) ?_ h ⟨hs, hdead⟩
    rintro s a t ⟨hs, hdead⟩ hstep
    have heffects := effects_of_step hstep
    exact ⟨familyInv_effects hs heffects, familyDead_effects hs heffects hdead⟩
  exact hboth.2

/-! ## Rotated bearers -/

theorem clock_effect (h : Effect cfg s t) : s.clock ≤ t.clock := by
  cases h with
  | tick d => exact Int.le_add_of_nonneg_right (Int.natCast_nonneg d)
  | _ => exact le_refl _

/-- What is denied stays denied for as long as the token would last. -/
theorem revokedToken_effect (h : Effect cfg s t) {x : RevokedToken}
    (hx : x ∈ s.revokedTokens.rows) (hexp : s.clock < x.expiresAt) :
    x ∈ t.revokedTokens.rows := by
  cases h with
  | revokeFamily userId familyId reason =>
      have hfold : ∀ (rows : List AuthSession) (u : KeyedTable RevokedToken.jti), x ∈ u.rows →
          x ∈ (rows.foldl (fun t r => t.insertNew ⟨r.jti, userId, r.expiresAt, reason, s.clock⟩)
            u).rows := by
        intro rows
        induction rows with
        | nil => exact fun u hu => hu
        | cons r rows ih => exact fun u hu => ih _ (KeyedTable.mem_insertNew_of_mem hu)
      exact hfold _ _ hx
  | expire r reason => exact KeyedTable.mem_insertNew_of_mem hx
  | deny jti userId exp reason => exact KeyedTable.mem_insertNew_of_mem hx
  | sweep jtis =>
      refine KeyedTable.mem_filter.mpr ⟨hx, ?_⟩
      simp [not_le.mpr hexp]
  | _ => exact hx

/-- A session that has not expired stays, or its account is deleted with all of its sessions. -/
theorem row_kept (hs : AuthInv s) (h : Effect cfg s t) {r : AuthSession}
    (hr : r ∈ s.sessions.rows) (hexp : s.clock < r.expiresAt) :
    (∃ x ∈ t.sessions.rows, x.jti = r.jti ∧ x.sessionFamilyId = r.sessionFamilyId) ∨
      FamilyDead t r.sessionFamilyId := by
  have hrevoked : ∀ (rows : KeyedTable AuthSession.jti) p now, r ∈ rows.rows →
      ∃ x ∈ (revokeWhere rows p now).rows, x.jti = r.jti ∧
        x.sessionFamilyId = r.sessionFamilyId := by
    intro rows p now hr
    refine ⟨_, List.mem_map_of_mem hr, ?_⟩
    split <;> exact ⟨rfl, rfl⟩
  cases h with
  | deleteUser userId =>
      by_cases howner : r.userId = userId
      · refine .inr ⟨(hs.family.sessionDrawn r hr).2, fun x hx hfamily => ?_⟩
        obtain ⟨hx, hkept⟩ := KeyedTable.mem_filter.mp hx
        have hxowner := hs.owner.familyOwner x hx r hr hfamily
        simp [hxowner, howner] at hkept
      · exact .inl ⟨r, KeyedTable.mem_filter.mpr ⟨hr, by simpa using howner⟩, rfl, rfl⟩
  | setAccount userId role isActive mfaEnabled => exact .inl (hrevoked _ _ _ hr)
  | revokeAll userId => exact .inl (hrevoked _ _ _ hr)
  | revokeFamily userId familyId reason => exact .inl (hrevoked _ _ _ hr)
  | expire q reason => exact .inl (hrevoked _ _ _ hr)
  | activity q hq hlive =>
      refine .inl ⟨_, List.mem_map_of_mem hr, ?_⟩
      split <;> exact ⟨rfl, rfl⟩
  | stepUp q hq hlive =>
      refine .inl ⟨_, List.mem_map_of_mem hr, ?_⟩
      split <;> exact ⟨rfl, rfl⟩
  | signIn u jti hu hactive hfresh =>
      exact .inl ⟨r, KeyedTable.mem_insertNew_of_mem hr, rfl, rfl⟩
  | rotate u old jti hu hactive hold howner hlive hfresh =>
      exact .inl (hrevoked _ _ _ (KeyedTable.mem_insertNew_of_mem hr))
  | sweep jtis =>
      refine .inl ⟨r, KeyedTable.mem_filter.mpr ⟨hr, ?_⟩, rfl, rfl⟩
      simp [not_le.mpr hexp]
  | _ => exact .inl ⟨r, hr, rfl, rfl⟩

/-- A refresh has replaced `b`, a bearer of the family `f`, at time `rotatedAt`. -/
structure Rotated (s : Store) (b : BearerToken) (f : String) (rotatedAt : Int) : Prop where
  denied : ⟨b.jti, b.sub, b.exp, "refresh", rotatedAt⟩ ∈ s.revokedTokens.rows
  row : (∃ r ∈ s.sessions.rows, r.jti = b.jti ∧ r.sessionFamilyId = f) ∨ FamilyDead s f

theorem rotated_of_refresh {jti : String} {new : BearerToken}
    (h : refreshSession cfg s b jti = (t, .ok new)) :
    ∃ r ∈ s.sessions.rows, r.jti = b.jti ∧ Rotated t b r.sessionFamilyId s.clock := by
  unfold refreshSession at h
  split at h
  · cases h
  · split at h
    · cases h
    · next u hlock =>
      split at h
      · cases h
      · split at h
        · cases h
        · next old hrow =>
          split at h
          · cases h
          · next hdenied =>
            split at h
            · cases h
            · obtain ⟨hmem, hjti, -, -⟩ := lockAuthSessionRow_eq_some hrow
              obtain ⟨hfind, -⟩ := lockUserRow_eq_some hlock
              obtain ⟨rfl, -⟩ := Prod.mk.inj h
              refine ⟨old, hmem, hjti, ?_, .inl ?_⟩
              · rw [← (KeyedTable.find?_eq_some hfind).2]
                refine (KeyedTable.mem_insertNew fun y hy => ?_).mpr (.inl rfl)
                exact KeyedTable.find?_eq_none.mp (not_not.mp hdenied) y hy
              · refine ⟨_, List.mem_map_of_mem (KeyedTable.mem_insertNew_of_mem hmem), ?_⟩
                split <;> exact ⟨hjti, rfl⟩

theorem rotated_effect (hs : AuthInv s) (h : Effect cfg s t) (hb : b ∈ s.bearers) {f : String}
    {rotatedAt : Int} (hexp : s.clock < b.exp) (hrotated : Rotated s b f rotatedAt) :
    Rotated t b f rotatedAt := by
  refine ⟨revokedToken_effect h hrotated.denied hexp, ?_⟩
  rcases hrotated.row with ⟨r, hr, hjti, rfl⟩ | hdead
  · have hrexp : s.clock < r.expiresAt := by rwa [(hs.owner.bearerRow b hb r hr hjti).2]
    rcases row_kept hs h hr hrexp with ⟨x, hx, hxr, hfamily⟩ | hdead
    · exact .inl ⟨x, hx, hxr.trans hjti, hfamily⟩
    · exact .inr hdead
  · exact .inr (familyDead_effect hs.family h hdead)

theorem bearers_effect (h : Effect cfg s t) : s.bearers ⊆ t.bearers := by
  cases h with
  | signIn u jti hu hactive hfresh => exact List.subset_append_left _ _
  | rotate u old jti hu hactive hold howner hlive hfresh => exact List.subset_append_left _ _
  | _ => exact List.Subset.refl _

theorem bearers_effects (h : Effects cfg s t) : s.bearers ⊆ t.bearers := by
  induction h with
  | refl => exact List.Subset.refl _
  | tail _ hlast ih => exact List.Subset.trans ih (bearers_effect hlast)

theorem rotated_effects (hs : AuthInv s) (h : Effects cfg s t) (hb : b ∈ s.bearers) {f : String}
    {rotatedAt : Int} (hrotated : Rotated s b f rotatedAt) (hexp : t.clock < b.exp) :
    Rotated t b f rotatedAt := by
  induction h with
  | refl => exact hrotated
  | tail hfirst hlast ih =>
      have hbefore := lt_of_le_of_lt (clock_effect hlast) hexp
      exact rotated_effect (authInv_effects hs hfirst) hlast (bearers_effects hfirst hb) hbefore
        (ih hbefore)

theorem effects_of_run {as : List Action} (h : (authSystem cfg).Run s as t) :
    Effects cfg s t :=
  System.Run.mono (fun _ => .refl) (fun _ _ _ => .trans)
    (fun _ _ _ hstep => effects_of_step hstep) h

/-- `revoke_auth_session_family` leaves no session of the family live. -/
theorem familyDead_of_revokeFamily (hs : AuthInv s) {r : AuthSession} {reason : String}
    (hr : r ∈ s.sessions.rows) :
    FamilyDead (revokeAuthSessionFamily s r.userId r.sessionFamilyId reason) r.sessionFamilyId := by
  refine ⟨(hs.family.sessionDrawn r hr).2, fun x hx hfamily => ?_⟩
  obtain ⟨q, hq, ⟨rfl, hkept⟩ | ⟨-, rfl⟩⟩ := mem_revokeWhere hx
  · intro hlive
    have howner := hs.owner.familyOwner x hq r hr hfamily
    simpa [howner, hfamily] using hkept hlive
  · simp

/-- **A replayed bearer closes its family.** -/
theorem familyDead_of_reuse (hs : AuthInv s) (hb : b ∈ s.bearers) {f : String} {rotatedAt : Int}
    (hrotated : Rotated s b f rotatedAt) (hdecodes : s.decodes b = true)
    (hgrace : rotatedAt + seconds cfg.tokenReuseGraceSeconds ≤ s.clock) (metadataPath : Bool) :
    FamilyDead (currentUser cfg s metadataPath b).1 f := by
  rcases hrotated.row with ⟨r, hr, hjti, rfl⟩ | hdead
  · obtain ⟨howner, -⟩ := hs.owner.bearerRow b hb r hr hjti
    obtain ⟨u, hu, hur⟩ := hs.owner.sessionUser r hr
    have hfindUser : s.users.find? b.sub = some u :=
      KeyedTable.find?_iff.mpr ⟨hu, hur.trans howner⟩
    have hfindRow : s.sessions.find? b.jti = some r := KeyedTable.find?_iff.mpr ⟨hr, hjti⟩
    have hfindRevoked := KeyedTable.find?_of_mem hrotated.denied
    have hreply : (currentUser cfg s metadataPath b).1 = detectRotatedTokenReuse cfg s u r
        ⟨b.jti, b.sub, b.exp, "refresh", rotatedAt⟩ := by
      simp only [currentUser, hdecodes, hfindUser, hfindRow, hfindRevoked, hur, and_self, if_true,
        if_neg (show ¬ (true = false) by simp)]
    rw [hreply, detectRotatedTokenReuse, if_neg (by dsimp only; omega)]
    split
    · -- a suspended account has no live session to begin with
      next hlock =>
      have hinactive : u.isActive = false := by
        have hfind : s.users.find? u.id = some u := KeyedTable.find?_of_mem hu
        simpa [lockUserRow, hfind] using hlock
      refine ⟨(hs.family.sessionDrawn r hr).2, fun x hx hfamily => ?_⟩
      have hxowner := hs.owner.familyOwner x hx r hr hfamily
      exact hs.owner.suspended u hu hinactive x hx (hxowner.trans hur.symm)
    · rw [hur]
      exact familyDead_of_revokeFamily hs hr
  · exact familyDead_effects hs.family effects_currentUser hdead

/-! ## Finality -/

/-- **Revocation is final.** Each operation that revokes everything of an account raises its
version. Once a step has raised it, no bearer, MFA challenge or export ticket issued to the account
before is accepted on any route in any later run. A rotated bearer presented unexpired after the
grace interval leaves its family without a live session, and none of the family's bearers is
accepted in any later run. -/
theorem revocation_is_final (cfg : Settings) (s : Store) (h : (authSystem cfg).Reachable s) :
    (∀ userId a t, (authSystem cfg).step s a t → RevokesAll cfg s userId a →
      VersionRaised userId s t) ∧
    (∀ userId a t as u, (authSystem cfg).step s a t → VersionRaised userId s t →
      (authSystem cfg).Run t as u →
      (∀ b ∈ s.bearers, b.sub = userId → BearerRefused cfg u b ∧ (logout u b).2 ≠ .ok ()) ∧
      (∀ c ∈ s.challenges, c.sub = userId →
        ∀ refusal jti, (mfaVerify cfg u c refusal jti).2 ≠ .ok ()) ∧
      ∀ k ∈ s.tickets, k.sub = userId →
        ∀ refusal, (consumeExportTicket cfg u k refusal).2 ≠ .ok ()) ∧
    ∀ b ∈ s.bearers, ∀ jti t new, jti ∉ s.drawn → refreshSession cfg s b jti = (t, .ok new) →
      ∃ old ∈ s.sessions.rows, old.jti = b.jti ∧
        ∀ as u, (authSystem cfg).Run t as u → u.decodes b = true →
          s.clock + seconds cfg.tokenReuseGraceSeconds ≤ u.clock →
          ∀ metadataPath bs v, (authSystem cfg).Run (currentUser cfg u metadataPath b).1 bs v →
            ∀ r ∈ v.sessions.rows, r.sessionFamilyId = old.sessionFamilyId →
              r.revokedAt ≠ none ∧ ∀ c, c.jti = r.jti → BearerRefused cfg v c := by
  have hs := authInv_of_reachable h
  refine ⟨fun userId a t => versionRaised_of_step, ?_, ?_⟩
  · intro userId a t as u hstep hraised hrun
    -- every credential issued before names a version that the account has left for good
    have hstale : ∀ c ∈ s.claims, c.1 = userId → Stale u c := by
      intro c hc hid
      have hrise := (usersRenewed_effects (effects_of_step hstep)).versionsRise
      exact (stale_of_raise hs hraised hrise hc hid).rise (versions_of_run hrun)
    simp only [Store.claims, List.mem_append, List.mem_map] at hstale
    refine ⟨fun b hb hid => ?_, fun c hc hid refusal jti hok => ?_,
      fun k hk hid refusal hok => ?_⟩
    · have hstale := hstale (b.sub, b.ver) (.inl (.inl ⟨b, hb, rfl⟩)) hid
      refine ⟨.of_stale hstale, fun hok => ?_⟩
      obtain ⟨w, hfind, hver⟩ := account_of_logout hok
      exact hstale.ne hfind hver
    · have hstale := hstale (c.sub, c.ver) (.inl (.inr ⟨c, hc, rfl⟩)) hid
      obtain ⟨w, hfind, hver⟩ := account_of_mfaVerify hok
      exact hstale.ne hfind hver
    · have hstale := hstale (k.sub, k.ver) (.inr ⟨k, hk, rfl⟩) hid
      obtain ⟨w, hfind, hver⟩ := account_of_consumeExportTicket hok
      exact hstale.ne hfind hver
  · intro b hb jti t new hfresh hok
    obtain ⟨old, hold, hjti, hrotated⟩ := rotated_of_refresh hok
    refine ⟨old, hold, hjti, fun as u hrun hdecodes hgrace metadataPath bs v hlater => ?_⟩
    have hstore : t = (refreshSession cfg s b jti).1 := by rw [hok]
    have hrefresh : Effects cfg s t := hstore ▸ effects_refreshSession hfresh
    have ht := authInv_effects hs hrefresh
    have hbt : b ∈ t.bearers := bearers_effects hrefresh hb
    have hu := authInv_effects ht (effects_of_run hrun)
    have hexp : u.clock < b.exp := by
      simp only [Store.decodes, Bool.and_eq_true, decide_eq_true_eq] at hdecodes
      exact hdecodes.2
    -- the row of the rotated bearer is kept as long as the bearer can still be decoded
    have hrotated := rotated_effects ht (effects_of_run hrun) hbt hrotated hexp
    have hbu := bearers_effects (effects_of_run hrun) hbt
    have hdead := familyDead_of_reuse hu hbu hrotated hdecodes hgrace metadataPath
    have hdead := familyDead_of_run (familyInv_effects hu.family effects_currentUser) hlater hdead
    intro r hr hfamily
    refine ⟨hdead.2 r hr hfamily, fun c hc => .of_dead fun x hx hxc => ?_⟩
    obtain rfl := KeyedTable.eq_of_key hx hr (hxc.trans hc)
    exact hdead.2 x hr hfamily

/-! ### A password reset and a new sign-in -/

def resetStore : Store := (confirmPasswordReset sampleStore "alice" none).1

def signedInAgain : Store := (login sampleSettings resetStore "alice" none "jti-3").1

theorem revocation_is_final_sample :
    VersionRaised "alice" sampleStore resetStore ∧
      BearerRefused sampleSettings signedInAgain ⟨"alice", 1, "jti-2", 60000000, 1860000000⟩ ∧
      Accepts sampleSettings signedInAgain ⟨"alice", 2, "jti-3", 60000000, 1860000000⟩ := by
  obtain ⟨hraises, hfinal, -⟩ :=
    revocation_is_final sampleSettings sampleStore reachable_sampleStore
  have hreset : (authSystem sampleSettings).step sampleStore (.passwordReset "alice" none)
      resetStore := rfl
  have hfresh : "jti-3" ∉ resetStore.drawn := by decide +kernel
  have hlogin : (authSystem sampleSettings).Run resetStore [.login "alice" none "jti-3"]
      signedInAgain := by
    apply System.Run.single
    show stepStore sampleSettings resetStore _ = some _
    rw [stepStore, if_neg hfresh]
    rfl
  have hraised := hraises "alice" _ _ hreset ⟨rfl, by decide +kernel⟩
  refine ⟨hraised, ?_, true, ⟨"alice", "user", true, false, 2⟩, by decide +kernel⟩
  exact ((hfinal "alice" _ _ _ _ hreset hraised hlogin).1 _ (by decide +kernel) rfl).1

end Scap.Auth
