import Scap.Auth.Routes

/-!
# What a step can do

Twenty-one actions, but only fifteen things that can happen to the store. `Effect` lists them, each
with what is known when it happens, and `effects_of_step` reads them off the routes once; every
invariant is then a case analysis of `Effect`.
-/

namespace Scap.Auth

open Scap.Lib

variable {cfg : Settings} {s t : Store} {b : BearerToken}

/-- The successor of a session, as `refresh_session` issues it. -/
def successor (cfg : Settings) (s : Store) (u : User) (old : AuthSession) (jti : String) :
    AuthSession :=
  issuedSession cfg s.clock u jti
    ⟨some old.root, some old.lastActivity, old.lastStepUpAt, some old.sessionFamilyId, false⟩

/-- What `refresh_session` does to the sessions. -/
def rotateSession (cfg : Settings) (s : Store) (u : User) (old : AuthSession) (jti : String) :
    Store :=
  { s with
    sessions := revokeWhere (s.sessions.insertNew (successor cfg s u old jti))
      (fun x => x.jti = old.jti) s.clock
    bearers := s.bearers ++ [issue cfg s.clock u jti]
    drawn := jti :: s.drawn }

/-- One change of the store. -/
inductive Effect (cfg : Settings) (s : Store) : Store → Prop
  | tick (d : Nat) : Effect cfg s { s with clock := s.clock + d }
  | register (id role : String) (hfresh : id ∉ s.drawn) :
      Effect cfg s { s with
        users := s.users.insertNew ⟨id, role, true, false, 1⟩
        drawn := id :: s.drawn }
  | deleteUser (userId : String) :
      Effect cfg s { s with
        users := s.users.filter fun u => u.id ≠ userId
        sessions := s.sessions.filter fun r => r.userId ≠ userId }
  | setAccount (userId role : String) (isActive mfaEnabled : Bool) :
      Effect cfg s (revokeAllAuthSessions (setAccount s userId role isActive mfaEnabled) userId)
  | revokeAll (userId : String) : Effect cfg s (revokeAllAuthSessions s userId)
  | revokeFamily (userId familyId reason : String) :
      Effect cfg s (revokeAuthSessionFamily s userId familyId reason)
  | expire (r : AuthSession) (reason : String) : Effect cfg s (expireAuthSession s r reason)
  | activity (r : AuthSession) (hr : r ∈ s.sessions.rows) (hlive : r.revokedAt = none) :
      Effect cfg s (recordActivity s r)
  | stepUp (r : AuthSession) (hr : r ∈ s.sessions.rows) (hlive : r.revokedAt = none) :
      Effect cfg s (recordStepUp s r)
  | signIn (u : User) (jti : String) (hu : s.users.find? u.id = some u)
      (hactive : u.isActive = true) (hfresh : jti ∉ s.drawn) :
      Effect cfg s (finishSignIn cfg s u jti)
  | rotate (u : User) (old : AuthSession) (jti : String) (hu : s.users.find? u.id = some u)
      (hactive : u.isActive = true) (hold : old ∈ s.sessions.rows) (howner : old.userId = u.id)
      (hlive : old.revokedAt = none) (hfresh : jti ∉ s.drawn) :
      Effect cfg s (rotateSession cfg s u old jti)
  | challenge (u : User) (jti : String) (exp : Int) (hu : s.users.find? u.id = some u)
      (hfresh : jti ∉ s.drawn) :
      Effect cfg s { s with
        challenges := s.challenges ++ [⟨u.id, u.tokenVersion, jti, exp⟩]
        drawn := jti :: s.drawn }
  | ticket (u : User) (sid parentJti jti : String) (exp : Int)
      (hu : s.users.find? u.id = some u) (hfresh : jti ∉ s.drawn) :
      Effect cfg s { s with
        tickets := s.tickets ++ [⟨u.id, sid, u.tokenVersion, parentJti, jti, exp⟩]
        drawn := jti :: s.drawn }
  | deny (jti userId : String) (exp : Int) (reason : String) :
      Effect cfg s (denyToken s jti userId exp reason)
  | sweep (jtis : List String) : Effect cfg s (sweep s jtis)

/-- Several changes in a row. -/
abbrev Effects (cfg : Settings) : Store → Store → Prop := Relation.ReflTransGen (Effect cfg)

theorem Effect.once (h : Effect cfg s t) : Effects cfg s t := Relation.ReflTransGen.single h

/-! ## Reading the guards off the routes -/

/-- What `lock_account_mutation` guarantees. -/
theorem lockAccountMutation_ok {stepUp : Bool} {u : User} {r : AuthSession}
    (h : lockAccountMutation cfg s b stepUp = .ok (u, r)) :
    s.decodes b = true ∧ s.users.find? b.sub = some u ∧ u.isActive = true ∧
      b.ver = u.tokenVersion ∧ r ∈ s.sessions.rows ∧ r.jti = b.jti ∧ r.userId = u.id ∧
      r.revokedAt = none := by
  unfold lockAccountMutation at h
  split at h
  · cases h
  · next hdecodes =>
    split at h
    · cases h
    · next u' hlock =>
      split at h
      · cases h
      · next hver =>
        split at h
        · cases h
        · next r' hrow =>
          split at h
          · cases h
          · split at h
            · cases h
            · obtain ⟨rfl, rfl⟩ := Prod.mk.inj (Except.ok.inj h)
              obtain ⟨hfind, hactive⟩ := lockUserRow_eq_some hlock
              obtain ⟨hmem, hjti, howner, hlive⟩ := lockAuthSessionRow_eq_some hrow
              exact ⟨by simpa using hdecodes, hfind, hactive rfl, by simpa using hver, hmem, hjti,
                howner, hlive⟩

theorem find?_self {u : User} {userId : String} (h : s.users.find? userId = some u) :
    s.users.find? u.id = some u := by
  rwa [(KeyedTable.find?_eq_some h).2]

/-! ## Route by route -/

theorem effects_currentUser {metadataPath : Bool} :
    Effects cfg s (currentUser cfg s metadataPath b).1 := by
  unfold currentUser
  split
  · exact .refl
  · split
    · next u r hu hr =>
      split
      · next revoked hrevoked =>
        split
        · unfold detectRotatedTokenReuse
          split
          · exact .refl
          · split
            · exact .refl
            · exact (Effect.revokeFamily _ _ _).once
        · exact .refl
      · split
        · next hguard =>
          split
          · exact (Effect.expire _ _).once
          · cases metadataPath with
            | true => exact .refl
            | false =>
                have hmem := (KeyedTable.find?_eq_some hr).1
                exact (Effect.activity r hmem hguard.2.2.2).once
        · exact .refl
    · exact .refl

theorem effects_login {userId jti : String} {refusal : Option Nat} (hfresh : jti ∉ s.drawn) :
    Effects cfg s (login cfg s userId refusal jti).1 := by
  unfold login
  split
  · next u hlock =>
    have hu := find?_self (lockUserRow_eq_some hlock).1
    split
    · exact .refl
    · next hactive =>
      split
      · exact (Effect.challenge u jti _ hu hfresh).once
      · exact (Effect.signIn u jti hu (by simpa using hactive) hfresh).once
  · exact .refl
  · exact .refl

theorem effects_passkeyLogin {userId jti : String} {refusal : Option Nat}
    (hfresh : jti ∉ s.drawn) : Effects cfg s (passkeyLogin cfg s userId refusal jti).1 := by
  unfold passkeyLogin
  split
  · next u hlock =>
    have hu := find?_self (lockUserRow_eq_some hlock).1
    split
    · exact .refl
    · next hactive => exact (Effect.signIn u jti hu (by simpa using hactive) hfresh).once
  · exact .refl
  · exact .refl

theorem effects_mfaVerify {c : MfaChallenge} {refusal : Option Nat} {jti : String}
    (hfresh : jti ∉ s.drawn) : Effects cfg s (mfaVerify cfg s c refusal jti).1 := by
  unfold mfaVerify
  split
  · exact .refl
  · split
    · exact .refl
    · split
      · exact .refl
      · next u hfind =>
        split
        · exact .refl
        · next hguard =>
          split
          · exact .refl
          · have hdeny : Effects cfg s (denyToken s c.jti u.id c.exp "mfa_challenge_used") :=
              (Effect.deny _ _ _ _).once
            refine hdeny.tail (Effect.signIn u jti (find?_self hfind) ?_ hfresh)
            simpa using (not_or.mp hguard).1

theorem effects_refreshSession {jti : String} (hfresh : jti ∉ s.drawn) :
    Effects cfg s (refreshSession cfg s b jti).1 := by
  unfold refreshSession
  split
  · exact .refl
  · split
    · exact .refl
    · next u hlock =>
      split
      · exact .refl
      · split
        · exact .refl
        · next old hrow =>
          split
          · exact .refl
          · split
            · exact (Effect.expire _ _).once
            · obtain ⟨hfind, hactive⟩ := lockUserRow_eq_some hlock
              obtain ⟨hmem, -, howner, hlive⟩ := lockAuthSessionRow_eq_some hrow
              refine .tail (Effect.once (Effect.rotate u old jti (find?_self hfind) (hactive rfl)
                hmem howner hlive hfresh)) ?_
              exact Effect.deny b.jti u.id b.exp "refresh"

theorem effects_logout : Effects cfg s (logout s b).1 := by
  unfold logout
  split
  · exact .refl
  · split
    · exact .refl
    · next u _ =>
      split
      · exact .refl
      · have hdeny : ∀ {s'}, Effects cfg s s' →
            Effects cfg s (if lockAuthSessionRow s b.jti u.id = none then
              denyToken s' b.jti u.id b.exp "logout" else s') := by
          intro s' hrevoke
          split
          · exact hrevoke.tail (Effect.deny _ _ _ _)
          · exact hrevoke
        refine hdeny ?_
        split
        · exact (Effect.revokeAll _).once
        · exact (Effect.revokeFamily _ _ _).once

theorem effects_revokeAuthSession {sessionJti : String} :
    Effects cfg s (revokeAuthSession cfg s b sessionJti).1 := by
  unfold revokeAuthSession
  split
  · exact .refl
  · split
    · exact .refl
    · split
      · exact .refl
      · exact (Effect.revokeFamily _ _ _).once

theorem effects_setMfa {enable : Bool} {refusal : Option Nat} :
    Effects cfg s (setMfa cfg enable s b refusal).1 := by
  unfold setMfa
  split
  · exact .refl
  · split
    · exact .refl
    · split
      · exact .refl
      · exact (Effect.setAccount _ _ _ _).once

theorem effects_consumeExportTicket {k : ExportTicket} {refusal : Option Nat} :
    Effects cfg s (consumeExportTicket cfg s k refusal).1 := by
  unfold consumeExportTicket
  repeat' split
  all_goals first
    | exact .refl
    | exact (Effect.expire _ _).once
    | exact (Effect.deny _ _ _ _).once

theorem effects_createExportTicket {sid jti : String} {refusal : Option Nat}
    (hfresh : jti ∉ s.drawn) : Effects cfg s (createExportTicket cfg s b sid refusal jti).1 := by
  unfold createExportTicket
  split
  · exact .refl
  · exact .refl
  · next u r hlock =>
    obtain ⟨-, hfind, -⟩ := lockAccountMutation_ok hlock
    exact (Effect.ticket u sid r.jti jti _ (find?_self hfind) hfresh).once

theorem effects_stepUpAuthentication {refusal : Option Nat} :
    Effects cfg s (stepUpAuthentication cfg s b refusal).1 := by
  unfold stepUpAuthentication
  split
  · exact .refl
  · exact .refl
  · next u r hlock =>
    obtain ⟨-, -, -, -, hmem, -, -, hlive⟩ := lockAccountMutation_ok hlock
    exact (Effect.stepUp r hmem hlive).once

/-- **Every step is a sequence of effects.** -/
theorem effects_of_step {a : Action} (h : (authSystem cfg).step s a t) : Effects cfg s t := by
  have h : stepStore cfg s a = some t := h
  -- A handler either refuses, and then nothing changes, or makes the effects of its own lemma.
  cases a with
  | tick d =>
      obtain rfl := Option.some.inj h
      exact (Effect.tick d).once
  | register id role =>
      obtain ⟨hfresh, rfl⟩ := of_guarded h
      exact (Effect.register id role hfresh).once
  | login userId refusal jti =>
      obtain ⟨hfresh, rfl⟩ := of_guarded h
      exact effects_login hfresh
  | passkeyLogin userId refusal jti =>
      obtain ⟨hfresh, rfl⟩ := of_guarded h
      exact effects_passkeyLogin hfresh
  | mfaVerify c refusal jti =>
      obtain ⟨hguard, rfl⟩ := of_guarded h
      exact effects_mfaVerify (not_or.mp hguard).1
  | request metadataPath b =>
      obtain ⟨-, rfl⟩ := of_guarded h
      exact effects_currentUser
  | refresh b jti =>
      obtain ⟨hguard, rfl⟩ := of_guarded h
      exact effects_refreshSession (not_or.mp hguard).1
  | logout b =>
      obtain ⟨-, rfl⟩ := of_guarded h
      exact effects_logout
  | revokeSession b sessionJti =>
      obtain ⟨-, rfl⟩ := of_guarded h
      exact effects_revokeAuthSession
  | logoutAll b =>
      simp only [stepStore, logoutAll] at h
      obtain ⟨-, rfl⟩ := of_guarded h
      split
      · exact .refl
      · exact (Effect.revokeAll _).once
  | changePassword b refusal =>
      simp only [stepStore, changePassword] at h
      obtain ⟨-, rfl⟩ := of_guarded h
      split
      · exact .refl
      · exact .refl
      · exact (Effect.revokeAll _).once
  | passwordReset userId refusal =>
      simp only [stepStore, confirmPasswordReset] at h
      obtain rfl := Option.some.inj h
      split
      · exact (Effect.revokeAll _).once
      · exact .refl
      · exact .refl
  | mfaActivate b refusal =>
      obtain ⟨-, rfl⟩ := of_guarded h
      exact effects_setMfa
  | mfaDisable b refusal =>
      obtain ⟨-, rfl⟩ := of_guarded h
      exact effects_setMfa
  | changeRole b targetId role =>
      simp only [stepStore, adminChangeRole] at h
      obtain ⟨-, rfl⟩ := of_guarded h
      split
      · exact .refl
      · split
        · exact .refl
        · exact (Effect.setAccount _ _ _ _).once
  | updateStatus b targetId isActive =>
      simp only [stepStore, updateUserStatus] at h
      obtain ⟨-, rfl⟩ := of_guarded h
      split
      · exact .refl
      · split
        · exact .refl
        · split
          · exact .refl
          · exact (Effect.setAccount _ _ _ _).once
  | deleteUser b targetId =>
      simp only [stepStore, adminDeleteUser] at h
      obtain ⟨-, rfl⟩ := of_guarded h
      split
      · exact .refl
      · split
        · exact .refl
        · split
          · exact .refl
          · exact (Effect.deleteUser _).once
  | stepUp b refusal =>
      obtain ⟨-, rfl⟩ := of_guarded h
      exact effects_stepUpAuthentication
  | createTicket b sid refusal jti =>
      obtain ⟨hguard, rfl⟩ := of_guarded h
      exact effects_createExportTicket (not_or.mp hguard).1
  | consumeTicket k refusal =>
      obtain ⟨-, rfl⟩ := of_guarded h
      exact effects_consumeExportTicket
  | sweep jtis =>
      obtain rfl := Option.some.inj h
      exact (Effect.sweep jtis).once

end Scap.Auth
