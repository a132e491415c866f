import Scap.Auth.Admin
import Scap.Auth.Revocation

/-!
# Roles and suspensions

* `ranks_of_step`: whatever is not an operation of an administrator leaves roles and suspensions as
  they are;
* `ranksKept_effects`: an account's role and suspension change only together with its version.
-/

namespace Scap.Auth

open Scap.Lib

variable {cfg : Settings} {s t u : Store}

/-! ## Everything but the administrators -/

/-- Every account is still there, with its role and its suspension. -/
def Ranks (s t : Store) : Prop :=
  ∀ u ∈ s.users.rows, ∃ v ∈ t.users.rows, u.id = v.id ∧ u.role = v.role ∧ u.isActive = v.isActive

theorem Ranks.of_users (h : t.users = s.users) : Ranks s t :=
  fun u hu => ⟨u, h ▸ hu, rfl, rfl, rfl⟩

theorem Ranks.trans (h : Ranks s t) (h' : Ranks t u) : Ranks s u := by
  intro x hx
  obtain ⟨y, hy, hid, hrole, hactive⟩ := h x hx
  obtain ⟨z, hz, hid', hrole', hactive'⟩ := h' y hy
  exact ⟨z, hz, hid.trans hid', hrole.trans hrole', hactive.trans hactive'⟩

theorem ranks_revokeAll (userId : String) : Ranks s (revokeAllAuthSessions s userId) := by
  intro u hu
  refine ⟨_, List.mem_map_of_mem hu, ?_⟩
  split <;> exact ⟨rfl, rfl, rfl⟩

/-- A change of the second factor only. -/
theorem ranks_setAccount {u : User} (hu : s.users.find? u.id = some u) (mfaEnabled : Bool) :
    Ranks s (setAccount s u.id u.role u.isActive mfaEnabled) := by
  intro v hv
  refine ⟨_, List.mem_map_of_mem hv, ?_⟩
  split
  · next hid =>
    obtain rfl := KeyedTable.eq_of_key hv (KeyedTable.find?_eq_some hu).1 hid
    exact ⟨rfl, rfl, rfl⟩
  · exact ⟨rfl, rfl, rfl⟩

theorem ranks_setMfa {enable : Bool} {b : BearerToken} {refusal : Option Nat} :
    Ranks s (setMfa cfg enable s b refusal).1 := by
  unfold setMfa
  split
  · exact .of_users rfl
  · next u r hlock =>
    split
    · exact .of_users rfl
    · split
      · exact .of_users rfl
      · obtain ⟨-, hu, -⟩ := lockAccountMutation_ok hlock
        exact (ranks_setAccount (find?_self hu) enable).trans (ranks_revokeAll u.id)

theorem ranks_currentUser {metadataPath : Bool} {b : BearerToken} :
    Ranks s (currentUser cfg s metadataPath b).1 := by
  apply Ranks.of_users
  unfold currentUser detectRotatedTokenReuse
  repeat' split
  all_goals rfl

theorem ranks_refreshSession {b : BearerToken} {jti : String} :
    Ranks s (refreshSession cfg s b jti).1 := by
  apply Ranks.of_users
  unfold refreshSession
  repeat' split
  all_goals rfl

theorem ranks_logout {b : BearerToken} : Ranks s (logout s b).1 := by
  unfold logout
  dsimp only
  repeat' split
  all_goals first
    | exact .of_users rfl
    | exact ranks_revokeAll _

/-- A step that is no operation of an administrator keeps every account with its role. -/
theorem ranks_of_step {a : Action} (ha : isAdminOp a = false)
    (h : stepStore cfg s a = some t) : Ranks s t := by
  cases a with
  | changeRole => cases ha
  | updateStatus => cases ha
  | deleteUser => cases ha
  -- Sign-ins, tickets and sweeps leave the users alone; no other route touches role or status.
  | tick d => exact Option.some.inj h ▸ .of_users rfl
  | register id role =>
      obtain ⟨-, rfl⟩ := of_guarded h
      intro u hu
      exact ⟨u, KeyedTable.mem_insertNew_of_mem hu, rfl, rfl, rfl⟩
  | login userId refusal jti =>
      obtain ⟨-, rfl⟩ := of_guarded h
      apply Ranks.of_users
      unfold login
      repeat' split
      all_goals rfl
  | passkeyLogin userId refusal jti =>
      obtain ⟨-, rfl⟩ := of_guarded h
      apply Ranks.of_users
      unfold passkeyLogin
      repeat' split
      all_goals rfl
  | mfaVerify c refusal jti =>
      obtain ⟨-, rfl⟩ := of_guarded h
      apply Ranks.of_users
      unfold mfaVerify
      repeat' split
      all_goals rfl
  | request metadataPath b =>
      obtain ⟨-, rfl⟩ := of_guarded h
      exact ranks_currentUser
  | refresh b jti =>
      obtain ⟨-, rfl⟩ := of_guarded h
      exact ranks_refreshSession
  | logout b =>
      obtain ⟨-, rfl⟩ := of_guarded h
      exact ranks_logout
  | revokeSession b sessionJti =>
      obtain ⟨-, rfl⟩ := of_guarded h
      apply Ranks.of_users
      unfold revokeAuthSession
      repeat' split
      all_goals rfl
  | logoutAll b =>
      obtain ⟨-, rfl⟩ := of_guarded h
      unfold logoutAll
      split
      · exact .of_users rfl
      · exact ranks_revokeAll _
  | changePassword b refusal =>
      obtain ⟨-, rfl⟩ := of_guarded h
      unfold changePassword
      split
      · exact .of_users rfl
      · exact .of_users rfl
      · exact ranks_revokeAll _
  | passwordReset userId refusal =>
      obtain rfl := Option.some.inj h
      unfold confirmPasswordReset
      split
      · exact ranks_revokeAll _
      · exact .of_users rfl
      · exact .of_users rfl
  | mfaActivate b refusal =>
      obtain ⟨-, rfl⟩ := of_guarded h
      exact ranks_setMfa
  | mfaDisable b refusal =>
      obtain ⟨-, rfl⟩ := of_guarded h
      exact ranks_setMfa
  | stepUp b refusal =>
      obtain ⟨-, rfl⟩ := of_guarded h
      apply Ranks.of_users
      unfold stepUpAuthentication
      split <;> rfl
  | createTicket b sid refusal jti =>
      obtain ⟨-, rfl⟩ := of_guarded h
      apply Ranks.of_users
      unfold createExportTicket
      split <;> rfl
  | consumeTicket k refusal =>
      obtain ⟨-, rfl⟩ := of_guarded h
      apply Ranks.of_users
      unfold consumeExportTicket
      repeat' split
      all_goals rfl
  | sweep jtis => exact Option.some.inj h ▸ .of_users rfl

theorem Ranks.hasAdmin (h : Ranks s t) (hs : s.hasAdmin) : t.hasAdmin := by
  obtain ⟨u, hu, hrole, hactive⟩ := hs
  obtain ⟨v, hv, -, hsame, hsame'⟩ := h u hu
  exact ⟨v, hv, hsame.symm.trans hrole, hsame'.symm.trans hactive⟩

/-! ## Roles and versions -/

/-- The same account, with the role and the suspension it had or a higher version. -/
def SameRankOrRaised (u v : User) : Prop :=
  u.id = v.id ∧ (u.tokenVersion = v.tokenVersion ∧ u.role = v.role ∧ u.isActive = v.isActive ∨
    u.tokenVersion < v.tokenVersion)

/-- A rank changes only as the version of its account is raised. -/
structure RanksKept (s t : Store) : Prop where
  drawn : s.drawn ⊆ t.drawn
  users : ∀ v ∈ t.users.rows,
    (∃ u ∈ s.users.rows, SameRankOrRaised u v) ∨ v.id ∉ s.drawn ∧ v.id ∈ t.drawn

theorem ranksKept_effects (h : Effects cfg s t) : RanksKept s t := by
  have hrenewed := usersRenewed_effects h
  refine ⟨hrenewed.drawn, fun v hv => (hrenewed.users v hv).imp_left ?_⟩
  rintro ⟨u, hu, rfl | ⟨hid, hlt⟩⟩
  · exact ⟨u, hu, rfl, .inl ⟨rfl, rfl, rfl⟩⟩
  · exact ⟨u, hu, hid, .inr hlt⟩

end Scap.Auth
