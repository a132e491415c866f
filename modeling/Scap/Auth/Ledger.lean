import Scap.Auth.Accounts

/-!
# The ledger of used tokens

`revoked_tokens` only grows but for the retention sweep, and `mfa_enabled` changes only together
with the version of the account. `Keeps` says both of two stores, and holds over every request.
-/

namespace Scap.Auth

open Scap.Lib

variable {cfg : Settings} {s t : Store} {b : BearerToken} {userId : String}
  {refusal : Option Nat}

/-! ## The ledger, route by route -/

/-- Nothing leaves the ledger. -/
def LedgerGrows (s t : Store) : Prop := ∀ r ∈ s.revokedTokens.rows, r ∈ t.revokedTokens.rows

theorem LedgerGrows.refl (s : Store) : LedgerGrows s s := fun _ hr => hr

theorem LedgerGrows.of_eq (h : t.revokedTokens = s.revokedTokens) : LedgerGrows s t :=
  fun _ hr => h ▸ hr

theorem LedgerGrows.trans {u : Store} (h : LedgerGrows s t) (h' : LedgerGrows t u) :
    LedgerGrows s u := fun r hr => h' r (h r hr)

theorem ledger_denyToken {jti reason : String} {exp : Int} :
    LedgerGrows s (denyToken s jti userId exp reason) :=
  fun _ hr => KeyedTable.mem_insertNew_of_mem hr

theorem ledger_expireAuthSession {r : AuthSession} {reason : String} :
    LedgerGrows s (expireAuthSession s r reason) :=
  fun _ hr => KeyedTable.mem_insertNew_of_mem hr

theorem mem_foldl_insertNew {ι κ ρ : Type} [LinearOrder κ] {key : ρ → κ} {f : ι → ρ} (is : List ι)
    {t : KeyedTable key} {r : ρ} (h : r ∈ t.rows) :
    r ∈ (is.foldl (fun t i => t.insertNew (f i)) t).rows := by
  induction is generalizing t with
  | nil => exact h
  | cons i is ih => exact ih (KeyedTable.mem_insertNew_of_mem h)

theorem ledger_revokeAuthSessionFamily {familyId reason : String} :
    LedgerGrows s (revokeAuthSessionFamily s userId familyId reason) :=
  fun _ hr => mem_foldl_insertNew _ hr

theorem ledger_currentUser {metadataPath : Bool} :
    LedgerGrows s (currentUser cfg s metadataPath b).1 := by
  unfold currentUser detectRotatedTokenReuse
  repeat' split
  all_goals first
    | exact .refl s
    | exact ledger_revokeAuthSessionFamily
    | exact ledger_expireAuthSession

theorem ledger_login {jti : String} : LedgerGrows s (login cfg s userId refusal jti).1 := by
  unfold login
  repeat' split
  all_goals exact .of_eq rfl

theorem ledger_passkeyLogin {jti : String} :
    LedgerGrows s (passkeyLogin cfg s userId refusal jti).1 := by
  unfold passkeyLogin
  repeat' split
  all_goals exact .of_eq rfl

theorem ledger_mfaVerify {c : MfaChallenge} {jti : String} :
    LedgerGrows s (mfaVerify cfg s c refusal jti).1 := by
  unfold mfaVerify
  repeat' split
  all_goals first
    | exact .refl s
    | exact fun _ hr => KeyedTable.mem_insertNew_of_mem hr

theorem ledger_refreshSession {jti : String} :
    LedgerGrows s (refreshSession cfg s b jti).1 := by
  unfold refreshSession
  dsimp only
  repeat' split
  all_goals first
    | exact .refl s
    | exact ledger_expireAuthSession
    | exact fun _ hr => KeyedTable.mem_insertNew_of_mem hr

theorem ledger_logout : LedgerGrows s (logout s b).1 := by
  unfold logout
  dsimp only
  repeat' split
  all_goals first
    | exact .refl s
    | exact .of_eq rfl
    | exact ledger_denyToken
    | exact ledger_revokeAuthSessionFamily
    | exact ledger_revokeAuthSessionFamily.trans ledger_denyToken

theorem ledger_revokeAuthSession {sessionJti : String} :
    LedgerGrows s (revokeAuthSession cfg s b sessionJti).1 := by
  unfold revokeAuthSession
  repeat' split
  all_goals first
    | exact .refl s
    | exact ledger_revokeAuthSessionFamily

theorem ledger_logoutAll : LedgerGrows s (logoutAll cfg s b).1 := by
  unfold logoutAll
  split <;> exact .of_eq rfl

theorem ledger_changePassword : LedgerGrows s (changePassword cfg s b refusal).1 := by
  unfold changePassword
  split <;> exact .of_eq rfl

theorem ledger_confirmPasswordReset : LedgerGrows s (confirmPasswordReset s userId refusal).1 := by
  unfold confirmPasswordReset
  split <;> exact .of_eq rfl

theorem ledger_setMfa {enable : Bool} : LedgerGrows s (setMfa cfg enable s b refusal).1 := by
  unfold setMfa
  repeat' split
  all_goals exact .of_eq rfl

theorem ledger_adminChangeRole {targetId role : String} :
    LedgerGrows s (adminChangeRole cfg s b targetId role).1 := by
  unfold adminChangeRole
  repeat' split
  all_goals exact .of_eq rfl

theorem ledger_updateUserStatus {targetId : String} {isActive : Bool} :
    LedgerGrows s (updateUserStatus cfg s b targetId isActive).1 := by
  unfold updateUserStatus
  repeat' split
  all_goals exact .of_eq rfl

theorem ledger_adminDeleteUser {targetId : String} :
    LedgerGrows s (adminDeleteUser cfg s b targetId).1 := by
  unfold adminDeleteUser
  repeat' split
  all_goals exact .of_eq rfl

theorem ledger_stepUpAuthentication : LedgerGrows s (stepUpAuthentication cfg s b refusal).1 := by
  unfold stepUpAuthentication
  split <;> exact .of_eq rfl

theorem ledger_createExportTicket {sid jti : String} :
    LedgerGrows s (createExportTicket cfg s b sid refusal jti).1 := by
  unfold createExportTicket
  split <;> exact .of_eq rfl

theorem ledger_consumeExportTicket {k : ExportTicket} :
    LedgerGrows s (consumeExportTicket cfg s k refusal).1 := by
  unfold consumeExportTicket
  repeat' split
  all_goals first
    | exact .refl s
    | exact ledger_expireAuthSession
    | exact ledger_denyToken

/-- The ledger grows with every request. -/
theorem ledger_of_step {a : Action} (hsweep : ∀ jtis, a ≠ .sweep jtis)
    (h : stepStore cfg s a = some t) : LedgerGrows s t := by
  -- One lemma a handler; only the sweep forgets, and it is excluded.
  cases a with
  | tick d => exact Option.some.inj h ▸ .of_eq rfl
  | register id role =>
      obtain ⟨-, rfl⟩ := of_guarded h
      exact .of_eq rfl
  | passwordReset userId refusal => exact Option.some.inj h ▸ ledger_confirmPasswordReset
  | sweep jtis => exact absurd rfl (hsweep jtis)
  | login userId refusal jti =>
      obtain ⟨-, rfl⟩ := of_guarded h
      exact ledger_login
  | passkeyLogin userId refusal jti =>
      obtain ⟨-, rfl⟩ := of_guarded h
      exact ledger_passkeyLogin
  | mfaVerify c refusal jti =>
      obtain ⟨-, rfl⟩ := of_guarded h
      exact ledger_mfaVerify
  | request metadataPath b =>
      obtain ⟨-, rfl⟩ := of_guarded h
      exact ledger_currentUser
  | refresh b jti =>
      obtain ⟨-, rfl⟩ := of_guarded h
      exact ledger_refreshSession
  | logout b =>
      obtain ⟨-, rfl⟩ := of_guarded h
      exact ledger_logout
  | revokeSession b sessionJti =>
      obtain ⟨-, rfl⟩ := of_guarded h
      exact ledger_revokeAuthSession
  | logoutAll b =>
      obtain ⟨-, rfl⟩ := of_guarded h
      exact ledger_logoutAll
  | changePassword b refusal =>
      obtain ⟨-, rfl⟩ := of_guarded h
      exact ledger_changePassword
  | mfaActivate b refusal =>
      obtain ⟨-, rfl⟩ := of_guarded h
      exact ledger_setMfa
  | mfaDisable b refusal =>
      obtain ⟨-, rfl⟩ := of_guarded h
      exact ledger_setMfa
  | changeRole b targetId role =>
      obtain ⟨-, rfl⟩ := of_guarded h
      exact ledger_adminChangeRole
  | updateStatus b targetId isActive =>
      obtain ⟨-, rfl⟩ := of_guarded h
      exact ledger_updateUserStatus
  | deleteUser b targetId =>
      obtain ⟨-, rfl⟩ := of_guarded h
      exact ledger_adminDeleteUser
  | stepUp b refusal =>
      obtain ⟨-, rfl⟩ := of_guarded h
      exact ledger_stepUpAuthentication
  | createTicket b sid refusal jti =>
      obtain ⟨-, rfl⟩ := of_guarded h
      exact ledger_createExportTicket
  | consumeTicket k refusal =>
      obtain ⟨-, rfl⟩ := of_guarded h
      exact ledger_consumeExportTicket

/-! ## Accounts -/

/-- The account is as it was, or of a higher version. -/
def SameOrRaised (u v : User) : Prop :=
  u.id = v.id ∧ (u.tokenVersion = v.tokenVersion ∧ u.mfaEnabled = v.mfaEnabled ∨
    u.tokenVersion < v.tokenVersion)

theorem SameOrRaised.refl (u : User) : SameOrRaised u u := ⟨rfl, .inl ⟨rfl, rfl⟩⟩

theorem SameOrRaised.trans {u v w : User} (h : SameOrRaised u v) (h' : SameOrRaised v w) :
    SameOrRaised u w := by
  obtain ⟨hid, hsame⟩ := h
  obtain ⟨hid', hsame'⟩ := h'
  refine ⟨hid.trans hid', ?_⟩
  rcases hsame with ⟨hver, hmfa⟩ | hlt
  · rw [hver, hmfa]
    exact hsame'
  · rcases hsame' with ⟨hver', -⟩ | hlt'
    · exact .inr (hver' ▸ hlt)
    · exact .inr (hlt.trans hlt')

/-- Every account is an old one or has a new identifier. -/
structure AccountsKept (s t : Store) : Prop where
  drawn : s.drawn ⊆ t.drawn
  users : ∀ v ∈ t.users.rows,
    (∃ u ∈ s.users.rows, SameOrRaised u v) ∨ v.id ∉ s.drawn ∧ v.id ∈ t.drawn

theorem AccountsKept.of_eq (hdrawn : s.drawn ⊆ t.drawn) (husers : t.users = s.users) :
    AccountsKept s t :=
  ⟨hdrawn, fun v hv => .inl ⟨v, husers ▸ hv, .refl v⟩⟩

theorem AccountsKept.trans {u : Store} (h : AccountsKept s t) (h' : AccountsKept t u) :
    AccountsKept s u := by
  refine ⟨List.Subset.trans h.drawn h'.drawn, ?_⟩
  intro w hw
  rcases h'.users w hw with ⟨v, hv, hvw⟩ | ⟨hnew, hdrawn⟩
  · rcases h.users v hv with ⟨x, hx, hxv⟩ | ⟨hnew, hdrawn⟩
    · exact .inl ⟨x, hx, hxv.trans hvw⟩
    · rw [hvw.1] at hnew hdrawn
      exact .inr ⟨hnew, h'.drawn hdrawn⟩
  · exact .inr ⟨fun hold => hnew (h.drawn hold), hdrawn⟩

theorem accountsKept_of_effects (h : Effects cfg s t) : AccountsKept s t := by
  have hrenewed := usersRenewed_effects h
  refine ⟨hrenewed.drawn, fun v hv => (hrenewed.users v hv).imp_left ?_⟩
  rintro ⟨u, hu, rfl | ⟨hid, hlt⟩⟩
  · exact ⟨u, hu, .refl u⟩
  · exact ⟨u, hu, hid, .inr hlt⟩

end Scap.Auth
