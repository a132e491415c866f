import Scap.Auth.Families

/-!
# Accounts, and what names them

Three kinds of credential carry the account's `token_version`, and `revoke_all_auth_sessions` raises
it. Two more invariants of the store, next to `FamilyInv`:

* `UsersRenewed` — in every step an account stays as it is or its version rises;
* `versions_of_run` — a version never goes back, and an identifier is never given out again;
* `ClaimInv` — no credential is ahead of the account it names;
* `OwnerInv` — sessions belong to accounts, whole families to one, and a suspended account has no
  live session.
-/

namespace Scap.Auth

open Scap.Lib

variable {cfg : Settings} {s t : Store} {b : BearerToken} {userId : String}

/-! ## Accounts under revocation -/

theorem mem_users_revokeAll {v : User} (h : v ∈ (revokeAllAuthSessions s userId).users.rows) :
    ∃ u ∈ s.users.rows, v.id = u.id ∧ v.isActive = u.isActive := by
  obtain ⟨u, hu, rfl⟩ := List.mem_map.mp h
  refine ⟨u, hu, ?_⟩
  split <;> exact ⟨rfl, rfl⟩

theorem mem_users_setAccount {role : String} {isActive mfaEnabled : Bool} {v : User}
    (h : v ∈ (setAccount s userId role isActive mfaEnabled).users.rows) :
    ∃ u ∈ s.users.rows, v.id = u.id ∧ (u.id ≠ userId → v.isActive = u.isActive) := by
  obtain ⟨u, hu, rfl⟩ := List.mem_map.mp h
  refine ⟨u, hu, ?_⟩
  split
  · next hid => exact ⟨rfl, fun hne => absurd hid hne⟩
  · exact ⟨rfl, fun _ => rfl⟩

theorem exists_users_revokeAll {id : String} (h : ∃ u ∈ s.users.rows, u.id = id) :
    ∃ v ∈ (revokeAllAuthSessions s userId).users.rows, v.id = id := by
  obtain ⟨u, hu, rfl⟩ := h
  refine ⟨_, List.mem_map_of_mem hu, ?_⟩
  split <;> rfl

theorem exists_users_setAccount {role : String} {isActive mfaEnabled : Bool} {u : User}
    (h : u ∈ s.users.rows) :
    ∃ v ∈ (setAccount s userId role isActive mfaEnabled).users.rows, v.id = u.id := by
  refine ⟨_, List.mem_map_of_mem h, ?_⟩
  split <;> rfl

/-- After `revoke_all_auth_sessions` the account has no live session. -/
theorem dead_of_revokeAll {r : AuthSession}
    (h : r ∈ (revokeAllAuthSessions s userId).sessions.rows) (howner : r.userId = userId) :
    r.revokedAt ≠ none := by
  obtain ⟨q, -, ⟨rfl, hkept⟩ | ⟨-, rfl⟩⟩ := mem_revokeWhere h
  · intro hlive
    simpa [howner] using hkept hlive
  · simp

/-! ## Versions only rise -/

/-- Every account of `t` is an account of `s` with a version at least as high, or new. -/
structure VersionsRise (s t : Store) : Prop where
  drawn : s.drawn ⊆ t.drawn
  rise : ∀ v ∈ t.users.rows,
    (∃ u ∈ s.users.rows, u.id = v.id ∧ u.tokenVersion ≤ v.tokenVersion) ∨
      (v.id ∉ s.drawn ∧ v.id ∈ t.drawn)

/-- The account as it was, or with a higher version. -/
def Renewed (u v : User) : Prop := u = v ∨ u.id = v.id ∧ u.tokenVersion < v.tokenVersion

theorem Renewed.id_eq {u v : User} (h : Renewed u v) : u.id = v.id := by
  rcases h with rfl | ⟨hid, -⟩
  · rfl
  · exact hid

theorem Renewed.trans {u v w : User} (h : Renewed u v) (h' : Renewed v w) : Renewed u w := by
  rcases h with rfl | ⟨hid, hlt⟩
  · exact h'
  · rcases h' with rfl | ⟨hid', hlt'⟩
    · exact .inr ⟨hid, hlt⟩
    · exact .inr ⟨hid.trans hid', hlt.trans hlt'⟩

/-- Every account of `t` is one of `s`, perhaps renewed, or has an identifier that is new. What a
step does to versions, ranks and second factors follows from this. -/
structure UsersRenewed (s t : Store) : Prop where
  drawn : s.drawn ⊆ t.drawn
  users : ∀ v ∈ t.users.rows,
    (∃ u ∈ s.users.rows, Renewed u v) ∨ v.id ∉ s.drawn ∧ v.id ∈ t.drawn

theorem UsersRenewed.of_subset (hdrawn : s.drawn ⊆ t.drawn)
    (husers : t.users.rows ⊆ s.users.rows) : UsersRenewed s t :=
  ⟨hdrawn, fun v hv => .inl ⟨v, husers hv, .inl rfl⟩⟩

theorem UsersRenewed.trans {u : Store} (h : UsersRenewed s t) (h' : UsersRenewed t u) :
    UsersRenewed s u := by
  refine ⟨List.Subset.trans h.drawn h'.drawn, fun w hw => ?_⟩
  rcases h'.users w hw with ⟨v, hv, hvw⟩ | ⟨hnew, hdrawn⟩
  · rcases h.users v hv with ⟨x, hx, hxv⟩ | ⟨hnew, hdrawn⟩
    · exact .inl ⟨x, hx, hxv.trans hvw⟩
    · exact .inr (hvw.id_eq ▸ ⟨hnew, h'.drawn hdrawn⟩)
  · exact .inr ⟨fun hold => hnew (h.drawn hold), hdrawn⟩

/-- Whatever else has changed in the one account whose sessions are all revoked. -/
theorem usersRenewed_revokeAll (hdrawn : t.drawn = s.drawn)
    (husers : ∀ v ∈ t.users.rows, ∃ u ∈ s.users.rows, u.id = v.id ∧
      u.tokenVersion = v.tokenVersion ∧ (u.id ≠ userId → u = v)) :
    UsersRenewed s (revokeAllAuthSessions t userId) := by
  refine ⟨hdrawn ▸ List.Subset.refl _, fun w hw => .inl ?_⟩
  obtain ⟨v, hv, rfl⟩ := List.mem_map.mp hw
  obtain ⟨u, hu, hid, hversion, hother⟩ := husers v hv
  refine ⟨u, hu, ?_⟩
  by_cases howner : v.id = userId
  · rw [if_pos howner]
    refine .inr ⟨hid, ?_⟩
    show u.tokenVersion < v.tokenVersion + 1
    omega
  · rw [if_neg howner]
    exact .inl (hother (hid ▸ howner))

theorem usersRenewed_effect (h : Effect cfg s t) : UsersRenewed s t := by
  cases h with
  | register id role hfresh =>
      refine ⟨List.subset_cons_self _ _, fun v hv => ?_⟩
      rcases KeyedTable.mem_insertNew_or hv with rfl | hv
      · exact .inr ⟨hfresh, List.mem_cons_self⟩
      · exact .inl ⟨v, hv, .inl rfl⟩
  | deleteUser userId =>
      exact .of_subset (List.Subset.refl _) fun v hv => (KeyedTable.mem_filter.mp hv).1
  | setAccount userId role isActive mfaEnabled =>
      refine usersRenewed_revokeAll rfl fun v hv => ?_
      obtain ⟨u, hu, rfl⟩ := List.mem_map.mp hv
      refine ⟨u, hu, ?_⟩
      split
      · next hid => exact ⟨rfl, rfl, fun hne => absurd hid hne⟩
      · exact ⟨rfl, rfl, fun _ => rfl⟩
  | revokeAll userId =>
      exact usersRenewed_revokeAll rfl fun v hv => ⟨v, hv, rfl, rfl, fun _ => rfl⟩
  | signIn u jti hu hactive hfresh =>
      exact .of_subset (List.subset_cons_self _ _) (List.Subset.refl _)
  | rotate u old jti hu hactive hold howner hlive hfresh =>
      exact .of_subset (List.subset_cons_self _ _) (List.Subset.refl _)
  | challenge u jti exp hu hfresh =>
      exact .of_subset (List.subset_cons_self _ _) (List.Subset.refl _)
  | ticket u sid parentJti jti exp hu hfresh =>
      exact .of_subset (List.subset_cons_self _ _) (List.Subset.refl _)
  | _ => exact .of_subset (List.Subset.refl _) (List.Subset.refl _)

theorem usersRenewed_effects (h : Effects cfg s t) : UsersRenewed s t := by
  induction h with
  | refl => exact .of_subset (List.Subset.refl _) (List.Subset.refl _)
  | tail _ hlast ih => exact ih.trans (usersRenewed_effect hlast)

theorem UsersRenewed.versionsRise (h : UsersRenewed s t) : VersionsRise s t := by
  refine ⟨h.drawn, fun v hv => (h.users v hv).imp_left ?_⟩
  rintro ⟨u, hu, rfl | ⟨hid, hlt⟩⟩
  · exact ⟨u, hu, rfl, le_refl _⟩
  · exact ⟨u, hu, hid, hlt.le⟩

theorem versions_of_run {as : List Action} (h : (authSystem cfg).Run s as t) : VersionsRise s t :=
  UsersRenewed.versionsRise <| System.Run.mono
    (fun _ => .of_subset (List.Subset.refl _) (List.Subset.refl _)) (fun _ _ _ => .trans)
    (fun _ _ _ hstep => usersRenewed_effects (effects_of_step hstep)) h

/-! ## Credentials are never ahead of their account -/

/-- The account and the version every credential names. -/
def Store.claims (s : Store) : List (String × Int) :=
  s.bearers.map (fun b => (b.sub, b.ver)) ++ s.challenges.map (fun c => (c.sub, c.ver)) ++
    s.tickets.map (fun k => (k.sub, k.ver))

/-- No version that was issued is ahead of its account. -/
structure ClaimInv (s : Store) : Prop where
  userDrawn : ∀ u ∈ s.users.rows, u.id ∈ s.drawn
  claimDrawn : ∀ c ∈ s.claims, c.1 ∈ s.drawn
  notAhead : ∀ c ∈ s.claims, ∀ u ∈ s.users.rows, u.id = c.1 → c.2 ≤ u.tokenVersion

/-- What is issued names an account that is there, and its version. -/
theorem claims_effect (h : Effect cfg s t) {c : String × Int} (hc : c ∈ t.claims) :
    c ∈ s.claims ∨ ∃ u ∈ s.users.rows, c = (u.id, u.tokenVersion) := by
  cases h with
  | signIn u jti hu hactive hfresh =>
      simp only [Store.claims, finishSignIn, issueAccessSession, issue, List.map_append,
        List.map_cons, List.map_nil, List.mem_append, List.mem_singleton] at hc ⊢
      have hmem := (KeyedTable.find?_eq_some hu).1
      grind
  | rotate u old jti hu hactive hold howner hlive hfresh =>
      simp only [Store.claims, rotateSession, issue, List.map_append, List.map_cons,
        List.map_nil, List.mem_append, List.mem_singleton] at hc ⊢
      have hmem := (KeyedTable.find?_eq_some hu).1
      grind
  | challenge u jti exp hu hfresh =>
      simp only [Store.claims, List.map_append, List.map_cons, List.map_nil, List.mem_append,
        List.mem_singleton] at hc ⊢
      have hmem := (KeyedTable.find?_eq_some hu).1
      grind
  | ticket u sid parentJti jti exp hu hfresh =>
      simp only [Store.claims, List.map_append, List.map_cons, List.map_nil, List.mem_append,
        List.mem_singleton] at hc ⊢
      have hmem := (KeyedTable.find?_eq_some hu).1
      grind
  | _ => exact .inl hc

theorem claimInv_effect (hs : ClaimInv s) (h : Effect cfg s t) : ClaimInv t := by
  have hrise := (usersRenewed_effect h).versionsRise
  refine ⟨fun v hv => ?_, fun c hc => ?_, fun c hc v hv hid => ?_⟩
  · rcases hrise.rise v hv with ⟨u, hu, huv, -⟩ | ⟨-, hdrawn⟩
    · exact huv ▸ hrise.drawn (hs.userDrawn u hu)
    · exact hdrawn
  · rcases claims_effect h hc with hold | ⟨u, hu, rfl⟩
    · exact hrise.drawn (hs.claimDrawn c hold)
    · exact hrise.drawn (hs.userDrawn u hu)
  · rcases claims_effect h hc with hold | ⟨w, hw, rfl⟩
    · rcases hrise.rise v hv with ⟨u, hu, huv, hle⟩ | ⟨hnew, -⟩
      · exact (hs.notAhead c hold u hu (huv.trans hid)).trans hle
      · exact absurd (hid ▸ hs.claimDrawn c hold) hnew
    · rcases hrise.rise v hv with ⟨u, hu, huv, hle⟩ | ⟨hnew, -⟩
      · rwa [← KeyedTable.eq_of_key hu hw (huv.trans hid)]
      · exact absurd (hid ▸ hs.userDrawn w hw) hnew

/-! ## Sessions belong to accounts -/

/-- A family has one owner, and a suspended one no live session. -/
structure OwnerInv (s : Store) : Prop where
  suspended : ∀ u ∈ s.users.rows, u.isActive = false → ∀ r ∈ s.sessions.rows,
    r.userId = u.id → r.revokedAt ≠ none
  sessionUser : ∀ r ∈ s.sessions.rows, ∃ u ∈ s.users.rows, u.id = r.userId
  familyOwner : ∀ r ∈ s.sessions.rows, ∀ q ∈ s.sessions.rows,
    r.sessionFamilyId = q.sessionFamilyId → r.userId = q.userId
  bearerRow : ∀ b ∈ s.bearers, ∀ r ∈ s.sessions.rows, r.jti = b.jti →
    r.userId = b.sub ∧ r.expiresAt = b.exp

/-- Forgetting and revoking keep the invariant, and so does a change of the accounts that suspends
only those whose sessions are all dead. -/
theorem OwnerInv.descend (hs : OwnerInv s)
    (hrows : ∀ x ∈ t.sessions.rows, ∃ r ∈ s.sessions.rows, Follows x r)
    (hbearers : t.bearers = s.bearers)
    (hsuspended : ∀ v ∈ t.users.rows, v.isActive = false →
      (∃ u ∈ s.users.rows, u.id = v.id ∧ u.isActive = false) ∨
        ∀ x ∈ t.sessions.rows, x.userId = v.id → x.revokedAt ≠ none)
    (hkept : ∀ x ∈ t.sessions.rows, ∀ u ∈ s.users.rows, u.id = x.userId →
      ∃ v ∈ t.users.rows, v.id = u.id) : OwnerInv t where
  suspended v hv hinactive x hx howner := by
    rcases hsuspended v hv hinactive with ⟨u, hu, huv, huinactive⟩ | hdead
    · obtain ⟨r, hr, hd⟩ := hrows x hx
      have hr' : r.userId = u.id := by rw [← hd.owner, howner, huv]
      exact fun hlive => hs.suspended u hu huinactive r hr hr' (hd.live hlive)
    · exact hdead x hx howner
  sessionUser x hx := by
    obtain ⟨r, hr, hd⟩ := hrows x hx
    obtain ⟨u, hu, hid⟩ := hs.sessionUser r hr
    obtain ⟨v, hv, hvu⟩ := hkept x hx u hu (hid.trans hd.owner.symm)
    exact ⟨v, hv, by rw [hvu, hid, hd.owner]⟩
  familyOwner x hx y hy hfamily := by
    obtain ⟨r, hr, hxr⟩ := hrows x hx
    obtain ⟨q, hq, hyq⟩ := hrows y hy
    rw [hxr.owner, hyq.owner]
    exact hs.familyOwner r hr q hq (by rw [← hxr.family, hfamily, hyq.family])
  bearerRow b hb x hx hjti := by
    obtain ⟨r, hr, hd⟩ := hrows x hx
    rw [hd.owner, hd.expires]
    exact hs.bearerRow b (hbearers ▸ hb) r hr (hd.jti.symm.trans hjti)

/-- A new session of an active account, in a family that is new or the account's own. -/
theorem OwnerInv.issue (hs : OwnerInv s) (hf : FamilyInv s) {u : User} (hu : u ∈ s.users.rows)
    (hactive : u.isActive = true) {jti : String} (hfresh : jti ∉ s.drawn) (new : AuthSession)
    (hjti : new.jti = jti) (howner : new.userId = u.id)
    (hexpires : new.expiresAt = (Auth.issue cfg s.clock u jti).exp)
    (hfamily : ∀ r ∈ s.sessions.rows, r.sessionFamilyId = new.sessionFamilyId → r.userId = u.id)
    (hrows : ∀ x ∈ t.sessions.rows, x = new ∨ ∃ r ∈ s.sessions.rows, Follows x r)
    (husers : t.users = s.users) (hbearers : t.bearers = s.bearers ++ [Auth.issue cfg s.clock u jti]) :
    OwnerInv t where
  suspended v hv hinactive x hx hxv := by
    rw [husers] at hv
    rcases hrows x hx with rfl | ⟨r, hr, hd⟩
    · have heq : v = u := KeyedTable.eq_of_key hv hu (hxv.symm.trans howner)
      rw [heq, hactive] at hinactive
      cases hinactive
    · exact fun hlive =>
        hs.suspended v hv hinactive r hr (hd.owner.symm.trans hxv) (hd.live hlive)
  sessionUser x hx := by
    rw [husers]
    rcases hrows x hx with rfl | ⟨r, hr, hd⟩
    · exact ⟨u, hu, howner.symm⟩
    · rw [hd.owner]
      exact hs.sessionUser r hr
  familyOwner x hx y hy hxy := by
    rcases hrows x hx with rfl | ⟨r, hr, hxr⟩ <;> rcases hrows y hy with rfl | ⟨q, hq, hyq⟩
    · rfl
    · rw [howner, hyq.owner, hfamily q hq (by rw [← hyq.family, hxy])]
    · rw [howner, hxr.owner, hfamily r hr (by rw [← hxr.family, hxy])]
    · rw [hxr.owner, hyq.owner]
      exact hs.familyOwner r hr q hq (by rw [← hxr.family, hxy, hyq.family])
  bearerRow b hb x hx hxb := by
    rw [hbearers] at hb
    rcases List.mem_append.mp hb with hb | hb
    · rcases hrows x hx with rfl | ⟨r, hr, hd⟩
      · exact absurd (hf.bearerDrawn b hb) (hxb ▸ hjti ▸ hfresh)
      · rw [hd.owner, hd.expires]
        exact hs.bearerRow b hb r hr (hd.jti.symm.trans hxb)
    · obtain rfl := List.mem_singleton.mp hb
      rcases hrows x hx with rfl | ⟨r, hr, hd⟩
      · exact ⟨howner, hexpires⟩
      · have hdrawn : r.jti ∈ s.drawn := (hf.sessionDrawn r hr).1
        rw [← hd.jti, hxb] at hdrawn
        exact absurd hdrawn hfresh

theorem follows_of_mem_recordActivity {r x : AuthSession}
    (h : x ∈ (recordActivity s r).sessions.rows) : ∃ q ∈ s.sessions.rows, Follows x q := by
  obtain ⟨q, hq, rfl⟩ := List.mem_map.mp h
  refine ⟨q, hq, ?_⟩
  split
  · exact ⟨rfl, rfl, rfl, rfl, id⟩
  · exact (Descends.refl q).toFollows

/-- An effect keeps the owners of the sessions, and an inactive account has none that lives. -/
theorem ownerInv_effect (hs : OwnerInv s) (hf : FamilyInv s) (h : Effect cfg s t) :
    OwnerInv t := by
  have hall : ∀ x ∈ s.sessions.rows, ∃ r ∈ s.sessions.rows, Follows x r :=
    fun x hx => ⟨x, hx, (Descends.refl x).toFollows⟩
  have hsame : ∀ v ∈ s.users.rows, v.isActive = false →
      ∃ u ∈ s.users.rows, u.id = v.id ∧ u.isActive = false :=
    fun v hv hinactive => ⟨v, hv, rfl, hinactive⟩
  have hrevoked : ∀ p now, ∀ x ∈ (revokeWhere s.sessions p now).rows,
      ∃ r ∈ s.sessions.rows, Follows x r := by
    intro p now x hx
    obtain ⟨r, hr, hd⟩ := descends_of_mem_revokeWhere hx
    exact ⟨r, hr, hd.toFollows⟩
  cases h with
  | register id role hfresh =>
      refine hs.descend hall rfl (fun v hv hinactive => ?_)
        fun x hx u hu hid => ⟨u, KeyedTable.mem_insertNew_of_mem hu, rfl⟩
      rcases KeyedTable.mem_insertNew_or hv with rfl | hv
      · cases hinactive
      · exact .inl (hsame v hv hinactive)
  | deleteUser userId =>
      refine hs.descend (fun x hx => hall x (KeyedTable.mem_filter.mp hx).1) rfl
        (fun v hv hinactive => .inl (hsame v (KeyedTable.mem_filter.mp hv).1 hinactive))
        fun x hx u hu hid => ⟨u, KeyedTable.mem_filter.mpr ⟨hu, ?_⟩, rfl⟩
      rw [hid]
      exact (KeyedTable.mem_filter.mp hx).2
  | setAccount userId role isActive mfaEnabled =>
      refine hs.descend (hrevoked _ _) rfl
        (fun v hv hinactive => ?_) fun x hx u hu hid => ?_
      · obtain ⟨w, hw, hvw, hwactive⟩ := mem_users_revokeAll hv
        obtain ⟨u, hu, hwu, hother⟩ := mem_users_setAccount hw
        -- the account that is changed loses all its sessions; any other was inactive before
        by_cases hid : u.id = userId
        · refine .inr fun x hx howner => dead_of_revokeAll hx ?_
          rw [howner, hvw, hwu, hid]
        · refine .inl ⟨u, hu, by rw [hvw, hwu], ?_⟩
          rw [← hother hid, ← hwactive, hinactive]
      · exact exists_users_revokeAll (exists_users_setAccount hu)
  | revokeAll userId =>
      refine hs.descend (hrevoked _ _) rfl
        (fun v hv hinactive => ?_) fun x hx u hu hid => exists_users_revokeAll ⟨u, hu, rfl⟩
      obtain ⟨u, hu, hvu, hactive⟩ := mem_users_revokeAll hv
      exact .inl ⟨u, hu, hvu.symm, by rw [← hactive, hinactive]⟩
  | revokeFamily userId familyId reason =>
      exact hs.descend (hrevoked _ _) rfl
        (fun v hv hinactive => .inl (hsame v hv hinactive))
        fun x hx u hu hid => ⟨u, hu, rfl⟩
  | expire r reason =>
      exact hs.descend (hrevoked _ _) rfl
        (fun v hv hinactive => .inl (hsame v hv hinactive))
        fun x hx u hu hid => ⟨u, hu, rfl⟩
  | activity r hr hlive =>
      exact hs.descend (fun x hx => follows_of_mem_recordActivity hx) rfl
        (fun v hv hinactive => .inl (hsame v hv hinactive))
        fun x hx u hu hid => ⟨u, hu, rfl⟩
  | stepUp r hr hlive =>
      refine hs.descend (fun x hx => ?_) rfl
        (fun v hv hinactive => .inl (hsame v hv hinactive)) fun x hx u hu hid => ⟨u, hu, rfl⟩
      obtain ⟨q, hq, hd⟩ := descends_of_mem_recordStepUp hx
      exact ⟨q, hq, hd.toFollows⟩
  -- a sign-in opens a family under a fresh id, a rotation goes on with that of its old session
  | signIn u jti hu hactive hfresh =>
      refine hs.issue hf (KeyedTable.find?_eq_some hu).1 hactive hfresh
        (issuedSession cfg s.clock u jti ⟨none, none, none, none, true⟩) rfl rfl rfl
        (fun r hr hfamily => ?_) (fun x hx => ?_) rfl rfl
      · have hfamily : r.sessionFamilyId = jti := hfamily
        exact absurd (hfamily ▸ (hf.sessionDrawn r hr).2) hfresh
      · exact ((mem_insert_fresh hf hfresh rfl).mp hx).imp_right (hall x)
  | rotate u old jti hu hactive hold howner hlive hfresh =>
      refine hs.issue hf (KeyedTable.find?_eq_some hu).1 hactive hfresh
        (successor cfg s u old jti) rfl rfl rfl
        (fun r hr hfamily => ?_) (fun x hx => ?_) rfl rfl
      · exact (hs.familyOwner r hr old hold hfamily).trans howner
      · refine (mem_rotateSession hf hold hfresh hx).imp_right ?_
        rintro ⟨r, hr, hd, -⟩
        exact ⟨r, hr, hd.toFollows⟩
  | sweep jtis =>
      exact hs.descend (fun x hx => hall x (KeyedTable.mem_filter.mp hx).1) rfl
        (fun v hv hinactive => .inl (hsame v hv hinactive))
        fun x hx u hu hid => ⟨u, hu, rfl⟩
  | _ =>
      exact hs.descend hall rfl (fun v hv hinactive => .inl (hsame v hv hinactive))
        fun x hx u hu hid => ⟨u, hu, rfl⟩

/-- What holds of every reachable store. -/
structure AuthInv (s : Store) : Prop where
  family : FamilyInv s
  claim : ClaimInv s
  owner : OwnerInv s

theorem authInv_initial (clock : Int) : AuthInv (Store.initial clock) :=
  ⟨familyInv_initial clock, by constructor <;> simp [Store.initial, Store.claims],
    by constructor <;> simp [Store.initial]⟩

theorem authInv_effects (hs : AuthInv s) (h : Effects cfg s t) : AuthInv t := by
  induction h with
  | refl => exact hs
  | tail _ hlast ih =>
      exact ⟨familyInv_effect ih.family hlast, claimInv_effect ih.claim hlast,
        ownerInv_effect ih.owner ih.family hlast⟩

theorem authInv_of_reachable (h : (authSystem cfg).Reachable s) : AuthInv s := by
  refine System.Reachable.induct (I := AuthInv) ?_ ?_ h
  · rintro s ⟨clock, rfl⟩
    exact authInv_initial clock
  · exact fun s a t _ hs hstep => authInv_effects hs (effects_of_step hstep)

end Scap.Auth
