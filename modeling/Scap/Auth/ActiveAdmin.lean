import Scap.Auth.Ranks

/-!
# There is always an active administrator

* `perform_actor`: no operation touches the account of the administrator who performs it;
* `officeInv_of_step`: an authorized request holds the row of its actor, an active administrator;
* `active_admin_remains`: under the locks an administrator is still one at the commit, and has been
  one ever since the bearer was handed out.
-/

namespace Scap.Auth

open Scap.Lib

variable {cfg : Settings} {s t : Store}

/-! ## The account of the actor -/

theorem find?_revokeAll_of_ne {userId other : String} (h : other ≠ userId) :
    (revokeAllAuthSessions s userId).users.find? other = s.users.find? other := by
  unfold revokeAllAuthSessions
  rw [KeyedTable.find?_modify]
  cases hfind : s.users.find? other with
  | none => rfl
  | some u =>
      obtain ⟨-, rfl⟩ := KeyedTable.find?_eq_some hfind
      rw [Option.map_some, if_neg h]

theorem find?_setAccount_of_ne {userId other role : String} {isActive mfaEnabled : Bool}
    (h : other ≠ userId) :
    (setAccount s userId role isActive mfaEnabled).users.find? other = s.users.find? other := by
  unfold setAccount
  rw [KeyedTable.find?_modify]
  cases hfind : s.users.find? other with
  | none => rfl
  | some u =>
      obtain ⟨-, rfl⟩ := KeyedTable.find?_eq_some hfind
      rw [Option.map_some, if_neg h]

/-- **An administrator cannot touch the own account.** -/
theorem perform_actor {op : AdminOp} {id : String} {actor : User}
    (hactor : s.users.find? actor.id = some actor) (hactive : actor.isActive = true)
    (h : perform s actor.id op id = .ok t) : t.users.find? actor.id = some actor := by
  cases op with
  | create role =>
      obtain rfl := Except.ok.inj h
      exact KeyedTable.find?_insertNew_of_some hactor
  | delete targetId =>
      simp only [perform] at h
      split at h
      · cases h
      · next target _ =>
        split at h
        · cases h
        · next hself =>
          split at h
          · cases h
          · obtain rfl := Except.ok.inj h
            apply KeyedTable.find?_filter_of_pass hactor
            exact decide_eq_true fun hsame => hself hsame.symm
  | changeRole targetId role =>
      simp only [perform] at h
      split at h
      · cases h
      · next target _ =>
        split at h
        · cases h
        · next hself =>
          obtain rfl := Except.ok.inj h
          have hne : actor.id ≠ target.id := fun hsame => hself hsame.symm
          rw [find?_revokeAll_of_ne hne, find?_setAccount_of_ne hne]
          exact hactor
  | updateStatus targetId isActive =>
      simp only [perform] at h
      split at h
      · cases h
      · next target htarget =>
        split at h
        · cases h
        · next hself =>
          split at h
          · obtain rfl := Except.ok.inj h
            exact hactor
          · next hchange =>
            obtain rfl := Except.ok.inj h
            -- the own account is active: to activate it changes nothing, to suspend it is refused
            have hne : actor.id ≠ target.id := by
              intro hsame
              obtain ⟨hmem, -⟩ := KeyedTable.find?_eq_some htarget
              obtain ⟨hmem', -⟩ := KeyedTable.find?_eq_some hactor
              obtain rfl := KeyedTable.eq_of_key hmem' hmem hsame
              cases isActive with
              | true => exact hchange hactive
              | false => exact hself ⟨rfl, rfl⟩
            rw [find?_revokeAll_of_ne hne, find?_setAccount_of_ne hne]
            exact hactor

theorem effects_perform {op : AdminOp} {actorId id : String} (hfresh : id ∉ s.drawn)
    (h : perform s actorId op id = .ok t) : Effects cfg s t := by
  cases op with
  | create role =>
      obtain rfl := Except.ok.inj h
      exact (Effect.register id role hfresh).once
  | delete targetId =>
      simp only [perform] at h
      repeat' split at h
      all_goals first
        | cases h; done
        | exact Except.ok.inj h ▸ (Effect.deleteUser _).once
  | changeRole targetId role =>
      simp only [perform] at h
      repeat' split at h
      all_goals first
        | cases h; done
        | exact Except.ok.inj h ▸ (Effect.setAccount _ _ _ _).once
  | updateStatus targetId isActive =>
      simp only [perform] at h
      repeat' split at h
      all_goals first
        | cases h; done
        | exact Except.ok.inj h ▸ (Effect.setAccount _ _ _ _).once
        | exact Except.ok.inj h ▸ .refl

/-! ## The routes as one transaction -/

/-- The route of an operation on an account that exists. -/
def AdminOp.route? (cfg : Settings) (s : Store) (b : BearerToken) :
    AdminOp → Option (Store × Reply Unit)
  | .create _ => none
  | .delete targetId => some (adminDeleteUser cfg s b targetId)
  | .changeRole targetId role => some (adminChangeRole cfg s b targetId role)
  | .updateStatus targetId isActive => some (updateUserStatus cfg s b targetId isActive)

/-- Where nothing comes in between, a request that is authorized is one that `lock_admin_mutation`
lets through. -/
theorem lockAdminMutation_of_authorize {p : AdminRequest} {targetId : String} {target : User}
    (h : authorize cfg s p = .ok ()) (hdecodes : s.decodes p.bearer = true)
    (htarget : s.users.find? targetId = some target) :
    lockAdminMutation cfg s p.bearer targetId = .ok target := by
  unfold authorize at h
  split at h
  · cases h
  · next actor hactor =>
    obtain ⟨hfind, -⟩ := Option.filter_eq_some_iff.mp hactor
    obtain ⟨-, hid⟩ := KeyedTable.find?_eq_some hfind
    split at h
    · cases h
    · next hguard =>
      obtain ⟨hactive, hver⟩ := not_or.mp hguard
      split at h
      · cases h
      · next r hsession =>
        split at h
        · cases h
        · next hlive =>
          have hlock : lockUserRow s p.bearer.sub true = some actor := by
            rw [lockUserRow, hfind]
            simpa using hactive
          have haccount : lockAccountMutation cfg s p.bearer false = .ok (actor, r) := by
            simp [lockAccountMutation, hdecodes, hlock, not_not.mp hver, hsession, hlive]
          split at h
          · cases h
          · next hrole =>
            split at h
            · cases h
            · next hmfa =>
              split at h
              · cases h
              · next hrecent =>
                simp only [lockAdminMutation, haccount, htarget]
                rw [if_neg hrole, if_neg hmfa, if_neg hrecent]

/-- And the rest of the route is `perform`. -/
theorem route_eq_perform {b : BearerToken} {op : AdminOp} {targetId id : String} {target : User}
    (htarget : op.target? = some targetId)
    (h : lockAdminMutation cfg s b targetId = .ok target) :
    op.route? cfg s b = some (match perform s b.sub op id with
      | .ok t => (t, .ok ())
      | .error e => (s, .error e)) := by
  have hfind := (lockAdminMutation_ok h).1
  cases op with
  | create role => cases htarget
  | delete _ =>
      obtain rfl := Option.some.inj htarget
      simp only [AdminOp.route?, adminDeleteUser, perform, h, hfind]
      repeat' split
      all_goals simp_all
  | changeRole _ role =>
      obtain rfl := Option.some.inj htarget
      simp only [AdminOp.route?, adminChangeRole, perform, h, hfind]
      split <;> rfl
  | updateStatus _ isActive =>
      obtain rfl := Option.some.inj htarget
      simp only [AdminOp.route?, updateUserStatus, perform, h, hfind]
      repeat' split
      all_goals simp_all

/-! ## Requests under way -/

section

variable {s t : Office}

/-- There is an admin, and an authorized one is locked as it was read. -/
structure OfficeInv (s : Office) : Prop where
  auth : AuthInv s.store
  admin : s.store.hasAdmin
  arrived : ∀ p ∈ s.requests.rows, p.number < s.arrivals
  presented : ∀ p ∈ s.requests.rows, p.bearer ∈ s.store.bearers
  authorized : ∀ p ∈ s.requests.rows, p.phase = .authorized → p.bearer.sub ∈ p.held ∧
    ∃ u, s.store.users.find? p.bearer.sub = some u ∧ u.isAdmin ∧ p.bearer.ver = u.tokenVersion

theorem mem_put {p q : AdminRequest} (h : q ∈ (s.put p).requests.rows) :
    q = p ∨ q ∈ s.requests.rows := by
  rcases KeyedTable.mem_insertNew_or h with rfl | h
  · exact .inl rfl
  · exact .inr (KeyedTable.mem_filter.mp h).1

theorem mem_drop {number : Nat} {q : AdminRequest} (h : q ∈ (s.drop number).requests.rows) :
    q ∈ s.requests.rows ∧ q.number ≠ number := by
  obtain ⟨h, hne⟩ := KeyedTable.mem_filter.mp h
  exact ⟨h, of_decide_eq_true hne⟩

theorem find?_of_leavesLocked {number : Nat} {store : Store} {p : AdminRequest} {id : String}
    (h : s.leavesLocked number store = true) (hp : p ∈ s.requests.rows) (hne : p.number ≠ number)
    (hid : id ∈ p.held) : store.users.find? id = s.store.users.find? id := by
  have hrow := List.all_eq_true.mp h p hp
  rcases Bool.or_eq_true_iff.mp hrow with hsame | hrow
  · exact absurd (of_decide_eq_true hsame) hne
  · exact of_decide_eq_true (List.all_eq_true.mp (Bool.and_eq_true_iff.mp hrow).1 id hid)

theorem officeInv_opening (h : Opening cfg s) : OfficeInv s where
  auth := authInv_of_reachable h.store
  admin := h.admin
  arrived p hp := by
    rw [h.requests] at hp
    cases hp
  presented p hp := by
    rw [h.requests] at hp
    cases hp
  authorized p hp := by
    rw [h.requests] at hp
    cases hp

/-- A transaction of somebody else than the requests of which it leaves the locked rows alone. -/
theorem OfficeInv.moved {number : Nat} {store : Store} (hs : OfficeInv s)
    (heffects : Effects cfg s.store store) (hadmin : store.hasAdmin)
    (hlocked : s.leavesLocked number store = true) :
    OfficeInv { s.drop number with store := store } where
  auth := authInv_effects hs.auth heffects
  admin := hadmin
  arrived p hp := hs.arrived p (mem_drop hp).1
  presented p hp := bearers_effects heffects (hs.presented p (mem_drop hp).1)
  authorized := by
    intro p hp hphase
    obtain ⟨hp, hne⟩ := mem_drop hp
    obtain ⟨hheld, u, hfind, hu⟩ := hs.authorized p hp hphase
    refine ⟨hheld, u, ?_, hu⟩
    exact (find?_of_leavesLocked hlocked hp hne hheld).trans hfind

theorem OfficeInv.drop (hs : OfficeInv s) (number : Nat) : OfficeInv (s.drop number) where
  auth := hs.auth
  admin := hs.admin
  arrived p hp := hs.arrived p (mem_drop hp).1
  presented p hp := hs.presented p (mem_drop hp).1
  authorized p hp := hs.authorized p (mem_drop hp).1

theorem OfficeInv.put (hs : OfficeInv s) {p : AdminRequest} (hnumber : p.number < s.arrivals)
    (hbearer : p.bearer ∈ s.store.bearers)
    (hauthorized : p.phase = .authorized → p.bearer.sub ∈ p.held ∧
      ∃ u, s.store.users.find? p.bearer.sub = some u ∧ u.isAdmin ∧
        p.bearer.ver = u.tokenVersion) : OfficeInv (s.put p) where
  auth := hs.auth
  admin := hs.admin
  arrived q hq := by
    rcases mem_put hq with rfl | hq
    · exact hnumber
    · exact hs.arrived q hq
  presented q hq := by
    rcases mem_put hq with rfl | hq
    · exact hbearer
    · exact hs.presented q hq
  authorized q hq := by
    rcases mem_put hq with rfl | hq
    · exact hauthorized
    · exact hs.authorized q hq

/-- Where nobody is dropped because nobody has that number. -/
theorem drop_arrivals (hs : OfficeInv s) : s.drop s.arrivals = s := by
  have hrows : (s.requests.filter fun q => q.number ≠ s.arrivals) = s.requests := by
    apply KeyedTable.ext
    apply List.filter_eq_self.mpr
    intro p hp
    exact decide_eq_true (Nat.ne_of_lt (hs.arrived p hp))
  unfold Office.drop
  rw [hrows]

theorem authorize_ok {store : Store} {p : AdminRequest} (h : authorize cfg store p = .ok ()) :
    p.bearer.sub ∈ p.held ∧
      ∃ u, store.users.find? p.bearer.sub = some u ∧ u.isAdmin ∧ p.bearer.ver = u.tokenVersion := by
  unfold authorize at h
  split at h
  · cases h
  · next actor hactor =>
    obtain ⟨hfind, hheld⟩ := Option.filter_eq_some_iff.mp hactor
    split at h
    · cases h
    · next hguard =>
      obtain ⟨hactive, hver⟩ := not_or.mp hguard
      split at h
      · cases h
      · split at h
        · cases h
        · split at h
          · cases h
          · next hrole =>
            refine ⟨by simpa using hheld, actor, hfind, ⟨not_not.mp hrole, ?_⟩, not_not.mp hver⟩
            exact Bool.eq_true_of_not_eq_false hactive

theorem officeInv_acceptRequest {b : BearerToken} {op : AdminOp} (hs : OfficeInv s)
    (hb : b ∈ s.store.bearers) (h : acceptRequest cfg s b op = some t) : OfficeInv t := by
  have heffects : Effects cfg s.store (currentUser cfg s.store false b).1 := effects_currentUser
  have hranks : Ranks s.store (currentUser cfg s.store false b).1 := ranks_currentUser
  unfold acceptRequest at h
  dsimp only at h
  split at h
  · next hlocked =>
    have hmoved := hs.moved heffects (hranks.hasAdmin hs.admin) hlocked
    rw [drop_arrivals hs] at hmoved
    split at h
    · exact Option.some.inj h ▸ hmoved
    · split at h
      · obtain rfl := Option.some.inj h
        have hraised : OfficeInv { s with
            store := (currentUser cfg s.store false b).1
            arrivals := s.arrivals + 1 } :=
          ⟨hmoved.auth, hmoved.admin, fun p hp => (hs.arrived p hp).trans (Nat.lt_succ_self _),
            hmoved.presented, hmoved.authorized⟩
        refine hraised.put (Nat.lt_succ_self _) (bearers_effects heffects hb) ?_
        intro hphase
        cases hphase
      · exact Option.some.inj h ▸ hmoved
  · cases h

theorem effects_of_office {a : OfficeAction} (h : (officeSystem cfg).step s a t) :
    Effects cfg s.store t.store := by
  replace h : stepOffice cfg s a = some t := h
  cases a with
  | acceptRequest b op =>
      have heffects : Effects cfg s.store (currentUser cfg s.store false b).1 := effects_currentUser
      simp only [stepOffice, acceptRequest] at h
      repeat' split at h
      all_goals first
        | cases h; done
        | exact Option.some.inj h ▸ heffects
  | acquire number =>
      simp only [stepOffice, acquire] at h
      repeat' split at h
      all_goals first
        | cases h; done
        | exact Option.some.inj h ▸ .refl
  | commit number id =>
      simp only [stepOffice] at h
      split at h
      · split at h
        · next hready =>
          split at h
          · cases h
          · next hperform =>
            obtain ⟨-, rfl⟩ := of_allowed h
            exact effects_perform hready.2 hperform
        · cases h
      · cases h
  | other a =>
      simp only [stepOffice] at h
      split at h
      · cases h
      · split at h
        · next hstep =>
          obtain ⟨-, rfl⟩ := of_allowed h
          exact effects_of_step (t := _) hstep
        · cases h
  | _ =>
      simp only [stepOffice] at h
      repeat' split at h
      all_goals first
        | cases h; done
        | exact Option.some.inj h ▸ .refl

/-- Every step of the office keeps the invariant, whichever requests are under way. -/
theorem officeInv_of_step {a : OfficeAction} (hs : OfficeInv s)
    (h : (officeSystem cfg).step s a t) : OfficeInv t := by
  replace h : stepOffice cfg s a = some t := h
  cases a with
  | acceptRequest b op =>
      simp only [stepOffice] at h
      split at h
      · next hb => exact officeInv_acceptRequest hs hb h
      · cases h
  | enter number =>
      simp only [stepOffice] at h
      split at h
      · next p hp =>
        have hmem := (KeyedTable.find?_eq_some hp).1
        split at h
        · split at h
          · exact Option.some.inj h ▸ hs.drop number
          · obtain rfl := Option.some.inj h
            refine hs.put (hs.arrived p hmem) (hs.presented p hmem) ?_
            intro hphase
            cases hphase
        · cases h
      · cases h
  | acquire number =>
      simp only [stepOffice] at h
      split at h
      · next p hp =>
        have hmem := (KeyedTable.find?_eq_some hp).1
        split at h
        · unfold acquire at h
          repeat' split at h
          all_goals first
            | cases h; done
            | obtain rfl := Option.some.inj h
              refine hs.put (hs.arrived p hmem) (hs.presented p hmem) ?_
              intro hphase
              cases hphase
        · cases h
      · cases h
  | authorize number =>
      simp only [stepOffice] at h
      split at h
      · next p hp =>
        have hmem := (KeyedTable.find?_eq_some hp).1
        split at h
        · split at h
          · exact Option.some.inj h ▸ hs.drop number
          · next hok =>
            obtain rfl := Option.some.inj h
            exact hs.put (hs.arrived p hmem) (hs.presented p hmem) fun _ => authorize_ok hok
        · cases h
      · cases h
  | commit number id =>
      simp only [stepOffice] at h
      split at h
      · next p hp =>
        obtain ⟨hmem, rfl⟩ := KeyedTable.find?_eq_some hp
        split at h
        · next hready =>
          -- the acting administrator was authorized under the lock, and the lock is still held
          obtain ⟨-, u, hfind, hadmin, -⟩ := hs.authorized p hmem hready.1
          split at h
          · cases h
          · next store hperform =>
            obtain ⟨hlocked, rfl⟩ := of_allowed h
            have hid := (KeyedTable.find?_eq_some hfind).2
            rw [← hid] at hperform hfind
            have hactor := perform_actor hfind hadmin.2 hperform
            have hkept : store.hasAdmin := ⟨u, (KeyedTable.find?_eq_some hactor).1, hadmin⟩
            have heffects : Effects cfg s.store store := effects_perform hready.2 hperform
            exact hs.moved heffects hkept hlocked
        · cases h
      · cases h
  | abort number => exact Option.some.inj h ▸ hs.drop number
  | other a =>
      simp only [stepOffice] at h
      split at h
      · cases h
      · next hother =>
        split at h
        · next store hstep =>
          obtain ⟨hlocked, rfl⟩ := of_allowed h
          -- no other route lowers a rank, so the administrator that was there stays one
          have hranks := ranks_of_step (Bool.eq_false_of_not_eq_true hother) hstep
          have heffects : Effects cfg s.store store := effects_of_step hstep
          have hmoved := hs.moved heffects (hranks.hasAdmin hs.admin) hlocked
          rwa [drop_arrivals hs] at hmoved
        · cases h

theorem officeInv_of_reachable (h : (officeSystem cfg).Reachable s) : OfficeInv s :=
  h.induct (fun _ => officeInv_opening) fun _ _ _ _ => officeInv_of_step

theorem effects_of_officeRun {as : List OfficeAction} (h : (officeSystem cfg).Run s as t) :
    Effects cfg s.store t.store :=
  System.Run.mono (r := fun s t : Office => Effects cfg s.store t.store) (fun _ => .refl)
    (fun _ _ _ => Relation.ReflTransGen.trans) (fun _ _ _ => effects_of_office) h

/-- What a commit has found. -/
theorem authorized_of_commit {number : Nat} {id : String} (hs : OfficeInv s)
    (h : (officeSystem cfg).step s (.commit number id) t) :
    ∃ p ∈ s.requests.rows, p.number = number ∧ ∃ u,
      s.store.users.find? p.bearer.sub = some u ∧ u.isAdmin ∧ p.bearer.ver = u.tokenVersion := by
  replace h : stepOffice cfg s (.commit number id) = some t := h
  simp only [stepOffice] at h
  split at h
  · next p hp =>
    obtain ⟨hmem, hnumber⟩ := KeyedTable.find?_eq_some hp
    split at h
    · next hready => exact ⟨p, hmem, hnumber, (hs.authorized p hmem hready.1).2⟩
    · cases h
  · cases h

/-- An account that is as its bearer names it has not changed since the bearer was handed out. -/
theorem admin_since {m s : Store} {b : BearerToken} {u : User} (hm : AuthInv m)
    (hkept : RanksKept m s) (hb : b ∈ m.bearers) (hu : s.users.find? b.sub = some u)
    (hver : b.ver = u.tokenVersion) (hadmin : u.isAdmin) :
    ∃ v, m.users.find? b.sub = some v ∧ v.isAdmin := by
  have hclaim : (b.sub, b.ver) ∈ m.claims := by
    simp only [Store.claims, List.mem_append]
    exact .inl (.inl (List.mem_map.mpr ⟨b, hb, rfl⟩))
  obtain ⟨hmem, hid⟩ := KeyedTable.find?_eq_some hu
  rcases hkept.users u hmem with ⟨v, hv, hvid, hsame⟩ | ⟨hnew, -⟩
  · refine ⟨v, KeyedTable.find?_iff.mpr ⟨hv, hvid.trans hid⟩, ?_⟩
    rcases hsame with ⟨-, hrole, hactive⟩ | hlt
    · exact ⟨hrole.trans hadmin.1, hactive.trans hadmin.2⟩
    · have hle := hm.claim.notAhead _ hclaim v hv (hvid.trans hid)
      exact absurd (hver ▸ hle) (not_le.mpr hlt)
  · exact absurd (hid ▸ hm.claim.claimDrawn _ hclaim) hnew

/-- **There is always an active administrator**, however the operations of the administrators and
the other requests interleave. And whoever commits one is an active administrator, and has been in
every state since the bearer was handed out: nobody has demoted, suspended or deleted the actor. -/
theorem active_admin_remains (hs : (officeSystem cfg).Reachable s) :
    s.store.hasAdmin ∧
      ∀ number id t, (officeSystem cfg).step s (.commit number id) t →
        ∃ p ∈ s.requests.rows, p.number = number ∧ p.bearer ∈ s.store.bearers ∧
          ∀ m as, (officeSystem cfg).Reachable m → (officeSystem cfg).Run m as s →
            p.bearer ∈ m.store.bearers →
            ∃ u, m.store.users.find? p.bearer.sub = some u ∧ u.isAdmin := by
  have hinv := officeInv_of_reachable hs
  refine ⟨hinv.admin, ?_⟩
  intro number id t hcommit
  obtain ⟨p, hp, hnumber, u, hfind, hadmin, hver⟩ := authorized_of_commit hinv hcommit
  refine ⟨p, hp, hnumber, hinv.presented p hp, ?_⟩
  intro m as hm hrun hb
  have hkept := ranksKept_effects (effects_of_officeRun hrun)
  exact admin_since (officeInv_of_reachable hm).auth hkept hb hfind hver hadmin

end

/-! ### Two administrators who demote each other -/

def sampleAdmins : List Action := [
  .register "alice" "admin", .register "bob" "admin",
  .login "alice" none "jti-1", .login "bob" none "jti-2"]

def adminStore : Store :=
  (System.exec (stepStore sampleSettings) (Store.initial 0) sampleAdmins).get (by decide +kernel)

/-- Both are admitted, and alice is the first to hold the two accounts. -/
def sampleRace : List OfficeAction := [
  .acceptRequest ⟨"alice", 1, "jti-1", 0, 1800000000⟩ (.changeRole "bob" "user"),
  .acceptRequest ⟨"bob", 1, "jti-2", 0, 1800000000⟩ (.changeRole "alice" "user"),
  .enter 0, .enter 1, .acquire 0, .acquire 0, .authorize 0]

def openingOffice : Office := ⟨adminStore, .empty, 0⟩

def raceOffice : Office :=
  (System.exec (stepOffice sampleSettings) openingOffice sampleRace).get (by decide +kernel)

theorem reachable_raceOffice : (officeSystem sampleSettings).Reachable raceOffice := by
  have hstore : (authSystem sampleSettings).Reachable adminStore :=
    ⟨Store.initial 0, sampleAdmins, ⟨0, rfl⟩, System.run_of_exec (Option.some_get _).symm⟩
  have hadmin : ∃ u ∈ adminStore.users.rows, u.isAdmin := by decide +kernel
  exact ⟨openingOffice, sampleRace, ⟨hstore, hadmin, rfl⟩,
    System.run_of_exec (Option.some_get _).symm⟩

/-- Alice's request commits, and bob's finds that he is none any more. -/
theorem active_admin_remains_sample :
    raceOffice.store.hasAdmin ∧
      (∃ p ∈ raceOffice.requests.rows, p.number = 0 ∧
        ∃ u, raceOffice.store.users.find? p.bearer.sub = some u ∧ u.isAdmin) ∧
      (System.exec (stepOffice sampleSettings) raceOffice
        [.commit 0 "carol", .acquire 1, .acquire 1, .authorize 1]).map
          (fun s => (s.store.users.rows.map User.role, s.requests.rows)) =
        some (["admin", "user"], []) := by
  obtain ⟨hadmin, hcommits⟩ := active_admin_remains reachable_raceOffice
  have hready : (stepOffice sampleSettings raceOffice (.commit 0 "carol")).isSome := by
    decide +kernel
  obtain ⟨t, ht⟩ := Option.isSome_iff_exists.mp hready
  obtain ⟨p, hp, hnumber, hb, hsince⟩ := hcommits 0 "carol" t ht
  refine ⟨hadmin, ⟨p, hp, hnumber, ?_⟩, by decide +kernel⟩
  exact hsince raceOffice [] reachable_raceOffice .nil hb

end Scap.Auth
