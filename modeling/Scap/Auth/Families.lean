import Scap.Auth.Effects

/-!
# Session families

A family is what one sign-in turns into under refreshes. `FamilyInv` says of every store that each
family has at most one live row, that all its rows keep the sign-in time of the family, and that the
live one keeps its last recorded activity.

* `familyInv_effect` — no effect breaks it; all but three only forget, revoke or leave rows alone,
  which `FamilyInv.descend` covers at once;
* `origin_of_run` — a family's sign-in time never changes again;
* `session_family_invariant` — what follows for the bearers that `currentUser` accepts.
-/

namespace Scap.Auth

open Scap.Lib

variable {cfg : Settings} {s t : Store} {b : BearerToken}

/-! ## Rows under revocation -/

/-- `x` is a later version of the row `r`: whose it is stays, and it is no more live. -/
structure Follows (x r : AuthSession) : Prop where
  jti : x.jti = r.jti
  owner : x.userId = r.userId
  family : x.sessionFamilyId = r.sessionFamilyId
  expires : x.expiresAt = r.expiresAt
  live : x.revokedAt = none → r.revokedAt = none

/-- `x` is `r` up to the columns that families do not care about, and no more live. -/
structure Descends (x r : AuthSession) : Prop extends Follows x r where
  root : x.rootIssuedAt = r.rootIssuedAt
  activity : x.lastActivityAt = r.lastActivityAt

theorem Descends.refl (r : AuthSession) : Descends r r := ⟨⟨rfl, rfl, rfl, rfl, id⟩, rfl, rfl⟩

/-- `revokeWhere` row by row: what it leaves alone was dead or not meant. -/
theorem mem_revokeWhere {rows : KeyedTable AuthSession.jti} {p : AuthSession → Bool} {now : Int}
    {x : AuthSession} (h : x ∈ (revokeWhere rows p now).rows) :
    ∃ r ∈ rows.rows, (x = r ∧ (r.revokedAt = none → p r = false)) ∨
      (p r = true ∧ x = { r with revokedAt := some now }) := by
  obtain ⟨r, hr, rfl⟩ := KeyedTable.mem_modify.mp h
  refine ⟨r, hr, ?_⟩
  split
  · next hp =>
    simp only [Bool.and_eq_true] at hp
    exact .inr ⟨hp.1, rfl⟩
  · next hp =>
    refine .inl ⟨rfl, fun hlive => ?_⟩
    simpa [hlive] using hp

theorem descends_of_mem_revokeWhere {rows : KeyedTable AuthSession.jti} {p : AuthSession → Bool}
    {now : Int} {x : AuthSession} (h : x ∈ (revokeWhere rows p now).rows) :
    ∃ r ∈ rows.rows, Descends x r := by
  obtain ⟨r, hr, ⟨rfl, -⟩ | ⟨-, rfl⟩⟩ := mem_revokeWhere h
  · exact ⟨x, hr, .refl x⟩
  · exact ⟨r, hr, ⟨rfl, rfl, rfl, rfl, fun h => nomatch h⟩, rfl, rfl⟩

/-! ## The invariant -/

/-- A family has one live session, with its own root and activity. -/
structure FamilyInv (s : Store) : Prop where
  sessionDrawn : ∀ r ∈ s.sessions.rows, r.jti ∈ s.drawn ∧ r.sessionFamilyId ∈ s.drawn
  bearerDrawn : ∀ b ∈ s.bearers, b.jti ∈ s.drawn
  originDrawn : ∀ f x, s.origin f = some x → f ∈ s.drawn
  bearerOfJti : ∀ b ∈ s.bearers, ∀ c ∈ s.bearers, b.jti = c.jti → b = c
  oneLive : ∀ r ∈ s.sessions.rows, ∀ x ∈ s.sessions.rows,
    r.sessionFamilyId = x.sessionFamilyId → r.revokedAt = none → x.revokedAt = none → r = x
  root : ∀ r ∈ s.sessions.rows, ∃ o, s.origin r.sessionFamilyId = some o ∧ r.rootIssuedAt = some o
  activity : ∀ r ∈ s.sessions.rows, r.revokedAt = none →
    ∃ a, s.activity r.sessionFamilyId = some a ∧ r.lastActivityAt = some a

/-- Forgetting, revoking and leaving alone keep the invariant. -/
theorem FamilyInv.descend (hs : FamilyInv s)
    (hrows : ∀ x ∈ t.sessions.rows, ∃ r ∈ s.sessions.rows, Descends x r)
    (hbearers : t.bearers = s.bearers) (hdrawn : s.drawn ⊆ t.drawn) (horigin : t.origin = s.origin)
    (hactivity : t.activity = s.activity) : FamilyInv t where
  sessionDrawn x hx := by
    obtain ⟨r, hr, hd⟩ := hrows x hx
    rw [hd.jti, hd.family]
    exact ⟨hdrawn (hs.sessionDrawn r hr).1, hdrawn (hs.sessionDrawn r hr).2⟩
  bearerDrawn b hb := hdrawn (hs.bearerDrawn b (hbearers ▸ hb))
  originDrawn f x hf := hdrawn (hs.originDrawn f x (horigin ▸ hf))
  bearerOfJti b hb c hc := hs.bearerOfJti b (hbearers ▸ hb) c (hbearers ▸ hc)
  oneLive x hx y hy hfamily hxlive hylive := by
    obtain ⟨r, hr, hxr⟩ := hrows x hx
    obtain ⟨q, hq, hyq⟩ := hrows y hy
    have heq : r = q := hs.oneLive r hr q hq (by rw [← hxr.family, hfamily, hyq.family])
      (hxr.live hxlive) (hyq.live hylive)
    exact KeyedTable.eq_of_key hx hy (by rw [hxr.jti, hyq.jti, heq])
  root x hx := by
    obtain ⟨r, hr, hd⟩ := hrows x hx
    rw [horigin, hd.family, hd.root]
    exact hs.root r hr
  activity x hx hlive := by
    obtain ⟨r, hr, hd⟩ := hrows x hx
    rw [hactivity, hd.family, hd.activity]
    exact hs.activity r hr (hd.live hlive)

theorem familyInv_initial (clock : Int) : FamilyInv (Store.initial clock) := by
  constructor <;> simp [Store.initial]

/-- The rows after an insertion under a fresh UUID. -/
theorem mem_insert_fresh (hs : FamilyInv s) {jti : String} (hfresh : jti ∉ s.drawn)
    {row x : AuthSession} (hjti : row.jti = jti) :
    x ∈ (s.sessions.insertNew row).rows ↔ x = row ∨ x ∈ s.sessions.rows :=
  KeyedTable.mem_insertNew fun r hr heq => hfresh (hjti ▸ heq ▸ (hs.sessionDrawn r hr).1)

theorem bearerOfJti_append (hs : FamilyInv s) {c : BearerToken} (hfresh : c.jti ∉ s.drawn) :
    ∀ b ∈ s.bearers ++ [c], ∀ b' ∈ s.bearers ++ [c], b.jti = b'.jti → b = b' := by
  have hne : ∀ b ∈ s.bearers, b.jti ≠ c.jti := fun b hb h => hfresh (h ▸ hs.bearerDrawn b hb)
  intro b hb b' hb' heq
  rcases List.mem_append.mp hb with hb | hb <;> rcases List.mem_append.mp hb' with hb' | hb'
  · exact hs.bearerOfJti b hb b' hb' heq
  · rw [List.mem_singleton.mp hb'] at heq
    exact absurd heq (hne b hb)
  · rw [List.mem_singleton.mp hb] at heq
    exact absurd heq.symm (hne b' hb')
  · rw [List.mem_singleton.mp hb, List.mem_singleton.mp hb']

theorem bearerDrawn_append (hs : FamilyInv s) {c : BearerToken} :
    ∀ b ∈ s.bearers ++ [c], b.jti ∈ c.jti :: s.drawn := by
  intro b hb
  rcases List.mem_append.mp hb with hb | hb
  · exact List.mem_cons_of_mem _ (hs.bearerDrawn b hb)
  · rw [List.mem_singleton.mp hb]
    exact List.mem_cons_self

/-- A sign-in starts a family of its own. -/
theorem familyInv_signIn (hs : FamilyInv s) {u : User} {jti : String} (hfresh : jti ∉ s.drawn) :
    FamilyInv (finishSignIn cfg s u jti) := by
  have hother : ∀ r ∈ s.sessions.rows, r.sessionFamilyId ≠ jti := fun r hr h =>
    hfresh (h ▸ (hs.sessionDrawn r hr).2)
  have hmem : ∀ x, x ∈ (finishSignIn cfg s u jti).sessions.rows ↔
      x = issuedSession cfg s.clock u jti ⟨none, none, none, none, true⟩ ∨
        x ∈ s.sessions.rows := fun x => mem_insert_fresh hs hfresh rfl
  refine ⟨?_, bearerDrawn_append hs, ?_, bearerOfJti_append hs hfresh, ?_, ?_, ?_⟩
  · intro r hr
    rcases (hmem r).mp hr with rfl | hr
    · exact ⟨List.mem_cons_self, List.mem_cons_self⟩
    · exact ⟨List.mem_cons_of_mem _ (hs.sessionDrawn r hr).1,
        List.mem_cons_of_mem _ (hs.sessionDrawn r hr).2⟩
  · intro f x hf
    by_cases hfj : f = jti
    · rw [hfj]
      exact List.mem_cons_self
    · have hf : Function.update s.origin jti (some s.clock) f = some x := hf
      rw [Function.update_of_ne hfj] at hf
      exact List.mem_cons_of_mem _ (hs.originDrawn f x hf)
  · intro r hr x hx hfamily hrlive hxlive
    rcases (hmem r).mp hr with rfl | hr <;> rcases (hmem x).mp hx with rfl | hx
    · rfl
    · exact absurd hfamily.symm (hother x hx)
    · exact absurd hfamily (hother r hr)
    · exact hs.oneLive r hr x hx hfamily hrlive hxlive
  · intro r hr
    rcases (hmem r).mp hr with rfl | hr
    · refine ⟨s.clock, Function.update_self _ _ _, ?_⟩
      show some (max (wholeSecond s.clock) s.clock) = some s.clock
      rw [max_eq_right (wholeSecond_le _)]
    · obtain ⟨o, ho, hroot⟩ := hs.root r hr
      exact ⟨o, (Function.update_of_ne (hother r hr) _ _).trans ho, hroot⟩
  · intro r hr hlive
    rcases (hmem r).mp hr with rfl | hr
    · exact ⟨_, Function.update_self _ _ _, rfl⟩
    · obtain ⟨a, ha, hact⟩ := hs.activity r hr hlive
      exact ⟨a, (Function.update_of_ne (hother r hr) _ _).trans ha, hact⟩

/-- The rows after a refresh: the successor, and older ones of which the predecessor is dead. -/
theorem mem_rotateSession (hs : FamilyInv s) {u : User} {old x : AuthSession} {jti : String}
    (hold : old ∈ s.sessions.rows) (hfresh : jti ∉ s.drawn)
    (hx : x ∈ (rotateSession cfg s u old jti).sessions.rows) :
    x = successor cfg s u old jti ∨ ∃ r ∈ s.sessions.rows, Descends x r ∧
      (x.revokedAt = none → r.jti ≠ old.jti) := by
  obtain ⟨r, hr, hcase⟩ := mem_revokeWhere hx
  rcases (mem_insert_fresh hs hfresh rfl).mp hr with rfl | hr
  · rcases hcase with ⟨rfl, -⟩ | ⟨hjti, -⟩
    · exact .inl rfl
    · have hjti : (successor cfg s u old jti).jti = old.jti := by simpa using hjti
      have hdrawn : (successor cfg s u old jti).jti ∈ s.drawn :=
        hjti ▸ (hs.sessionDrawn old hold).1
      exact absurd hdrawn hfresh
  · rcases hcase with ⟨rfl, hkept⟩ | ⟨-, rfl⟩
    · exact .inr ⟨x, hr, .refl x, fun hx => by simpa using hkept hx⟩
    · exact .inr ⟨r, hr, ⟨⟨rfl, rfl, rfl, rfl, fun h => nomatch h⟩, rfl, rfl⟩, fun h => nomatch h⟩

/-- A refresh hands the family over from its live row to a new one. -/
theorem familyInv_rotate (hs : FamilyInv s) {u : User} {old : AuthSession} {jti : String}
    (hold : old ∈ s.sessions.rows) (hlive : old.revokedAt = none) (hfresh : jti ∉ s.drawn) :
    FamilyInv (rotateSession cfg s u old jti) := by
  obtain ⟨o, ho, hroot⟩ := hs.root old hold
  obtain ⟨a, ha, hactivity⟩ := hs.activity old hold hlive
  have hnewroot : (successor cfg s u old jti).rootIssuedAt = some o := by
    show some old.root = some o
    simp [AuthSession.root, hroot]
  have hnewactivity : (successor cfg s u old jti).lastActivityAt = some a := by
    show some old.lastActivity = some a
    simp [AuthSession.lastActivity, hactivity]
  have hrow : ∀ x ∈ (rotateSession cfg s u old jti).sessions.rows, _ :=
    fun x hx => mem_rotateSession hs hold hfresh hx
  -- so a live older row belongs to another family
  have hother : ∀ x r, r ∈ s.sessions.rows → Descends x r →
      (x.revokedAt = none → r.jti ≠ old.jti) → x.revokedAt = none →
      x.sessionFamilyId ≠ old.sessionFamilyId := by
    intro x r hr hd hne hxlive hfamily
    have heq := hs.oneLive r hr old hold (by rw [← hd.family, hfamily]) (hd.live hxlive) hlive
    exact hne hxlive (by rw [heq])
  refine ⟨?_, bearerDrawn_append hs, ?_, bearerOfJti_append hs hfresh, ?_, ?_, ?_⟩
  · intro x hx
    rcases hrow x hx with rfl | ⟨r, hr, hd, -⟩
    · exact ⟨List.mem_cons_self, List.mem_cons_of_mem _ (hs.sessionDrawn old hold).2⟩
    · rw [hd.jti, hd.family]
      exact ⟨List.mem_cons_of_mem _ (hs.sessionDrawn r hr).1,
        List.mem_cons_of_mem _ (hs.sessionDrawn r hr).2⟩
  · exact fun f x hf => List.mem_cons_of_mem _ (hs.originDrawn f x hf)
  · intro x hx y hy hfamily hxlive hylive
    rcases hrow x hx with rfl | ⟨r, hr, hxr, hxne⟩ <;>
      rcases hrow y hy with rfl | ⟨q, hq, hyq, hyne⟩
    · rfl
    · exact absurd hfamily.symm (hother y q hq hyq hyne hylive)
    · exact absurd hfamily (hother x r hr hxr hxne hxlive)
    · have heq := hs.oneLive r hr q hq (by rw [← hxr.family, hfamily, hyq.family])
        (hxr.live hxlive) (hyq.live hylive)
      exact KeyedTable.eq_of_key hx hy (by rw [hxr.jti, hyq.jti, heq])
  · intro x hx
    rcases hrow x hx with rfl | ⟨r, hr, hd, -⟩
    · exact ⟨o, ho, hnewroot⟩
    · rw [hd.family, hd.root]
      exact hs.root r hr
  · intro x hx hxlive
    rcases hrow x hx with rfl | ⟨r, hr, hd, -⟩
    · exact ⟨a, ha, hnewactivity⟩
    · rw [hd.family, hd.activity]
      exact hs.activity r hr (hd.live hxlive)

/-- Recorded activity goes to the live row of a family and nowhere else. -/
theorem familyInv_recordActivity (hs : FamilyInv s) {r : AuthSession} (hr : r ∈ s.sessions.rows)
    (hlive : r.revokedAt = none) : FamilyInv (recordActivity s r) := by
  have hrow : ∀ x ∈ (recordActivity s r).sessions.rows,
      (x = { r with lastActivityAt := some (max s.clock r.lastActivity) }) ∨
        x ∈ s.sessions.rows ∧ x.jti ≠ r.jti := by
    intro x hx
    obtain ⟨q, hq, rfl⟩ := List.mem_map.mp hx
    split
    · next hjti => exact .inl (by rw [KeyedTable.eq_of_key hq hr hjti])
    · next hjti => exact .inr ⟨hq, hjti⟩
  have hother : ∀ x ∈ s.sessions.rows, x.jti ≠ r.jti → x.revokedAt = none →
      x.sessionFamilyId ≠ r.sessionFamilyId := by
    intro x hx hne hxlive hfamily
    exact hne (by rw [hs.oneLive x hx r hr hfamily hxlive hlive])
  refine ⟨?_, hs.bearerDrawn, hs.originDrawn, hs.bearerOfJti, ?_, ?_, ?_⟩
  · intro x hx
    rcases hrow x hx with rfl | ⟨hx, -⟩
    · exact hs.sessionDrawn r hr
    · exact hs.sessionDrawn x hx
  · intro x hx y hy hfamily hxlive hylive
    rcases hrow x hx with rfl | ⟨hx, hxne⟩ <;> rcases hrow y hy with rfl | ⟨hy, hyne⟩
    · rfl
    · exact absurd hfamily.symm (hother y hy hyne hylive)
    · exact absurd hfamily (hother x hx hxne hxlive)
    · exact hs.oneLive x hx y hy hfamily hxlive hylive
  · intro x hx
    rcases hrow x hx with rfl | ⟨hx, -⟩
    · exact hs.root r hr
    · exact hs.root x hx
  · intro x hx hxlive
    rcases hrow x hx with rfl | ⟨hx, hxne⟩
    · exact ⟨_, Function.update_self _ _ _, rfl⟩
    · obtain ⟨a, ha, hact⟩ := hs.activity x hx hxlive
      exact ⟨a, (Function.update_of_ne (hother x hx hxne hxlive) _ _).trans ha, hact⟩

theorem descends_of_mem_recordStepUp {r x : AuthSession}
    (h : x ∈ (recordStepUp s r).sessions.rows) : ∃ q ∈ s.sessions.rows, Descends x q := by
  obtain ⟨q, hq, rfl⟩ := List.mem_map.mp h
  refine ⟨q, hq, ?_⟩
  split
  · exact ⟨⟨rfl, rfl, rfl, rfl, id⟩, rfl, rfl⟩
  · exact .refl q

/-- No effect breaks the invariant. -/
theorem familyInv_effect (hs : FamilyInv s) (h : Effect cfg s t) : FamilyInv t := by
  have hall : ∀ x ∈ s.sessions.rows, ∃ r ∈ s.sessions.rows, Descends x r :=
    fun x hx => ⟨x, hx, .refl x⟩
  have hkept : ∀ p : AuthSession → Bool, ∀ x ∈ (s.sessions.filter p).rows,
      ∃ r ∈ s.sessions.rows, Descends x r :=
    fun p x hx => ⟨x, (KeyedTable.mem_filter.mp hx).1, .refl x⟩
  have hrevoked : ∀ p now, ∀ x ∈ (revokeWhere s.sessions p now).rows,
      ∃ r ∈ s.sessions.rows, Descends x r := fun p now x hx => descends_of_mem_revokeWhere hx
  cases h with
  | tick d => exact hs.descend hall rfl (List.Subset.refl _) rfl rfl
  | register id role hfresh => exact hs.descend hall rfl (List.subset_cons_self _ _) rfl rfl
  | deleteUser userId => exact hs.descend (hkept _) rfl (List.Subset.refl _) rfl rfl
  | setAccount userId role isActive mfaEnabled =>
      exact hs.descend (hrevoked _ _) rfl (List.Subset.refl _) rfl rfl
  | revokeAll userId => exact hs.descend (hrevoked _ _) rfl (List.Subset.refl _) rfl rfl
  | revokeFamily userId familyId reason =>
      exact hs.descend (hrevoked _ _) rfl (List.Subset.refl _) rfl rfl
  | expire r reason => exact hs.descend (hrevoked _ _) rfl (List.Subset.refl _) rfl rfl
  | activity r hr hlive => exact familyInv_recordActivity hs hr hlive
  | stepUp r hr hlive =>
      exact hs.descend (fun x hx => descends_of_mem_recordStepUp hx) rfl (List.Subset.refl _)
        rfl rfl
  | signIn u jti hu hactive hfresh => exact familyInv_signIn hs hfresh
  | rotate u old jti hu hactive hold howner hlive hfresh =>
      exact familyInv_rotate hs hold hlive hfresh
  | challenge u jti exp hu hfresh =>
      exact hs.descend hall rfl (List.subset_cons_self _ _) rfl rfl
  | ticket u sid parentJti jti exp hu hfresh =>
      exact hs.descend hall rfl (List.subset_cons_self _ _) rfl rfl
  | deny jti userId exp reason => exact hs.descend hall rfl (List.Subset.refl _) rfl rfl
  | sweep jtis => exact hs.descend (hkept _) rfl (List.Subset.refl _) rfl rfl

theorem familyInv_effects (hs : FamilyInv s) (h : Effects cfg s t) : FamilyInv t := by
  induction h with
  | refl => exact hs
  | tail _ hlast ih => exact familyInv_effect ih hlast

theorem familyInv_of_reachable (h : (authSystem cfg).Reachable s) : FamilyInv s := by
  refine System.Reachable.induct (I := FamilyInv) ?_ ?_ h
  · rintro s ⟨clock, rfl⟩
    exact familyInv_initial clock
  · exact fun s a t _ hs hstep => familyInv_effects hs (effects_of_step hstep)

/-! ## Sign-in times never change -/

theorem origin_effect (hs : FamilyInv s) (h : Effect cfg s t) {f : String} {o : Int}
    (ho : s.origin f = some o) : t.origin f = some o := by
  cases h with
  | signIn u jti hu hactive hfresh =>
      have hne : f ≠ jti := fun h => hfresh (h ▸ hs.originDrawn f o ho)
      exact (Function.update_of_ne hne _ _).trans ho
  | _ => exact ho

theorem origin_effects (hs : FamilyInv s) (h : Effects cfg s t) {f : String} {o : Int}
    (ho : s.origin f = some o) : t.origin f = some o := by
  induction h with
  | refl => exact ho
  | tail hfirst hlast ih => exact origin_effect (familyInv_effects hs hfirst) hlast ih

theorem origin_of_run (hs : FamilyInv s) {as : List Action} (h : (authSystem cfg).Run s as t)
    {f : String} {o : Int} (ho : s.origin f = some o) : t.origin f = some o := by
  have hboth : FamilyInv t ∧ t.origin f = some o := by
    refine System.Run.preserves (I := fun t => FamilyInv t ∧ t.origin f = some o) ?_ h ⟨hs, ho⟩
    rintro s a t ⟨hs, ho⟩ hstep
    have heffects := effects_of_step hstep
    exact ⟨familyInv_effects hs heffects, origin_effects hs heffects ho⟩
  exact hboth.2

/-! ## What `currentUser` accepts -/

/-- Some request with this bearer would get through. -/
def Accepts (cfg : Settings) (s : Store) (b : BearerToken) : Prop :=
  ∃ metadataPath u, (currentUser cfg s metadataPath b).2 = .ok u

/-- What it takes for a bearer to be accepted. -/
theorem row_of_accepts (h : Accepts cfg s b) :
    ∃ u r, s.users.find? b.sub = some u ∧ u.isActive = true ∧ b.ver = u.tokenVersion ∧
      r ∈ s.sessions.rows ∧ r.jti = b.jti ∧ r.revokedAt = none ∧
      authSessionExpiryReason cfg r s.clock = none := by
  obtain ⟨metadataPath, u', hok⟩ := h
  unfold currentUser at hok
  split at hok
  · cases hok
  · split at hok
    · next u r hu hr =>
      split at hok
      · split at hok <;> cases hok
      · split at hok
        · next hguard =>
          split at hok
          · cases hok
          · next hreason =>
            obtain ⟨hmem, hjti⟩ := KeyedTable.find?_eq_some hr
            exact ⟨u, r, hu, hguard.1, hguard.2.1, hmem, hjti, hguard.2.2.2, hreason⟩
        · cases hok
    · cases hok

/-- A refresh that succeeds leaves a row made from its predecessor. -/
theorem refreshSession_ok {jti : String} {new : BearerToken}
    (h : refreshSession cfg s b jti = (t, .ok new)) (hs : FamilyInv s) (hfresh : jti ∉ s.drawn) :
    ∃ u old, old ∈ s.sessions.rows ∧ old.jti = b.jti ∧ new = issue cfg s.clock u jti ∧
      successor cfg s u old jti ∈ t.sessions.rows := by
  unfold refreshSession at h
  split at h
  · cases h
  · split at h
    · cases h
    · next u _ =>
      split at h
      · cases h
      · split at h
        · cases h
        · next old hrow =>
          split at h
          · cases h
          · split at h
            · cases h
            · obtain ⟨hmem, hjti, -, -⟩ := lockAuthSessionRow_eq_some hrow
              obtain ⟨rfl, hnew⟩ := Prod.mk.inj h
              refine ⟨u, old, hmem, hjti, (Except.ok.inj hnew).symm, ?_⟩
              refine List.mem_map.mpr
                ⟨_, (mem_insert_fresh hs hfresh rfl).mpr (.inl rfl), ?_⟩
              have hne : jti ≠ old.jti := fun h => hfresh (h ▸ (hs.sessionDrawn old hmem).1)
              exact if_neg (by simpa [successor, issuedSession] using hne)

/-- **Session families.** In every reachable state a family has at most one bearer that
`currentUser` accepts, and an accepted bearer is within the absolute lifetime of its family's
sign-in and within the idle bound of the family's last recorded activity. A refresh hands family,
sign-in time, step-up time and last activity over unchanged, and no later action changes the
sign-in time of a family. -/
theorem session_family_invariant (cfg : Settings) (s : Store)
    (h : (authSystem cfg).Reachable s) :
    (∀ b ∈ s.bearers, ∀ c ∈ s.bearers, ∀ r ∈ s.sessions.rows, ∀ q ∈ s.sessions.rows,
      r.jti = b.jti → q.jti = c.jti → r.sessionFamilyId = q.sessionFamilyId →
      Accepts cfg s b → Accepts cfg s c → b = c) ∧
    (∀ b ∈ s.bearers, Accepts cfg s b → ∃ r ∈ s.sessions.rows, r.jti = b.jti ∧
      ∃ signedIn active, s.origin r.sessionFamilyId = some signedIn ∧
        s.activity r.sessionFamilyId = some active ∧
        s.clock < signedIn + hours cfg.sessionAbsoluteHours ∧
        s.clock < active + minutes cfg.sessionIdleMinutes) ∧
    (∀ b ∈ s.bearers, ∀ jti t new, jti ∉ s.drawn → refreshSession cfg s b jti = (t, .ok new) →
      ∃ old ∈ s.sessions.rows, ∃ r ∈ t.sessions.rows, old.jti = b.jti ∧ r.jti = new.jti ∧
        r.sessionFamilyId = old.sessionFamilyId ∧ r.rootIssuedAt = old.rootIssuedAt ∧
        r.lastStepUpAt = old.lastStepUpAt ∧ r.lastActivity = old.lastActivity) ∧
    ∀ as t, (authSystem cfg).Run s as t → ∀ f signedIn,
      s.origin f = some signedIn → t.origin f = some signedIn := by
  have hs := familyInv_of_reachable h
  refine ⟨?_, ?_, ?_, fun as t hrun f o ho => origin_of_run hs hrun ho⟩
  · intro b hb c hc r hr q hq hrb hqc hfamily hbok hcok
    obtain ⟨-, r', -, -, -, hr', hr'b, hr'live, -⟩ := row_of_accepts hbok
    obtain ⟨-, q', -, -, -, hq', hq'c, hq'live, -⟩ := row_of_accepts hcok
    obtain rfl := KeyedTable.eq_of_key hr hr' (hrb.trans hr'b.symm)
    obtain rfl := KeyedTable.eq_of_key hq hq' (hqc.trans hq'c.symm)
    obtain rfl := hs.oneLive r hr q hq hfamily hr'live hq'live
    exact hs.bearerOfJti b hb c hc (hrb.symm.trans hqc)
  · intro b hb hok
    obtain ⟨-, r, -, -, -, hr, hjti, hlive, hreason⟩ := row_of_accepts hok
    obtain ⟨o, ho, hroot⟩ := hs.root r hr
    obtain ⟨a, ha, hactivity⟩ := hs.activity r hr hlive
    obtain ⟨habsolute, hidle⟩ := authSessionExpiryReason_eq_none hreason
    refine ⟨r, hr, hjti, o, a, ho, ha, ?_, ?_⟩
    · simpa [AuthSession.root, hroot] using habsolute
    · simpa [AuthSession.lastActivity, hactivity] using hidle
  · intro b hb jti t new hfresh hok
    obtain ⟨u, old, hold, hjti, rfl, hnew⟩ := refreshSession_ok hok hs hfresh
    obtain ⟨o, -, hroot⟩ := hs.root old hold
    refine ⟨old, hold, _, hnew, hjti, rfl, rfl, ?_, rfl, rfl⟩
    show some old.root = old.rootIssuedAt
    simp [AuthSession.root, hroot]

/-! ### A sign-in and a refresh -/

def sampleSettings : Settings := ⟨30, 5, 8, 30, 5, 30, false⟩

def sampleRun : List Action := [
  .register "alice" "user",
  .login "alice" none "jti-1",
  .tick 60000000,
  .refresh ⟨"alice", 1, "jti-1", 0, 1800000000⟩ "jti-2"]

def sampleStore : Store :=
  (System.exec (stepStore sampleSettings) (Store.initial 0) sampleRun).get (by decide +kernel)

theorem reachable_sampleStore : (authSystem sampleSettings).Reachable sampleStore :=
  ⟨Store.initial 0, sampleRun, ⟨0, rfl⟩, System.run_of_exec (Option.some_get _).symm⟩

theorem session_family_invariant_sample :
    ∃ r ∈ sampleStore.sessions.rows, r.jti = "jti-2" ∧
      ∃ signedIn active, sampleStore.origin r.sessionFamilyId = some signedIn ∧
        sampleStore.activity r.sessionFamilyId = some active ∧
        sampleStore.clock < signedIn + hours 8 ∧ sampleStore.clock < active + minutes 30 := by
  have haccepts : Accepts sampleSettings sampleStore
      ⟨"alice", 1, "jti-2", 60000000, 1860000000⟩ :=
    ⟨true, ⟨"alice", "user", true, false, 1⟩, by decide +kernel⟩
  exact (session_family_invariant sampleSettings sampleStore reachable_sampleStore).2.1 _
    (by decide +kernel) haccepts

end Scap.Auth
