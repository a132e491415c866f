import Scap.Audit.Workers

/-!
# Anchoring

What a call in flight knows about the tables survives every step of the others: nothing is deleted,
and a checkpoint is inserted only by a call that has verified the earlier ones.

* `grows_of_step` — what one step does to the two tables;
* `anchorInv_of_reachable` — what a call in flight knows;
* `checkpoint_anchoring` — no checkpoint is laid over a history that does not verify.
-/

namespace Scap.Audit.Anchoring

open Scap.Py Scap.Lib

variable {d : Deployment} {interval : Int} {s t u : State} {events : AuditTable}
  {checkpoints : CheckpointTable} {c : AuditCheckpoint} {r latest : AuditRow} {call : Call}
  {x : Surroundings} {a : Action}

/-! ## What a call in flight knows -/

/-- What has been established when a call has come to a phase. -/
def PhaseInv (d : Deployment) (s : State) : Phase → Prop
  | .begun => True
  | .checking head => head ∈ s.checkpoints.rows ∧ ∀ c ∈ s.checkpoints.rows,
      head.lastEventId < c.lastEventId → reasonIn d.hmac d.service s.events c = none
  | .checkingHistory head => head ∈ s.checkpoints.rows ∧ ∀ c ∈ s.checkpoints.rows,
      head.lastEventId ≤ c.lastEventId → reasonIn d.hmac d.service s.events c = none
  | .verified => Cleared d s.events s.checkpoints
  | .read latest => Cleared d s.events s.checkpoints ∧ latest ∈ s.events.rows
  | .signed c => Cleared d s.events s.checkpoints ∧ ∃ r ∈ s.events.rows, Signs d r c
  | .delivered c => Cleared d s.events s.checkpoints ∧ Receipted d c ∧
      ∃ r ∈ s.events.rows, Signs d r c
  | .reporting => True

/-- Rows are stamped, and each call has the facts of its phase. -/
structure AnchorInv (d : Deployment) (s : State) : Prop where
  stamped : ∀ r ∈ s.events.rows, Stamped d r
  calls : ∀ call ∈ s.calls.rows, PhaseInv d s call.phase

/-- A checkpoint that a call may insert into `s`. -/
structure Anchored (d : Deployment) (s : State) (c : AuditCheckpoint) : Prop where
  cleared : Cleared d s.events s.checkpoints
  receipted : Receipted d c
  signs : ∃ r ∈ s.events.rows, Signs d r c

/-- The events and checkpoints of `s` are kept, and a new checkpoint is one that may be added. -/
structure Grows (d : Deployment) (s t : State) : Prop where
  events : ∀ r ∈ s.events.rows, r ∈ t.events.rows
  kept : ∀ c ∈ s.checkpoints.rows, c ∈ t.checkpoints.rows
  added : ∀ c ∈ t.checkpoints.rows, c ∈ s.checkpoints.rows ∨ Anchored d s c

theorem Grows.added_cleared (h : Grows d s t) (hc : c ∈ t.checkpoints.rows) :
    c ∈ s.checkpoints.rows ∨ reasonIn d.hmac d.service t.events c = none := by
  refine (h.added c hc).imp_right fun hadded => ?_
  obtain ⟨r, hr, hsigns⟩ := hadded.signs
  exact hsigns.cleared (h.events r hr)

theorem Grows.cleared (h : Grows d s t) (hs : Cleared d s.events s.checkpoints) :
    Cleared d t.events t.checkpoints := by
  intro c hc
  rcases h.added_cleared hc with hold | hnew
  · exact reasonIn_mono (hs c hold) h.events
  · exact hnew

/-- Nobody else's step takes away what a call knows. -/
theorem PhaseInv.of_grows {phase : Phase} (h : Grows d s t) (hs : PhaseInv d s phase) :
    PhaseInv d t phase := by
  cases phase with
  | begun => trivial
  | checking head =>
      refine ⟨h.kept head hs.1, fun c hc hlt => ?_⟩
      rcases h.added_cleared hc with hold | hnew
      · exact reasonIn_mono (hs.2 c hold hlt) h.events
      · exact hnew
  | checkingHistory head =>
      refine ⟨h.kept head hs.1, fun c hc hle => ?_⟩
      rcases h.added_cleared hc with hold | hnew
      · exact reasonIn_mono (hs.2 c hold hle) h.events
      · exact hnew
  | verified => exact h.cleared hs
  | read latest => exact ⟨h.cleared hs.1, h.events latest hs.2⟩
  | signed c =>
      obtain ⟨hcleared, r, hr, hsigns⟩ := hs
      exact ⟨h.cleared hcleared, r, h.events r hr, hsigns⟩
  | delivered c =>
      obtain ⟨hcleared, hreceipted, r, hr, hsigns⟩ := hs
      exact ⟨h.cleared hcleared, hreceipted, r, h.events r hr, hsigns⟩
  | reporting => trivial

/-- What a call knows after its own next part. -/
theorem PhaseInv.of_follows {p q : Phase} (hstamped : ∀ r ∈ s.events.rows, Stamped d r)
    (hs : PhaseInv d s p) (h : Follows d s p q) : PhaseInv d s q := by
  cases p with
  | begun =>
      cases q with
      | checking head =>
          refine ⟨List.mem_of_getLast? h, fun c hc hlt => ?_⟩
          rcases KeyedTable.eq_or_lt_last h hc with rfl | hbelow
          · exact absurd hlt (lt_irrefl _)
          · exact absurd hlt (lt_asymm hbelow)
      | verified =>
          intro c hc
          have hempty : s.checkpoints.rows = [] := List.getLast?_eq_none_iff.mp h
          rw [hempty] at hc
          cases hc
      | reporting => trivial
      | _ => exact h.elim
  | checking head =>
      cases q with
      | checkingHistory head' =>
          obtain ⟨rfl, hreason⟩ := h
          refine ⟨hs.1, fun c hc hle => ?_⟩
          rcases hle.lt_or_eq with hlt | heq
          · exact hs.2 c hc hlt
          · rw [← KeyedTable.eq_of_key hs.1 hc heq]
            exact hreason
      | reporting => trivial
      | _ => exact h.elim
  | checkingHistory head =>
      cases q with
      | verified =>
          intro c hc
          -- below the checkpoint that was read first, or not
          by_cases hlt : c.lastEventId < head.lastEventId
          · exact cleared_of_historyIntact h hc hlt
          · exact hs.2 c hc (not_lt.mp hlt)
      | reporting => trivial
      | _ => exact h.elim
  | verified =>
      cases q with
      | read latest => exact ⟨hs, List.mem_of_getLast? h⟩
      | reporting => trivial
      | _ => exact h.elim
  | read latest =>
      cases q with
      | signed c =>
          obtain ⟨now, hplan⟩ := h
          exact ⟨hs.1, latest, hs.2, signs_of_plan (hstamped latest hs.2) hplan⟩
      | reporting => trivial
      | _ => exact h.elim
  | signed c =>
      cases q with
      | delivered c' =>
          obtain ⟨x, hdeliver⟩ := h
          obtain ⟨hcleared, r, hr, hsigns⟩ := hs
          obtain ⟨hsigns', hreceipted, -⟩ := deliver_spec hdeliver hsigns
          exact ⟨hcleared, hreceipted, r, hr, hsigns'⟩
      | reporting => trivial
      | _ => exact h.elim
  | delivered c =>
      cases q with
      | reporting => trivial
      | _ => exact h.elim
  | reporting =>
      cases q with
      | reporting => trivial
      | _ => exact h.elim

/-! ### Insertion -/

theorem mem_commitAnchor_of_mem {dialect : Dialect} {e : AuditCheckpoint}
    (h : e ∈ checkpoints.rows) :
    e ∈ (commitAnchor d.service dialect checkpoints c).1.rows := by
  unfold commitAnchor
  dsimp only
  split
  · next inserted hinserted =>
    split at hinserted
    · cases hinserted
    · exact (KeyedTable.mem_insert? hinserted).mpr (.inr h)
  · split
    · split <;> exact h
    · exact h

/-- The checkpoint `_anchor` returns is in the table, whoever has inserted it. -/
theorem commitAnchor_ok {dialect : Dialect} {e : AuditCheckpoint}
    (h : (commitAnchor d.service dialect checkpoints c).2 = .ok e) :
    e ∈ (commitAnchor d.service dialect checkpoints c).1.rows ∧ e.lastEventId = c.lastEventId := by
  unfold commitAnchor at h ⊢
  dsimp only at h ⊢
  split at h
  · next inserted hinserted =>
    cases h
    split at hinserted
    · cases hinserted
    · exact ⟨(KeyedTable.mem_insert? hinserted).mpr (.inl rfl), rfl⟩
  · split at h
    · next concurrent hfind =>
      split at h
      · next hsame =>
        cases h
        rw [if_pos hsame]
        exact KeyedTable.find?_eq_some hfind
      · cases h
    · cases h

theorem Progress.grows (h : Progress d s t) (hs : AnchorInv d s) : Grows d s t := by
  refine ⟨fun r hr => h.events ▸ hr, fun c hc => ?_, fun c hc => ?_⟩
  · rcases h.checkpoints with hsame | ⟨_, -, _, -, hcommit⟩
    · exact hsame ▸ hc
    · rw [hcommit]
      exact mem_commitAnchor_of_mem hc
  · rcases h.checkpoints with hsame | ⟨call, hcall, c₀, hphase, hcommit⟩
    · exact .inl (hsame ▸ hc)
    · rw [hcommit] at hc
      rcases mem_commitAnchor hc with rfl | hold
      · have hinv := hs.calls call hcall
        rw [hphase] at hinv
        obtain ⟨hcleared, hreceipted, r, hr, hsigns⟩ := hinv
        exact .inr ⟨hcleared, hreceipted.stored, r, hr, hsigns.stored (hs.stamped r hr)⟩
      · exact .inl hold

theorem anchorInv_of_progress (hs : AnchorInv d s) (h : Progress d s t) : AnchorInv d t := by
  have hgrows := h.grows hs
  refine ⟨fun r hr => hs.stamped r (h.events ▸ hr), fun call' hcall' => ?_⟩
  rcases h.calls call' hcall' with hold | hbegun | hreporting | ⟨call, hcall, -, hfollows⟩
  · exact (hs.calls call' hold).of_grows hgrows
  · rw [hbegun]
    trivial
  · rw [hreporting]
    trivial
  · exact ((hs.calls call hcall).of_follows hs.stamped hfollows).of_grows hgrows

theorem grows_append {e : AuditEvent} {id now : Int}
    (h : s.events.insert? ⟨id, e.stored d.dialect now⟩ = some events) :
    Grows d s { s with events := events } :=
  ⟨fun _ hr => (KeyedTable.mem_insert? h).mpr (.inr hr), fun _ hc => hc, fun _ hc => .inl hc⟩

/-- **What a step of the application or of a worker does to the tables.** -/
theorem grows_of_step (hs : AnchorInv d s) (ha : a.honest) :
    Grows d s (perform d interval s a).1 := by
  cases a with
  | append id e now =>
      have hcases : (perform d interval s (.append id e now)).1 = s ∨ _ := perform_append id e now
      rcases hcases with hsame | ⟨events, hinsert, hperform⟩
      · rw [hsame]
        exact Progress.refl.grows hs
      · rw [hperform]
        exact grows_append hinsert
  | rewrite events checkpoints => exact ha.elim
  | _ => exact Progress.grows (progress_of_quiet trivial) hs

theorem anchorInv_of_step (hs : AnchorInv d s) (h : (anchorSystem d interval).step s a t) :
    AnchorInv d t := by
  obtain ⟨hadmissible, rfl⟩ := h
  cases a with
  | append id e now =>
      have hgrows : Grows d s (perform d interval s (.append id e now)).1 :=
        grows_of_step hs trivial
      have hcases : (perform d interval s (.append id e now)).1 = s ∨ _ := perform_append id e now
      rcases hcases with hsame | ⟨events, hinsert, hperform⟩
      · rw [hsame]
        exact hs
      · rw [hperform] at hgrows ⊢
        refine ⟨fun r hr => ?_, fun call hcall => (hs.calls call hcall).of_grows hgrows⟩
        rcases (KeyedTable.mem_insert? hinsert).mp hr with rfl | hold
        · exact ⟨_, rfl, Dialect.stored_stored _ _⟩
        · exact hs.stamped r hold
  | rewrite events checkpoints =>
      obtain ⟨hidle, hstamped⟩ := hadmissible
      refine ⟨hstamped, fun call hcall => ?_⟩
      have hcall : call ∈ s.calls.rows := hcall
      rw [hidle] at hcall
      cases hcall
  | _ => exact anchorInv_of_progress hs (progress_of_quiet trivial)

theorem anchorInv_of_reachable (h : (anchorSystem d interval).Reachable s) : AnchorInv d s := by
  refine System.Reachable.induct (I := AnchorInv d) ?_ ?_ h
  · rintro s rfl
    exact ⟨by simp, by simp⟩
  · intro s a t _ hs hstep
    exact anchorInv_of_step hs hstep

/-! ## The latest event of a call -/

/-- The checkpoint a call has signed. -/
def Phase.plan? : Phase → Option AuditCheckpoint
  | .signed c => some c
  | .delivered c => some c
  | _ => none

/-- What a call has read or signed belongs to the last of `events`. -/
def Tracks (events : AuditTable) : Phase → Prop
  | .read latest => events.last? = some latest
  | .signed c => events.last?.map AuditRow.id = some c.lastEventId
  | .delivered c => events.last?.map AuditRow.id = some c.lastEventId
  | _ => True

theorem Tracks.of_follows {p q : Phase} (hs : AnchorInv d s) (hp : PhaseInv d s p)
    (h : Tracks s.events p) (hfollows : Follows d s p q) : Tracks s.events q := by
  cases p with
  | begun => cases q <;> trivial
  | checking head => cases q <;> trivial
  | checkingHistory head => cases q <;> trivial
  | verified =>
      cases q with
      | read latest => exact hfollows
      | reporting => trivial
      | _ => exact hfollows.elim
  | read latest =>
      cases q with
      | signed c =>
          obtain ⟨now, hplan⟩ := hfollows
          have hsigns := signs_of_plan (hs.stamped latest hp.2) hplan
          have hlast : s.events.last? = some latest := h
          show s.events.last?.map AuditRow.id = some c.lastEventId
          rw [hlast, Option.map_some, hsigns.event]
      | reporting => trivial
      | _ => exact hfollows.elim
  | signed c =>
      cases q with
      | delivered c' =>
          obtain ⟨x, hdeliver⟩ := hfollows
          obtain ⟨-, r, -, hsigns⟩ := hp
          show s.events.last?.map AuditRow.id = some c'.lastEventId
          rw [(deliver_spec hdeliver hsigns).2.2]
          exact h
      | reporting => trivial
      | _ => exact hfollows.elim
  | delivered c => cases q <;> trivial
  | reporting => cases q <;> trivial

/-- Since `worker` was about to read the latest event, no event has come. -/
structure Latched (d : Deployment) (events : AuditTable) (worker : Nat) (s : State) : Prop where
  inv : AnchorInv d s
  same : s.events = events
  tracks : ∀ call ∈ s.calls.rows, call.worker = worker → Tracks events call.phase

theorem latched_of_progress {worker : Nat} (hs : Latched d events worker s)
    (h : Progress d s t) : Latched d events worker t := by
  obtain ⟨hinv, rfl, htracks⟩ := hs
  refine ⟨anchorInv_of_progress hinv h, h.events, fun call' hcall' hworker => ?_⟩
  rcases h.calls call' hcall' with hold | hbegun | hreporting | ⟨call, hcall, hsame, hfollows⟩
  · exact htracks call' hold hworker
  · rw [hbegun]
    trivial
  · rw [hreporting]
    trivial
  · have htracked : Tracks s.events call.phase := htracks call hcall (hsame.trans hworker)
    exact htracked.of_follows hinv (hinv.calls call hcall) hfollows

/-- Every checkpoint verifies, and one of them is that of the last event. -/
structure Current (d : Deployment) (s : State) : Prop where
  cleared : Cleared d s.events s.checkpoints
  anchored : ∃ c ∈ s.checkpoints.rows, s.events.last?.map AuditRow.id = some c.lastEventId

theorem current_of_progress (hinv : AnchorInv d s) (hs : Current d s) (h : Progress d s t) :
    Current d t := by
  have hgrows := h.grows hinv
  obtain ⟨c, hc, hlast⟩ := hs.anchored
  exact ⟨hgrows.cleared hs.cleared, c, hgrows.kept c hc, by rw [h.events, hlast]⟩

theorem unanchored_of_last {head : AuditCheckpoint} (hlast : checkpoints.last? = some head) :
    (verifyLatest d.hmac d.service events checkpoints).unanchoredEvents =
      events.rows.countP fun r => head.lastEventId < r.id := by
  unfold verifyLatest
  simp only [hlast]
  split
  · rfl
  · split <;> rfl

/-- Then `verify_latest` is intact, and there is nothing it has not anchored. -/
theorem Current.verify (h : Current d s) :
    (verifyLatest d.hmac d.service s.events s.checkpoints).intact = true ∧
      (verifyLatest d.hmac d.service s.events s.checkpoints).unanchoredEvents = 0 := by
  obtain ⟨c, hc, hevent⟩ := h.anchored
  obtain ⟨head, hhead⟩ : ∃ head, s.checkpoints.last? = some head := by
    cases hlast : s.checkpoints.last? with
    | none =>
        have hempty : s.checkpoints.rows = [] := List.getLast?_eq_none_iff.mp hlast
        rw [hempty] at hc
        cases hc
    | some head => exact ⟨head, rfl⟩
  refine ⟨intact_of_reasonIn hhead h.cleared, ?_⟩
  rw [unanchored_of_last hhead]
  apply List.countP_eq_zero.mpr
  intro r hr
  obtain ⟨latest, hlatest, hid⟩ := Option.map_eq_some_iff.mp hevent
  have hr : r.id ≤ latest.id := by
    rcases KeyedTable.eq_or_lt_last hlatest hr with rfl | hlt
    · exact le_refl _
    · exact le_of_lt hlt
  have hc : c.lastEventId ≤ head.lastEventId := by
    rcases KeyedTable.eq_or_lt_last hhead hc with rfl | hlt
    · exact le_refl _
    · exact le_of_lt hlt
  simp only [decide_eq_true_eq]
  omega

theorem persist_ok {e : AuditCheckpoint} (h : (persist d x checkpoints c).2 = .ok e) :
    e ∈ (persist d x checkpoints c).1.rows ∧ e.lastEventId = c.lastEventId := by
  unfold persist at h ⊢
  split at h
  · exact commitAnchor_ok h
  · cases h
  · cases h

/-- A checkpoint is returned by the last `SELECT` or by the `INSERT`. -/
theorem advance_checkpoint (h : (advance d s call x).2 = .checkpoint c) :
    c ∈ (advance d s call x).1.checkpoints.rows ∧
      ((∃ latest, call.phase = .read latest ∧ c.lastEventId = latest.id) ∨
        ∃ c₀, call.phase = .delivered c₀ ∧ c.lastEventId = c₀.lastEventId) := by
  unfold advance at h ⊢
  split at h
  · split at h <;> cases h
  · split at h <;> cases h
  · split at h <;> cases h
  · split at h <;> cases h
  · next latest hphase =>
    split at h
    · cases h
    · cases h
    · next c' hplan =>
      obtain ⟨hc, hid⟩ := planLatest_existing hplan
      cases h
      refine ⟨?_, .inl ⟨latest, hphase, hid⟩⟩
      rw [conclude_tables.2]
      exact hc
    · cases h
  · split at h <;> cases h
  · next c₀ hphase =>
    dsimp only at h
    split at h
    · cases h
    · next c' hcommit =>
      cases h
      have hpersisted := persist_ok hcommit
      refine ⟨?_, .inr ⟨c₀, hphase, hpersisted.2⟩⟩
      simp only [hcommit]
      rw [conclude_tables.2]
      exact hpersisted.1
  · split at h
    · unfold report at h
      dsimp only at h
      split at h <;> cases h
    · cases h

/-- So the call that returns a checkpoint leaves the tables current. -/
theorem current_of_return {worker : Nat} (hs : Latched d events worker s)
    (h : (perform d interval s (.advance worker x)).2 = .checkpoint c) :
    Current d (perform d interval s (.advance worker x)).1 := by
  have hprogress : Progress d s (perform d interval s (.advance worker x)).1 :=
    progress_of_quiet trivial
  have hgrows := hprogress.grows hs.inv
  have hevents := hprogress.events
  unfold perform at h hgrows hevents ⊢
  dsimp only at h hgrows hevents ⊢
  split at h
  · cases h
  · next call hfind =>
    simp only [hfind] at hgrows hevents ⊢
    obtain ⟨hcall, hworker⟩ := KeyedTable.find?_eq_some hfind
    have hknown := hs.inv.calls call hcall
    have htracks := hs.tracks call hcall hworker
    obtain ⟨hc, horigin⟩ := advance_checkpoint h
    refine ⟨?_, c, hc, ?_⟩
    · apply hgrows.cleared
      rcases horigin with ⟨latest, hphase, -⟩ | ⟨c₀, hphase, -⟩
      · rw [hphase] at hknown
        exact hknown.1
      · rw [hphase] at hknown
        exact hknown.1
    · rw [hevents, hs.same]
      rcases horigin with ⟨latest, hphase, hid⟩ | ⟨c₀, hphase, hid⟩
      · rw [hphase] at htracks
        have hlast : events.last? = some latest := htracks
        rw [hlast, Option.map_some, hid]
      · rw [hphase] at htracks
        rw [hid]
        exact htracks

/-! ## Runs -/

/-- The system while no event is appended and nothing is rewritten. -/
def quietSystem (d : Deployment) (interval : Int) : System State Action :=
  (anchorSystem d interval).restrict fun _ a => a.quiet

theorem latched_of_run {worker : Nat} {as : List Action} (hs : Latched d events worker s)
    (h : (quietSystem d interval).Run s as t) : Latched d events worker t := by
  refine h.preserves ?_ hs
  rintro s a t hs ⟨⟨-, rfl⟩, ha⟩
  exact latched_of_progress hs (progress_of_quiet ha)

theorem current_of_run {as : List Action} (hinv : AnchorInv d s) (hs : Current d s)
    (h : (quietSystem d interval).Run s as t) : Current d t := by
  have hboth : AnchorInv d t ∧ Current d t := by
    refine System.Run.preserves (I := fun s => AnchorInv d s ∧ Current d s) ?_ h ⟨hinv, hs⟩
    rintro s a t ⟨hinv, hs⟩ ⟨⟨-, rfl⟩, ha⟩
    have hprogress : Progress d s (perform d interval s a).1 := progress_of_quiet ha
    exact ⟨anchorInv_of_progress hinv hprogress, current_of_progress hinv hs hprogress⟩
  exact hboth.2

/-- What two calls have signed for one event is the same. -/
theorem plans_agree {call' : Call} {c c' : AuditCheckpoint} (hs : AnchorInv d s)
    (hcall : call ∈ s.calls.rows) (hcall' : call' ∈ s.calls.rows)
    (hplan : call.phase.plan? = some c) (hplan' : call'.phase.plan? = some c')
    (h : c.lastEventId = c'.lastEventId) :
    (c.id, c.rootHash, c.signature) = (c'.id, c'.rootHash, c'.signature) := by
  have hsigns : ∀ call ∈ s.calls.rows, ∀ c, call.phase.plan? = some c →
      ∃ r ∈ s.events.rows, Signs d r c := by
    intro call hcall c hplan
    have hknown := hs.calls call hcall
    unfold Phase.plan? at hplan
    split at hplan
    · next hphase =>
      cases hplan
      rw [hphase] at hknown
      exact hknown.2
    · next hphase =>
      cases hplan
      rw [hphase] at hknown
      exact hknown.2.2
    · cases hplan
  obtain ⟨r, hr, hc⟩ := hsigns call hcall c hplan
  obtain ⟨r', hr', hc'⟩ := hsigns call' hcall' c' hplan'
  obtain rfl : r = r' := KeyedTable.eq_of_key hr hr' (hc.event.trans (h.trans hc'.event.symm))
  have hroot : c.rootHash = c'.rootHash := Option.some.inj (hc.hash.symm.trans hc'.hash)
  have hcreated : c.createdAt = c'.createdAt :=
    Option.some.inj (hc.createdAt.symm.trans hc'.createdAt)
  have hfields := hc.fields
  rw [hroot, hcreated, hc'.fields] at hfields
  rw [hroot]
  exact (Option.some.inj hfields).symm

/-- **Anchoring never blesses a tampered history.** In every reachable state: a step of the
application or of a worker that adds a checkpoint finds every earlier one verified, adds one that
verifies and that the sink has acknowledged, and takes its id, root hash and signature from the id,
hash and timestamp of its event; an event has one checkpoint, and the calls in flight agree on it; a
failed delivery ends the call and adds nothing; and once a call that was about to read the latest
event returns a checkpoint, `verify_latest` is intact with nothing unanchored until an event is
appended or a table rewritten. -/
theorem checkpoint_anchoring (d : Deployment) (interval : Int) {s : State}
    (hs : (anchorSystem d interval).Reachable s) :
    (∀ a t c, a.honest → (anchorSystem d interval).step s a t → c ∈ t.checkpoints.rows →
      c ∉ s.checkpoints.rows →
      Cleared d s.events s.checkpoints ∧ Cleared d t.events t.checkpoints ∧ Receipted d c ∧
        ∃ r ∈ s.events.rows, ∃ hash createdAt, r.id = c.lastEventId ∧
          r.event.entryHash = some hash ∧ r.event.createdAt = some createdAt ∧
          checkpointFields d r.id hash createdAt = some (c.id, c.rootHash, c.signature)) ∧
    (∀ c ∈ s.checkpoints.rows, ∀ c' ∈ s.checkpoints.rows, c.lastEventId = c'.lastEventId →
      c = c') ∧
    (∀ call ∈ s.calls.rows, ∀ call' ∈ s.calls.rows, ∀ c c', call.phase.plan? = some c →
      call'.phase.plan? = some c' → c.lastEventId = c'.lastEventId →
      (c.id, c.rootHash, c.signature) = (c'.id, c'.rootHash, c'.signature)) ∧
    (∀ call ∈ s.calls.rows, ∀ c x, call.phase = .signed c → deliver d x c = none →
      (perform d interval s (.advance call.worker x)).1.checkpoints = s.checkpoints ∧
        ∀ call' ∈ (perform d interval s (.advance call.worker x)).1.calls.rows,
          call'.worker ≠ call.worker) ∧
    (∀ call ∈ s.calls.rows, call.phase = .verified → ∀ as t x c as' u,
      (quietSystem d interval).Run s as t →
      (perform d interval t (.advance call.worker x)).2 = .checkpoint c →
      (quietSystem d interval).Run (perform d interval t (.advance call.worker x)).1 as' u →
      (verifyLatest d.hmac d.service u.events u.checkpoints).intact = true ∧
        (verifyLatest d.hmac d.service u.events u.checkpoints).unanchoredEvents = 0) := by
  have hinv := anchorInv_of_reachable hs
  refine ⟨?_, ?_, ?_, ?_, ?_⟩
  · rintro a t c ha ⟨-, rfl⟩ hc hnew
    have hgrows : Grows d s (perform d interval s a).1 := grows_of_step hinv ha
    rcases hgrows.added c hc with hold | ⟨hcleared, hreceipted, r, hr, hsigns⟩
    · exact absurd hold hnew
    · refine ⟨hcleared, hgrows.cleared hcleared, hreceipted, r, hr, ?_⟩
      exact ⟨c.rootHash, c.createdAt, hsigns.event, hsigns.hash, hsigns.createdAt, hsigns.fields⟩
  · exact fun c hc c' hc' h => KeyedTable.eq_of_key hc hc' h
  · exact fun call hcall call' hcall' c c' hplan hplan' h =>
      plans_agree hinv hcall hcall' hplan hplan' h
  · intro call hcall c x hphase hdeliver
    have hfind : s.calls.find? call.worker = some call := KeyedTable.find?_of_mem hcall
    have hstep : (perform d interval s (.advance call.worker x)).1 = s.finish call.worker := by
      unfold perform advance
      simp only [hfind, hphase, hdeliver]
    rw [hstep]
    exact ⟨rfl, fun call' hcall' => (mem_finish hcall').2⟩
  · intro call hcall hphase as t x c as' u hbefore hreturn hafter
    -- no event has come since the call was about to read
    have hlatched : Latched d s.events call.worker s := by
      refine ⟨hinv, rfl, fun call' hcall' hworker => ?_⟩
      obtain rfl := KeyedTable.eq_of_key hcall' hcall hworker
      rw [hphase]
      trivial
    have hlatched : Latched d s.events call.worker t := latched_of_run hlatched hbefore
    have hcurrent := current_of_return hlatched hreturn
    have hinv' : AnchorInv d (perform d interval t (.advance call.worker x)).1 :=
      anchorInv_of_progress hlatched.inv (progress_of_quiet trivial)
    exact (current_of_run hinv' hcurrent hafter).verify

/-! ### Two workers and one failed delivery -/

def performAll (d : Deployment) (interval : Int) (s : State) (as : List Action) : State :=
  as.foldl (fun s a => (perform d interval s a).1) s

theorem run_performAll {C : Action → Prop} (hC : ∀ a, C a → a.honest) {as : List Action}
    (h : ∀ a ∈ as, C a) : ((anchorSystem d interval).restrict fun _ a => C a).Run s as
      (performAll d interval s as) := by
  induction as generalizing s with
  | nil => exact System.Run.nil
  | cons a as ih =>
      have ha : C a := h a List.mem_cons_self
      have hadmissible : Admissible d s a := by
        cases a with
        | rewrite events checkpoints => exact (hC _ ha).elim
        | _ => trivial
      exact System.Run.cons (S := (anchorSystem d interval).restrict fun _ a => C a)
        ⟨⟨hadmissible, rfl⟩, ha⟩ (ih fun b hb => h b (List.mem_cons_of_mem _ hb))

def wormDeployment : Deployment where
  hmac _ _ := ⟨List.replicate 32 7, rfl⟩
  auditKey := ⟨#[]⟩
  service := ⟨⟨#[]⟩, 0, true⟩
  uuid5 name := name
  dialect := .sqlite

def loginEvent : AuditEvent where
  actorId := none
  eventType := "auth.login"
  targetType := none
  targetId := none
  outcome := "success"
  ipAddress := none
  userAgent := none
  requestId := none
  detailsJson := "{}"
  createdAt := none
  prevHash := none
  entryHash := some (hexdigest ⟨List.replicate 32 9, rfl⟩)

def refusedBySink : Surroundings := ⟨5, none, .persisted, false⟩

def acceptedBySink : Surroundings := ⟨6, some ⟨List.replicate 32 1, rfl⟩, .persisted, false⟩

/-- Both workers have verified the earlier checkpoints, and the first has signed. -/
def beforeReading : List Action := [
  .append 1 loginEvent 3, .anchor 1, .advance 1 refusedBySink, .advance 1 refusedBySink,
  .advance 1 refusedBySink, .anchor 2, .advance 2 acceptedBySink]

/-- The first worker's delivery fails while the second one reads, signs and delivers. -/
def beforeInsert : List Action := [
  .advance 2 acceptedBySink, .advance 1 refusedBySink, .advance 2 acceptedBySink,
  .advance 2 acceptedBySink]

def sampleBefore : State :=
  performAll wormDeployment 100 ⟨.empty, .empty, .empty⟩ beforeReading

def sampleAfter : State := performAll wormDeployment 100 sampleBefore beforeInsert

/-- What the second worker's `INSERT` leaves. -/
def sampleAnchored : State × Reply :=
  perform wormDeployment 100 sampleAfter (.advance 2 acceptedBySink)

theorem reachable_sampleBefore : (anchorSystem wormDeployment 100).Reachable sampleBefore := by
  have hhonest : ∀ a ∈ beforeReading, a.honest := by simp [beforeReading, Action.honest]
  exact ⟨_, _, rfl, (run_performAll (fun _ h => h) hhonest).of_restrict⟩

theorem run_sampleAfter :
    (quietSystem wormDeployment 100).Run sampleBefore beforeInsert sampleAfter := by
  have hquiet : ∀ a ∈ beforeInsert, a.quiet := by simp [beforeInsert, Action.quiet]
  refine run_performAll (fun a ha => ?_) hquiet
  cases a <;> trivial

/-- `checkpoint_anchoring` on the run: the failed delivery adds nothing, and after the other worker's
`INSERT` the report is intact with nothing unanchored. -/
theorem checkpoint_anchoring_sample :
    sampleAnchored.1.checkpoints.rows.length = 1 ∧
      (perform wormDeployment 100 sampleBefore (.advance 1 refusedBySink)).1.checkpoints =
        sampleBefore.checkpoints ∧
      (verifyLatest wormDeployment.hmac wormDeployment.service sampleAnchored.1.events
        sampleAnchored.1.checkpoints).intact = true ∧
      (verifyLatest wormDeployment.hmac wormDeployment.service sampleAnchored.1.events
        sampleAnchored.1.checkpoints).unanchoredEvents = 0 := by
  obtain ⟨-, -, -, hfailed, hcurrent⟩ :=
    checkpoint_anchoring wormDeployment 100 reachable_sampleBefore
  have hsigned : ∃ call ∈ sampleBefore.calls.rows, call.worker = 1 ∧
      (match call.phase with | .signed _ => true | _ => false) = true := by decide +kernel
  have hverified : ∃ call ∈ sampleBefore.calls.rows, call.worker = 2 ∧
      call.phase = .verified := by decide +kernel
  have hreturn : (match sampleAnchored.2 with | .checkpoint _ => true | _ => false) = true := by
    decide +kernel
  refine ⟨by decide +kernel, ?_, ?_⟩
  · obtain ⟨call, hcall, hworker, hphase⟩ := hsigned
    split at hphase
    · next c hsigned =>
      rw [← hworker]
      exact (hfailed call hcall c refusedBySink hsigned rfl).1
    · cases hphase
  · obtain ⟨call, hcall, hworker, hphase⟩ := hverified
    split at hreturn
    · next c hreply =>
      have hrun : (quietSystem wormDeployment 100).Run sampleAnchored.1 [] sampleAnchored.1 :=
        System.Run.nil
      unfold sampleAnchored at hreply hrun ⊢
      rw [← hworker] at hreply hrun ⊢
      exact hcurrent call hcall hphase _ _ _ _ _ _ run_sampleAfter hreply hrun
    · cases hreturn

end Scap.Audit.Anchoring
