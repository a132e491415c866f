import Mathlib.Algebra.Order.Group.Int
import Scap.Intrusion.State
import Scap.Lib.SlidingWindow

/-!
# Hits and bans

The tables next to the hits of every source since its row was created. A source without a row has
no hits. Inside a transaction that record is kept detection by detection (`Tables.track`).

* `hit_spec` — the score of a source that is not banned is the weight inside the window;
* `track_spec` — one detection, for every source;
* `trackAll_spec` — the detections of a request, after the pruning.
-/

namespace Scap.Intrusion

open Scap.Py Scap.Lib SlidingWindow IntrusionDb

/-! ## Bans and hits -/

/-- The row of the source bans it until then. -/
def BannedUntil (db : IntrusionDb) (ip : String) (until_ : Int) : Prop :=
  ∃ r, db.sources.get ip = some r ∧ r.blockedUntil = some until_

/-- What `is_blocked` says. -/
def Banned (db : IntrusionDb) (now : Int) (ip : String) : Prop := (db.isBlocked now ip).1 = true

/-- The times of the hits of every source since its row was created, each as often as it weighs. -/
abbrev Recorded := String → List Int

/-- A source without a row has no hits. -/
def Recorded.kept (recorded : Recorded) (db : IntrusionDb) : Recorded := fun ip =>
  if (db.sources.get ip).isSome then recorded ip else []

/-- One more hit. -/
def Recorded.hit (recorded : Recorded) (now : Int) (d : Detection) : Recorded :=
  Function.update recorded d.sourceIp
    (recorded d.sourceIp ++ List.replicate (severityWeight d.severity) now)

/-- The tables with the hits. -/
structure Tables where
  db : IntrusionDb
  recorded : Recorded

variable (cfg : Settings) (now : Int)

def Tables.prune (s : Tables) : Tables :=
  ⟨s.db.pruneSources cfg now, s.recorded.kept (s.db.pruneSources cfg now)⟩

/-- One detection in the transaction. -/
def Tables.track (s : Tables) (d : Detection) : Tables :=
  let db := (s.db.recordLocked cfg now d).1
  ⟨db, (s.recorded.hit now d).kept db⟩

/-- The tables in the transaction after some of its detections. -/
def Tables.within (s : Tables) (ds : List Detection) : Tables :=
  ds.foldl (Tables.track cfg now) (s.prune cfg now)

/-! ## The invariant of the tables -/

/-- The row of a source against its hits. While it is not banned its score is the weight inside the
window that ended with its last hit. -/
structure SourceInv (r : Source) (hits : List Int) : Prop where
  seen : r.lastSeenAt ≤ now
  score : r.blockedUntil = none → r.scoreTimes = live cfg.block r.lastSeenAt hits ∧
    r.scoreTimes.length < cfg.blockThreshold

/-- Tables are bounded, and a row shows the hits of its source. -/
structure TablesInv (s : Tables) : Prop where
  sources_le : s.db.sources.len ≤ cfg.maxSources
  detections_le : s.db.detections.rows.length ≤ cfg.history
  ids : ∀ r ∈ s.db.detections.rows, r.id < s.db.nextId
  untracked : ∀ ip, s.db.sources.get ip = none → s.recorded ip = []
  tracked : ∀ ip r, s.db.sources.get ip = some r → SourceInv cfg now r (s.recorded ip)

variable {cfg now} {s t : Tables} {db : IntrusionDb} {later : Int} {ip : String} {d : Detection}
  {r : Source} {hits : List Int}

theorem TablesInv.mono (h : TablesInv cfg now s) (hle : now ≤ later) : TablesInv cfg later s :=
  { h with tracked := fun ip r hget => { h.tracked ip r hget with
      seen := (h.tracked ip r hget).seen.trans hle } }

theorem banned_iff : Banned db now ip ↔ ∃ until_, BannedUntil db ip until_ ∧ now < until_ := by
  unfold Banned BannedUntil IntrusionDb.isBlocked
  cases hget : db.sources.get ip with
  | none => simp
  | some r =>
      cases hblocked : r.blockedUntil with
      | none => simp [hblocked]
      | some until_ =>
          simp only [Option.bind_some, hblocked]
          split
          · next hlt => simpa [hblocked] using hlt
          · next hge => simpa [hblocked] using hge

/-! ### Deletions -/

/-- Rows can go, with what is recorded of them. -/
theorem TablesInv.filter (h : TablesInv cfg now s) (p : String × Source → Bool) :
    let db := { s.db with sources := s.db.sources.filter p }
    TablesInv cfg now ⟨db, s.recorded.kept db⟩ where
  sources_le := Dict.len_filter_le.trans h.sources_le
  detections_le := h.detections_le
  ids := h.ids
  untracked := by
    intro ip hget
    simp only [Recorded.kept, hget]
    rfl
  tracked := by
    intro ip r hget
    simp only [Recorded.kept, hget]
    replace hget : Dict.get (s.db.sources.filter p) ip = some r := hget
    rw [Dict.get_filter, Option.filter_eq_some_iff] at hget
    exact h.tracked ip r hget.1

theorem prune_inv (h : TablesInv cfg now s) : TablesInv cfg now (s.prune cfg now) := h.filter _

/-- What a pruning deletes. -/
theorem get_prune : (s.prune cfg now).db.sources.get ip = none ↔
    s.db.sources.get ip = none ∨ ∃ r, s.db.sources.get ip = some r ∧
      ((∃ until_, r.blockedUntil = some until_ ∧ until_ ≤ now) ∨
        r.blockedUntil = none ∧ r.lastSeenAt ≤ now - cfg.block) := by
  show Dict.get (s.db.sources.filter _) ip = none ↔ _
  rw [Dict.get_filter]
  cases s.db.sources.get ip with
  | none => simp
  | some r => cases hblocked : r.blockedUntil <;> simp [stale, hblocked]

/-- A pruning ends the bans that have expired and no others. -/
theorem bannedUntil_prune {until_ : Int} : BannedUntil (s.prune cfg now).db ip until_ ↔
    BannedUntil s.db ip until_ ∧ now < until_ := by
  unfold BannedUntil
  show (∃ r, Dict.get (s.db.sources.filter _) ip = some r ∧ _) ↔ _
  simp only [Dict.get_filter, Option.filter_eq_some_iff]
  constructor
  · rintro ⟨r, ⟨hget, hfresh⟩, hblocked⟩
    refine ⟨⟨r, hget, hblocked⟩, ?_⟩
    simpa [stale, hblocked] using hfresh
  · rintro ⟨⟨r, hget, hblocked⟩, hlater⟩
    refine ⟨r, ⟨hget, ?_⟩, hblocked⟩
    simpa [stale, hblocked] using hlater

/-! ### One hit -/

/-- The detections are bounded after each. -/
theorem retainDetection_inv (h : TablesInv cfg now s) :
    TablesInv cfg now ⟨s.db.retainDetection cfg d, s.recorded⟩ where
  sources_le := h.sources_le
  untracked := h.untracked
  tracked := h.tracked
  detections_le := by
    have hpos := cfg.history_pos
    unfold IntrusionDb.retainDetection
    dsimp only
    split
    · next oldest hget =>
      rw [KeyedTable.length_filter_from hget]
      omega
    · next hget =>
      have hlength := List.getElem?_eq_none_iff.mp hget
      rw [List.length_reverse] at hlength
      omega
  ids := by
    have hnew : ∀ r ∈ (s.db.detections.insertNew ⟨s.db.nextId, d.payloadJson⟩).rows,
        r.id < s.db.nextId + 1 := by
      intro r hr
      rcases KeyedTable.mem_insertNew_or hr with rfl | hr
      · exact Nat.lt_succ_self _
      · exact Nat.lt_succ_of_lt (h.ids r hr)
    unfold IntrusionDb.retainDetection
    dsimp only
    split
    · exact fun r hr => hnew r (KeyedTable.mem_filter.mp hr).1
    · exact hnew

/-- A new row has no hits. -/
theorem sourceInv_new : SourceInv cfg now ⟨[], now, none⟩ [] :=
  ⟨le_refl _, fun _ => ⟨rfl, cfg.blockThreshold_pos⟩⟩

/-- While a source is not banned its score is the weight inside the window, up to the threshold. -/
theorem hitScores_spec (h : SourceInv cfg now r hits) (hnone : r.blockedUntil = none)
    (weight : Nat) :
    let counted := live cfg.block now (hits ++ List.replicate weight now)
    (cfg.blockThreshold ≤ (hitScores cfg now r weight).length ↔
        cfg.blockThreshold ≤ counted.length) ∧
      (counted.length < cfg.blockThreshold → hitScores cfg now r weight = counted) := by
  have hreplicate : live cfg.block now (List.replicate weight now) = List.replicate weight now := by
    apply List.filter_eq_self.mpr
    intro stamp hstamp
    have := cfg.block_pos
    rw [List.eq_of_mem_replicate hstamp]
    simpa using this
  have hscore : live cfg.block now r.scoreTimes ++ List.replicate weight now =
      live cfg.block now (hits ++ List.replicate weight now) := by
    rw [(h.score hnone).1, live_live h.seen, live_append, hreplicate]
  intro counted
  have htruncated : hitScores cfg now r weight =
      counted.drop (counted.length - cfg.blockThreshold) := by
    have hscores : r.scoreTimes.filter (fun stamp => now - cfg.block < stamp) ++
        List.replicate weight now = counted := hscore
    unfold hitScores
    dsimp only
    rw [hscores]
  rw [htruncated]
  refine ⟨?_, fun hlt => ?_⟩
  · rw [List.length_drop]
    omega
  · rw [Nat.sub_eq_zero_of_le hlt.le, List.drop_zero]

/-- **The hit that bans a source is the one with which the weight inside the window reaches the
threshold.** -/
theorem hit_spec (h : SourceInv cfg now r hits) (weight : Nat) :
    ((hit cfg now r weight).2 = true ↔ r.blockedUntil = none ∧ cfg.blockThreshold ≤
      (live cfg.block now (hits ++ List.replicate weight now)).length) ∧
    (hit cfg now r weight).1.blockedUntil =
      (if (hit cfg now r weight).2 = true then some (now + cfg.block) else r.blockedUntil) ∧
    SourceInv cfg now (hit cfg now r weight).1 (hits ++ List.replicate weight now) := by
  unfold hit
  dsimp only
  split
  · next hban =>
    obtain ⟨hscore, -⟩ := hitScores_spec h hban.2 weight
    refine ⟨iff_of_true rfl ⟨hban.2, hscore.mp hban.1⟩, rfl, le_refl _, ?_⟩
    rintro ⟨⟩
  · next hban =>
    have hlow : r.blockedUntil = none →
        (live cfg.block now (hits ++ List.replicate weight now)).length < cfg.blockThreshold := by
      intro hnone
      apply not_le.mp
      intro hle
      exact hban ⟨(hitScores_spec h hnone weight).1.mpr hle, hnone⟩
    refine ⟨?_, rfl, le_refl _, ?_⟩
    · simp only [Bool.false_eq_true, false_iff]
      rintro ⟨hnone, hle⟩
      exact absurd (hlow hnone) (not_lt.mpr hle)
    · intro hnone
      have hscore := (hitScores_spec h hnone weight).2 (hlow hnone)
      dsimp only
      rw [hscore]
      exact ⟨rfl, hlow hnone⟩

/-- The row that a hit of a source goes to, in a table with room for it. -/
def rowFor (db : IntrusionDb) (now : Int) (ip : String) : Source :=
  (db.sources.get ip).getD ⟨[], now, none⟩

theorem TablesInv.rowFor (h : TablesInv cfg now s) :
    SourceInv cfg now (rowFor s.db now ip) (s.recorded ip) := by
  unfold Intrusion.rowFor
  cases hget : s.db.sources.get ip with
  | none =>
      rw [h.untracked ip hget]
      exact sourceInv_new
  | some r => exact h.tracked ip r hget

/-- A hit that goes to its row. -/
theorem recordHit_inv (h : TablesInv cfg now s)
    (hroom : s.db.sources.get d.sourceIp = none → s.db.sources.len < cfg.maxSources) :
    let db := (s.db.recordHit cfg now d (rowFor s.db now d.sourceIp)).1
    TablesInv cfg now ⟨db, (s.recorded.hit now d).kept db⟩ := by
  intro db
  have hself : db.sources.get d.sourceIp =
      some (hit cfg now (rowFor s.db now d.sourceIp) (severityWeight d.severity)).1 :=
    Dict.get_set_self
  have hother : ∀ ip, ip ≠ d.sourceIp → db.sources.get ip = s.db.sources.get ip :=
    fun ip hne => Dict.get_set_of_ne hne
  refine ⟨?_, h.detections_le, h.ids, ?_, ?_⟩
  · show (s.db.sources.set _ _).len ≤ _
    cases hget : s.db.sources.get d.sourceIp with
    | none =>
        rw [Dict.len_set_new hget]
        exact hroom hget
    | some r => exact (Dict.len_set_old hget).trans h.sources_le
  · intro ip hget
    show Recorded.kept _ db ip = []
    unfold Recorded.kept
    rw [show db.sources.get ip = none from hget]
    rfl
  · intro ip r hget
    replace hget : db.sources.get ip = some r := hget
    show SourceInv cfg now r (Recorded.kept _ db ip)
    unfold Recorded.kept Recorded.hit
    rw [hget, Option.isSome_some, if_pos rfl]
    by_cases hne : ip = d.sourceIp
    · subst hne
      rw [Function.update_self]
      obtain rfl := Option.some.inj (hself.symm.trans hget)
      exact (hit_spec h.rowFor _).2.2
    · rw [Function.update_of_ne hne]
      exact h.tracked ip r (hother ip hne ▸ hget)

/-- Where a hit goes: into the table, less a source that makes room, or nowhere. -/
theorem recordLocked_eq (h : TablesInv cfg now s) :
    (∃ p : String × Source → Bool,
      let db := { s.db.retainDetection cfg d with sources := s.db.sources.filter p }
      s.db.recordLocked cfg now d = db.recordHit cfg now d (rowFor db now d.sourceIp) ∧
      db.sources.get d.sourceIp = s.db.sources.get d.sourceIp ∧
      (db.sources.get d.sourceIp = none → db.sources.len < cfg.maxSources) ∧
      ∀ ip r, s.db.sources.get ip = some r → db.sources.get ip = some r ∨
        db.sources.get ip = none ∧ r.blockedUntil = none ∧ cfg.maxSources ≤ s.db.sources.len) ∨
    s.db.recordLocked cfg now d = (s.db.retainDetection cfg d, false) ∧
      s.db.sources.get d.sourceIp = none := by
  have hall : s.db.sources.filter (fun _ => true) = s.db.sources :=
    KeyedTable.ext (List.filter_eq_self.mpr fun _ _ => rfl)
  have hsources : (s.db.retainDetection cfg d).sources = s.db.sources := rfl
  have holdest : (s.db.retainDetection cfg d).oldestUnblocked = s.db.oldestUnblocked := rfl
  unfold IntrusionDb.recordLocked
  dsimp only
  rw [hsources, holdest]
  cases hget : s.db.sources.get d.sourceIp with
  | some source =>
      refine .inl ⟨fun _ => true, ?_⟩
      rw [hall]
      refine ⟨?_, hget, fun hnone => ?_, fun ip r hr => .inl hr⟩
      · unfold rowFor
        rw [hget]
        rfl
      · cases hget.symm.trans hnone
  | none =>
      dsimp only
      split
      swap
      · next hspace =>
        refine .inl ⟨fun _ => true, ?_⟩
        rw [hall]
        refine ⟨?_, hget, fun _ => not_le.mp hspace, fun ip r hr => .inl hr⟩
        unfold rowFor
        rw [hget]
        rfl
      next hfull =>
      split
      · exact .inr ⟨rfl, rfl⟩
      · next oldest hhead =>
        -- the oldest unblocked source makes room
        obtain ⟨hmem, hunblocked⟩ : oldest ∈ s.db.sources.rows ∧ oldest.2.blockedUntil = none := by
          have hsorted := List.mem_of_head? hhead
          simpa using (List.perm_insertionSort _ _).mem_iff.mp hsorted
        have holdget : s.db.sources.get oldest.1 = some oldest.2 := Dict.get_eq_some.mpr hmem
        have hne : d.sourceIp ≠ oldest.1 := by
          intro heq
          rw [heq, holdget] at hget
          cases hget
        have hpop : (s.db.sources.pop oldest.1).get d.sourceIp = none := by
          rw [Dict.get_pop_of_ne hne, hget]
        refine .inl ⟨fun r => r.1 ≠ oldest.1, ?_, hpop, fun _ => ?_, fun ip r hr => ?_⟩
        · unfold rowFor
          show _ = IntrusionDb.recordHit cfg _ now d
            (((s.db.sources.pop oldest.1).get d.sourceIp).getD ⟨[], now, none⟩)
          rw [hpop]
          rfl
        · exact (Dict.len_pop_lt holdget).trans_le h.sources_le
        · by_cases hip : ip = oldest.1
          · subst hip
            obtain rfl := Option.some.inj (holdget.symm.trans hr)
            exact .inr ⟨Dict.get_pop_self, hunblocked, hfull⟩
          · exact .inl ((Dict.get_pop_of_ne hip).trans hr)

/-- What one detection does. -/
structure Tracks (cfg : Settings) (now : Int) (s : Tables) (d : Detection) (t : Tables)
    (banned : Bool) : Prop where
  inv : TablesInv cfg now t
  /-- No ban ends. -/
  kept : ∀ ip until_, BannedUntil s.db ip until_ → BannedUntil t.db ip until_
  /-- The one that may begin. -/
  began : ∀ ip until_, BannedUntil t.db ip until_ → BannedUntil s.db ip until_ ∨
    banned = true ∧ ip = d.sourceIp ∧ until_ = now + cfg.block
  transition : banned = true → (∀ until_, ¬ BannedUntil s.db d.sourceIp until_) ∧
    BannedUntil t.db d.sourceIp (now + cfg.block)
  exact : (∀ until_, ¬ BannedUntil s.db d.sourceIp until_) → (banned = true ↔
    cfg.blockThreshold ≤ (live cfg.block now (t.recorded d.sourceIp)).length)
  /-- A source that loses its row is not banned, and the table was full. -/
  evicted : ∀ ip r, s.db.sources.get ip = some r → t.db.sources.get ip = none →
    r.blockedUntil = none ∧ cfg.maxSources ≤ s.db.sources.len

/-- A hit that goes to its row, in a table `m` that lacks at most an unblocked source of `s`. -/
theorem tracks_hit {m : Tables} (hm : TablesInv cfg now m)
    (hself : m.db.sources.get d.sourceIp = s.db.sources.get d.sourceIp)
    (hroom : m.db.sources.get d.sourceIp = none → m.db.sources.len < cfg.maxSources)
    (hkept : ∀ ip r, m.db.sources.get ip = some r → s.db.sources.get ip = some r)
    (hrows : ∀ ip r, s.db.sources.get ip = some r → m.db.sources.get ip = some r ∨
      m.db.sources.get ip = none ∧ r.blockedUntil = none ∧ cfg.maxSources ≤ s.db.sources.len) :
    let done := m.db.recordHit cfg now d (rowFor m.db now d.sourceIp)
    Tracks cfg now s d ⟨done.1, (m.recorded.hit now d).kept done.1⟩ done.2 := by
  intro done
  have hrow : SourceInv cfg now (rowFor m.db now d.sourceIp) (m.recorded d.sourceIp) := hm.rowFor
  obtain ⟨hban, hblocked, -⟩ := hit_spec hrow (severityWeight d.severity)
  change done.2 = true ↔ _ at hban
  change _ = if done.2 = true then _ else _ at hblocked
  have hget : done.1.sources.get d.sourceIp =
      some (hit cfg now (rowFor m.db now d.sourceIp) (severityWeight d.severity)).1 :=
    Dict.get_set_self
  have hother : ∀ ip, ip ≠ d.sourceIp → done.1.sources.get ip = m.db.sources.get ip :=
    fun ip hne => Dict.get_set_of_ne hne
  -- the row that is hit carries the ban that the table records for the source
  have hold : ∀ until_, (rowFor m.db now d.sourceIp).blockedUntil = some until_ ↔
      BannedUntil s.db d.sourceIp until_ := by
    intro until_
    unfold rowFor BannedUntil
    rw [hself]
    cases s.db.sources.get d.sourceIp <;> simp
  refine ⟨recordHit_inv hm hroom, ?_, ?_, fun htrue => ⟨fun until_ hu => ?_, ?_⟩, ?_, ?_⟩
  · intro ip until_ hu
    by_cases hne : ip = d.sourceIp
    · subst hne
      have hrow := (hold until_).mpr hu
      -- a banned source is not banned again: its ban stands as it was
      have hfalse : ¬ done.2 = true := by
        intro htrue
        rw [(hban.mp htrue).1] at hrow
        cases hrow
      rw [if_neg hfalse] at hblocked
      exact ⟨_, hget, hblocked.trans hrow⟩
    · obtain ⟨r, hr, hrblocked⟩ := hu
      rcases hrows ip r hr with hstay | ⟨-, hunblocked, -⟩
      · exact ⟨r, (hother ip hne).trans hstay, hrblocked⟩
      · rw [hunblocked] at hrblocked
        cases hrblocked
  · rintro ip until_ ⟨r, hr, hrblocked⟩
    by_cases hne : ip = d.sourceIp
    · subst hne
      obtain rfl := Option.some.inj (hget.symm.trans hr)
      rw [hblocked] at hrblocked
      split at hrblocked
      · next htrue => exact .inr ⟨htrue, rfl, (Option.some.inj hrblocked).symm⟩
      · exact .inl ((hold until_).mp hrblocked)
    · exact .inl ⟨r, hkept ip r (hother ip hne ▸ hr), hrblocked⟩
  · have hrow := (hold until_).mpr hu
    rw [(hban.mp htrue).1] at hrow
    cases hrow
  · rw [if_pos htrue] at hblocked
    exact ⟨_, hget, hblocked⟩
  · intro hunbanned
    have hrow : (rowFor m.db now d.sourceIp).blockedUntil = none := by
      apply Option.eq_none_iff_forall_ne_some.mpr
      intro until_ hu
      exact hunbanned until_ ((hold until_).mp hu)
    have hhits : (m.recorded.hit now d).kept done.1 d.sourceIp =
        m.recorded d.sourceIp ++ List.replicate (severityWeight d.severity) now := by
      unfold Recorded.kept Recorded.hit
      rw [hget, Option.isSome_some, if_pos rfl, Function.update_self]
    rw [hban]
    dsimp only
    rw [hhits]
    simp [hrow]
  · intro ip r hr hgone
    by_cases hne : ip = d.sourceIp
    · subst hne
      cases hget.symm.trans hgone
    · rcases hrows ip r hr with hstay | ⟨-, hevicted⟩
      · cases ((hother ip hne).trans hstay).symm.trans hgone
      · exact hevicted

/-- A detection whose source gets no row. -/
theorem tracks_nothing (h : TablesInv cfg now s) (hnone : s.db.sources.get d.sourceIp = none) :
    Tracks cfg now s d ⟨s.db.retainDetection cfg d,
      (s.recorded.hit now d).kept (s.db.retainDetection cfg d)⟩ false := by
  have hretained := retainDetection_inv (d := d) h
  have hempty : (s.recorded.hit now d).kept (s.db.retainDetection cfg d) d.sourceIp = [] := by
    unfold Recorded.kept
    rw [show (s.db.retainDetection cfg d).sources = s.db.sources from rfl, hnone]
    rfl
  refine ⟨⟨h.sources_le, hretained.detections_le, hretained.ids, ?_, ?_⟩, fun _ _ hu => hu,
    fun _ _ hu => .inl hu, ?_, ?_, ?_⟩
  · intro ip hgone
    replace hgone : s.db.sources.get ip = none := hgone
    show Recorded.kept _ (s.db.retainDetection cfg d) ip = []
    unfold Recorded.kept
    rw [show (s.db.retainDetection cfg d).sources = s.db.sources from rfl, hgone]
    rfl
  · intro ip r hr
    replace hr : s.db.sources.get ip = some r := hr
    have hne : ip ≠ d.sourceIp := by
      rintro rfl
      cases hr.symm.trans hnone
    show SourceInv cfg now r (Recorded.kept _ (s.db.retainDetection cfg d) ip)
    unfold Recorded.kept Recorded.hit
    rw [show (s.db.retainDetection cfg d).sources = s.db.sources from rfl, hr, Option.isSome_some,
      if_pos rfl, Function.update_of_ne hne]
    exact h.tracked ip r hr
  · rintro ⟨⟩
  · intro _
    dsimp only
    rw [hempty]
    simpa using cfg.blockThreshold_pos.ne'
  · intro ip r hr hgone
    cases hr.symm.trans hgone

/-- **One detection.** -/
theorem track_spec (h : TablesInv cfg now s) :
    Tracks cfg now s d (s.track cfg now d) (s.db.recordLocked cfg now d).2 := by
  rcases recordLocked_eq (d := d) h with ⟨p, heq, hself, hroom, hrows⟩ | ⟨heq, hnone⟩
  swap
  · unfold Tables.track
    rw [heq]
    exact tracks_nothing h hnone
  let m : Tables := ⟨{ s.db.retainDetection cfg d with sources := s.db.sources.filter p },
    s.recorded.kept { s.db.retainDetection cfg d with sources := s.db.sources.filter p }⟩
  replace heq : s.db.recordLocked cfg now d =
    m.db.recordHit cfg now d (rowFor m.db now d.sourceIp) := heq
  replace hself : m.db.sources.get d.sourceIp = s.db.sources.get d.sourceIp := hself
  have hm : TablesInv cfg now m := (retainDetection_inv h).filter p
  have hkept : ∀ ip r, m.db.sources.get ip = some r → s.db.sources.get ip = some r := by
    intro ip r hr
    replace hr : Dict.get (s.db.sources.filter p) ip = some r := hr
    rw [Dict.get_filter, Option.filter_eq_some_iff] at hr
    exact hr.1
  have hspec := tracks_hit hm hself hroom hkept hrows
  -- what is recorded of a source that went goes with it, before the hit or after
  have hrecorded : ∀ db : IntrusionDb, (∀ ip, ip ≠ d.sourceIp →
      db.sources.get ip = m.db.sources.get ip) →
        (s.recorded.hit now d).kept db = (m.recorded.hit now d).kept db := by
    intro db hother
    funext ip
    unfold Recorded.kept Recorded.hit
    by_cases hne : ip = d.sourceIp
    · subst hne
      have hsame : m.recorded d.sourceIp = s.recorded d.sourceIp := by
        show s.recorded.kept m.db d.sourceIp = _
        unfold Recorded.kept
        rw [hself]
        split
        · rfl
        · next huntracked =>
          exact (h.untracked _ (by simpa using huntracked)).symm
      simp only [Function.update_self, hsame]
    · simp only [Function.update_of_ne hne, hother ip hne]
      split
      · next htracked =>
        show _ = s.recorded.kept m.db ip
        unfold Recorded.kept
        rw [if_pos htracked]
      · rfl
  unfold Tables.track
  rw [heq]
  dsimp only at hspec ⊢
  rw [hrecorded _ fun ip hne => Dict.get_set_of_ne hne]
  exact hspec

/-! ### All of a request -/

/-- What the detections of a request do after the pruning. -/
structure TracksAll (cfg : Settings) (now : Int) (s t : Tables) (banned : Bool) : Prop where
  inv : TablesInv cfg now t
  kept : ∀ ip until_, BannedUntil s.db ip until_ → BannedUntil t.db ip until_
  began : ∀ ip until_, BannedUntil t.db ip until_ → BannedUntil s.db ip until_ ∨
    until_ = now + cfg.block
  transition : banned = true ↔
    ∃ ip, (∀ until_, ¬ BannedUntil s.db ip until_) ∧ ∃ until_, BannedUntil t.db ip until_

theorem trackAll_spec (h : TablesInv cfg now s) (ds : List Detection) :
    (recordAll cfg now s.db ds).1 = (ds.foldl (Tables.track cfg now) s).db ∧
      TracksAll cfg now s (ds.foldl (Tables.track cfg now) s) (recordAll cfg now s.db ds).2 := by
  induction ds generalizing s with
  | nil =>
      refine ⟨rfl, h, fun _ _ hu => hu, fun _ _ hu => .inl hu, ?_⟩
      simp only [recordAll, List.foldl_nil, Bool.false_eq_true, false_iff]
      rintro ⟨ip, hnot, until_, hu⟩
      exact hnot until_ hu
  | cons d ds ih =>
      have hfirst := track_spec (d := d) h
      obtain ⟨hdb, hrest⟩ := ih hfirst.inv
      rw [List.foldl_cons]
      refine ⟨hdb, hrest.inv, fun ip u hu => hrest.kept ip u (hfirst.kept ip u hu), ?_, ?_⟩
      · intro ip until_ hu
        rcases hrest.began ip until_ hu with hu | hu
        · rcases hfirst.began ip until_ hu with hu | ⟨-, -, hu⟩
          · exact .inl hu
          · exact .inr hu
        · exact .inr hu
      · show ((s.db.recordLocked cfg now d).2 || (recordAll cfg now (s.track cfg now d).db ds).2) =
          true ↔ _
        rw [Bool.or_eq_true, hrest.transition]
        constructor
        · rintro (hban | ⟨ip, hnot, until_, hu⟩)
          · obtain ⟨hnot, hu⟩ := hfirst.transition hban
            exact ⟨d.sourceIp, hnot, _, hrest.kept _ _ hu⟩
          · exact ⟨ip, fun u hu => hnot u (hfirst.kept ip u hu), until_, hu⟩
        · rintro ⟨ip, hnot, until_, hu⟩
          by_cases hban : (s.db.recordLocked cfg now d).2 = true
          · exact .inl hban
          · refine .inr ⟨ip, fun u hu' => ?_, until_, hu⟩
            rcases hfirst.began ip u hu' with hold | ⟨htrue, -, -⟩
            · exact hnot u hold
            · exact hban htrue

end Scap.Intrusion
