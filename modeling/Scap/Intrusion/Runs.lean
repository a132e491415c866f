import Scap.Intrusion.Bans
import Scap.Lib.Run

/-!
# What the shared intrusion state remembers

Runs of `record_many`, `unblock` and `is_blocked` at the readings of a clock that does not go back.
`TablesInv` holds in every reachable state (`inv_of_reachable`), and with it the hits that are
recorded next to the tables decide who is banned (`intrusion_state_invariant`).
-/

namespace Scap.Intrusion

open Scap.Py Scap.Lib SlidingWindow IntrusionDb

/-! ## Calls -/

/-- A call, at a reading of the clock. -/
inductive Call where
  | recordMany (now : Int) (ds : List Detection)
  | unblock (now : Int) (sourceIp : String)
  | isBlocked (now : Int) (sourceIp : String)
  deriving DecidableEq, Repr

def Call.now : Call → Int
  | .recordMany now _ | .unblock now _ | .isBlocked now _ => now

/-- The tables and the last reading of the clock. -/
structure Monitor where
  tables : Tables
  clock : Int

/-- The tables after a call. -/
def Tables.after (cfg : Settings) (s : Tables) : Call → Tables
  | .recordMany now ds =>
      ⟨(s.db.recordMany cfg now ds).1,
        if ds.isEmpty then s.recorded else (s.within cfg now ds).recorded⟩
  | .unblock now ip => ⟨(s.db.unblock now ip).1, s.recorded.kept (s.db.unblock now ip).1⟩
  | .isBlocked _ _ => s

def stepMonitor (cfg : Settings) (s : Monitor) (c : Call) : Option Monitor :=
  if c.now < s.clock then none else some ⟨s.tables.after cfg c, c.now⟩

/-- Empty tables. -/
def Monitor.Initial (s : Monitor) : Prop :=
  s.tables.db.detections = .empty ∧ s.tables.db.sources = .empty ∧ s.tables.recorded = fun _ => []

def intrusionSystem (cfg : Settings) : System Monitor Call :=
  System.ofFun Monitor.Initial (stepMonitor cfg)

variable {cfg : Settings} {now : Int} {ip : String} {s : Tables} {m n : Monitor} {c : Call}
  {cs : List Call} {ds : List Detection}

/-! ## The invariant -/

/-- A request in the transaction: the pruning, and every detection. -/
theorem within_spec (h : TablesInv cfg now s) (hds : ds ≠ []) :
    (s.db.recordMany cfg now ds).1 = (s.within cfg now ds).db ∧
      TracksAll cfg now (s.prune cfg now) (s.within cfg now ds) (s.db.recordMany cfg now ds).2 := by
  unfold IntrusionDb.recordMany
  rw [if_neg (by simpa using hds)]
  exact trackAll_spec (prune_inv h) ds

theorem after_inv (h : TablesInv cfg c.now s) : TablesInv cfg c.now (s.after cfg c) := by
  cases c with
  | recordMany now ds =>
      replace h : TablesInv cfg now s := h
      cases hds : ds with
      | nil => exact h
      | cons d ds' =>
          have hne : d :: ds' ≠ [] := List.cons_ne_nil d ds'
          obtain ⟨hdb, hspec⟩ := within_spec h hne
          show TablesInv cfg now ⟨(s.db.recordMany cfg now (d :: ds')).1, _⟩
          rw [hdb]
          exact hspec.inv
  | unblock now ip =>
      show TablesInv cfg now ⟨(s.db.unblock now ip).1, s.recorded.kept (s.db.unblock now ip).1⟩
      unfold IntrusionDb.unblock
      split
      · have hsame : s.recorded.kept s.db = s.recorded := by
          funext ip
          unfold Recorded.kept
          split
          · rfl
          · next huntracked => exact (h.untracked ip (by simpa using huntracked)).symm
        dsimp only
        rw [hsame]
        exact h
      · exact h.filter _
  | isBlocked now ip => exact h

theorem inv_of_initial (h : m.Initial) : TablesInv cfg m.clock m.tables := by
  obtain ⟨hdetections, hsources, hrecorded⟩ := h
  refine ⟨?_, ?_, ?_, fun ip _ => by rw [hrecorded], ?_⟩
  · rw [hsources]
    exact Nat.zero_le _
  · rw [hdetections]
    exact Nat.zero_le _
  · rw [hdetections]
    intro r hr
    cases hr
  · intro ip r hr
    rw [hsources] at hr
    cases hr

theorem step_eq (h : (intrusionSystem cfg).step m c n) :
    m.clock ≤ c.now ∧ n = ⟨m.tables.after cfg c, c.now⟩ := by
  obtain ⟨hlater, rfl⟩ := of_guarded h
  exact ⟨not_lt.mp hlater, rfl⟩

theorem inv_step (hm : TablesInv cfg m.clock m.tables) (h : (intrusionSystem cfg).step m c n) :
    TablesInv cfg n.clock n.tables := by
  obtain ⟨hle, rfl⟩ := step_eq h
  exact after_inv (hm.mono hle)

theorem inv_of_reachable (h : (intrusionSystem cfg).Reachable m) :
    TablesInv cfg m.clock m.tables := by
  apply h.induct (I := fun m => TablesInv cfg m.clock m.tables)
  · exact fun _ => inv_of_initial
  · exact fun _ _ _ _ hm hstep => inv_step hm hstep

/-- A call leaves a ban that has not expired, unless it lifts it. -/
theorem bannedUntil_after {until_ : Int} (h : TablesInv cfg c.now s) (hban : BannedUntil s.db ip until_)
    (hlater : c.now < until_) (hc : ∀ now, c ≠ .unblock now ip) :
    BannedUntil (s.after cfg c).db ip until_ := by
  cases c with
  | recordMany now ds =>
      replace h : TablesInv cfg now s := h
      by_cases hds : ds = []
      · subst hds
        exact hban
      · obtain ⟨hdb, hspec⟩ := within_spec h hds
        show BannedUntil (s.db.recordMany cfg now ds).1 ip until_
        rw [hdb]
        exact hspec.kept ip until_ (bannedUntil_prune.mpr ⟨hban, hlater⟩)
  | unblock now other =>
      have hne : ip ≠ other := by
        rintro rfl
        exact hc now rfl
      show BannedUntil (s.db.unblock now other).1 ip until_
      unfold IntrusionDb.unblock
      split
      · exact hban
      · obtain ⟨r, hr, hblocked⟩ := hban
        exact ⟨r, (Dict.get_pop_of_ne hne).trans hr, hblocked⟩
  | isBlocked now ip => exact hban

theorem bannedUntil_of_run {until_ : Int} (hm : TablesInv cfg m.clock m.tables)
    (h : (intrusionSystem cfg).Run m cs n) (hban : BannedUntil m.tables.db ip until_)
    (hcs : ∀ now, Call.unblock now ip ∉ cs) (hlater : n.clock < until_) :
    BannedUntil n.tables.db ip until_ := by
  have hall : TablesInv cfg n.clock n.tables ∧ BannedUntil n.tables.db ip until_ := by
    induction h with
    | nil => exact ⟨hm, hban⟩
    | @snoc cs c n k hrun hlast ih =>
        obtain ⟨hle, rfl⟩ := step_eq hlast
        obtain ⟨hn, hu⟩ := ih (fun now hmem => hcs now (by simp [hmem])) (hle.trans_lt hlater)
        refine ⟨after_inv (hn.mono hle), bannedUntil_after (hn.mono hle) hu hlater ?_⟩
        rintro now rfl
        exact hcs now (by simp)
  exact hall.2

/-- **What the shared intrusion state remembers**, in every run. The tables are bounded. A ban
that has not expired ends by `unblock` only. In a request a detection bans its source, if that was
not banned, just when the weight inside the window that is recorded since its row was created has
reached the threshold; and `record_many` says whether some source became banned. A row ends by the
expiry of its ban, by inactivity, or unbanned in a full table. -/
theorem intrusion_state_invariant (hm : (intrusionSystem cfg).Reachable m) :
    (m.tables.db.sources.len ≤ cfg.maxSources ∧
      m.tables.db.detections.rows.length ≤ cfg.history) ∧
    (∀ ip until_ cs n, BannedUntil m.tables.db ip until_ → (intrusionSystem cfg).Run m cs n →
      (∀ now, Call.unblock now ip ∉ cs) → n.clock < until_ → BannedUntil n.tables.db ip until_) ∧
    ∀ now ds, m.clock ≤ now → ds ≠ [] →
      ((m.tables.db.recordMany cfg now ds).1 = (m.tables.within cfg now ds).db ∧
        ((m.tables.db.recordMany cfg now ds).2 = true ↔ ∃ ip, ¬ Banned m.tables.db now ip ∧
          Banned (m.tables.db.recordMany cfg now ds).1 now ip)) ∧
      (∀ before d rest, ds = before ++ d :: rest →
        let s := m.tables.within cfg now before
        let t := m.tables.within cfg now (before ++ [d])
        (¬ Banned s.db now d.sourceIp → (Banned t.db now d.sourceIp ↔
          cfg.blockThreshold ≤ (live cfg.block now (t.recorded d.sourceIp)).length)) ∧
        ∀ ip r, s.db.sources.get ip = some r → t.db.sources.get ip = none →
          r.blockedUntil = none ∧ cfg.maxSources ≤ s.db.sources.len) ∧
      ∀ ip r, m.tables.db.sources.get ip = some r →
        (m.tables.prune cfg now).db.sources.get ip = none →
          (∃ until_, r.blockedUntil = some until_ ∧ until_ ≤ now) ∨
            r.blockedUntil = none ∧ r.lastSeenAt ≤ now - cfg.block := by
  have hinv := inv_of_reachable hm
  refine ⟨⟨hinv.sources_le, hinv.detections_le⟩, fun ip until_ cs n hban hrun hcs hlater =>
    bannedUntil_of_run hinv hrun hban hcs hlater, ?_⟩
  intro now ds hle hds
  have hnow := hinv.mono hle
  -- in the transaction every ban is one that has not expired
  have hbanned : ∀ ds ip, Banned (m.tables.within cfg now ds).db now ip ↔
      ∃ until_, BannedUntil (m.tables.within cfg now ds).db ip until_ := by
    intro ds ip
    obtain ⟨-, hspec⟩ := trackAll_spec (prune_inv hnow) ds
    rw [banned_iff]
    constructor
    · rintro ⟨until_, hu, -⟩
      exact ⟨until_, hu⟩
    · rintro ⟨until_, hu⟩
      refine ⟨until_, hu, ?_⟩
      rcases hspec.began ip until_ hu with hold | rfl
      · exact (bannedUntil_prune.mp hold).2
      · have := cfg.block_pos
        omega
  have hpruned : ∀ ip, (∃ until_, BannedUntil (m.tables.prune cfg now).db ip until_) ↔
      Banned m.tables.db now ip := by
    intro ip
    rw [banned_iff]
    exact exists_congr fun until_ => bannedUntil_prune
  refine ⟨?_, ?_, ?_⟩
  · obtain ⟨hdb, hspec⟩ := within_spec hnow hds
    refine ⟨hdb, ?_⟩
    rw [hspec.transition, hdb]
    apply exists_congr
    intro ip
    rw [hbanned, ← hpruned, not_exists]
  · intro before d rest _ s t
    have hs : TablesInv cfg now s := (trackAll_spec (prune_inv hnow) before).2.inv
    have ht : t = s.track cfg now d := List.foldl_concat ..
    have hspec := track_spec (d := d) hs
    rw [← ht] at hspec
    refine ⟨fun hnot => ?_, hspec.evicted⟩
    rw [hbanned, not_exists] at hnot
    rw [hbanned, ← hspec.exact hnot]
    constructor
    · rintro ⟨until_, hu⟩
      rcases hspec.began _ _ hu with hold | ⟨htrue, -, -⟩
      · exact absurd hold (hnot until_)
      · exact htrue
    · intro htrue
      exact ⟨_, (hspec.transition htrue).2⟩
  · intro ip r hr hgone
    rcases get_prune.mp hgone with hnone | ⟨r', hr', hstale⟩
    · cases hr.symm.trans hnone
    · obtain rfl := Option.some.inj (hr.symm.trans hr')
      exact hstale

/-! ### One source in a table for one -/

def sampleSettings : Settings :=
  ⟨3, 900, 2, 1, by decide, by decide, Nat.two_pos, Nat.one_pos⟩

def sampleMonitor : Monitor := ⟨⟨⟨.empty, 1, .empty⟩, fun _ => []⟩, 0⟩

def sampleHit (ip : String) : Detection := ⟨ip, "high", "{}"⟩

/-- After a hit that bans its source. -/
def sampleBanned : Monitor :=
  (stepMonitor sampleSettings sampleMonitor (.recordMany 5 [sampleHit "203.0.113.7"])).getD
    sampleMonitor

/-- Another source is recorded, finds no room, and the ban stays. -/
theorem intrusion_state_invariant_sample :
    (sampleBanned.tables.db.recordMany sampleSettings 9 [sampleHit "203.0.113.8"]).2 = false ∧
      (¬ ∃ ip, ¬ Banned sampleBanned.tables.db 9 ip ∧ Banned
        (sampleBanned.tables.db.recordMany sampleSettings 9 [sampleHit "203.0.113.8"]).1 9 ip) ∧
      sampleBanned.tables.db.sources.len ≤ 1 := by
  have hreachable : (intrusionSystem sampleSettings).Reachable sampleBanned := by
    refine ⟨sampleMonitor, [.recordMany 5 [sampleHit "203.0.113.7"]], ⟨rfl, rfl, rfl⟩, ?_⟩
    apply System.Run.single
    show stepMonitor _ _ _ = some sampleBanned
    rfl
  have hfalse : (sampleBanned.tables.db.recordMany sampleSettings 9
      [sampleHit "203.0.113.8"]).2 = false := by decide +kernel
  obtain ⟨⟨hlen, -⟩, -, hrequest⟩ := intrusion_state_invariant hreachable
  obtain ⟨⟨-, htransition⟩, -⟩ := hrequest 9 [sampleHit "203.0.113.8"] (by decide) (by simp)
  refine ⟨hfalse, ?_, hlen⟩
  rw [← htransition, hfalse]
  decide

end Scap.Intrusion
