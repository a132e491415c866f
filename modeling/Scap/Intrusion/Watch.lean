import Mathlib.Algebra.Order.Group.Int
import Scap.Intrusion.State
import Scap.Lib.SlidingWindow

/-!
# Watching a source

What an intrusion state is about, without when it forgets: for every source until when it is banned,
and the times of its hits that count. Both states of the application implement it.

* `Watch.counted_counted` — it makes no difference when somebody looked in between;
* `watch_recordMany`, `isBlocked_watch`, `watch_unblock` — the tables implement it, below their
  capacity.
-/

namespace Scap.Intrusion

open Scap.Py Scap.Lib SlidingWindow

/-- What there is against a source. -/
structure Watch where
  bannedUntil : Option Int
  scores : List Int
  deriving DecidableEq, Repr

namespace Watch

variable (cfg : Settings) (now : Int) (w : Watch)

def clear : Watch := ⟨none, []⟩

/-- What of it counts at a moment. A ban that was served starts afresh. -/
def counted : Watch :=
  if w.bannedUntil.any fun until_ => until_ ≤ now then clear
  else { w with scores := live cfg.block now w.scores }

/-- What of it counts after a hit, and whether the hit bans the source. -/
def hit (weight : Nat) : Watch × Bool :=
  let scores := w.scores ++ List.replicate weight now
  let scores := scores.drop (scores.length - cfg.blockThreshold)
  if cfg.blockThreshold ≤ scores.length ∧ w.bannedUntil = none then
    (⟨some (now + cfg.block), scores⟩, true)
  else (⟨w.bannedUntil, scores⟩, false)

/-- Whether the source is banned, and for how many seconds. -/
def isBlocked : Bool × Int :=
  match w.bannedUntil with
  | some until_ => (true, max 1 ((until_ - now) / 1000000))
  | none => (false, 0)

variable {cfg now w} {later : Int} {weight : Nat}

@[simp] theorem counted_clear : clear.counted cfg now = clear := rfl

theorem counted_of_served {until_ : Int} (h : w.bannedUntil = some until_) (hle : until_ ≤ now) :
    w.counted cfg now = clear := by
  unfold Watch.counted
  rw [h, if_pos (by simpa using hle)]

theorem counted_of_live (h : ∀ until_, w.bannedUntil = some until_ → now < until_) :
    w.counted cfg now = ⟨w.bannedUntil, live cfg.block now w.scores⟩ := by
  unfold Watch.counted
  rw [if_neg]
  cases hban : w.bannedUntil with
  | none => simp
  | some until_ => simpa using h until_ hban

/-- What counts does not depend on when somebody looked before. -/
theorem counted_counted (h : now ≤ later) :
    (w.counted cfg now).counted cfg later = w.counted cfg later := by
  cases hban : w.bannedUntil with
  | none =>
      -- only the scores can go
      have hno : ∀ now, ∀ until_, w.bannedUntil = some until_ → now < until_ := by simp [hban]
      rw [counted_of_live (hno now), counted_of_live (hno later), counted_of_live (by simp [hban])]
      simp only [live_live h]
  | some until_ =>
      by_cases hserved : until_ ≤ now
      · rw [counted_of_served hban hserved, counted_of_served hban (hserved.trans h),
          counted_clear]
      · have hlive : w.counted cfg now = ⟨some until_, live cfg.block now w.scores⟩ := by
          rw [counted_of_live, hban]
          intro u hu
          obtain rfl := Option.some.inj (hban.symm.trans hu)
          exact not_le.mp hserved
        rw [hlive]
        unfold Watch.counted
        simp only [hban, live_live h]

theorem scores_hit_sublist :
    (w.hit cfg now weight).1.scores.Sublist (w.scores ++ List.replicate weight now) := by
  unfold Watch.hit
  dsimp only
  split
  · exact List.drop_sublist _ _
  · exact List.drop_sublist _ _

/-- All of it counts. -/
structure Current (cfg : Settings) (now : Int) (w : Watch) : Prop where
  ban : ∀ until_, w.bannedUntil = some until_ → now < until_
  scores : ∀ t ∈ w.scores, now - cfg.block < t

theorem Current.counted_eq (h : w.Current cfg now) : w.counted cfg now = w := by
  rw [counted_of_live h.ban]
  have hscores : live cfg.block now w.scores = w.scores :=
    List.filter_eq_self.mpr fun t ht => decide_eq_true (h.scores t ht)
  rw [hscores]

theorem current_counted : (w.counted cfg now).Current cfg now := by
  unfold Watch.counted
  split
  · exact ⟨by simp [clear], by simp [clear]⟩
  · next hlive =>
    refine ⟨fun until_ hu => ?_, fun t ht => (mem_live.mp ht).2⟩
    replace hu : w.bannedUntil = some until_ := hu
    rw [hu] at hlive
    simpa using hlive

theorem Current.hit (h : w.Current cfg now) : (w.hit cfg now weight).1.Current cfg now := by
  have hpos := cfg.block_pos
  constructor
  · intro until_ hu
    unfold Watch.hit at hu
    dsimp only at hu
    split at hu
    · obtain rfl := Option.some.inj hu
      omega
    · exact h.ban until_ hu
  · intro t ht
    rcases List.mem_append.mp (scores_hit_sublist.subset ht) with ht | ht
    · exact h.scores t ht
    · obtain rfl := List.eq_of_mem_replicate ht
      omega

end Watch

/-! ## All sources -/

/-- What there is against every source. -/
abbrev Watches := String → Watch

/-- A hit of a source. -/
def Watches.record (cfg : Settings) (now : Int) (ws : Watches) (d : Detection) : Watches × Bool :=
  let (w, blocked) := (ws d.sourceIp).hit cfg now (severityWeight d.severity)
  (Function.update ws d.sourceIp w, blocked)

/-- A source is forgiven; whether it was banned. -/
def Watches.unblock (ws : Watches) (ip : String) : Watches × Bool :=
  (Function.update ws ip .clear, (ws ip).bannedUntil.isSome)

variable {cfg : Settings} {now : Int} {ws : Watches} {d : Detection} {ip other : String}

theorem Watches.record_apply : (ws.record cfg now d).1 ip =
    if ip = d.sourceIp then ((ws d.sourceIp).hit cfg now (severityWeight d.severity)).1
    else ws ip := Function.update_apply ..

theorem Watches.unblock_apply :
    (ws.unblock ip).1 other = if other = ip then .clear else ws other := Function.update_apply ..

/-! ## The tables -/

namespace IntrusionDb

/-- What the row of a source says. -/
def raw (db : IntrusionDb) (ip : String) : Watch :=
  match db.sources.get ip with
  | some r => ⟨r.blockedUntil, r.scoreTimes⟩
  | none => .clear

/-- What of it counts. -/
def watch (cfg : Settings) (now : Int) (db : IntrusionDb) : Watches :=
  fun ip => (db.raw ip).counted cfg now

/-- A row was last seen at its last hit. -/
def Seen (now : Int) (db : IntrusionDb) : Prop :=
  ∀ ip r, db.sources.get ip = some r → r.lastSeenAt ≤ now ∧ ∀ t ∈ r.scoreTimes, t ≤ r.lastSeenAt

variable {cfg : Settings} {db : IntrusionDb} {now later : Int} {ip : String} {d : Detection}
  {source : Source}

theorem raw_of_get {r : Source} (h : db.sources.get ip = some r) :
    db.raw ip = ⟨r.blockedUntil, r.scoreTimes⟩ := by
  unfold raw
  rw [h]

theorem raw_of_none (h : db.sources.get ip = none) : db.raw ip = .clear := by
  unfold raw
  rw [h]

/-- What is pruned does not count. -/
theorem prune_spec (cfg : Settings) (hseen : db.Seen now) :
    (db.pruneSources cfg now).watch cfg now = db.watch cfg now ∧
      (db.pruneSources cfg now).Seen now ∧
      ∀ ip until_, ((db.pruneSources cfg now).raw ip).bannedUntil = some until_ → now < until_ := by
  have hget : ∀ ip, (db.pruneSources cfg now).sources.get ip =
      (db.sources.get ip).filter fun r => !stale cfg now (ip, r) := fun ip => Dict.get_filter
  refine ⟨?_, ?_, ?_⟩
  · funext ip
    unfold watch
    cases hr : db.sources.get ip with
    | none =>
        have hnone := hget ip
        rw [hr] at hnone
        rw [raw_of_none hr, raw_of_none hnone]
    | some r =>
        have hpruned := hget ip
        rw [hr] at hpruned
        cases hstale : stale cfg now (ip, r) with
        | false =>
            simp only [Option.filter_some, hstale, Bool.not_false, if_true] at hpruned
            rw [raw_of_get hr, raw_of_get hpruned]
        | true =>
            simp only [Option.filter_some, hstale, Bool.not_true, Bool.false_eq_true,
              if_false] at hpruned
            rw [raw_of_get hr, raw_of_none hpruned, Watch.counted_clear]
            unfold stale at hstale
            symm
            -- either the ban was served, or all scores have left the window
            cases hban : r.blockedUntil with
            | some until_ =>
                simp only [hban, decide_eq_true_eq] at hstale
                exact Watch.counted_of_served rfl hstale
            | none =>
                simp only [hban, decide_eq_true_eq] at hstale
                rw [Watch.counted_of_live (by simp)]
                have hnothing : live cfg.block now r.scoreTimes = [] :=
                  live_eq_nil fun t ht => ((hseen ip r hr).2 t ht).trans hstale
                dsimp only
                rw [hnothing]
                rfl
  · intro ip r hr
    rw [hget, Option.filter_eq_some_iff] at hr
    exact hseen ip r hr.1
  · intro ip until_ hu
    cases hpruned : (db.pruneSources cfg now).sources.get ip with
    | none =>
        rw [raw_of_none hpruned] at hu
        cases hu
    | some r =>
        rw [raw_of_get hpruned] at hu
        replace hu : r.blockedUntil = some until_ := hu
        rw [hget, Option.filter_eq_some_iff] at hpruned
        have hfresh := hpruned.2
        unfold stale at hfresh
        simpa [hu] using hfresh

/-- A hit that goes to its row. -/
theorem recordHit_spec (hseen : db.Seen now)
    (hsource : db.sources.get d.sourceIp = some source ∨
      db.sources.get d.sourceIp = none ∧ source = ⟨[], now, none⟩)
    (hlive : ∀ until_, source.blockedUntil = some until_ → now < until_) :
    ((db.recordHit cfg now d source).1.watch cfg now, (db.recordHit cfg now d source).2) =
        (db.watch cfg now).record cfg now d ∧ (db.recordHit cfg now d source).1.Seen now := by
  have hraw : db.raw d.sourceIp = ⟨source.blockedUntil, source.scoreTimes⟩ := by
    rcases hsource with hget | ⟨hnone, rfl⟩
    · exact raw_of_get hget
    · exact raw_of_none hnone
  have hold : ∀ t ∈ source.scoreTimes, t ≤ now := by
    intro t ht
    rcases hsource with hget | ⟨-, rfl⟩
    · exact ((hseen _ _ hget).2 t ht).trans (hseen _ _ hget).1
    · cases ht
  have hwatch : db.watch cfg now d.sourceIp =
      ⟨source.blockedUntil, live cfg.block now source.scoreTimes⟩ := by
    unfold watch
    rw [hraw]
    exact Watch.counted_of_live hlive
  -- the row after the hit is what counts of it
  have hrow : (⟨(IntrusionDb.hit cfg now source (severityWeight d.severity)).1.blockedUntil,
      (IntrusionDb.hit cfg now source (severityWeight d.severity)).1.scoreTimes⟩ : Watch) =
        ((db.watch cfg now d.sourceIp).hit cfg now (severityWeight d.severity)).1 ∧
      (IntrusionDb.hit cfg now source (severityWeight d.severity)).2 =
        ((db.watch cfg now d.sourceIp).hit cfg now (severityWeight d.severity)).2 := by
    rw [hwatch]
    unfold IntrusionDb.hit Watch.hit hitScores live
    dsimp only
    split
    · exact ⟨rfl, rfl⟩
    · exact ⟨rfl, rfl⟩
  have hself : (db.recordHit cfg now d source).1.sources.get d.sourceIp =
      some (IntrusionDb.hit cfg now source (severityWeight d.severity)).1 := Dict.get_set_self
  have hother : ∀ ip, ip ≠ d.sourceIp →
      (db.recordHit cfg now d source).1.sources.get ip = db.sources.get ip :=
    fun ip hne => Dict.get_set_of_ne hne
  refine ⟨Prod.ext (funext fun ip => ?_) hrow.2, ?_⟩
  · show ((db.recordHit cfg now d source).1.raw ip).counted cfg now = _
    rw [Watches.record_apply]
    by_cases hne : ip = d.sourceIp
    · subst hne
      rw [if_pos rfl, raw_of_get hself, hrow.1]
      exact (Watch.current_counted.hit).counted_eq
    · rw [if_neg hne]
      unfold watch raw
      rw [hother ip hne]
  · intro ip r hr
    by_cases hne : ip = d.sourceIp
    · subst hne
      obtain rfl := Option.some.inj (hself.symm.trans hr)
      have hnew : (IntrusionDb.hit cfg now source (severityWeight d.severity)).1.lastSeenAt = now ∧
          (IntrusionDb.hit cfg now source (severityWeight d.severity)).1.scoreTimes =
            hitScores cfg now source (severityWeight d.severity) := by
        unfold IntrusionDb.hit
        dsimp only
        split
        · exact ⟨rfl, rfl⟩
        · exact ⟨rfl, rfl⟩
      rw [hnew.1, hnew.2]
      refine ⟨Int.le_refl now, fun t ht => ?_⟩
      rcases List.mem_append.mp (List.mem_of_mem_drop ht) with ht | ht
      · exact hold t (List.mem_filter.mp ht).1
      · exact (List.eq_of_mem_replicate ht).le
    · exact hseen ip r (hother ip hne ▸ hr)

/-- **A hit in the tables**, if its source has a row or there is room for one. -/
theorem watch_recordMany (hseen : db.Seen now)
    (hroom : (db.pruneSources cfg now).sources.get d.sourceIp = none →
      (db.pruneSources cfg now).sources.len < cfg.maxSources) :
    ((db.recordMany cfg now [d]).1.watch cfg now, (db.recordMany cfg now [d]).2) =
        (db.watch cfg now).record cfg now d ∧ (db.recordMany cfg now [d]).1.Seen now := by
  obtain ⟨hwatch, hprunedSeen, hlive⟩ := prune_spec cfg hseen
  have hone : db.recordMany cfg now [d] = (db.pruneSources cfg now).recordLocked cfg now d := by
    show ((recordLocked cfg _ now d).1, (recordLocked cfg _ now d).2 || false) = _
    rw [Bool.or_false]
  rw [hone, ← hwatch]
  unfold recordLocked
  dsimp only
  have hretained : ((db.pruneSources cfg now).retainDetection cfg d).sources =
      (db.pruneSources cfg now).sources := rfl
  have hretainedSeen : ((db.pruneSources cfg now).retainDetection cfg d).Seen now := hprunedSeen
  rw [hretained]
  cases hget : (db.pruneSources cfg now).sources.get d.sourceIp with
  | some source =>
      apply recordHit_spec hretainedSeen (.inl hget)
      intro until_ hu
      apply hlive d.sourceIp
      rw [raw_of_get hget]
      exact hu
  | none =>
      dsimp only
      rw [if_neg (not_le.mpr (hroom hget))]
      apply recordHit_spec hretainedSeen (.inr ⟨hget, rfl⟩)
      intro until_ hu
      cases hu

theorem isBlocked_watch (cfg : Settings) :
    db.isBlocked now ip = (db.watch cfg now ip).isBlocked now := by
  unfold isBlocked watch
  cases hget : db.sources.get ip with
  | none =>
      rw [raw_of_none hget]
      rfl
  | some r =>
      rw [raw_of_get hget]
      cases hban : r.blockedUntil with
      | none => simp [Watch.counted, Watch.isBlocked, hban]
      | some until_ =>
          by_cases hserved : until_ ≤ now
          · rw [Watch.counted_of_served rfl hserved]
            simp [hban, hserved, Watch.isBlocked, Watch.clear]
          · have hlive := not_le.mp hserved
            simp [hban, hlive, hserved, Watch.counted, Watch.isBlocked]

/-- Unblocking a source in the database is unblocking it in the watches. -/
theorem watch_unblock (cfg : Settings) (ip : String) (hseen : db.Seen now) :
    ((db.unblock now ip).1.watch cfg now, (db.unblock now ip).2) =
        (db.watch cfg now).unblock ip ∧ (db.unblock now ip).1.Seen now := by
  cases hget : db.sources.get ip with
  | none =>
      have hsame : db.unblock now ip = (db, false) := by
        unfold IntrusionDb.unblock
        rw [hget]
      have hclear : db.watch cfg now ip = .clear := by
        unfold watch
        rw [raw_of_none hget, Watch.counted_clear]
      rw [hsame]
      refine ⟨Prod.ext (funext fun other => ?_) ?_, hseen⟩
      · rw [Watches.unblock_apply]
        split
        · next heq => exact heq ▸ hclear
        · rfl
      · show false = (db.watch cfg now ip).bannedUntil.isSome
        rw [hclear]
        rfl
  | some r =>
      have hdeleted : db.unblock now ip = ({ db with sources := db.sources.pop ip },
          r.blockedUntil.any fun until_ => now < until_) := by
        unfold IntrusionDb.unblock
        rw [hget]
      rw [hdeleted]
      refine ⟨Prod.ext (funext fun other => ?_) ?_, ?_⟩
      · rw [Watches.unblock_apply]
        show (IntrusionDb.raw { db with sources := db.sources.pop ip } other).counted cfg now = _
        split
        · next heq =>
          subst heq
          rw [raw_of_none Dict.get_pop_self, Watch.counted_clear]
        · next hne =>
          unfold watch raw
          rw [Dict.get_pop_of_ne hne]
      · show (r.blockedUntil.any fun until_ => now < until_) =
          (db.watch cfg now ip).bannedUntil.isSome
        unfold watch
        rw [raw_of_get hget]
        cases hban : r.blockedUntil with
        | none => simp [Watch.counted]
        | some until_ =>
            -- a ban that has been served counts as none on both sides
            by_cases hserved : until_ ≤ now
            · rw [Watch.counted_of_served rfl hserved]
              simp [hserved, Watch.clear]
            · have hlive := not_le.mp hserved
              simp [hlive, hserved, Watch.counted]
      · intro other r' hr'
        by_cases hne : other = ip
        · subst hne
          cases Dict.get_pop_self.symm.trans hr'
        · exact hseen other r' ((Dict.get_pop_of_ne hne).symm.trans hr')

theorem watch_mono (h : now ≤ later) :
    db.watch cfg later = fun ip => (db.watch cfg now ip).counted cfg later :=
  funext fun _ => (Watch.counted_counted h).symm

theorem Seen.mono (h : db.Seen now) (hle : now ≤ later) : db.Seen later :=
  fun ip r hr => ⟨(h ip r hr).1.trans hle, (h ip r hr).2⟩

end IntrusionDb

end Scap.Intrusion
