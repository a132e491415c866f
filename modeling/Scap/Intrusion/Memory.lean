import Scap.Intrusion.Watch
import Scap.Py.Float
import Scap.Py.OrderedDict

/-!
# The intrusion state in memory

`IntrusionState`: the scores and the bans in two dictionaries, the sources in the order of their
last hits. What has expired is deleted when its source is asked for, and at times in a pass over all
sources.

The methods are written over a `Clock`, what they compute from its readings. The source reads a clock
that counts seconds in floats, `IntrusionState ℚ`. A clock that counts microseconds in integers
rounds nothing, and the results of this module are about `IntrusionState Int`.

* `keeps_cleanup` — a pass deletes nothing that counts;
* `watch_record`, `watch_isBlocked`, `watch_unblock` — what a call does;
* `unblock_eq_iff` — when the answer of `unblock` is right.
-/

namespace Scap.Intrusion

open Scap.Py Scap.Lib SlidingWindow

/-- `append` of a `deque` with this `maxlen`. -/
def push {α : Type} (maxlen : Nat) (bucket : List α) (a : α) : List α :=
  let bucket := bucket ++ [a]
  bucket.drop (bucket.length - maxlen)

/-- The oldest make room for the new ones. -/
theorem foldl_push {α : Type} {maxlen : Nat} {bucket new : List α} (h : new ≠ []) :
    new.foldl (push maxlen) bucket =
      (bucket ++ new).drop ((bucket ++ new).length - maxlen) := by
  induction new using List.reverseRecOn with
  | nil => exact absurd rfl h
  | append_singleton new a ih =>
      rw [List.foldl_concat, ← List.append_assoc]
      cases new with
      | nil =>
          rw [List.append_nil]
          rfl
      | cons b new =>
          rw [ih (List.cons_ne_nil b new)]
          generalize bucket ++ b :: new = l
          have hle : l.length - maxlen ≤ l.length := Nat.sub_le ..
          unfold push
          dsimp only
          rw [← List.drop_append_of_le_length hle, List.drop_drop]
          congr 1
          simp only [List.length_append, List.length_drop, List.length_singleton]
          omega

/-- Every hit counts. -/
theorem replicate_weight_ne_nil {α : Type} {severity : String} {t : α} :
    List.replicate (severityWeight severity) t ≠ [] := by
  unfold severityWeight
  split
  · simp
  · split
    · simp
    · simp

/-! ## Clocks -/

/-- What a clock reads, and what the methods compute from its readings. -/
class Clock (T : Type) where
  /-- The reading at a time in microseconds. -/
  read : Int → T
  /-- The reading in seconds, for the time of the next pass. -/
  seconds : T → ℚ
  /-- `now - self.block_seconds`. -/
  cutoff : Settings → T → T
  /-- `now + self.block_seconds`. -/
  expiry : Settings → T → T
  /-- `int(expiry - now)`, for an expiry that is yet to come. -/
  remaining : T → T → Int

/-- The float that is read at a time in microseconds. -/
def reading (t : Int) : ℚ := roundDouble (t / 1000000)

/-- The clock of the source: readings are floats, and so is what is computed from them. -/
instance floats : Clock ℚ where
  read := reading
  seconds now := now
  cutoff cfg now := roundDouble (now - roundDouble cfg.blockSeconds)
  expiry cfg now := roundDouble (now + roundDouble cfg.blockSeconds)
  remaining expiry now := ⌊roundDouble (expiry - now)⌋

/-- A clock that counts microseconds. -/
instance microseconds : Clock Int where
  read t := t
  seconds := reading
  cutoff cfg now := now - cfg.block
  expiry cfg now := now + cfg.block
  remaining expiry now := (expiry - now) / 1000000

@[simp] theorem expiry_microseconds (cfg : Settings) (now : Int) :
    Clock.expiry cfg now = now + cfg.block := rfl

/-! ## The state -/

structure IntrusionState (T : Type) where
  detections : List Detection
  scores : OrderedDict String (List T)
  blocked : Dict String T
  nextCleanup : ℚ

namespace IntrusionState

section Methods

variable {T : Type} [LinearOrder T] [Clock T]

def start : IntrusionState T := ⟨[], .empty, .empty, 0⟩

variable (cfg : Settings) (now : T) (m : IntrusionState T) (sourceIp : String)

/-- `_expire_source`. -/
def expireSource : IntrusionState T :=
  match m.blocked.get sourceIp with
  | some expiry =>
    if expiry ≤ now then
      { m with blocked := m.blocked.pop sourceIp, scores := m.scores.pop sourceIp }
    else m
  | none => m

/-- One round of the loop of `_cleanup`. -/
def cleanupSource : IntrusionState T :=
  let m := m.expireSource now sourceIp
  match m.scores.get sourceIp with
  | some bucket =>
    if (m.blocked.get sourceIp).isSome then m
    else
      let bucket := bucket.dropWhile fun t => t ≤ Clock.cutoff cfg now
      if bucket.isEmpty then { m with scores := m.scores.pop sourceIp }
      else { m with scores := m.scores.set sourceIp bucket }
  | none => m

/-- `_cleanup`. -/
def cleanup (force : Bool) : IntrusionState T :=
  if !force && Clock.seconds now < m.nextCleanup then m
  else
    { (m.scores.rows.map Prod.fst).foldl (cleanupSource cfg now) m with
      nextCleanup := roundDouble (Clock.seconds now + (min 60 cfg.blockSeconds : Nat)) }

/-- The end of `record`, for a source that has a bucket or gets an empty one. -/
def recordHit (d : Detection) : IntrusionState T × Bool :=
  let bucket := (m.scores.get d.sourceIp).getD []
  let bucket := bucket.dropWhile fun t => t ≤ Clock.cutoff cfg now
  let bucket := (List.replicate (severityWeight d.severity) now).foldl
    (push cfg.blockThreshold) bucket
  -- `move_to_end`
  let m := { m with scores := (m.scores.pop d.sourceIp).set d.sourceIp bucket }
  if cfg.blockThreshold ≤ bucket.length ∧ m.blocked.get d.sourceIp = none then
    ({ m with blocked := m.blocked.set d.sourceIp (Clock.expiry cfg now) }, true)
  else (m, false)

/-- The beginning of `record`. -/
def logged (d : Detection) : IntrusionState T :=
  let m := { m with detections := push cfg.history m.detections d }
  (m.cleanup cfg now false).expireSource now d.sourceIp

/-- `record`. -/
def record (d : Detection) : IntrusionState T × Bool :=
  let m := m.logged cfg now d
  match m.scores.get d.sourceIp with
  | some _ => m.recordHit cfg now d
  | none =>
    let m := if cfg.maxSources ≤ m.scores.len then m.cleanup cfg now true else m
    if cfg.maxSources ≤ m.scores.len then
      match m.scores.rows.find? fun r => (m.blocked.get r.1).isNone with
      | none => (m, false)
      | some oldest => { m with scores := m.scores.pop oldest.1 }.recordHit cfg now d
    else m.recordHit cfg now d

/-- `is_blocked`. -/
def isBlocked : IntrusionState T × Bool × Int :=
  let m := (m.cleanup cfg now false).expireSource now sourceIp
  match m.blocked.get sourceIp with
  | none => (m, false, 0)
  | some expiry => (m, true, max 1 (Clock.remaining expiry now))

/-- `unblock`. -/
def unblock : IntrusionState T × Bool :=
  ({ m with scores := m.scores.pop sourceIp, blocked := m.blocked.pop sourceIp },
    (m.blocked.get sourceIp).isSome)

/-- A ban that was served and not deleted yet. -/
def Served (now : T) (m : IntrusionState T) (ip : String) : Prop :=
  ∃ until_, m.blocked.get ip = some until_ ∧ until_ ≤ now

instance : Decidable (Served now m sourceIp) :=
  decidable_of_iff ((m.blocked.get sourceIp).any fun until_ => until_ ≤ now) (by
    unfold Served
    cases m.blocked.get sourceIp <;> simp)

end Methods

/-! ## What counts -/

variable (cfg : Settings) (now : Int) (m : IntrusionState Int)

/-- What the dictionaries say of a source. -/
def raw (ip : String) : Watch := ⟨m.blocked.get ip, (m.scores.get ip).getD []⟩

/-- What of it counts. -/
def watch : Watches := fun ip => (m.raw ip).counted cfg now

/-- The times of a bucket are in order. -/
def Ordered : Prop := ∀ ip bucket, m.scores.get ip = some bucket →
  bucket.Pairwise (· ≤ ·) ∧ ∀ t ∈ bucket, t ≤ now

/-- Nothing that counts was deleted. -/
structure Keeps (m' : IntrusionState Int) : Prop where
  watch : m'.watch cfg now = m.watch cfg now
  ordered : m'.Ordered now

variable {cfg now m} {m' m'' : IntrusionState Int} {ip : String} {d : Detection} {later : Int}

theorem Keeps.refl (h : m.Ordered now) : m.Keeps cfg now m := ⟨rfl, h⟩

theorem Keeps.trans (h : m.Keeps cfg now m') (h' : m'.Keeps cfg now m'') : m.Keeps cfg now m'' :=
  ⟨h'.watch.trans h.watch, h'.ordered⟩

theorem Ordered.mono (h : m.Ordered now) (hle : now ≤ later) : m.Ordered later :=
  fun ip bucket hget => ⟨(h ip bucket hget).1, fun t ht => ((h ip bucket hget).2 t ht).trans hle⟩

theorem watch_mono (h : now ≤ later) :
    m.watch cfg later = fun ip => (m.watch cfg now ip).counted cfg later :=
  funext fun _ => (Watch.counted_counted h).symm

/-- A change of one source that leaves what counts of it. -/
theorem Keeps.of_source (ip : String) (h : m.Ordered now)
    (hself : (m'.raw ip).counted cfg now = (m.raw ip).counted cfg now)
    (hblocked : ∀ other, other ≠ ip → m'.blocked.get other = m.blocked.get other)
    (hscores : ∀ other, other ≠ ip → m'.scores.get other = m.scores.get other)
    (hbucket : ∀ bucket, m'.scores.get ip = some bucket →
      ∃ old, m.scores.get ip = some old ∧ bucket.Sublist old) : m.Keeps cfg now m' where
  watch := by
    funext other
    unfold IntrusionState.watch
    by_cases hne : other = ip
    · exact hne ▸ hself
    · unfold raw
      rw [hblocked other hne, hscores other hne]
  ordered := by
    intro other bucket hget
    by_cases hne : other = ip
    · subst hne
      obtain ⟨old, hold, hsub⟩ := hbucket bucket hget
      obtain ⟨hsorted, hle⟩ := h other old hold
      exact ⟨hsorted.sublist hsub, fun t ht => hle t (hsub.subset ht)⟩
    · exact h other bucket (hscores other hne ▸ hget)

theorem keeps_expireSource (cfg : Settings) (ip : String) (h : m.Ordered now) :
    m.Keeps cfg now (m.expireSource now ip) := by
  unfold expireSource
  split
  · next expiry hget =>
    split
    · next hserved =>
      apply Keeps.of_source ip h
      · have hraw : (m.raw ip).counted cfg now = .clear :=
          Watch.counted_of_served hget hserved
        rw [hraw]
        unfold raw
        dsimp only
        rw [Dict.get_pop_self, OrderedDict.get_pop_self]
        rfl
      · exact fun other hne => Dict.get_pop_of_ne hne
      · exact fun other hne => OrderedDict.get_pop_of_ne hne
      · intro bucket hget
        cases OrderedDict.get_pop_self.symm.trans hget
    · exact .refl h
  · exact .refl h

/-- A ban is live after its source was asked for. -/
theorem live_of_expireSource {until_ : Int}
    (h : (m.expireSource now ip).blocked.get ip = some until_) : now < until_ := by
  unfold expireSource at h
  split at h
  · next expiry hget =>
    split at h
    · cases Dict.get_pop_self.symm.trans h
    · next hlive =>
      obtain rfl := Option.some.inj (hget.symm.trans h)
      exact not_le.mp hlive
  · next hget => cases hget.symm.trans h

theorem keeps_cleanupSource (cfg : Settings) (ip : String) (h : m.Ordered now) :
    m.Keeps cfg now (m.cleanupSource cfg now ip) := by
  have hexpire := keeps_expireSource cfg ip h
  apply hexpire.trans
  have hordered := hexpire.ordered
  unfold cleanupSource
  dsimp only
  generalize m.expireSource now ip = m₁ at hordered
  cases hget : m₁.scores.get ip with
  | none => exact .refl hordered
  | some bucket =>
      dsimp only
      obtain ⟨hsorted, -⟩ := hordered ip bucket hget
      have hlive : bucket.dropWhile (fun t => t ≤ Clock.cutoff cfg now) = live cfg.block now bucket :=
        dropWhile_eq_live hsorted
      cases hban : m₁.blocked.get ip with
      -- the scores of a banned source stay
      | some until_ => exact .refl hordered
      | none =>
          dsimp only [Option.isSome_none]
          have hraw : (m₁.raw ip).counted cfg now = ⟨none, live cfg.block now bucket⟩ := by
            unfold raw
            rw [hget, hban]
            exact Watch.counted_of_live (by simp)
          rw [hlive, if_neg Bool.false_ne_true]
          split
          · -- no bucket and an empty one count the same
            next hempty =>
            apply Keeps.of_source ip hordered
            · rw [hraw, List.isEmpty_iff.mp hempty]
              unfold raw
              dsimp only
              rw [OrderedDict.get_pop_self, hban]
              rfl
            · exact fun _ _ => rfl
            · exact fun other hne => OrderedDict.get_pop_of_ne hne
            · intro bucket hget
              cases OrderedDict.get_pop_self.symm.trans hget
          · apply Keeps.of_source ip hordered
            · rw [hraw]
              unfold raw
              dsimp only
              rw [OrderedDict.get_set_self, hban, Watch.counted_of_live (by simp)]
              simp only [Option.getD_some, live_live (Int.le_refl now)]
            · exact fun _ _ => rfl
            · intro other hne
              rw [OrderedDict.get_set, if_neg hne]
            · intro bucket' hbucket'
              rw [OrderedDict.get_set_self] at hbucket'
              obtain rfl := Option.some.inj hbucket'
              exact ⟨bucket, hget, live_sublist⟩

/-- **A pass deletes nothing that counts.** -/
theorem keeps_cleanup (cfg : Settings) (h : m.Ordered now) (force : Bool) :
    m.Keeps cfg now (m.cleanup cfg now force) := by
  have hall : ∀ (ips : List String) {m : IntrusionState Int}, m.Ordered now →
      m.Keeps cfg now (ips.foldl (cleanupSource cfg now) m) := by
    intro ips
    induction ips with
    | nil => exact fun hm => .refl hm
    | cons ip ips ih =>
        intro m hm
        have hfirst := keeps_cleanupSource cfg ip hm
        exact hfirst.trans (ih hfirst.ordered)
  unfold cleanup
  split
  · exact .refl h
  · obtain ⟨hwatch, hordered⟩ := hall (m.scores.rows.map Prod.fst) h
    exact ⟨hwatch, hordered⟩

/-! ## Calls -/

theorem recordHit_spec (cfg : Settings) (d : Detection) (h : m.Ordered now)
    (hlive : ∀ until_, m.blocked.get d.sourceIp = some until_ → now < until_) :
    ((m.recordHit cfg now d).1.watch cfg now, (m.recordHit cfg now d).2) =
        (m.watch cfg now).record cfg now d ∧ (m.recordHit cfg now d).1.Ordered now := by
  have hsorted : ((m.scores.get d.sourceIp).getD []).Pairwise (· ≤ ·) ∧
      ∀ t ∈ (m.scores.get d.sourceIp).getD [], t ≤ now := by
    cases hget : m.scores.get d.sourceIp with
    | none => simp
    | some bucket => exact h _ _ hget
  have hwatch : m.watch cfg now d.sourceIp = ⟨m.blocked.get d.sourceIp,
      live cfg.block now ((m.scores.get d.sourceIp).getD [])⟩ := Watch.counted_of_live hlive
  have hweight : List.replicate (severityWeight d.severity) now ≠ [] := replicate_weight_ne_nil
  -- the bucket after the hit is what counts of it
  have hself : (m.recordHit cfg now d).1.raw d.sourceIp =
        ((m.watch cfg now d.sourceIp).hit cfg now (severityWeight d.severity)).1 ∧
      (m.recordHit cfg now d).2 =
        ((m.watch cfg now d.sourceIp).hit cfg now (severityWeight d.severity)).2 := by
    rw [hwatch]
    have hcounted : ((m.scores.get d.sourceIp).getD []).dropWhile
        (fun t => t ≤ Clock.cutoff cfg now) =
        live cfg.block now ((m.scores.get d.sourceIp).getD []) := dropWhile_eq_live hsorted.1
    unfold recordHit Watch.hit raw
    dsimp only
    rw [hcounted, foldl_push hweight]
    split
    · simp
    · simp
  have hother : ∀ other, other ≠ d.sourceIp →
      (m.recordHit cfg now d).1.blocked.get other = m.blocked.get other ∧
        (m.recordHit cfg now d).1.scores.get other = m.scores.get other := by
    intro other hne
    have hscores : ∀ bucket, ((m.scores.pop d.sourceIp).set d.sourceIp bucket).get other =
        m.scores.get other := by
      intro bucket
      rw [OrderedDict.get_set, if_neg hne, OrderedDict.get_pop_of_ne hne]
    unfold recordHit
    dsimp only
    split
    · exact ⟨Dict.get_set_of_ne hne, hscores _⟩
    · exact ⟨rfl, hscores _⟩
  refine ⟨Prod.ext (funext fun ip => ?_) hself.2, ?_⟩
  · show ((m.recordHit cfg now d).1.raw ip).counted cfg now = _
    rw [Watches.record_apply]
    by_cases hne : ip = d.sourceIp
    · subst hne
      rw [if_pos rfl, hself.1]
      exact Watch.current_counted.hit.counted_eq
    · rw [if_neg hne]
      unfold watch raw
      rw [(hother ip hne).1, (hother ip hne).2]
  · intro ip bucket hget
    by_cases hne : ip = d.sourceIp
    · subst hne
      have hbucket : bucket = ((m.recordHit cfg now d).1.raw d.sourceIp).scores := by
        unfold raw
        rw [hget]
        rfl
      rw [hbucket, hself.1, hwatch]
      have hall : (live cfg.block now ((m.scores.get d.sourceIp).getD []) ++
            List.replicate (severityWeight d.severity) now).Pairwise (· ≤ ·) ∧
          ∀ t ∈ live cfg.block now ((m.scores.get d.sourceIp).getD []) ++
            List.replicate (severityWeight d.severity) now, t ≤ now := by
        have hle : ∀ t ∈ live cfg.block now ((m.scores.get d.sourceIp).getD []), t ≤ now :=
          fun t ht => hsorted.2 t (live_sublist.subset ht)
        constructor
        · refine List.pairwise_append.mpr ⟨hsorted.1.sublist live_sublist, ?_, ?_⟩
          · exact List.pairwise_replicate.mpr (.inr (Int.le_refl now))
          · intro t ht u hu
            obtain rfl := List.eq_of_mem_replicate hu
            exact hle t ht
        · intro t ht
          rcases List.mem_append.mp ht with ht | ht
          · exact hle t ht
          · exact (List.eq_of_mem_replicate ht).le
      exact ⟨hall.1.sublist Watch.scores_hit_sublist,
        fun t ht => hall.2 t (Watch.scores_hit_sublist.subset ht)⟩
    · exact h ip bucket ((hother ip hne).2 ▸ hget)

/-- **A hit**, if its source has a bucket or there is room for one. -/
theorem watch_record (h : m.Ordered now)
    (hroom : (m.logged cfg now d).scores.get d.sourceIp = none →
      (m.logged cfg now d).scores.len < cfg.maxSources) :
    ((m.record cfg now d).1.watch cfg now, (m.record cfg now d).2) =
        (m.watch cfg now).record cfg now d ∧ (m.record cfg now d).1.Ordered now := by
  have hpushed : Ordered now { m with detections := push cfg.history m.detections d } := h
  have hcleanup := keeps_cleanup cfg hpushed false
  have hexpire := keeps_expireSource cfg d.sourceIp hcleanup.ordered
  have hkeeps : Keeps cfg now _ (m.logged cfg now d) := hcleanup.trans hexpire
  -- nothing that counts has gone when the source is looked up
  have hwatch : (m.logged cfg now d).watch cfg now = m.watch cfg now := hkeeps.watch
  have hhit := recordHit_spec cfg d hkeeps.ordered fun until_ => live_of_expireSource
  rw [hwatch] at hhit
  unfold record
  dsimp only
  cases hget : (m.logged cfg now d).scores.get d.sourceIp with
  | some bucket => exact hhit
  | none =>
      dsimp only
      have hspace := not_le.mpr (hroom hget)
      rw [if_neg hspace, if_neg hspace]
      exact hhit

theorem watch_isBlocked (cfg : Settings) (ip : String) (h : m.Ordered now) :
    m.Keeps cfg now (m.isBlocked cfg now ip).1 ∧
      (m.isBlocked cfg now ip).2 = (m.watch cfg now ip).isBlocked now := by
  have hcleanup := keeps_cleanup cfg h false
  have hexpire := keeps_expireSource cfg ip hcleanup.ordered
  have hkeeps := hcleanup.trans hexpire
  rw [← hkeeps.watch]
  have hstate : (m.isBlocked cfg now ip).1 = (m.cleanup cfg now false).expireSource now ip := by
    unfold isBlocked
    dsimp only
    split
    · rfl
    · rfl
  rw [hstate]
  refine ⟨hkeeps, ?_⟩
  have hlive : ∀ until_, ((m.cleanup cfg now false).expireSource now ip).blocked.get ip =
      some until_ → now < until_ := fun until_ => live_of_expireSource
  have hwatch : ((m.cleanup cfg now false).expireSource now ip).watch cfg now ip =
      ⟨_, _⟩ := Watch.counted_of_live hlive
  rw [hwatch]
  unfold isBlocked Watch.isBlocked
  dsimp only [raw]
  cases ((m.cleanup cfg now false).expireSource now ip).blocked.get ip with
  | none => rfl
  | some until_ => rfl

/-- `unblock` forgives. -/
theorem watch_unblock (cfg : Settings) (ip : String) (h : m.Ordered now) :
    (m.unblock ip).1.watch cfg now = ((m.watch cfg now).unblock ip).1 ∧
      (m.unblock ip).1.Ordered now := by
  constructor
  · funext other
    rw [Watches.unblock_apply]
    show ((m.unblock ip).1.raw other).counted cfg now = _
    unfold raw unblock
    dsimp only
    split
    · next heq =>
      subst heq
      rw [Dict.get_pop_self, OrderedDict.get_pop_self]
      rfl
    · next hne =>
      rw [Dict.get_pop_of_ne hne, OrderedDict.get_pop_of_ne hne]
      rfl
  · intro other bucket hget
    replace hget : (m.scores.pop ip).get other = some bucket := hget
    by_cases hne : other = ip
    · subst hne
      cases OrderedDict.get_pop_self.symm.trans hget
    · exact h other bucket ((OrderedDict.get_pop_of_ne hne).symm.trans hget)

/-- **The answer of `unblock`** is whether there was a ban, also one that was served. -/
theorem unblock_eq_iff (cfg : Settings) (now : Int) (m : IntrusionState Int) (ip : String) :
    (m.unblock ip).2 = ((m.watch cfg now).unblock ip).2 ↔ ¬ m.Served now ip := by
  show (m.blocked.get ip).isSome = ((m.raw ip).counted cfg now).bannedUntil.isSome ↔ _
  unfold Served raw
  cases hget : m.blocked.get ip with
  | none => simp [Watch.counted]
  | some until_ =>
      by_cases hserved : until_ ≤ now
      · rw [Watch.counted_of_served rfl hserved]
        simp [hserved, Watch.clear]
      · simp [hserved, Watch.counted]

end IntrusionState

end Scap.Intrusion
