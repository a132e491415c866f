import Scap.Intrusion.Readings

/-!
# Two intrusion states

The state in memory and the tables side by side, from their beginning, under the same calls at the
same times. The tables hold the times in microseconds, the state in memory the floats that its clock
reads.

* `Twins.call` — a call keeps what counts in both the same, whatever it answers, if the clock in
  memory counts microseconds too;
* `answers_reading` — what a run answers is the same on the clock in floats, at times whose readings
  are faithful to each other;
* `answers_eq_iff` — the answers are then the same just if no `unblock` meets a ban in memory that
  was served and is still there: `IntrusionState.unblock` is the one method that does not look at the
  clock.
-/

namespace Scap.Intrusion

open Scap.Py Scap.Lib SlidingWindow

inductive Method where
  | record (detection : Detection)
  | isBlocked (sourceIp : String)
  | unblock (sourceIp : String)
  deriving DecidableEq, Repr

inductive Answer where
  | record (newlyBlocked : Bool)
  | isBlocked (blocked : Bool × Int)
  | unblock (lifted : Bool)
  deriving DecidableEq, Repr

section Calls

variable {T : Type} [LinearOrder T] [Clock T] (cfg : Settings) (now : Int)

def IntrusionState.call (m : IntrusionState T) : Method → IntrusionState T × Answer
  | .record d => (m.record cfg (Clock.read now) d).map id .record
  | .isBlocked ip => (m.isBlocked cfg (Clock.read now) ip).map id .isBlocked
  | .unblock ip => (m.unblock ip).map id .unblock

/-- `record` is `record_many` of one detection. -/
def IntrusionDb.call (db : IntrusionDb) : Method → IntrusionDb × Answer
  | .record d => (db.recordMany cfg now [d]).map id .record
  | .isBlocked ip => (db, .isBlocked (db.isBlocked now ip))
  | .unblock ip => (db.unblock now ip).map id .unblock

def IntrusionDb.start : IntrusionDb := ⟨.empty, 1, .empty⟩

/-- What the calls of a run answer. -/
def answers {σ : Type} (call : Int → σ → Method → σ × Answer) :
    σ → List (Int × Method) → List Answer
  | _, [] => []
  | s, (now, c) :: cs => (call now s c).2 :: answers call (call now s c).1 cs

/-- A source that is recorded has a place in both, or there is room for it in both. -/
def Room (m : IntrusionState T) (db : IntrusionDb) : Method → Prop
  | .record d =>
    ((m.logged cfg (Clock.read now) d).scores.get d.sourceIp = none →
      (m.logged cfg (Clock.read now) d).scores.len < cfg.maxSources) ∧
    ((db.pruneSources cfg now).sources.get d.sourceIp = none →
      (db.pruneSources cfg now).sources.len < cfg.maxSources)
  | _ => True

/-- A run below both capacities. -/
def Below : IntrusionState T → IntrusionDb → List (Int × Method) → Prop
  | _, _, [] => True
  | m, db, (now, c) :: cs =>
    Room cfg now m db c ∧ Below (m.call cfg now c).1 (db.call cfg now c).1 cs

/-- No `unblock` of the run finds a ban in memory that was served. -/
def NoneServed : IntrusionState T → List (Int × Method) → Prop
  | _, [] => True
  | m, (now, c) :: cs =>
    (∀ ip, c = .unblock ip → ¬ m.Served (Clock.read now) ip) ∧ NoneServed (m.call cfg now c).1 cs

end Calls

variable {cfg : Settings} {now later : Int} {m : IntrusionState Int} {f : IntrusionState ℚ}
  {db : IntrusionDb} {c : Method} {calls : List (Int × Method)}

/-! ## The simulation -/

/-- The same counts in both. -/
structure Twins (cfg : Settings) (now : Int) (m : IntrusionState Int) (db : IntrusionDb) : Prop where
  watch : m.watch cfg now = db.watch cfg now
  ordered : m.Ordered now
  seen : db.Seen now

theorem Twins.start : Twins cfg now .start .start where
  watch := rfl
  ordered := fun _ _ hget => nomatch hget
  seen := fun _ _ hget => nomatch hget

theorem Twins.mono (h : Twins cfg now m db) (hle : now ≤ later) : Twins cfg later m db where
  watch := by rw [IntrusionState.watch_mono hle, IntrusionDb.watch_mono hle, h.watch]
  ordered := h.ordered.mono hle
  seen := h.seen.mono hle

/-- **A call keeps the twins**, and the answers differ just at a ban that was served. -/
theorem Twins.call (h : Twins cfg now m db) (hroom : Room cfg now m db c) :
    Twins cfg now (m.call cfg now c).1 (db.call cfg now c).1 ∧
      ((m.call cfg now c).2 = (db.call cfg now c).2 ↔
        ∀ ip, c = .unblock ip → ¬ m.Served now ip) := by
  cases c with
  | record d =>
      obtain ⟨hm, hordered⟩ := IntrusionState.watch_record h.ordered hroom.1
      obtain ⟨hdb, hseen⟩ := IntrusionDb.watch_recordMany h.seen hroom.2
      rw [h.watch, ← hdb, Prod.mk.injEq] at hm
      refine ⟨⟨hm.1, hordered, hseen⟩, ?_⟩
      have hsame : (m.call cfg now (.record d)).2 = (db.call cfg now (.record d)).2 :=
        congrArg Answer.record hm.2
      simp [hsame]
  | isBlocked ip =>
      obtain ⟨hkeeps, hanswer⟩ := IntrusionState.watch_isBlocked cfg ip h.ordered
      refine ⟨⟨hkeeps.watch.trans h.watch, hkeeps.ordered, h.seen⟩, ?_⟩
      have hsame : (m.call cfg now (.isBlocked ip)).2 = (db.call cfg now (.isBlocked ip)).2 := by
        apply congrArg Answer.isBlocked
        show (m.isBlocked cfg now ip).2 = db.isBlocked now ip
        rw [hanswer, IntrusionDb.isBlocked_watch cfg, h.watch]
      simp [hsame]
  | unblock ip =>
      obtain ⟨hm, hordered⟩ := IntrusionState.watch_unblock cfg ip h.ordered
      obtain ⟨hdb, hseen⟩ := IntrusionDb.watch_unblock cfg ip h.seen
      have hdbWatch := congrArg Prod.fst hdb
      have hdbAnswer := congrArg Prod.snd hdb
      refine ⟨⟨hm.trans ((congrArg (fun ws => (Watches.unblock ws ip).1) h.watch).trans
        hdbWatch.symm), hordered, hseen⟩, ?_⟩
      have hserved := IntrusionState.unblock_eq_iff cfg now m ip
      -- the states are the same afterwards, whatever was answered
      rw [h.watch, ← hdbAnswer] at hserved
      have hanswers : (m.call cfg now (.unblock ip)).2 = (db.call cfg now (.unblock ip)).2 ↔
          (m.unblock ip).2 = (db.unblock now ip).2 := by
        show Answer.unblock (m.unblock ip).2 = Answer.unblock (db.unblock now ip).2 ↔ _
        rw [Answer.unblock.injEq]
      rw [hanswers, hserved]
      constructor
      · rintro hnot ip' ⟨⟩
        exact hnot
      · intro hall
        exact hall ip rfl

/-! ## Runs -/

theorem answers_eq_iff_of_twins (h : ∀ call ∈ calls, Twins cfg call.1 m db)
    (htimes : (calls.map Prod.fst).Pairwise (· ≤ ·)) (hroom : Below cfg m db calls) :
    answers (IntrusionState.call cfg) m calls = answers (IntrusionDb.call cfg) db calls ↔
      NoneServed cfg m calls := by
  induction calls generalizing m db with
  | nil => simp [answers, NoneServed]
  | cons call calls ih =>
      obtain ⟨now, c⟩ := call
      obtain ⟨hfirst, hrest⟩ := hroom
      rw [List.map_cons, List.pairwise_cons] at htimes
      obtain ⟨htwins, hanswer⟩ := (h _ List.mem_cons_self).call hfirst
      have hlater : ∀ call ∈ calls,
          Twins cfg call.1 (m.call cfg now c).1 (db.call cfg now c).1 := by
        intro call hcall
        exact htwins.mono (htimes.1 call.1 (List.mem_map_of_mem hcall))
      show (m.call cfg now c).2 :: _ = (db.call cfg now c).2 :: _ ↔ _ ∧ _
      rw [List.cons.injEq, hanswer, ih hlater htimes.2 hrest]
      exact Iff.rfl

/-! ## Readings -/

/-- **A call on the clock in floats.** -/
theorem Mirrors.call {P Q : Int → Prop} (h : Mirrors cfg P f m)
    (hP : ∀ t, P t → Faithful cfg t now) (hPQ : ∀ t, P t → Q t) (hnow : Q now) (c : Method) :
    Mirrors cfg Q (f.call cfg now c).1 (m.call cfg now c).1 ∧
      (f.call cfg now c).2 = (m.call cfg now c).2 := by
  cases c with
  | record d =>
      obtain ⟨hmirrors, hanswer⟩ := h.record hP hPQ hnow d
      exact ⟨hmirrors, congrArg Answer.record hanswer⟩
  | isBlocked ip =>
      obtain ⟨hmirrors, hanswer⟩ := h.isBlocked hP ip
      exact ⟨hmirrors.imp hPQ, congrArg Answer.isBlocked hanswer⟩
  | unblock ip =>
      obtain ⟨hmirrors, hanswer⟩ := h.unblock ip
      exact ⟨hmirrors.imp hPQ, congrArg Answer.unblock hanswer⟩

theorem Mirrors.room_iff {P : Int → Prop} (h : Mirrors cfg P f m)
    (hP : ∀ t, P t → Faithful cfg t now) (c : Method) :
    Room cfg now f db c ↔ Room cfg now m db c := by
  cases c with
  | record d =>
      have hlogged := h.logged hP d
      have hnone : (f.logged cfg (reading now) d).scores.get d.sourceIp = none ↔
          (m.logged cfg now d).scores.get d.sourceIp = none := by
        rw [hlogged.scores.get, Option.map_eq_none_iff]
      have hlen : (f.logged cfg (reading now) d).scores.len = (m.logged cfg now d).scores.len :=
        hlogged.scores.len
      show ((f.logged cfg (reading now) d).scores.get d.sourceIp = none →
        (f.logged cfg (reading now) d).scores.len < cfg.maxSources) ∧ _ ↔ _
      rw [hnone, hlen]
      rfl
  | isBlocked ip => exact Iff.rfl
  | unblock ip => exact Iff.rfl

/-- **A run on the clock in floats** answers what it answers on the one that rounds nothing, when the
readings are faithful to each other. -/
theorem answers_reading (db : IntrusionDb)
    (h : Mirrors cfg (fun t => ∀ call ∈ calls, Faithful cfg t call.1) f m)
    (hfaithful : (calls.map Prod.fst).Pairwise (Faithful cfg)) :
    answers (IntrusionState.call cfg) f calls = answers (IntrusionState.call cfg) m calls ∧
      (NoneServed cfg f calls ↔ NoneServed cfg m calls) ∧
      (Below cfg f db calls ↔ Below cfg m db calls) := by
  induction calls generalizing f m db with
  | nil => exact ⟨rfl, Iff.rfl, Iff.rfl⟩
  | cons call calls ih =>
      obtain ⟨now, c⟩ := call
      rw [List.map_cons, List.pairwise_cons] at hfaithful
      have hP : ∀ t, (∀ call ∈ (now, c) :: calls, Faithful cfg t call.1) → Faithful cfg t now :=
        fun t ht => ht (now, c) List.mem_cons_self
      obtain ⟨hmirrors, hanswer⟩ := h.call (Q := fun t => ∀ call ∈ calls, Faithful cfg t call.1) hP
        (fun t ht call hcall => ht call (List.mem_cons_of_mem _ hcall))
        (fun call hcall => hfaithful.1 call.1 (List.mem_map_of_mem hcall)) c
      obtain ⟨hanswers, hserved, hbelow⟩ :=
        ih (db.call cfg now c).1 hmirrors hfaithful.2
      refine ⟨?_, ?_, ?_⟩
      · show (f.call cfg now c).2 :: _ = (m.call cfg now c).2 :: _
        rw [hanswer, hanswers]
      · have hfirst : (∀ ip, c = .unblock ip → ¬ f.Served (reading now) ip) ↔
            ∀ ip, c = .unblock ip → ¬ m.Served now ip :=
          forall₂_congr fun ip _ => not_congr (h.served_iff hP)
        exact and_congr hfirst hserved
      · exact and_congr (h.room_iff hP c) hbelow

/-- **The two states answer the same**, in a run below both capacities at times that do not go back
and are read faithfully, if and only if no `unblock` of the run finds a ban in memory that was
served. -/
theorem answers_eq_iff (htimes : (calls.map Prod.fst).Pairwise (· ≤ ·))
    (hfaithful : (calls.map Prod.fst).Pairwise (Faithful cfg))
    (hroom : Below cfg (.start : IntrusionState ℚ) .start calls) :
    answers (IntrusionState.call cfg) (.start : IntrusionState ℚ) calls =
        answers (IntrusionDb.call cfg) .start calls ↔
      NoneServed cfg (.start : IntrusionState ℚ) calls := by
  obtain ⟨hanswers, hserved, hbelow⟩ := answers_reading .start Mirrors.start hfaithful
  rw [hanswers, hserved]
  exact answers_eq_iff_of_twins (fun _ _ => .start) htimes (hbelow.mp hroom)

/-- Five points ban a source for fifteen minutes. -/
def defaultSettings : Settings :=
  ⟨5, 900, 500, 10000, by decide, Nat.succ_pos _, by decide, by decide⟩

/-- Two hits ban the source, and the ban is lifted. -/
def sampleCalls (lifted : Int) : List (Int × Method) :=
  [(1000000, .record ⟨"203.0.113.7", "high", "{}"⟩),
    (2000000, .record ⟨"203.0.113.7", "high", "{}"⟩), (lifted, .unblock "203.0.113.7")]

theorem below_sampleCalls (lifted : Int) :
    Below defaultSettings (.start : IntrusionState ℚ) .start (sampleCalls lifted) := by
  refine ⟨⟨fun _ => ?_, fun _ => ?_⟩, ⟨fun _ => ?_, fun _ => ?_⟩, trivial, trivial⟩
  · decide +kernel
  · decide +kernel
  · decide +kernel
  · decide +kernel

/-- While it lasts. -/
theorem answers_eq_iff_sample :
    answers (IntrusionState.call defaultSettings) (.start : IntrusionState ℚ)
        (sampleCalls 3000000) =
      answers (IntrusionDb.call defaultSettings) .start (sampleCalls 3000000) := by
  rw [answers_eq_iff (by decide) (by decide +kernel) (below_sampleCalls 3000000)]
  simp only [sampleCalls, NoneServed]
  refine ⟨nofun, nofun, ?_, trivial⟩
  intro ip hip
  obtain rfl := Method.unblock.inj hip
  decide +kernel

/-- A ban that was served is lifted once more, in memory only. -/
theorem served_ban_lifted :
    ((sampleCalls 902000000).map Prod.fst).Pairwise (· < ·) ∧
      Below defaultSettings (.start : IntrusionState ℚ) .start (sampleCalls 902000000) ∧
      answers (IntrusionState.call defaultSettings) (.start : IntrusionState ℚ)
          (sampleCalls 902000000) = [.record false, .record true, .unblock true] ∧
      answers (IntrusionDb.call defaultSettings) .start (sampleCalls 902000000) =
        [.record false, .record true, .unblock false] ∧
      answers (IntrusionState.call defaultSettings) (.start : IntrusionState ℚ)
          (sampleCalls 902000000) ≠
        answers (IntrusionDb.call defaultSettings) .start (sampleCalls 902000000) := by
  have hmemory : answers (IntrusionState.call defaultSettings) (.start : IntrusionState ℚ)
      (sampleCalls 902000000) = [.record false, .record true, .unblock true] := by decide +kernel
  have htables : answers (IntrusionDb.call defaultSettings) .start (sampleCalls 902000000) =
      [.record false, .record true, .unblock false] := by decide +kernel
  refine ⟨by decide, below_sampleCalls 902000000, hmemory, htables, ?_⟩
  rw [hmemory, htables]
  decide

end Scap.Intrusion
