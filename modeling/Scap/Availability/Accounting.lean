import Scap.Availability.Monitor

/-!
# What the monitor counts

* `counted_recent` — observations at times that do not decrease are counted for sixty seconds, and a
  snapshot reports just these;
* `denials_conserved` — a denial is a sample, or one that a later sample reports as suppressed, or
  one that is still to be reported.
-/

namespace Scap.Availability

open Scap.Py Scap.Lib AvailabilityMonitor

variable {m : AvailabilityMonitor} {calls : List Call} {c : Call} {now time : ℚ} {r : Response}
  {t : Tallies} {seen : List Response}

/-! ## The ring -/

theorem after_concat : m.after (calls ++ [c]) = (m.after calls).call c := List.foldl_concat ..

theorem observations_concat :
    observations (calls ++ [c]) = observations calls ++ c.observation?.toList := by
  unfold observations
  rw [List.filterMap_append]
  cases c <;> rfl

/-- The observations by their seconds. -/
def events (calls : List Call) : List (Int × Response) :=
  (observations calls).map fun o => (⌊o.1⌋, o.2)

section Additive

variable {weight : Response → Nat} {value : Tallies → Nat}

/-- Each bucket holds the observations of its second. -/
theorem holds_after (hzero : value .zero = 0)
    (hobserve : ∀ t r, value (t.observe r) = value t + weight r)
    (hsorted : ((observations calls).map Prod.fst).Pairwise (· ≤ ·))
    (hlast : ∀ o ∈ observations calls, o.1 ≤ now) :
    Buckets.Holds weight value (events calls) (start.after calls).responseBuckets ⌊now⌋ := by
  induction calls using List.reverseRecOn generalizing now with
  | nil => exact Buckets.Holds.start hzero
  | append_singleton calls c ih =>
      rw [observations_concat, List.map_append, List.pairwise_append] at hsorted
      rw [observations_concat] at hlast
      obtain ⟨hbefore, -, hlater⟩ := hsorted
      rw [after_concat, events, observations_concat, List.map_append]
      cases c with
      | observeResponse time r =>
          have hle : ∀ o ∈ observations calls, o.1 ≤ time := fun o ho =>
            hlater o.1 (List.mem_map_of_mem ho) time (by simp [Call.observation?])
          have hnow : time ≤ now := hlast (time, r) (by simp [Call.observation?])
          have hrecord := (ih hbefore hle).record (x := r) hzero hobserve (le_refl ⌊time⌋)
          exact hrecord.mono (Int.floor_le_floor hnow)
      | reject time reason =>
          have hsame : ((start.after calls).call (.reject time reason)).responseBuckets =
              (start.after calls).responseBuckets := by
            unfold AvailabilityMonitor.call AvailabilityMonitor.reject
            dsimp only
            split <;> rfl
          rw [hsame]
          simpa [Call.observation?, events] using
            ih hbefore fun o ho => hlast o (List.mem_append_left _ ho)
      | sampleAnonymousAudit time eventType =>
          have hsame : ((start.after calls).call
              (.sampleAnonymousAudit time eventType)).responseBuckets =
                (start.after calls).responseBuckets := by
            unfold AvailabilityMonitor.call AvailabilityMonitor.sampleAnonymousAudit
            dsimp only
            split
            · split <;> rfl
            · rfl
          rw [hsame]
          simpa [Call.observation?, events] using
            ih hbefore fun o ho => hlast o (List.mem_append_left _ ho)

/-- The responses that are in the window. -/
def seenIn (calls : List Call) (now : ℚ) : List Response :=
  ((observations calls).filter fun o => InWindow now o.1).map Prod.snd

theorem sum_map_ite {α : Type} (p : α → Bool) (l : List α) :
    (l.map fun x => if p x then 1 else 0).sum = l.countP p := by
  induction l with
  | nil => rfl
  | cons x l ih => by_cases h : p x <;> simp [h, ih, Nat.add_comm]

/-- A count that goes up with some observations is reported for those in the window. -/
theorem sum_recent (value : Tallies → Nat) (p : Response → Bool) (hzero : value .zero = 0)
    (hobserve : ∀ t r, value (t.observe r) = value t + if p r then 1 else 0)
    (hsorted : ((observations calls).map Prod.fst).Pairwise (· ≤ ·))
    (hlast : ∀ o ∈ observations calls, o.1 ≤ now) :
    ((Buckets.window (start.after calls).responseBuckets ⌊now⌋).map
      fun b => value b.content).sum = (seenIn calls now).countP p := by
  rw [(holds_after hzero hobserve hsorted hlast).sum_window, ← sum_map_ite]
  unfold Buckets.total events seenIn
  rw [List.filter_map, List.map_map, List.map_map]
  congr 2
  apply List.filter_congr
  intro o ho
  have hle := Int.floor_le_floor (hlast o ho)
  simp [InWindow, hle]

end Additive

/-! ## The counts -/

theorem bump_apply {ι : Type} [DecidableEq ι] (counts : ι → Nat) (index i : ι) :
    Tallies.bump counts index i = counts i + if index = i then 1 else 0 := by
  unfold Tallies.bump
  by_cases h : index = i
  · subst h
    simp
  · rw [Function.update_of_ne (Ne.symm h), if_neg h, add_zero]

/-- What the counts say of some responses. -/
structure Counted (seen : List Response) (t : Tallies) : Prop where
  statuses : ∀ i, t.statuses i = seen.countP fun r => r.statusIndex = i
  kinds : ∀ streaming, t.kinds streaming = seen.countP fun r => r.streaming = streaming
  latencies : ∀ i, t.latencies i = seen.countP fun r => r.answered && r.latencyIndex = i
  throttled : t.throttled = seen.countP Response.throttled

/-- **The last minute** is counted. -/
theorem counted_recent (hsorted : ((observations calls).map Prod.fst).Pairwise (· ≤ ·))
    (hlast : ∀ o ∈ observations calls, o.1 ≤ now) :
    Counted (seenIn calls now) ((start.after calls).recent now) where
  statuses i := by
    apply sum_recent (fun t => t.statuses i) _ rfl _ hsorted hlast
    intro t r
    simpa [Tallies.observe] using bump_apply t.statuses r.statusIndex i
  kinds streaming := by
    apply sum_recent (fun t => t.kinds streaming) _ rfl _ hsorted hlast
    intro t r
    simpa [Tallies.observe] using bump_apply t.kinds r.streaming streaming
  latencies i := by
    apply sum_recent (fun t => t.latencies i) _ rfl _ hsorted hlast
    intro t r
    by_cases h : r.answered
    · simpa [Tallies.observe, h] using bump_apply t.latencies r.latencyIndex i
    · simp [Tallies.observe, h]
  throttled := by
    apply sum_recent Tallies.throttled _ rfl _ hsorted hlast
    intro t r
    by_cases h : r.throttled <;> simp [Tallies.observe, h]

/-! ### The report -/

/-- What a snapshot reports about some responses. -/
structure Snapshot.Reports (s : Snapshot) (seen : List Response) : Prop where
  requests : s.requests = seen.length
  responses : s.responses = seen.countP Response.answered
  statusClasses : s.statusClasses = statusLabels.zip
    ((List.finRange 6).map fun i => seen.countP fun r => r.statusIndex = i)
  regular : s.regular = seen.countP fun r => !r.streaming
  stream : s.stream = seen.countP Response.streaming
  latencyBucketsMs : s.latencyBucketsMs = latencyLabels.zip
    ((List.finRange 6).map fun i => seen.countP fun r => r.answered && r.latencyIndex = i)
  throttledResponses : s.throttledResponses = seen.countP Response.throttled
  slowResponses : s.slowResponses = seen.countP fun r => r.answered && 3 ≤ r.latencyIndex

/-- Every response is of one class. -/
theorem sum_classes (f : Response → Fin 6) :
    ((List.finRange 6).map fun i => seen.countP fun r => f r = i).sum = seen.length := by
  induction seen with
  | nil => rfl
  | cons r seen ih =>
      simp only [List.countP_cons, List.length_cons, List.sum_map_add, ih]
      have hone : ((List.finRange 6).map fun i =>
          if decide (f r = i) = true then 1 else 0).sum = 1 := by
        generalize f r = i
        revert i
        decide
      rw [hone]

theorem slow_eq : (seen.countP fun r => r.answered && r.latencyIndex = 3) +
    (seen.countP fun r => r.answered && r.latencyIndex = 4) +
    (seen.countP fun r => r.answered && r.latencyIndex = 5) =
      seen.countP fun r => r.answered && 3 ≤ r.latencyIndex := by
  induction seen with
  | nil => rfl
  | cons r seen ih =>
      simp only [List.countP_cons, ← ih]
      have hone : ∀ (b : Bool) (i : Fin 6), (if (b && decide (i = 3)) = true then 1 else 0) +
          (if (b && decide (i = 4)) = true then 1 else 0) +
          (if (b && decide (i = 5)) = true then 1 else 0) =
            if (b && decide (3 ≤ i)) = true then 1 else 0 := by decide
      have := hone r.answered r.latencyIndex
      omega

theorem reports_snapshot (h : Counted seen (m.recent now)) : (m.snapshot now).Reports seen := by
  have hstatuses : (m.recent now).statuses = fun i => seen.countP fun r => r.statusIndex = i :=
    funext h.statuses
  have hlatencies : (m.recent now).latencies =
      fun i => seen.countP fun r => r.answered && r.latencyIndex = i := funext h.latencies
  have hrequests : (m.snapshot now).requests = seen.length := by
    show ((List.finRange 6).map (m.recent now).statuses).sum = _
    rw [hstatuses]
    exact sum_classes Response.statusIndex
  exact {
    requests := hrequests
    responses := by
      show (m.snapshot now).requests - (m.recent now).statuses 5 = _
      have hlength := List.length_eq_countP_add_countP (l := seen) Response.answered
      rw [hrequests, h.statuses]
      simp only [Response.answered] at hlength ⊢
      simp at hlength ⊢
      omega
    statusClasses := by
      show statusLabels.zip ((List.finRange 6).map (m.recent now).statuses) = _
      rw [hstatuses]
    regular := by
      show (m.recent now).kinds false = _
      rw [h.kinds]
      simp
    stream := by
      show (m.recent now).kinds true = _
      rw [h.kinds]
      simp
    latencyBucketsMs := by
      show latencyLabels.zip ((List.finRange 6).map (m.recent now).latencies) = _
      rw [hlatencies]
    throttledResponses := h.throttled
    slowResponses := by
      show (m.recent now).latencies 3 + (m.recent now).latencies 4 + (m.recent now).latencies 5 = _
      rw [h.latencies, h.latencies, h.latencies]
      exact slow_eq }

/-! ## The samples -/

/-- An entry more or another one in its place. -/
theorem sum_set {d : OrderedDict String (ℚ × Nat)} {k : String} {v : ℚ × Nat} :
    ((d.set k v).values.map Prod.snd).sum + ((d.get k).map Prod.snd).getD 0 =
      (d.values.map Prod.snd).sum + v.2 := by
  unfold OrderedDict.values
  have hset := ((OrderedDict.perm_set (d := d) (k := k) (v := v)).map Prod.snd).map Prod.snd
  rw [hset.sum_nat]
  cases hget : d.get k with
  | none =>
      rw [OrderedDict.pop_of_get hget]
      simp [Nat.add_comm]
  | some x =>
      rw [(((OrderedDict.perm_pop hget).map Prod.snd).map Prod.snd).sum_nat]
      simp
      omega

/-- **One denial** is a sample or waits to be reported, and a sample reports what has waited. -/
theorem suppressed_sample (m : AvailabilityMonitor) (now : ℚ) (eventType : String) :
    m.suppressed + 1 = (m.sampleAnonymousAudit now eventType).1.suppressed +
      (if (m.sampleAnonymousAudit now eventType).2.isSome then 1 else 0) +
        (m.sampleAnonymousAudit now eventType).2.getD 0 := by
  unfold sampleAnonymousAudit AvailabilityMonitor.suppressed
  dsimp only
  generalize (if eventType ∈ auditSampleLabels then eventType else "other") = label
  have hset := fun v => sum_set (d := m.auditSamples) (k := label) (v := v)
  obtain hget | ⟨⟨last, suppressed⟩, hget⟩ := (m.auditSamples.get label).eq_none_or_eq_some
  · have hnew := hset (now, 0)
    simp only [hget, Option.map_none, Option.getD_none, Option.isSome_some, if_true,
      Option.getD_some] at hnew ⊢
    omega
  · simp only [hget]
    split
    · have hnew := hset (last, suppressed + 1)
      simp only [hget, Option.map_some, Option.getD_some, Option.isSome_none, Bool.false_eq_true,
        if_false, Option.getD_none] at hnew ⊢
      omega
    · have hnew := hset (now, 0)
      simp only [hget, Option.map_some, Option.getD_some, Option.isSome_some, if_true] at hnew ⊢
      omega

theorem suppressed_reject (m : AvailabilityMonitor) (now : ℚ) (reason : String) :
    (m.reject now reason).1.suppressed = m.suppressed := by
  unfold AvailabilityMonitor.reject
  dsimp only
  split <;> rfl

/-- **No denial is lost.** -/
theorem denials_conserved (m : AvailabilityMonitor) (calls : List Call) :
    (m.answers calls).length + m.suppressed = (m.answers calls).countP Option.isSome +
      ((m.answers calls).filterMap id).sum + (m.after calls).suppressed := by
  induction calls generalizing m with
  | nil => simp [answers, AvailabilityMonitor.after]
  | cons c calls ih =>
      cases c with
      | observeResponse now r => exact ih (m.observeResponse now r)
      | reject now reason =>
          have hrest := ih (m.reject now reason).1
          rw [suppressed_reject] at hrest
          exact hrest
      | sampleAnonymousAudit now eventType =>
          have hfirst := suppressed_sample m now eventType
          have hrest := ih (m.sampleAnonymousAudit now eventType).1
          show ((m.sampleAnonymousAudit now eventType).2 :: _).length + _ =
            ((m.sampleAnonymousAudit now eventType).2 :: _).countP _ +
              (((m.sampleAnonymousAudit now eventType).2 :: _).filterMap id).sum +
                ((m.sampleAnonymousAudit now eventType).1.after calls).suppressed
          cases hanswer : (m.sampleAnonymousAudit now eventType).2 with
          | none =>
              rw [hanswer, Option.isSome_none, if_neg Bool.false_ne_true] at hfirst
              rw [List.length_cons, List.countP_cons_of_neg Bool.false_ne_true,
                List.filterMap_cons_none rfl]
              simp only [Option.getD_none] at hfirst
              omega
          | some reported =>
              rw [hanswer, Option.isSome_some, if_pos rfl] at hfirst
              rw [List.length_cons, List.countP_cons_of_pos rfl,
                List.filterMap_cons_some (f := id) rfl, List.sum_cons]
              simp only [Option.getD_some] at hfirst
              omega

/-- **What the monitor reports**, for every sequence of calls. If the times of the observations do
not decrease, a snapshot counts those that fall into the last sixty seconds and no others. And the
denials are the samples, what the samples report as suppressed, and what a snapshot says is still
suppressed. -/
theorem availability_accounting (calls : List Call) :
    (∀ now, ((observations calls).map Prod.fst).Pairwise (· ≤ ·) →
      (∀ o ∈ observations calls, o.1 ≤ now) →
        ((start.after calls).snapshot now).Reports (seenIn calls now)) ∧
    ∀ now, (start.answers calls).length = (start.answers calls).countP Option.isSome +
      ((start.answers calls).filterMap id).sum +
        ((start.after calls).snapshot now).anonymousAuditSuppressed :=
  ⟨fun _ hsorted hlast => reports_snapshot (counted_recent hsorted hlast),
    fun _ => denials_conserved start calls⟩

/-- Two responses more than a minute apart, and three denials of one kind. -/
def sampleCalls : List Call := [
  .sampleAnonymousAudit 0 "auth.login",
  .observeResponse (1 / 2) ⟨some 200, some 30, false⟩,
  .sampleAnonymousAudit 10 "auth.login",
  .observeResponse 61 ⟨some 503, some 700, true⟩,
  .sampleAnonymousAudit 62 "auth.login"]

theorem availability_accounting_sample :
    ((start.after sampleCalls).snapshot 62).Reports [⟨some 503, some 700, true⟩] ∧
      start.answers sampleCalls = [some 0, none, some 1] ∧
      ((start.after sampleCalls).snapshot 62).anonymousAuditSuppressed = 0 := by
  obtain ⟨hsnapshot, hdenials⟩ := availability_accounting sampleCalls
  have hseen : seenIn sampleCalls 62 = [⟨some 503, some 700, true⟩] := by
    decide +kernel
  have hanswers : start.answers sampleCalls = [some 0, none, some 1] := by decide +kernel
  have hconserved := hdenials 62
  rw [hanswers] at hconserved
  refine ⟨hseen ▸ hsnapshot 62 (by decide +kernel) (by decide +kernel), hanswers, ?_⟩
  simpa using hconserved

end Scap.Availability
