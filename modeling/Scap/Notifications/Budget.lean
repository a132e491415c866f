import Mathlib.Algebra.Order.Group.Int
import Scap.Lib.SlidingWindow
import Scap.Notifications.Phone

/-!
# The budget of challenges and attempts

What bounds the challenges of an account are the rows that are left of them. `Quiet`: an operation
other than a request or an attempt leaves the rows that are younger than two days as they are, up to
their consumption. So for a day or an hour the rows tell what was issued (`Counted`), and the
attempts at a challenge are counted in its row or are over (`Tried`).

`sms_budget` is about every run, in which clocks may go back by a day.
-/

namespace Scap.Notifications

open Scap.Lib SlidingWindow

/-! ## What the budget reads of a row -/

/-- The account, the time, the identifier and the attempts of a challenge. -/
structure Evidence where
  userId : String
  createdAt : Int
  id : String
  attempts : Nat
  deriving DecidableEq, Repr

def Challenge.evidence (c : Challenge) : Evidence := ⟨c.userId, c.createdAt, c.id, c.attempts⟩

/-- The evidence in a table. -/
def evidence (t : KeyedTable Challenge.id) : List Evidence := t.rows.map Challenge.evidence

/-- The evidence that is younger than `cut` stays as it is, and no consumed row becomes usable. -/
structure Quiet (cut : Int) (t u : KeyedTable Challenge.id) : Prop where
  from_row : ∀ d ∈ u.rows, ∃ c ∈ t.rows, d.evidence = c.evidence ∧
    (d.consumedAt = none → c.consumedAt = none)
  young : (evidence u).filter (fun e => cut < e.createdAt) =
    (evidence t).filter fun e => cut < e.createdAt

section Quiet

variable {cut : Int} {t u v : KeyedTable Challenge.id}

theorem Quiet.refl (cut : Int) (t : KeyedTable Challenge.id) : Quiet cut t t :=
  ⟨fun d hd => ⟨d, hd, rfl, id⟩, rfl⟩

theorem Quiet.trans (h : Quiet cut t u) (h' : Quiet cut u v) : Quiet cut t v := by
  refine ⟨fun d hd => ?_, h'.young.trans h.young⟩
  obtain ⟨c, hc, hevidence, hconsumed⟩ := h'.from_row d hd
  obtain ⟨b, hb, hevidence', hconsumed'⟩ := h.from_row c hc
  exact ⟨b, hb, hevidence.trans hevidence', hconsumed' ∘ hconsumed⟩

/-- Old rows are deleted. -/
theorem Quiet.filter {p : Challenge → Bool}
    (h : ∀ c ∈ t.rows, p c = false → c.createdAt ≤ cut) : Quiet cut t (t.filter p) := by
  refine ⟨fun d hd => ⟨d, (List.mem_filter.mp hd).1, rfl, id⟩, ?_⟩
  show ((t.rows.filter p).map Challenge.evidence).filter _ =
    (t.rows.map Challenge.evidence).filter _
  rw [List.filter_map, List.filter_map, List.filter_filter]
  congr 1
  apply List.filter_congr
  intro c hc
  cases hp : p c with
  | true => simp
  | false =>
      have hold : ¬ cut < c.evidence.createdAt := Int.not_lt.mpr (h c hc hp)
      simp [hold]

/-- Columns are written that are no evidence. -/
theorem Quiet.modify {f : Challenge → Challenge} (hid : ∀ c, (f c).id = c.id)
    (h : ∀ c, (f c).evidence = c.evidence ∧ ((f c).consumedAt = none → c.consumedAt = none)) :
    Quiet cut t (t.modify f hid) := by
  constructor
  · intro d hd
    obtain ⟨c, hc, rfl⟩ := List.mem_map.mp hd
    exact ⟨c, hc, h c⟩
  · have hrows : (t.rows.map f).map Challenge.evidence = evidence t := by
      rw [List.map_map]
      exact List.map_congr_left fun c _ => (h c).1
    show ((t.rows.map f).map Challenge.evidence).filter _ = _
    rw [hrows]

/-- Rows above the cut are counted alike. -/
theorem Quiet.countP {p : Evidence → Bool} (h : Quiet cut t u)
    (hp : ∀ e, p e = true → cut < e.createdAt) : (evidence u).countP p = (evidence t).countP p := by
  have hboth : ∀ es : List Evidence,
      es.countP p = (es.filter fun e => cut < e.createdAt).countP p := by
    intro es
    rw [List.countP_filter]
    apply List.countP_congr
    intro e _
    constructor
    · intro he
      simp [he, hp e he]
    · intro he
      simpa using (Bool.and_eq_true_iff.mp he).1
  rw [hboth, h.young, ← hboth]

/-- A row above the cut is still there. -/
theorem Quiet.mem {e : Evidence} (h : Quiet cut t u) (he : e ∈ evidence t)
    (hcut : cut < e.createdAt) : e ∈ evidence u := by
  have hmem : e ∈ (evidence t).filter fun e => cut < e.createdAt :=
    List.mem_filter.mpr ⟨he, decide_eq_true hcut⟩
  rw [← h.young] at hmem
  exact (List.mem_filter.mp hmem).1

end Quiet

/-! ## What an operation can do -/

variable {cfg : Settings} {s t : Store} {now : Int}

/-- A challenge is issued where the budget has room. -/
structure Issues (s : Store) (now : Int) (t : Store) (c : Challenge)
    (before : KeyedTable Challenge.id) : Prop where
  quiet : Quiet (now - 2 * day) s.challenges before
  hourly : (evidence s.challenges).countP
    (fun e => e.userId = c.userId && now - hour < e.createdAt) < 3
  daily : (evidence s.challenges).countP
    (fun e => e.userId = c.userId && now - day < e.createdAt) < 10
  inserted : before.insert? c = some t.challenges
  created : c.createdAt = now
  fresh : c.attempts = 0
  issued : t.issued = s.issued ++ [(c.userId, now)]
  attempted : t.attempted = s.attempted

/-- **What an operation can do**: nothing that matters, issue a challenge, or count an attempt. -/
inductive Does (s : Store) (now : Int) (t : Store) : Prop
  | nothing (quiet : Quiet (now - 2 * day) s.challenges t.challenges) (issued : t.issued = s.issued)
      (attempted : t.attempted = s.attempted)
  | issues (c : Challenge) (before : KeyedTable Challenge.id) (h : Issues s now t c before)
  | attempts (c : Challenge) (right : Bool) (mem : c ∈ s.challenges.rows)
      (open_ : c.consumedAt = none) (challenges : t.challenges = (s.attempt now c right).challenges)
      (issued : t.issued = s.issued)
      (attempted : t.attempted = s.attempted ++ [(c.id, c.createdAt)])

theorem Does.refl (s : Store) (now : Int) : Does s now s := .nothing (Quiet.refl _ _) rfl rfl

theorem quiet_consumeAll {cut : Int} {u : KeyedTable Challenge.id} {userId : String} :
    Quiet cut u (consumeAll u userId now) := by
  apply Quiet.modify
  intro c
  split
  · exact ⟨rfl, fun h => by cases h⟩
  · exact ⟨rfl, id⟩

theorem countP_evidence (u : KeyedTable Challenge.id) (p : Evidence → Bool) :
    (evidence u).countP p = u.rows.countP fun c => p c.evidence := by
  rw [evidence, List.countP_map]
  rfl

theorem does_requestPhone {userId jti phone id code : String} {secret : String × String} :
    Does s now (requestPhone cfg s now userId jti phone id code secret).1 := by
  unfold requestPhone
  split
  · exact .refl s now
  · split
    · exact .refl s now
    · simp only
      split
      · exact .refl s now
      · next hroom =>
        split
        · exact .refl s now
        · next challenges hinsert =>
          simp only [not_or, Nat.not_le] at hroom
          refine .issues _ _ ⟨?_, ?_, ?_, hinsert, rfl, rfl, rfl, rfl⟩
          · refine Quiet.trans (Quiet.filter ?_) quiet_consumeAll
            intro c _ hc
            simp only [outdated, Bool.not_eq_false', Bool.and_eq_true, decide_eq_true_eq] at hc
            exact hc.2.1
          · rw [countP_evidence]
            exact hroom.1
          · rw [countP_evidence]
            exact hroom.2.1

theorem does_verifyPhone {userId jti challengeId code : String} {secret : String × String} :
    Does s now (verifyPhone cfg s now userId jti challengeId code secret).1 := by
  unfold verifyPhone
  split
  · exact .refl s now
  · next c hfind =>
    have hc := (KeyedTable.find?_eq_some hfind).1
    split
    · exact .refl s now
    · next hvalid =>
      have hnone : c.consumedAt = none := by
        simp only [Challenge.valid, Bool.not_eq_true', Bool.not_eq_false, Bool.and_eq_true,
          decide_eq_true_eq] at hvalid
        exact hvalid.1.2
      split
      · exact .attempts c false hc hnone rfl rfl rfl
      · split
        · exact .refl s now
        · exact .attempts c true hc hnone rfl rfl rfl

theorem quiet_removePhone {userId : String} :
    Quiet (now - 2 * day) s.challenges (removePhone s now userId).challenges := by
  refine Quiet.modify (fun c => by split <;> rfl) fun c => ?_
  split
  · exact ⟨rfl, fun h => by cases h⟩
  · exact ⟨rfl, id⟩

theorem quiet_endSession {jti : String} :
    Quiet (now - 2 * day) s.challenges (endSession s jti).challenges := by
  refine Quiet.modify (fun c => by split <;> rfl) fun c => ?_
  split <;> exact ⟨rfl, id⟩

/-- Only what is outdated is swept. -/
theorem quiet_sweep {batchSize : Nat} :
    Quiet (now - 2 * day) s.challenges (sweep s now batchSize).challenges := by
  apply Quiet.filter
  intro c hc hswept
  obtain ⟨d, hd, hid⟩ := List.mem_map.mp (not_not.mp (of_decide_eq_false hswept))
  have hmem := List.mem_of_mem_take hd
  rw [List.mem_insertionSort] at hmem
  obtain ⟨hrow, houtdated⟩ := List.mem_filter.mp hmem
  obtain rfl := KeyedTable.eq_of_key hrow hc hid
  simp only [outdated, Bool.and_eq_true, decide_eq_true_eq] at houtdated
  exact houtdated.1

theorem does_perform (cfg : Settings) (s : Store) (now : Int) (op : Op) :
    Does s now (perform cfg s now op) := by
  cases op with
  | requestPhone userId jti phone id code secret => exact does_requestPhone
  | verifyPhone userId jti challengeId code secret => exact does_verifyPhone
  | removePhone userId => exact .nothing quiet_removePhone rfl rfl
  | endSession jti => exact .nothing quiet_endSession rfl rfl
  | sweep batchSize => exact .nothing quiet_sweep rfl rfl

/-! ## Challenges -/

/-- The rows tell what was issued in the last two days, and that was not too much. -/
structure Counted (s : Store) : Prop where
  rows : ∀ userId (p : Int → Bool), (∀ t, p t = true → s.clock - 2 * day < t) →
    (evidence s.challenges).countP (fun e => e.userId = userId && p e.createdAt) =
      (issuedTo s.issued userId).countP p
  hourly : ∀ userId, Sparse hour 3 (issuedTo s.issued userId)
  daily : ∀ userId, Sparse day 10 (issuedTo s.issued userId)

theorem issuedTo_append {issued : List (String × Int)} {userId other : String} {time : Int} :
    issuedTo (issued ++ [(other, time)]) userId =
      issuedTo issued userId ++ if other = userId then [time] else [] := by
  unfold issuedTo
  rw [List.filter_append, List.map_append]
  by_cases h : other = userId <;> simp [h]

/-- What the routes count is what was issued. -/
theorem Counted.length_live (h : Counted s) {w : Int} (hw : w ≤ day) (hclock : s.clock - day ≤ now)
    (userId : String) : (live w now (issuedTo s.issued userId)).length =
      (evidence s.challenges).countP fun e => e.userId = userId && now - w < e.createdAt := by
  rw [live, ← List.countP_eq_length_filter, ← h.rows userId]
  intro t ht
  have hlt := of_decide_eq_true ht
  unfold day hour at *
  omega

/-- An attempt changes neither the account nor the time of a challenge. -/
theorem countP_attempt {c : Challenge} {right : Bool} (p : String → Int → Bool) :
    (evidence (s.attempt now c right).challenges).countP (fun e => p e.userId e.createdAt) =
      (evidence s.challenges).countP fun e => p e.userId e.createdAt := by
  rw [countP_evidence, countP_evidence]
  show (s.challenges.rows.map _).countP _ = _
  rw [List.countP_map]
  apply List.countP_congr
  intro d _
  simp only [Function.comp_apply]
  split <;> rfl

theorem Counted.step (h : Counted s) (hclock : s.clock - day ≤ now) (hdoes : Does s now t)
    (ht : t.clock = max s.clock now) : Counted t := by
  have hlater : ∀ (p : Int → Bool), (∀ x, p x = true → t.clock - 2 * day < x) →
      ∀ x, p x = true → s.clock - 2 * day < x ∧ now - 2 * day < x := by
    intro p hp x hx
    have hlt := hp x hx
    rw [ht] at hlt
    omega
  -- rows that are left as they are
  have hkeep : ∀ u : KeyedTable Challenge.id, Quiet (now - 2 * day) s.challenges u →
      ∀ userId (p : Int → Bool), (∀ x, p x = true → t.clock - 2 * day < x) →
        (evidence u).countP (fun e => e.userId = userId && p e.createdAt) =
          (issuedTo s.issued userId).countP p := by
    intro u hquiet userId p hp
    rw [← h.rows userId p fun x hx => (hlater p hp x hx).1]
    apply hquiet.countP
    intro e he
    exact (hlater p hp _ (Bool.and_eq_true_iff.mp he).2).2
  cases hdoes with
  | nothing quiet issued attempted =>
      refine ⟨fun userId p hp => ?_, ?_, ?_⟩
      · rw [issued]
        exact hkeep _ quiet userId p hp
      · rw [issued]
        exact h.hourly
      · rw [issued]
        exact h.daily
  | issues c before hissues =>
      obtain ⟨quiet, hourly, daily, inserted, created, -, issued, -⟩ := hissues
      have hperm : (evidence t.challenges).Perm (c.evidence :: evidence before) := by
        rw [evidence, (KeyedTable.insert?_eq_some inserted).2]
        exact (List.perm_orderedInsert _ c before.rows).map _
      refine ⟨fun userId p hp => ?_, fun userId => ?_, fun userId => ?_⟩
      · rw [hperm.countP_eq, List.countP_cons, hkeep _ quiet userId p hp, issued, issuedTo_append,
          List.countP_append]
        congr 1
        subst created
        by_cases hsame : c.userId = userId
        · simp [Challenge.evidence, hsame]
        · simp [Challenge.evidence, hsame]
      · rw [issued, issuedTo_append]
        split
        · next hsame =>
          subst hsame
          apply (h.hourly _).append
          rw [h.length_live (by decide) hclock]
          exact hourly
        · rw [List.append_nil]
          exact h.hourly userId
      · rw [issued, issuedTo_append]
        split
        · next hsame =>
          subst hsame
          apply (h.daily _).append
          rw [h.length_live (Int.le_refl _) hclock]
          exact daily
        · rw [List.append_nil]
          exact h.daily userId
  | attempts c right mem open_ challenges issued attempted =>
      refine ⟨fun userId p hp => ?_, ?_, ?_⟩
      · rw [challenges, countP_attempt fun user time => user = userId && p time, issued]
        exact h.rows userId p fun x hx => (hlater p hp x hx).1
      · rw [issued]
        exact h.hourly
      · rw [issued]
        exact h.daily

/-! ## Attempts -/

/-- The attempts at a challenge are counted in its row. Where there is no row, it is so long ago
that no challenge with this time can be issued any more. -/
structure Tried (s : Store) : Prop where
  le : ∀ c ∈ s.challenges.rows, c.attempts ≤ 5 ∧ (c.consumedAt = none → c.attempts < 5)
  rows : ∀ c ∈ s.challenges.rows, s.attempted.count (c.id, c.createdAt) = c.attempts
  gone : ∀ a ∈ s.attempted, (∃ c ∈ s.challenges.rows, (c.id, c.createdAt) = a) ∨
    a.2 ≤ s.clock - 2 * day
  bound : ∀ a, s.attempted.count a ≤ 5

/-- A row that stays. -/
theorem Quiet.exists_row {cut : Int} {t u : KeyedTable Challenge.id} (h : Quiet cut t u)
    {c : Challenge} (hc : c ∈ t.rows) (hcut : cut < c.createdAt) :
    ∃ d ∈ u.rows, d.evidence = c.evidence := by
  have hmem := h.mem (List.mem_map.mpr ⟨c, hc, rfl⟩) hcut
  exact List.mem_map.mp hmem

theorem Tried.of_quiet (h : Tried s) (hquiet : Quiet (now - 2 * day) s.challenges t.challenges)
    (hattempted : t.attempted = s.attempted) (ht : t.clock = max s.clock now) : Tried t := by
  refine ⟨fun d hd => ?_, fun d hd => ?_, fun a ha => ?_, ?_⟩
  · obtain ⟨c, hc, hevidence, hconsumed⟩ := hquiet.from_row d hd
    have hsame : d.attempts = c.attempts := congrArg Evidence.attempts hevidence
    rw [hsame]
    exact ⟨(h.le c hc).1, fun hnone => (h.le c hc).2 (hconsumed hnone)⟩
  · obtain ⟨c, hc, hevidence, -⟩ := hquiet.from_row d hd
    obtain ⟨-, hcreated, hid, hsame⟩ := Evidence.mk.inj hevidence
    rw [hattempted, hsame, hcreated, hid]
    exact h.rows c hc
  · rw [hattempted] at ha
    rcases h.gone a ha with ⟨c, hc, rfl⟩ | hold
    · by_cases hcut : now - 2 * day < c.createdAt
      · obtain ⟨d, hd, hevidence⟩ := hquiet.exists_row hc hcut
        obtain ⟨-, hcreated, hid, -⟩ := Evidence.mk.inj hevidence
        exact .inl ⟨d, hd, by rw [hcreated, hid]⟩
      · right
        show c.createdAt ≤ _
        omega
    · right
      omega
  · rw [hattempted]
    exact h.bound

/-- A challenge that is issued now has not been attempted. -/
theorem Tried.issues (h : Tried s) {c : Challenge} {before : KeyedTable Challenge.id}
    (hclock : s.clock - day ≤ now) (hissues : Issues s now t c before)
    (ht : t.clock = max s.clock now) : Tried t := by
  obtain ⟨quiet, -, -, inserted, created, fresh, -, attempted⟩ := hissues
  let u : Store := { s with challenges := before, clock := max s.clock now }
  have hu : Tried u := Tried.of_quiet h quiet rfl rfl
  have hnew : s.attempted.count (c.id, c.createdAt) = 0 := by
    rw [List.count_eq_zero]
    intro hmem
    rcases hu.gone _ hmem with ⟨d, hd, hsame⟩ | hold
    · have hfree := KeyedTable.hasKey_eq_false.mp (KeyedTable.insert?_eq_some inserted).1 d hd
      exact hfree (Prod.mk.inj hsame).1
    · have hbefore : c.createdAt ≤ max s.clock now - 2 * day := hold
      unfold day hour at *
      omega
  have hmem : ∀ d, d ∈ t.challenges.rows ↔ d = c ∨ d ∈ before.rows :=
    fun d => KeyedTable.mem_insert? inserted
  refine ⟨fun d hd => ?_, fun d hd => ?_, fun a ha => ?_, ?_⟩
  · rcases (hmem d).mp hd with rfl | hd
    · rw [fresh]
      exact ⟨Nat.zero_le 5, fun _ => Nat.zero_lt_succ 4⟩
    · exact hu.le d hd
  · rw [attempted]
    rcases (hmem d).mp hd with rfl | hd
    · rw [hnew, fresh]
    · exact hu.rows d hd
  · rw [attempted] at ha
    rw [ht]
    rcases hu.gone a ha with ⟨d, hd, hsame⟩ | hold
    · exact .inl ⟨d, (hmem d).mpr (.inr hd), hsame⟩
    · exact .inr hold
  · rw [attempted]
    exact h.bound

/-- An attempt is counted in the row it is at, and the fifth one closes the row. -/
theorem Tried.attempts (h : Tried s) {c : Challenge} {right : Bool} (hc : c ∈ s.challenges.rows)
    (hopen : c.consumedAt = none) (hchallenges : t.challenges = (s.attempt now c right).challenges)
    (hattempted : t.attempted = s.attempted ++ [(c.id, c.createdAt)])
    (ht : t.clock = max s.clock now) : Tried t := by
  have hlt := (h.le c hc).2 hopen
  have hrows : ∀ d ∈ t.challenges.rows, d = c.attempt now right ∨
      d ∈ s.challenges.rows ∧ d.id ≠ c.id := by
    intro d hd
    rw [hchallenges] at hd
    obtain ⟨b, hb, rfl⟩ := List.mem_map.mp hd
    split
    · next hid =>
      obtain rfl := KeyedTable.eq_of_key hb hc hid
      exact .inl rfl
    · next hid => exact .inr ⟨hb, hid⟩
  refine ⟨fun d hd => ?_, fun d hd => ?_, fun a ha => ?_, fun a => ?_⟩
  · rcases hrows d hd with rfl | ⟨hd, -⟩
    · refine ⟨hlt, fun hnone => ?_⟩
      show c.attempts + 1 < 5
      -- the fifth attempt consumes the row
      by_contra hfive
      simp [Challenge.attempt, Nat.not_lt.mp hfive] at hnone
    · exact h.le d hd
  · rw [hattempted, List.count_append]
    rcases hrows d hd with rfl | ⟨hd, hid⟩
    · show s.attempted.count (c.id, c.createdAt) + _ = c.attempts + 1
      rw [h.rows c hc]
      simp [Challenge.attempt]
    · rw [h.rows d hd]
      simp [Ne.symm hid]
  · rw [hattempted] at ha
    have hkeep : ∀ b ∈ s.challenges.rows, ∃ d ∈ t.challenges.rows,
        (d.id, d.createdAt) = (b.id, b.createdAt) := by
      intro b hb
      rw [hchallenges]
      refine ⟨_, List.mem_map.mpr ⟨b, hb, rfl⟩, ?_⟩
      split <;> rfl
    rcases List.mem_append.mp ha with ha | ha
    · rcases h.gone a ha with ⟨b, hb, rfl⟩ | hold
      · exact .inl (hkeep b hb)
      · right
        omega
    · rw [List.mem_singleton.mp ha]
      exact .inl (hkeep c hc)
  · rw [hattempted, List.count_append]
    by_cases hsame : a = (c.id, c.createdAt)
    · subst hsame
      rw [h.rows c hc, List.count_singleton_self]
      exact hlt
    · have hnone : [(c.id, c.createdAt)].count a = 0 :=
        List.count_eq_zero.mpr fun hmem => hsame (List.mem_singleton.mp hmem)
      rw [hnone]
      exact h.bound a

/-! ## Every run -/

/-- The reading of the clock is not part of it. -/
theorem Does.withClock (h : Does s now t) (clock : Int) : Does s now { t with clock } := by
  cases h with
  | nothing quiet issued attempted => exact .nothing quiet issued attempted
  | issues c before hissues =>
      exact .issues c before ⟨hissues.quiet, hissues.hourly, hissues.daily, hissues.inserted,
        hissues.created, hissues.fresh, hissues.issued, hissues.attempted⟩
  | attempts c right mem open_ challenges issued attempted =>
      exact .attempts c right mem open_ challenges issued attempted

theorem Tried.step (h : Tried s) (hclock : s.clock - day ≤ now) (hdoes : Does s now t)
    (ht : t.clock = max s.clock now) : Tried t := by
  cases hdoes with
  | nothing quiet issued attempted => exact h.of_quiet quiet attempted ht
  | issues c before hissues => exact h.issues hclock hissues ht
  | attempts c right mem open_ challenges issued attempted =>
      exact h.attempts mem open_ challenges attempted ht

theorem counted_initial (clock : Int) : Counted (.initial clock) :=
  ⟨fun _ _ _ => rfl, fun _ => sparse_nil, fun _ => sparse_nil⟩

theorem tried_initial (clock : Int) : Tried (.initial clock) :=
  ⟨fun _ h => absurd h List.not_mem_nil, fun _ h => absurd h List.not_mem_nil,
    fun _ h => absurd h List.not_mem_nil, fun _ => Nat.zero_le 5⟩

/-- **The SMS budget.** Whatever the order of the operations, an account is sent at most three
challenges in any hour and at most ten in any day, and each challenge is attempted at most five
times. -/
theorem sms_budget (h : (phoneSystem cfg).Reachable s) :
    (∀ userId, Sparse hour 3 (issuedTo s.issued userId) ∧
      Sparse day 10 (issuedTo s.issued userId)) ∧
    ∀ challenge, s.attempted.count challenge ≤ 5 := by
  have hinv : Counted s ∧ Tried s := by
    refine System.Reachable.induct (I := fun s => Counted s ∧ Tried s) ?_ ?_ h
    · rintro _ ⟨clock, rfl⟩
      exact ⟨counted_initial clock, tried_initial clock⟩
    · intro s a t _ ⟨hcounted, htried⟩ hstep
      change step cfg s a = some t at hstep
      unfold step at hstep
      obtain ⟨hclock, rfl⟩ := of_allowed hstep
      have hdoes := (does_perform cfg s a.1 a.2).withClock (max s.clock a.1)
      exact ⟨hcounted.step hclock hdoes rfl, htried.step hclock hdoes rfl⟩
  exact ⟨fun userId => ⟨hinv.1.hourly userId, hinv.1.daily userId⟩, hinv.2.bound⟩

/-! ## A run -/

def sampleSettings : Settings where
  hmac _ message := ⟨List.replicate 32 (UInt8.ofNat message.size), by simp⟩
  recoveryKey := ⟨#[]⟩
  smsEnabled := true
  decryptUserSecret _ ciphertext _ _ := some ciphertext

/-- Three challenges, a fourth one that is refused, an attempt, the removal of the number, and a
sweep. -/
def sampleOps : List (Int × Op) :=
  [(0, .requestPhone "alice" "j" "+84901234567" "c1" "00000001" ("", "")),
    (1, .requestPhone "alice" "j" "+84901234568" "c2" "00000001" ("", "")),
    (2, .verifyPhone "alice" "j" "c2" "000" ("", "")),
    (3, .removePhone "alice"),
    (4, .requestPhone "alice" "j" "+84901234568" "c3" "00000001" ("", "")),
    (5, .requestPhone "alice" "j" "+84901234569" "c4" "00000001" ("", "")),
    (6, .sweep 100)]

/-- The fourth request was refused, and both bounds hold of what the run did. -/
theorem sms_budget_sample : ∃ s : Store,
    s.issued = [("alice", 0), ("alice", 1), ("alice", 4)] ∧ s.attempted = [("c2", 1)] ∧
      (∀ userId, Sparse hour 3 (issuedTo s.issued userId) ∧
        Sparse day 10 (issuedTo s.issued userId)) ∧
      ∀ challenge, s.attempted.count challenge ≤ 5 := by
  have hrun : (System.exec (step sampleSettings) (.initial 0) sampleOps).map
      (fun s => (s.issued, s.attempted)) =
      some ([("alice", 0), ("alice", 1), ("alice", 4)], [("c2", 1)]) := by decide +kernel
  obtain ⟨s, hs, hview⟩ := Option.map_eq_some_iff.mp hrun
  obtain ⟨hissued, hattempted⟩ := Prod.mk.inj hview
  have hreachable : (phoneSystem sampleSettings).Reachable s :=
    ⟨.initial 0, sampleOps, ⟨0, rfl⟩, System.run_of_exec hs⟩
  obtain ⟨hsent, htried⟩ := sms_budget hreachable
  exact ⟨s, hissued, hattempted, hsent, htried⟩

end Scap.Notifications
