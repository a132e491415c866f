import Scap.Availability.Admission
import Scap.Lib.Run
import Scap.Lib.Slots

/-!
# Admission conserves its slots

The counters of the two budgets and of the sources are `Accounted` for by the requests in flight,
and what a request holds is a matter of its phase (`Flight.Ok`). Hence no release ever raises.

* `Moves` — what a step does to one request and to the counters;
* `Inv`, `inv_step` — the invariant;
* `admission_conserves_slots` — what it says about every reachable state.

Requests that are left to the inner boundary are in flight without a slot, and what the shared
limiter refuses keeps its slot until the rejection is sent (`not_slotPerFlight`).
-/

namespace Scap.Availability

open Scap.Py Scap.Lib

/-! ## Who holds what -/

/-- What there are counters for. -/
inductive Slot where
  | budget (streaming : Bool)
  | source (key : String × Bool)
  deriving DecidableEq

/-- From `acquire` to `release`. -/
def Phase.admitted : Phase → Bool
  | .counting | .sourceFull | .checking | .refusing | .running | .leaving | .releasing => true
  | .delegated | .admitting | .rejecting | .done => false

/-- While the source is counted, for a request that has one. -/
def Phase.counted : Phase → Bool
  | .checking | .refusing | .running | .leaving => true
  | _ => false

namespace Flight

variable (f : Flight)

def sourceKey : Option (String × Bool) := f.scope.sourceKey f.ip

/-- What a request holds of a kind of slots. -/
def holds : Slot → Int
  | .budget streaming => if f.scope.streaming = streaming then f.slots else 0
  | .source key => if f.sourceKey = some key then f.sourceSlots else 0

/-- One slot from admission to release, and one of its source while that is counted. -/
structure Ok : Prop where
  slots : f.slots = if f.phase.admitted then 1 else 0
  sourceSlots : f.sourceSlots = if f.phase.counted && f.sourceKey.isSome then 1 else 0
  /-- Only a request with a source is counted. -/
  source : f.phase = .counting ∨ f.phase = .leaving → f.sourceKey.isSome

variable {f} {k : Slot}

theorem Ok.slots_nonneg (h : f.Ok) : 0 ≤ f.slots := by
  rw [h.slots]
  split <;> omega

theorem Ok.sourceSlots_nonneg (h : f.Ok) : 0 ≤ f.sourceSlots := by
  rw [h.sourceSlots]
  split <;> omega

theorem Ok.holds_nonneg (h : f.Ok) : 0 ≤ f.holds k := by
  have := h.slots_nonneg
  have := h.sourceSlots_nonneg
  unfold holds
  split <;> split <;> omega

/-- A request without slots holds nothing. -/
theorem holds_eq_zero (hslots : f.slots = 0) (hsource : f.sourceSlots = 0) : f.holds k = 0 := by
  unfold holds
  rw [hslots, hsource]
  split <;> split <;> rfl

end Flight

namespace Middleware

variable (cfg : Settings) (m : Middleware)

/-- A source that is not in the dictionary counts as zero. -/
def counter : Slot → Int
  | .budget streaming => (m.budget streaming).active
  | .source key => (m.sources.get key).getD 0

/-- How many slots a budget has. -/
def budgetMaximum (streaming : Bool) : Nat :=
  if streaming then cfg.requestMaxStreams else cfg.requestMaxConcurrent

/-- The counters are within their limits, and no source stands in the dictionary with zero. -/
structure Within : Prop where
  maximum : ∀ streaming, (m.budget streaming).maximum = budgetMaximum cfg streaming
  budget : ∀ streaming, (m.budget streaming).active ≤ (m.budget streaming).maximum
  source : ∀ key n, m.sources.get key = some n → 0 < n ∧ n ≤ sourceMaximum cfg key.2

/-- What holds of the counters and of the requests. -/
structure Inv : Prop where
  within : m.Within cfg
  ok : ∀ f ∈ m.flights, f.Ok
  accounted : Accounted m.counter Flight.holds m.flights
  faults : m.faults = 0

/-- The request in place `i` goes from `f` to `f'`, and the counters change by what it holds. -/
structure Moves (m m' : Middleware) (i : Nat) (f f' : Flight) : Prop where
  flights : m'.flights = m.flights.set i f'
  ok : f'.Ok
  counter : ∀ k, m'.counter k = m.counter k - f.holds k + f'.holds k
  within : m'.Within cfg
  faults : m'.faults = m.faults

end Middleware

/-! ## What a change of one field changes -/

section Fields

variable {cfg : Settings} {m m' : Middleware} {f f' : Flight} {k : Slot} {p : Phase} {n : Int}
  {key : String × Bool} {streaming : Bool} {b : CapacityBudget} {i : Nat}

namespace Flight

@[simp] theorem holds_budget : f.holds (.budget f.scope.streaming) = f.slots := if_pos rfl

theorem holds_source (h : f.sourceKey = some key) : f.holds (.source key) = f.sourceSlots := if_pos h

/-- Streams have counts of their own. -/
theorem sourceKey_streaming (h : f.sourceKey = some key) : key.2 = f.scope.streaming := by
  unfold sourceKey Scope.sourceKey at h
  split at h
  · cases h
  · rw [← Option.some.inj h]

@[simp] theorem holds_phase : ({ f with phase := p } : Flight).holds k = f.holds k := by
  cases k <;> rfl

theorem holds_slots : ({ f with phase := p, slots := n } : Flight).holds k =
    if k = .budget f.scope.streaming then n else f.holds k := by
  cases k with
  | budget streaming => simp only [holds, Slot.budget.injEq]; grind
  | source key => rfl

theorem holds_sourceSlots (h : f.sourceKey = some key) :
    ({ f with phase := p, sourceSlots := n } : Flight).holds k =
      if k = .source key then n else f.holds k := by
  cases k with
  | budget streaming => rfl
  | source key' =>
      show (if f.sourceKey = some key' then n else 0) = _
      simp only [holds, h, Slot.source.injEq, Option.some.injEq]
      grind

end Flight

namespace Middleware

@[simp] theorem counter_withFlight : (m.withFlight i f).counter k = m.counter k := by
  cases k with
  | budget streaming => cases streaming <;> rfl
  | source key => rfl

theorem budget_withBudget {s : Bool} :
    (m.withBudget streaming b).budget s = if s = streaming then b else m.budget s := by
  cases streaming <;> cases s <;> rfl

theorem counter_withBudget : (m.withBudget streaming b).counter k =
    if k = .budget streaming then b.active else m.counter k := by
  cases k with
  | budget s =>
      show ((m.withBudget streaming b).budget s).active = _
      rw [budget_withBudget]
      simp only [counter, Slot.budget.injEq]
      split <;> rfl
  | source key => cases streaming <;> rfl

theorem Within.source_nonneg (h : m.Within cfg) : 0 ≤ (m.sources.get key).getD 0 := by
  cases hget : m.sources.get key with
  | none => exact Int.le_refl 0
  | some n => exact (h.source key n hget).1.le

theorem within_withFlight : (m.withFlight i f).Within cfg ↔ m.Within cfg := by
  constructor <;> exact fun h => ⟨h.maximum, h.budget, h.source⟩

theorem within_withBudget (h : m.Within cfg) (hmax : b.maximum = (m.budget streaming).maximum)
    (hle : b.active ≤ b.maximum) : (m.withBudget streaming b).Within cfg := by
  refine ⟨?_, ?_, ?_⟩
  · intro s
    rw [budget_withBudget]
    split
    · next hs => rw [hmax, hs, h.maximum]
    · exact h.maximum s
  · intro s
    rw [budget_withBudget]
    split
    · exact hle
    · exact h.budget s
  · intro key n hget
    apply h.source key n
    cases streaming <;> exact hget

end Middleware

end Fields

/-! ## The critical sections -/

section Sections

variable {cfg : Settings} {m : Middleware} {f : Flight} {i : Nat} {key : String × Bool} {p : Phase}
  {b : CapacityBudget} {n : Int}

namespace Middleware

theorem entered_cases (cfg : Settings) (f : Flight) :
    entered cfg f = .checking ∨ entered cfg f = .running := by
  unfold entered
  split
  · exact .inl rfl
  · exact .inr rfl

/-- A request in the `try` holds a slot of its budget, and one of its source if it has one. -/
theorem ok_entered {slots sourceSlots : Int} (hslots : slots = 1)
    (hsource : sourceSlots = if f.sourceKey.isSome then 1 else 0) :
    (⟨f.scope, f.ip, entered cfg f, slots, sourceSlots⟩ : Flight).Ok := by
  rcases entered_cases cfg f with h | h
  · rw [h]
    exact ⟨hslots, hsource, by simp⟩
  · rw [h]
    exact ⟨hslots, hsource, by simp⟩

/-- A change of phase alone. -/
theorem moves_phase (hm : m.Within cfg) (hok : ({ f with phase := p } : Flight).Ok) :
    Moves cfg m (m.withFlight i { f with phase := p }) i f { f with phase := p } where
  flights := rfl
  ok := hok
  counter k := by
    simp only [counter_withFlight, Flight.holds_phase]
    omega
  within := within_withFlight.mpr hm
  faults := rfl

/-- The budget changes by what the request takes or gives back. -/
theorem moves_budget (hm : m.Within cfg) (hmax : b.maximum = (m.budget f.scope.streaming).maximum)
    (hle : b.active ≤ b.maximum)
    (hactive : b.active = (m.budget f.scope.streaming).active - f.slots + n)
    (hok : ({ f with phase := p, slots := n } : Flight).Ok) :
    Moves cfg m ((m.withBudget f.scope.streaming b).withFlight i { f with phase := p, slots := n })
      i f { f with phase := p, slots := n } where
  flights := by cases f.scope.streaming <;> rfl
  ok := hok
  counter k := by
    rw [counter_withFlight, counter_withBudget, Flight.holds_slots (f := f) (p := p) (n := n)]
    split
    · next hk =>
      subst hk
      rw [Flight.holds_budget]
      exact hactive
    · omega
  within := within_withFlight.mpr (within_withBudget hm hmax hle)
  faults := by cases f.scope.streaming <;> rfl

/-- The source's count changes by what the request takes or gives back. -/
theorem moves_source {sources : OrderedDict (String × Bool) Int} (hm : m.Within cfg)
    (hkey : f.sourceKey = some key) (hother : ∀ j, j ≠ key → sources.get j = m.sources.get j)
    (hcount : (sources.get key).getD 0 = (m.sources.get key).getD 0 - f.sourceSlots + n)
    (hwithin : ∀ x, sources.get key = some x → 0 < x ∧ x ≤ sourceMaximum cfg key.2)
    (hok : ({ f with phase := p, sourceSlots := n } : Flight).Ok) :
    Moves cfg m ({ m with sources }.withFlight i { f with phase := p, sourceSlots := n })
      i f { f with phase := p, sourceSlots := n } where
  flights := rfl
  ok := hok
  counter k := by
    rw [counter_withFlight, Flight.holds_sourceSlots (p := p) (n := n) hkey]
    cases k with
    | budget streaming =>
        rw [if_neg (by simp)]
        show (m.budget streaming).active = (m.budget streaming).active - _ + _
        omega
    | source j =>
        show (sources.get j).getD 0 = (m.sources.get j).getD 0 - _ + _
        by_cases hj : j = key
        · subst hj
          rw [if_pos rfl, Flight.holds_source hkey]
          exact hcount
        · rw [if_neg (by simpa using hj), hother j hj]
          omega
  within := by
    refine ⟨hm.maximum, hm.budget, ?_⟩
    intro j x hget
    replace hget : sources.get j = some x := hget
    by_cases hj : j = key
    · exact hj ▸ hwithin x (hj ▸ hget)
    · exact hm.source j x (hother j hj ▸ hget)
  faults := rfl

theorem acquire_moves (hm : m.Within cfg) (hf : f.Ok) (hphase : f.phase = .admitting) :
    ∃ f', Moves cfg m (m.acquire cfg i f) i f f' := by
  have hslots : f.slots = 0 := by rw [hf.slots, hphase]; rfl
  have hsource : f.sourceSlots = 0 := by rw [hf.sourceSlots, hphase]; rfl
  unfold acquire CapacityBudget.acquire
  by_cases hfull : (m.budget f.scope.streaming).maximum ≤ (m.budget f.scope.streaming).active
  · rw [if_pos hfull]
    refine ⟨_, moves_budget hm rfl (hm.budget _) (n := f.slots) (p := .rejecting) ?_ ?_⟩
    · dsimp only
      omega
    · exact ⟨hslots, hsource, by simp⟩
  · rw [if_neg hfull]
    refine ⟨_, moves_budget hm rfl ?_ ?_ ?_⟩
    · dsimp only
      omega
    · dsimp only
      omega
    · by_cases hkey : f.sourceKey.isSome
      · rw [if_pos (show (f.scope.sourceKey f.ip).isSome = true from hkey)]
        refine ⟨?_, hsource, fun _ => hkey⟩
        dsimp only
        rw [hslots]
        rfl
      · rw [if_neg (show ¬ (f.scope.sourceKey f.ip).isSome = true from hkey)]
        exact ok_entered (by omega) (by rw [hsource, if_neg hkey])

theorem countSource_moves (hm : m.Within cfg) (hf : f.Ok) (hphase : f.phase = .counting)
    (hkey : f.sourceKey = some key) : ∃ f', Moves cfg m (m.countSource cfg i f key) i f f' := by
  have hslots : f.slots = 1 := by rw [hf.slots, hphase]; rfl
  have hsource : f.sourceSlots = 0 := by rw [hf.sourceSlots, hphase]; rfl
  unfold countSource
  dsimp only
  split
  · next hfree =>
    refine ⟨_, moves_source hm hkey ?_ ?_ ?_ ?_⟩
    · intro j hj
      rw [OrderedDict.get_set, if_neg hj]
    · rw [OrderedDict.get_set, if_pos rfl]
      show (m.sources.get key).getD 0 + 1 = _
      omega
    · intro x hx
      rw [OrderedDict.get_set, if_pos rfl] at hx
      obtain rfl := Option.some.inj hx
      have hnonneg : 0 ≤ (m.sources.get key).getD 0 := hm.source_nonneg
      rw [Flight.sourceKey_streaming hkey]
      omega
    · refine ok_entered hslots ?_
      rw [hsource, if_pos (Option.isSome_iff_exists.mpr ⟨key, hkey⟩)]
      rfl
  · exact ⟨_, moves_phase hm ⟨hslots, hsource, by simp⟩⟩

theorem release_moves (hm : m.Within cfg) (hpos : 0 < (m.budget f.scope.streaming).active)
    (hok : ({ f with phase := p, slots := f.slots - 1 } : Flight).Ok) :
    ∃ f', Moves cfg m (m.release i f p) i f f' := by
  have hle := hm.budget f.scope.streaming
  unfold release CapacityBudget.release
  rw [if_neg (by omega)]
  refine ⟨_, moves_budget hm rfl ?_ ?_ hok⟩
  · dsimp only
    omega
  · dsimp only
    omega

theorem leaveSource_moves (hm : m.Within cfg) (hf : f.Ok) (hphase : f.phase = .leaving)
    (hkey : f.sourceKey = some key) (hpos : 0 < (m.sources.get key).getD 0) :
    ∃ f', Moves cfg m (m.leaveSource i f key) i f f' := by
  have hslots : f.slots = 1 := by rw [hf.slots, hphase]; rfl
  have hsource : f.sourceSlots = 1 := by
    rw [hf.sourceSlots, hphase, hkey]
    rfl
  have hok : ({ f with phase := .releasing, sourceSlots := f.sourceSlots - 1 } : Flight).Ok := by
    refine ⟨hslots, ?_, by simp⟩
    dsimp only
    rw [hsource]
    rfl
  unfold leaveSource
  cases hget : m.sources.get key with
  | none => simp [hget] at hpos
  | some n =>
      obtain ⟨hn, hmax⟩ := hm.source key n hget
      dsimp only
      split
      · next hremaining =>
        refine ⟨_, moves_source hm hkey ?_ ?_ ?_ hok⟩
        · intro j hj
          rw [OrderedDict.get_set, if_neg hj]
        · rw [OrderedDict.get_set, if_pos rfl, hget]
          show n - 1 = n - _ + _
          omega
        · intro x hx
          rw [OrderedDict.get_set, if_pos rfl] at hx
          obtain rfl := Option.some.inj hx
          omega
      · next hremaining =>
        refine ⟨_, moves_source hm hkey ?_ ?_ ?_ hok⟩
        · intro j hj
          exact OrderedDict.get_pop_of_ne hj
        · rw [OrderedDict.get_pop_self, hget]
          show 0 = n - _ + _
          omega
        · intro x hx
          rw [OrderedDict.get_pop_self] at hx
          cases hx

theorem leave_moves (hm : m.Within cfg) (hf : f.Ok)
    (hphase : f.phase = .checking ∨ f.phase = .refusing ∨ f.phase = .running) :
    ∃ f', Moves cfg m (m.leave i f) i f f' := by
  have hslots : f.slots = 1 := by
    rw [hf.slots]
    rcases hphase with h | h | h <;> rw [h] <;> rfl
  have hsource : f.sourceSlots = if f.sourceKey.isSome then 1 else 0 := by
    rw [hf.sourceSlots]
    rcases hphase with h | h | h <;> rw [h] <;> rfl
  unfold leave
  by_cases hkey : f.sourceKey.isSome
  · rw [if_pos (show (f.scope.sourceKey f.ip).isSome = true from hkey)]
    exact ⟨_, moves_phase hm ⟨hslots, hsource, fun _ => hkey⟩⟩
  · rw [if_neg (show ¬ (f.scope.sourceKey f.ip).isSome = true from hkey)]
    refine ⟨_, moves_phase hm ⟨hslots, ?_, by simp⟩⟩
    dsimp only
    rw [hsource, if_neg hkey]
    rfl

/-! ## Steps -/

variable {m' : Middleware} {allow : Limiter} {op : Op}

/-- A slot that a request holds can be given back. -/
theorem Inv.pos (h : m.Inv cfg) (hi : m.flights[i]? = some f) {k : Slot} (hk : 0 < f.holds k) :
    0 < m.counter k :=
  h.accounted.pos (fun g hg _ => (h.ok g hg).holds_nonneg) (List.mem_of_getElem? hi) hk

theorem Inv.of_moves {f' : Flight} (h : m.Inv cfg) (hi : m.flights[i]? = some f)
    (hmoves : Moves cfg m m' i f f') : m'.Inv cfg where
  within := hmoves.within
  ok g hg := by
    rw [hmoves.flights] at hg
    rcases List.mem_or_eq_of_mem_set hg with hg | rfl
    · exact h.ok g hg
    · exact hmoves.ok
  accounted := by
    rw [hmoves.flights]
    exact h.accounted.move hi hmoves.counter
  faults := hmoves.faults.trans h.faults

theorem proceed_moves (h : m.Inv cfg) (hi : m.flights[i]? = some f)
    (hstep : m.proceed cfg i f = some m') : ∃ f', Moves cfg m m' i f f' := by
  have hf : f.Ok := h.ok f (List.mem_of_getElem? hi)
  have hpos : f.phase.admitted = true → 0 < (m.budget f.scope.streaming).active := by
    intro hadmitted
    apply h.pos (k := .budget f.scope.streaming) hi
    rw [Flight.holds_budget, hf.slots, if_pos hadmitted]
    exact Int.one_pos
  unfold proceed at hstep
  split at hstep
  · next _ hphase =>
    rw [← Option.some.inj hstep]
    exact acquire_moves h.within hf hphase
  · next key hphase hkey =>
    rw [← Option.some.inj hstep]
    exact countSource_moves h.within hf hphase hkey
  · next _ hphase =>
    rw [← Option.some.inj hstep]
    apply release_moves h.within (hpos (by rw [hphase]; rfl))
    refine ⟨?_, ?_, by simp⟩
    · dsimp only
      rw [hf.slots, hphase]
      rfl
    · dsimp only
      rw [hf.sourceSlots, hphase]
      rfl
  · next key hphase hkey =>
    rw [← Option.some.inj hstep]
    apply leaveSource_moves h.within hf hphase hkey
    apply h.pos (k := .source key) hi
    rw [Flight.holds_source hkey, hf.sourceSlots, hphase, show f.sourceKey = some key from hkey]
    exact Int.one_pos
  · next _ hphase =>
    rw [← Option.some.inj hstep]
    apply release_moves h.within (hpos (by rw [hphase]; rfl))
    refine ⟨?_, ?_, by simp⟩
    · dsimp only
      rw [hf.slots, hphase]
      rfl
    · dsimp only
      rw [hf.sourceSlots, hphase]
      rfl
  · cases hstep

theorem answer_moves (hm : m.Within cfg) (hf : f.Ok) (hstep : m.answer cfg i f allow = some m') :
    ∃ f', Moves cfg m m' i f f' := by
  unfold answer at hstep
  split at hstep
  · next hphase =>
    have hslots : f.slots = 1 := by rw [hf.slots, hphase]; rfl
    have hsource : f.sourceSlots = if f.sourceKey.isSome then 1 else 0 := by
      rw [hf.sourceSlots, hphase]
      rfl
    split at hstep
    · rw [← Option.some.inj hstep]
      exact ⟨_, moves_phase hm ⟨hslots, hsource, by simp⟩⟩
    · rw [← Option.some.inj hstep]
      exact ⟨_, moves_phase hm ⟨hslots, hsource, by simp⟩⟩
    · rw [← Option.some.inj hstep]
      exact ⟨_, moves_phase hm ⟨hslots, hsource, by simp⟩⟩
  · cases hstep

theorem finish_moves (hm : m.Within cfg) (hf : f.Ok) (hstep : m.finish i f = some m') :
    ∃ f', Moves cfg m m' i f f' := by
  unfold finish at hstep
  split at hstep
  · next hphase =>
    rw [← Option.some.inj hstep]
    refine ⟨_, moves_phase hm ⟨?_, ?_, by simp⟩⟩
    · dsimp only
      rw [hf.slots, hphase]
      rfl
    · dsimp only
      rw [hf.sourceSlots, hphase]
      rfl
  · next hphase =>
    rw [← Option.some.inj hstep]
    refine ⟨_, moves_phase hm ⟨?_, ?_, by simp⟩⟩
    · dsimp only
      rw [hf.slots, hphase]
      rfl
    · dsimp only
      rw [hf.sourceSlots, hphase]
      rfl
  · next hphase =>
    rw [← Option.some.inj hstep]
    exact leave_moves hm hf (.inl hphase)
  · next hphase =>
    rw [← Option.some.inj hstep]
    exact leave_moves hm hf (.inr (.inl hphase))
  · next hphase =>
    rw [← Option.some.inj hstep]
    exact leave_moves hm hf (.inr (.inr hphase))
  · cases hstep

/-- A request arrives without a slot. -/
theorem arrive_eq (cfg : Settings) (m : Middleware) (scope : Scope) (ip : Option String)
    (allow : Limiter) : ∃ f : Flight,
    m.arrive cfg scope ip allow = { m with flights := m.flights ++ [f] } ∧ f.Ok ∧ f.slots = 0 ∧
      f.sourceSlots = 0 := by
  unfold arrive
  dsimp only
  split
  · exact ⟨_, rfl, ⟨rfl, rfl, by simp⟩, rfl, rfl⟩
  · split
    · exact ⟨_, rfl, ⟨rfl, rfl, by simp⟩, rfl, rfl⟩
    · split
      · exact ⟨_, rfl, ⟨rfl, rfl, by simp⟩, rfl, rfl⟩
      · split
        · exact ⟨_, rfl, ⟨rfl, rfl, by simp⟩, rfl, rfl⟩
        · exact ⟨_, rfl, ⟨rfl, rfl, by simp⟩, rfl, rfl⟩
        · exact ⟨_, rfl, ⟨rfl, rfl, by simp⟩, rfl, rfl⟩

theorem Inv.arrive (h : m.Inv cfg) (scope : Scope) (ip : Option String) :
    (m.arrive cfg scope ip allow).Inv cfg := by
  obtain ⟨f, heq, hf, hslots, hsource⟩ := arrive_eq cfg m scope ip allow
  rw [heq]
  refine ⟨⟨h.within.maximum, h.within.budget, h.within.source⟩, ?_, ?_, h.faults⟩
  · intro g hg
    rcases List.mem_append.mp hg with hg | hg
    · exact h.ok g hg
    · exact List.mem_singleton.mp hg ▸ hf
  · exact h.accounted.join fun k => Flight.holds_eq_zero hslots hsource

theorem inv_step (h : m.Inv cfg) (hstep : m.step cfg op = some m') : m'.Inv cfg := by
  cases op with
  | arrive scope ip allow =>
      rw [← Option.some.inj hstep]
      exact h.arrive scope ip
  | proceed i =>
      obtain ⟨f, hi, hstep⟩ := Option.bind_eq_some_iff.mp hstep
      obtain ⟨f', hmoves⟩ := proceed_moves h hi hstep
      exact h.of_moves hi hmoves
  | answer i allow =>
      obtain ⟨f, hi, hstep⟩ := Option.bind_eq_some_iff.mp hstep
      obtain ⟨f', hmoves⟩ := answer_moves h.within (h.ok f (List.mem_of_getElem? hi)) hstep
      exact h.of_moves hi hmoves
  | finish i =>
      obtain ⟨f, hi, hstep⟩ := Option.bind_eq_some_iff.mp hstep
      obtain ⟨f', hmoves⟩ := finish_moves h.within (h.ok f (List.mem_of_getElem? hi)) hstep
      exact h.of_moves hi hmoves

theorem inv_start : (start cfg).Inv cfg where
  within := ⟨fun s => by cases s <;> rfl, fun s => by cases s <;> exact Int.natCast_nonneg _,
    fun key n h => by cases h⟩
  ok f hf := absurd hf List.not_mem_nil
  accounted := .nil fun k => by
    cases k with
    | budget s => cases s <;> rfl
    | source key => rfl
  faults := rfl

end Middleware

end Sections

/-! ## Runs -/

open Middleware

def admission (cfg : Settings) : System Middleware Op :=
  System.ofFun (fun m => m = start cfg) (step cfg)

variable {cfg : Settings} {m : Middleware}

theorem inv_of_reachable (h : (admission cfg).Reachable m) : m.Inv cfg := by
  apply System.Reachable.induct (I := Inv cfg) ?_ ?_ h
  · intro s hs
    rw [hs]
    exact inv_start
  · intro s op t _ hs hstep
    exact inv_step hs hstep

/-- A request whose response is not over can always go on. -/
theorem can_go_on (hm : m.Inv cfg) {f : Flight} {i : Nat} (hi : m.flights[i]? = some f)
    (hphase : f.phase ≠ .done) : ∃ op m', m.step cfg op = some m' := by
  have hsource := (hm.ok f (List.mem_of_getElem? hi)).source
  have hproceed : ∀ {m'}, m.proceed cfg i f = some m' → ∃ op m', m.step cfg op = some m' := by
    intro m' h
    exact ⟨.proceed i, m', Option.bind_eq_some_iff.mpr ⟨f, hi, h⟩⟩
  have hfinish : ∀ {m'}, m.finish i f = some m' → ∃ op m', m.step cfg op = some m' := by
    intro m' h
    exact ⟨.finish i, m', Option.bind_eq_some_iff.mpr ⟨f, hi, h⟩⟩
  cases h : f.phase with
  | delegated => exact hfinish (by rw [finish, h])
  | rejecting => exact hfinish (by rw [finish, h])
  | checking => exact hfinish (by rw [finish, h])
  | refusing => exact hfinish (by rw [finish, h])
  | running => exact hfinish (by rw [finish, h])
  | admitting => exact hproceed (by rw [proceed, h])
  | sourceFull => exact hproceed (by rw [proceed, h])
  | releasing => exact hproceed (by rw [proceed, h])
  | counting =>
      obtain ⟨key, hkey⟩ := Option.isSome_iff_exists.mp (hsource (.inl h))
      exact hproceed (by rw [proceed, h, show f.scope.sourceKey f.ip = some key from hkey])
  | leaving =>
      obtain ⟨key, hkey⟩ := Option.isSome_iff_exists.mp (hsource (.inr h))
      exact hproceed (by rw [proceed, h, show f.scope.sourceKey f.ip = some key from hkey])
  | done => exact absurd h hphase

/-- What the counters and the requests keep to. -/
structure Conserves (cfg : Settings) (m : Middleware) : Prop where
  budget : ∀ s, 0 ≤ (m.budget s).active ∧ (m.budget s).active ≤ budgetMaximum cfg s
  source : ∀ key n, m.sources.get key = some n → 0 < n ∧ n ≤ sourceMaximum cfg key.2
  /-- The counters count the requests' slots. -/
  accounted : Accounted m.counter Flight.holds m.flights
  /-- A request holds one slot from its admission until it gives it back. -/
  slots : ∀ f ∈ m.flights, f.slots = if f.phase.admitted then 1 else 0
  /-- It holds one of its source, unless it is for a frontend asset. -/
  sourceSlots : ∀ f ∈ m.flights, f.sourceSlots =
    if f.phase.counted && !f.scope.frontendAsset then 1 else 0
  /-- No release raises. -/
  faults : m.faults = 0
  /-- A request whose response is not over can go on. -/
  goesOn : ∀ (i : Nat) (f : Flight), m.flights[i]? = some f → f.phase ≠ .done →
    ∃ op m', m.step cfg op = some m'
  idle : (∀ f ∈ m.flights, f.phase = .done) →
    (∀ s, (m.budget s).active = 0) ∧ m.sources.rows = []

/-- **However the requests interleave, the slots are conserved.** -/
theorem admission_conserves_slots (h : (admission cfg).Reachable m) : Conserves cfg m := by
  have hinv := inv_of_reachable h
  have hnonneg : ∀ f ∈ m.flights, ∀ k, 0 ≤ f.holds k := fun f hf _ => (hinv.ok f hf).holds_nonneg
  refine ⟨?_, hinv.within.source, hinv.accounted, fun f hf => (hinv.ok f hf).slots, ?_, hinv.faults,
    fun i f hi => can_go_on hinv hi, ?_⟩
  · intro s
    have hle := hinv.within.budget s
    rw [hinv.within.maximum] at hle
    have hactive : 0 ≤ m.counter (.budget s) := hinv.accounted.nonneg hnonneg
    exact ⟨hactive, hle⟩
  · intro f hf
    have hsource : f.sourceKey.isSome = !f.scope.frontendAsset := by
      unfold Flight.sourceKey Scope.sourceKey
      cases f.scope.frontendAsset <;> rfl
    rw [← hsource]
    exact (hinv.ok f hf).sourceSlots
  · intro hdone
    have hzero : ∀ k, m.counter k = 0 := by
      intro k
      apply hinv.accounted.zero
      intro f hf
      obtain ⟨hslots, hsource, -⟩ := hinv.ok f hf
      rw [hdone f hf] at hslots hsource
      exact Flight.holds_eq_zero hslots hsource
    refine ⟨fun s => hzero (.budget s), ?_⟩
    apply List.eq_nil_iff_forall_not_mem.mpr
    rintro ⟨key, n⟩ hmem
    have hget := OrderedDict.get_eq_some.mpr hmem
    have hcount : (m.sources.get key).getD 0 = 0 := hzero (.source key)
    have hpos := (hinv.within.source key n hget).1
    rw [hget] at hcount
    exact absurd hcount (by simpa using hpos.ne')

/-! ## Sample runs -/

/-- One slot each, and a shared limiter. -/
def sampleSettings : Settings where
  requestMaxConcurrent := 1
  requestMaxStreams := 1
  requestIpMaxAttempts := 10
  requestGlobalMaxAttempts := 10
  requestIpMaxAssetAttempts := 10
  requestGlobalMaxAssetAttempts := 10
  authGlobalMaxAttempts := 10
  readinessMaxAttempts := 10
  requestIpMaxConcurrent := 1
  requestIpMaxStreams := 1
  sharedLimiter := true
  requestMaxConcurrent_pos := Nat.one_pos
  requestMaxStreams_pos := Nat.one_pos

def sampleScope : Scope := ⟨"http", some "GET", "/x", some [0x2f, 0x78], [], []⟩

/-- A request with more headers than are looked at. -/
def oversizedScope : Scope := { sampleScope with headers := List.replicate 101 ([], []) }

def allowed : Limiter := fun _ _ => .ok (true, 0)

def refused : Limiter := fun _ _ => .ok (false, 3)

/-- A request is refused by the shared limiter, another finds no slot left; both end. -/
def sampleOps : List Op :=
  [.arrive sampleScope (some "a") allowed, .proceed 0, .proceed 0,
    .arrive sampleScope (some "b") allowed, .proceed 1, .answer 0 refused, .finish 1, .finish 0,
    .proceed 0, .proceed 0]

/-- Decides what a run from the start ends in. -/
def endsWith (ops : List Op) (p : Middleware → Bool) : Bool :=
  ((System.exec (step sampleSettings) (start sampleSettings) ops).map p).getD false

theorem reachable_of_endsWith (ops : List Op) (p : Middleware → Bool) (h : endsWith ops p = true) :
    ∃ m, (admission sampleSettings).Reachable m ∧ p m = true := by
  unfold endsWith at h
  cases hrun : System.exec (step sampleSettings) (start sampleSettings) ops with
  | none => simp [hrun] at h
  | some m =>
      refine ⟨m, ⟨_, ops, rfl, System.run_of_exec hrun⟩, ?_⟩
      simpa [hrun] using h

theorem admission_sample : ∃ m, (admission sampleSettings).Reachable m ∧
    m.flights.map Flight.phase = [.done, .done] ∧ Conserves sampleSettings m := by
  obtain ⟨m, hreachable, hphases⟩ := reachable_of_endsWith sampleOps
    (fun m => m.flights.map Flight.phase = [.done, .done]) (by decide +kernel)
  exact ⟨m, hreachable, of_decide_eq_true hphases, admission_conserves_slots hreachable⟩

/-- Every request in the app holds a slot, and none that is being rejected does. -/
def SlotPerFlight (m : Middleware) : Prop :=
  (∀ f ∈ m.flights, f.phase = .delegated ∨ f.phase = .running → f.slots = 1) ∧
    ∀ f ∈ m.flights, f.phase = .rejecting ∨ f.phase = .refusing → f.slots = 0

/-- Neither half holds: a request with oversized metadata is passed on without a slot, and one that
the shared limiter refuses keeps its slot until the rejection is sent. -/
theorem not_slotPerFlight :
    (∃ m, (admission sampleSettings).Reachable m ∧ ∃ f ∈ m.flights,
      f.phase = .delegated ∧ f.scope.type = "http" ∧ f.scope.oversized = true ∧ f.slots = 0) ∧
    (∃ m, (admission sampleSettings).Reachable m ∧ ∃ f ∈ m.flights,
      f.phase = .refusing ∧ f.slots = 1) ∧
    ¬ ∀ m, (admission sampleSettings).Reachable m → SlotPerFlight m := by
  have hdelegated : ∃ m, (admission sampleSettings).Reachable m ∧ ∃ f ∈ m.flights,
      f.phase = .delegated ∧ f.scope.type = "http" ∧ f.scope.oversized = true ∧ f.slots = 0 := by
    obtain ⟨m, hreachable, hm⟩ := reachable_of_endsWith
      [.arrive oversizedScope (some "a") allowed]
      (fun m => m.flights = [⟨oversizedScope, "", .delegated, 0, 0⟩]) (by decide +kernel)
    have hflights : m.flights = [⟨oversizedScope, "", .delegated, 0, 0⟩] := of_decide_eq_true hm
    refine ⟨m, hreachable, ⟨oversizedScope, "", .delegated, 0, 0⟩, ?_, rfl, rfl, ?_, rfl⟩
    · rw [hflights]
      exact List.mem_singleton_self _
    · decide +kernel
  have hrefusing : ∃ m, (admission sampleSettings).Reachable m ∧ ∃ f ∈ m.flights,
      f.phase = .refusing ∧ f.slots = 1 := by
    obtain ⟨m, hreachable, hm⟩ := reachable_of_endsWith
      [.arrive sampleScope (some "a") allowed, .proceed 0, .proceed 0, .answer 0 refused]
      (fun m => m.flights = [⟨sampleScope, "a", .refusing, 1, 1⟩]) (by decide +kernel)
    have hflights : m.flights = [⟨sampleScope, "a", .refusing, 1, 1⟩] := of_decide_eq_true hm
    refine ⟨m, hreachable, ⟨sampleScope, "a", .refusing, 1, 1⟩, ?_, rfl, rfl⟩
    rw [hflights]
    exact List.mem_singleton_self _
  refine ⟨hdelegated, hrefusing, ?_⟩
  intro hall
  obtain ⟨m, hreachable, f, hf, hphase, -, -, hslots⟩ := hdelegated
  have hone := (hall m hreachable).1 f hf (.inl hphase)
  omega

end Scap.Availability
