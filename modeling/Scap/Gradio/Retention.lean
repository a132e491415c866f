import Scap.Gradio.ResultQueue
import Scap.Lib.Run
import Scap.Py.OrderedDict

/-!
# Retention of results

`GradioCapacity` admits no more events than it can keep, and lets the results of finished ones wait
for some time. Gradio's own code is not modelled: between two steps it may leave its tables as it
likes. A request is admitted under a lock, and others go on while it waits in there.

* `rows_prune` — what a cleanup retires;
* `effect_of_step` — what a step can do to the records;
* `results_retained` — in every run there is room for what was admitted, and nothing is retired that
  is queued or running or that may still be asked for;
* `bindings_kept` — in every run the callback of an event runs with the binding that was captured
  when the event was admitted, and with the state it was captured from.
-/

namespace Scap.Gradio

open Scap.Lib Scap.Py

/-! ## The tables -/

/-- `_HANDLE.fullmatch`. -/
def isHandle (value : String) : Bool :=
  1 ≤ value.length && value.length ≤ 128 && value.toList.all fun c =>
    c.isAlphanum || c = '_' || c = '-'

/-- An event of Gradio's queue. -/
structure Event where
  sessionHash : String
  fn : Nat
  deriving DecidableEq

/-- The tables of Gradio's queue. -/
structure Backend (α : Type) where
  eventQueues : List (List String)
  activeJobs : List (List String)
  eventAnalytics : List String
  eventCountAtLastCache : Nat
  eventIdsToEvents : String → Option Event
  pendingEventIdsSession : String → Option (List String)
  pendingMessagesPerSession : String → Option (ResultQueue α)

/-- `_RetainedEvent`, for bindings in `β`. -/
structure RetainedEvent (β : Type) where
  sessionHash : String
  terminalAt : Option Nat
  fnIndex : Nat
  authBinding : Option β
  deriving DecidableEq

/-- The tables that an event is retired from. -/
structure Tables (α β : Type) where
  events : OrderedDict String (RetainedEvent β)
  backend : Backend α

section Tables

variable {α β : Type}

/-- The messages of a queue without those of an event. -/
def ResultQueue.without (q : ResultQueue α) (id : String) : ResultQueue α :=
  { q with
    queue := q.queue.filter fun m => m.eventId ≠ some id
    unfinishedTasks := q.unfinishedTasks - q.queue.countP fun m => m.eventId = some id }

/-- `pending_event_ids_session.get(session, set())`. -/
def Backend.pending (b : Backend α) (session : String) : List String :=
  (b.pendingEventIdsSession session).getD []

/-- `_retire_locked`. -/
def Tables.retire (t : Tables α β) (id : String) (record : RetainedEvent β) : Tables α β :=
  let session := record.sessionHash
  let events := t.events.pop id
  let analytics := t.backend.eventAnalytics.filter fun key => key ≠ id
  let pending := (t.backend.pendingEventIdsSession session).map fun ids =>
    ids.filter fun key => key ≠ id
  let messages := (t.backend.pendingMessagesPerSession session).map fun q => q.without id
  let idle := (pending.getD []).isEmpty && !events.values.any fun r => r.sessionHash = session
  { events := events
    backend := { t.backend with
      eventAnalytics := analytics
      eventCountAtLastCache := min t.backend.eventCountAtLastCache analytics.length
      eventIdsToEvents := Function.update t.backend.eventIdsToEvents id none
      pendingEventIdsSession := Function.update t.backend.pendingEventIdsSession session
        (if idle then none else pending)
      pendingMessagesPerSession := Function.update t.backend.pendingMessagesPerSession session
        (if idle then none else messages) } }

end Tables

/-! ## The state -/

structure Settings where
  maximum : Nat
  ttl : Nat
  stateCapacity : Nat
  /-- The guard of the UI sessions is installed. -/
  captures : Bool

/-- A request in `push`, with the state it was given. -/
structure Admission (β : Type) where
  session : String
  state : Option Nat
  captured : Bool
  binding : Option β
  deriving DecidableEq

inductive Entry (β : Type) where
  | admitted (id : String) (event : Event) (state : Option Nat) (binding : Option β)
  | queueFull
  | unavailable (session : String)
  deriving DecidableEq

def Entry.admittedId {β : Type} : Entry β → Option String
  | .admitted id _ _ _ => some id
  | _ => none

/-- The states of the UI sessions are numbered as they are made. -/
structure State (α β : Type) extends Tables α β where
  now : Nat
  processing : List String
  admittingSessions : List String
  admission : Option (Admission β)
  sessions : OrderedDict String Nat
  states : Nat
  log : List (Entry β)

inductive Action (α β : Type) where
  | clock (time : Nat)
  | gradio (backend : Backend α)
  | request
  | lookup (session : String)
  | push (session eventId : Option String) (fresh : String)
  | capture (binding : Option β)
  | pushed (id : String)
  | notPushed
  | process (ids : List String)
  | processed (ids : List String)
  | clean (session eventId : Option String)
  | remove (id : String)

section Model

variable {α β : Type}

namespace State

variable (cfg : Settings) (s : State α β)

/-- `_active_ids`. -/
def activeIds : List String :=
  s.processing ++ s.backend.eventQueues.flatten ++ s.backend.activeJobs.flatten

/-- `_protected_sessions`. -/
def protectedSessions : List String :=
  s.admittingSessions ++ ((s.events.rows.filter fun r =>
    r.2.terminalAt.isNone || r.1 ∈ s.activeIds).map fun r => r.2.sessionHash)

/-- One turn of the loop of `prune`. -/
def pruneRow (active : List String) (now : Nat) (t : Tables α β)
    (row : String × RetainedEvent β) : Tables α β :=
  match row.2.terminalAt with
  | none => t
  | some time =>
    if row.1 ∈ active then t
    else if row.1 ∉ t.backend.pending row.2.sessionHash ∨ time + cfg.ttl ≤ now then
      t.retire row.1 row.2
    else t

/-- `prune`. -/
def prune : State α β :=
  { s with toTables := s.events.rows.foldl (pruneRow cfg s.activeIds s.now) s.toTables }

/-- `_StateHolder.__getitem__`; nothing for the `503`. Gradio's own holder puts a new state at the
end and moves one that is there to the end. -/
def lookup (session : String) : Option (State α β × Nat) :=
  match s.sessions.get session with
  | some state => some ({ s with sessions := (s.sessions.pop session).set session state }, state)
  | none =>
    let room : Option (OrderedDict String Nat) :=
      if s.sessions.len < cfg.stateCapacity then some s.sessions
      else (s.sessions.rows.find? fun r => r.1 ∉ s.protectedSessions).map fun r =>
        s.sessions.pop r.1
    room.map fun sessions =>
      ({ s with sessions := sessions.set session s.states, states := s.states + 1 }, s.states)

def write (e : Entry β) : State α β := { s with log := s.log ++ [e] }

/-- The end of `push`, whatever came of it. -/
def leave (session : String) : State α β :=
  { s with
    admission := none
    admittingSessions := s.admittingSessions.filter fun key => key ≠ session }

/-- `push` up to where it waits for the first time. -/
def beginPush (session : String) : State α β :=
  let pruned := s.prune cfg
  if cfg.maximum ≤ pruned.events.len then pruned.write .queueFull
  else
    let admitting := { pruned with admittingSessions := session :: pruned.admittingSessions }
    if cfg.captures then
      match admitting.lookup cfg session with
      | none => (admitting.write (.unavailable session)).leave session
      | some (t, state) => { t with admission := some ⟨session, some state, false, none⟩ }
    else { admitting with admission := some ⟨session, none, true, none⟩ }

/-- The loop of `clean_events`. -/
def finish (session eventId : Option String) : State α β :=
  { s with events := s.events.mapValues fun r =>
      if r.1 ∉ s.activeIds ∧ (some r.2.sessionHash = session ∨ some r.1 = eventId) then
        { r.2 with terminalAt := some s.now }
      else r.2 }

/-- `admitted_auth_binding`. -/
def admittedAuthBinding (eventId sessionHash : String) (fnIndex : Nat) : Option β :=
  (s.events.get eventId).bind fun record =>
    if record.sessionHash ≠ sessionHash ∨ record.fnIndex ≠ fnIndex then none
    else record.authBinding

end State

/-- A step, between two places where the loop may do something else. -/
def step (cfg : Settings) (s : State α β) : Action α β → Option (State α β)
  | .clock time => if s.now ≤ time then some { s with now := time } else none
  | .gradio backend => some { s with backend := backend }
  -- `_RetentionMiddleware`
  | .request => some (s.prune cfg)
  | .lookup session =>
    if isHandle session then
      match s.lookup cfg session with
      | none => some (s.write (.unavailable session))
      | some (t, _) => some t
    else none
  | .push session eventId fresh =>
    if s.admission.isNone ∧ ((session.getD fresh :: eventId.toList).all isHandle) = true then
      some (s.beginPush cfg (session.getD fresh))
    else none
  | .capture binding =>
    match s.admission with
    | none => none
    | some a => if a.captured then none else
        some { s with admission := some { a with captured := true, binding := binding } }
  | .pushed id =>
    match s.admission, s.backend.eventIdsToEvents id with
    | some a, some event =>
      -- Gradio has made an event of the session of the request
      if a.captured ∧ event.sessionHash = a.session then
        some ({ s with
          events := s.events.set id ⟨event.sessionHash, none, event.fn, a.binding⟩ }.write
            (.admitted id event a.state a.binding) |>.leave a.session)
      else none
    | _, _ => none
  | .notPushed => s.admission.map fun a => s.leave a.session
  | .process ids => some { s with processing := ids ++ s.processing }
  | .processed ids => some { s with
      processing := s.processing.filter fun key => key ∉ ids
      events := s.events.mapValues fun r =>
        if r.1 ∈ ids then { r.2 with terminalAt := some s.now } else r.2 }
  | .clean session eventId => some ((s.finish session eventId).prune cfg)
  | .remove id =>
    if id ∈ s.activeIds then some s
    else match s.events.get id with
      | none => some s
      | some record => some { s with toTables := s.toTables.retire id record }

end Model

/-! ## What a cleanup retires -/

section Prune

variable {α β : Type} {t : Tables α β} {s : State α β} {cfg : Settings} {id session : String}
  {record : RetainedEvent β}

/-- To retire an event takes it out of the events that wait, and no other. -/
theorem mem_pending_retire {key : String} : key ∈ (t.retire id record).backend.pending session ↔
    key ∈ t.backend.pending session ∧ (session = record.sessionHash → key ≠ id) := by
  unfold Tables.retire Backend.pending
  dsimp only
  by_cases hsession : session = record.sessionHash
  · subst hsession
    rw [Function.update_self]
    split
    · next hidle =>
      simp only [Bool.and_eq_true, List.isEmpty_iff] at hidle
      cases hpending : t.backend.pendingEventIdsSession record.sessionHash with
      | none => simp
      | some ids =>
          rw [hpending] at hidle
          simp only [Option.map_some, Option.getD_some, List.filter_eq_nil_iff,
            decide_eq_true_eq, not_not] at hidle
          simp only [Option.getD_none, List.not_mem_nil, Option.getD_some, false_iff]
          rintro ⟨hmem, hne⟩
          exact hne trivial (hidle.1 key hmem)
    · cases t.backend.pendingEventIdsSession record.sessionHash with
      | none => simp
      | some ids => simp
  · rw [Function.update_of_ne hsession]
    simp [hsession]

/-- An event that is finished and neither queued nor running, and that either was asked for or has
been kept for long enough. -/
def State.Retirable (cfg : Settings) (s : State α β) (row : String × RetainedEvent β) : Prop :=
  row.1 ∉ s.activeIds ∧ ∃ time, row.2.terminalAt = some time ∧
    (row.1 ∉ s.backend.pending row.2.sessionHash ∨ time + cfg.ttl ≤ s.now)

/-- A turn of the loop: the row goes just if it is retirable, whatever went before it. -/
theorem pruneRow_cases {row : String × RetainedEvent β}
    (hpending : row.1 ∈ t.backend.pending row.2.sessionHash ↔
      row.1 ∈ s.backend.pending row.2.sessionHash) :
    (s.Retirable cfg row ∧ State.pruneRow cfg s.activeIds s.now t row = t.retire row.1 row.2) ∨
      (¬ s.Retirable cfg row ∧ State.pruneRow cfg s.activeIds s.now t row = t) := by
  unfold State.pruneRow State.Retirable
  cases hterminal : row.2.terminalAt with
  | none => simp
  | some time =>
      dsimp only
      by_cases hactive : row.1 ∈ s.activeIds
      · simp [hactive]
      · rw [if_neg hactive]
        by_cases hgone : row.1 ∉ t.backend.pending row.2.sessionHash ∨ time + cfg.ttl ≤ s.now
        · rw [if_pos hgone]
          rw [hpending] at hgone
          exact Or.inl ⟨⟨hactive, time, rfl, hgone⟩, rfl⟩
        · rw [if_neg hgone]
          rw [hpending] at hgone
          refine Or.inr ⟨?_, rfl⟩
          rintro ⟨-, time', htime, hgone'⟩
          obtain rfl := Option.some.inj htime
          exact hgone hgone'

/-- Induction on the rows that are left: what was retired before them was not theirs. -/
theorem events_pruneRows {rows : List (String × RetainedEvent β)}
    (hnodup : (rows.map Prod.fst).Nodup)
    (hpending : ∀ row ∈ rows, row.1 ∈ t.backend.pending row.2.sessionHash ↔
      row.1 ∈ s.backend.pending row.2.sessionHash) {row : String × RetainedEvent β} :
    row ∈ (rows.foldl (State.pruneRow cfg s.activeIds s.now) t).events.rows ↔
      row ∈ t.events.rows ∧ ∀ r ∈ rows, r.1 = row.1 → ¬ s.Retirable cfg r := by
  induction rows generalizing t with
  | nil => simp
  | cons r rows ih =>
      rw [List.map_cons, List.nodup_cons] at hnodup
      have hothers : ∀ x ∈ rows, x.1 ≠ r.1 := by
        intro x hx heq
        exact hnodup.1 (heq ▸ List.mem_map_of_mem hx)
      rw [List.foldl_cons]
      have hcases : (s.Retirable cfg r ∧
          State.pruneRow cfg s.activeIds s.now t r = t.retire r.1 r.2) ∨
          (¬ s.Retirable cfg r ∧ State.pruneRow cfg s.activeIds s.now t r = t) :=
        pruneRow_cases (hpending r (by simp))
      rcases hcases with ⟨hret, hturn⟩ | ⟨hkeep, hturn⟩
      · rw [hturn, ih hnodup.2]
        · have hevents : row ∈ (t.retire r.1 r.2).events.rows ↔
              row ∈ t.events.rows ∧ row.1 ≠ r.1 := by
            show row ∈ t.events.rows.filter _ ↔ _
            simp
          rw [hevents]
          grind
        · intro x hx
          rw [mem_pending_retire, ← hpending x (List.mem_cons_of_mem _ hx)]
          simp [hothers x hx]
      · rw [hturn, ih hnodup.2 fun x hx => hpending x (List.mem_cons_of_mem _ hx)]
        grind

/-- **A cleanup** retires just the events that are retirable when it begins. -/
theorem rows_prune {row : String × RetainedEvent β} :
    row ∈ (s.prune cfg).events.rows ↔ row ∈ s.events.rows ∧ ¬ s.Retirable cfg row := by
  unfold State.prune
  rw [events_pruneRows s.events.nodup fun _ _ => Iff.rfl]
  constructor
  · rintro ⟨hrow, hall⟩
    exact ⟨hrow, hall row hrow rfl⟩
  · rintro ⟨hrow, hkeep⟩
    refine ⟨hrow, ?_⟩
    intro r hr hkey
    rwa [OrderedDict.row_eq hr hrow hkey]

theorem get_prune : (s.prune cfg).events.get id = some record ↔
    s.events.get id = some record ∧ ¬ s.Retirable cfg (id, record) := by
  rw [OrderedDict.get_eq_some, OrderedDict.get_eq_some, rows_prune]

theorem prune_le : (s.prune cfg).events ≤ s.events := by
  have hfold : ∀ (rows : List (String × RetainedEvent β)) (t : Tables α β),
      (rows.foldl (State.pruneRow cfg s.activeIds s.now) t).events ≤ t.events := by
    intro rows
    induction rows with
    | nil => exact fun t => OrderedDict.le_refl _
    | cons r rows ih =>
        intro t
        refine OrderedDict.le_trans (ih _) ?_
        rcases Classical.em ((State.pruneRow cfg s.activeIds s.now t r) = t) with h | h
        · rw [h]
          exact OrderedDict.le_refl _
        · have hturn : State.pruneRow cfg s.activeIds s.now t r = t.retire r.1 r.2 := by
            unfold State.pruneRow at h ⊢
            grind
          rw [hturn]
          exact OrderedDict.pop_le
  exact hfold s.events.rows s.toTables

/-- To finish events changes nothing else in their records. -/
theorem get_finished {p : String × RetainedEvent β → Prop} [DecidablePred p] {time : Nat}
    {events : OrderedDict String (RetainedEvent β)} :
    (events.mapValues fun r => if p r then { r.2 with terminalAt := some time } else r.2).get id =
      (events.get id).map fun r => if p (id, r) then { r with terminalAt := some time } else r := by
  ext x
  rw [OrderedDict.get_eq_some, Option.map_eq_some_iff]
  constructor
  · intro hx
    obtain ⟨r, hr, heq⟩ := List.mem_map.mp hx
    obtain ⟨rfl, rfl⟩ := Prod.mk.inj heq
    exact ⟨r.2, OrderedDict.get_eq_some.mpr hr, rfl⟩
  · rintro ⟨r, hr, rfl⟩
    exact List.mem_map.mpr ⟨(id, r), OrderedDict.get_eq_some.mp hr, rfl⟩

end Prune

/-! ## The states of the sessions -/

section Sessions

variable {α β : Type} {s t : State α β} {cfg : Settings} {session : String} {n : Nat}

/-- What it is to take the state of a session. -/
structure Looked (cfg : Settings) (s : State α β) (session : String) (t : State α β) (n : Nat) :
    Prop where
  rest : t = { s with sessions := t.sessions, states := t.states }
  here : t.sessions.get session = some n
  same : ∀ m, s.sessions.get session = some m → m = n
  others : ∀ k ≠ session, k ∈ s.protectedSessions → t.sessions.get k = s.sessions.get k
  bounded : s.sessions.len ≤ cfg.stateCapacity → t.sessions.len ≤ cfg.stateCapacity

theorem looked_of_lookup (h : s.lookup cfg session = some (t, n)) : Looked cfg s session t n := by
  unfold State.lookup at h
  split at h
  · next m hget =>
    obtain ⟨rfl, rfl⟩ := Prod.mk.inj (Option.some.inj h)
    refine ⟨rfl, OrderedDict.get_set_self, ?_, ?_, ?_⟩
    · intro m hm
      exact Option.some.inj (hm.symm.trans hget)
    · intro k hk _
      rw [OrderedDict.get_set, if_neg hk, OrderedDict.get_pop_of_ne hk]
    · intro hlen
      have hpop := OrderedDict.len_pop hget
      exact Nat.le_trans OrderedDict.len_set_le (hpop ▸ hlen)
  · next hget =>
    obtain ⟨room, hroom, heq⟩ := Option.map_eq_some_iff.mp h
    obtain ⟨rfl, rfl⟩ := Prod.mk.inj heq
    have hkeep : (∀ k ∈ s.protectedSessions, room.get k = s.sessions.get k) ∧
        (s.sessions.len ≤ cfg.stateCapacity → room.len < cfg.stateCapacity) := by
      split at hroom
      · next hlt =>
        obtain rfl := Option.some.inj hroom
        exact ⟨fun _ _ => rfl, fun _ => hlt⟩
      · -- the first session that nothing protects makes room
        obtain ⟨r, hr, rfl⟩ := Option.map_eq_some_iff.mp hroom
        have hfree : r.1 ∉ s.protectedSessions := by simpa using List.find?_some hr
        have hrow : s.sessions.get r.1 = some r.2 :=
          OrderedDict.get_eq_some.mpr (List.mem_of_find?_eq_some hr)
        refine ⟨?_, ?_⟩
        · intro k hk
          apply OrderedDict.get_pop_of_ne
          rintro rfl
          exact hfree hk
        · intro hlen
          have hpop := OrderedDict.len_pop hrow
          omega
    refine ⟨rfl, OrderedDict.get_set_self, ?_, ?_, ?_⟩
    · intro m hm
      rw [hget] at hm
      cases hm
    · intro k hk hprotected
      rw [OrderedDict.get_set, if_neg hk]
      exact hkeep.1 k hprotected
    · intro hlen
      exact Nat.le_trans OrderedDict.len_set_le (hkeep.2 hlen)

theorem mem_protectedSessions : session ∈ s.protectedSessions ↔ session ∈ s.admittingSessions ∨
    ∃ id record, s.events.get id = some record ∧ record.sessionHash = session ∧
      (record.terminalAt = none ∨ id ∈ s.activeIds) := by
  unfold State.protectedSessions
  rw [List.mem_append, List.mem_map]
  apply or_congr Iff.rfl
  constructor
  · rintro ⟨⟨id, record⟩, hr, rfl⟩
    obtain ⟨hrow, hlive⟩ := List.mem_filter.mp hr
    exact ⟨id, record, OrderedDict.get_eq_some.mpr hrow, rfl, by simpa using hlive⟩
  · rintro ⟨id, record, hget, rfl, hlive⟩
    refine ⟨(id, record), List.mem_filter.mpr ⟨OrderedDict.get_eq_some.mp hget, ?_⟩, rfl⟩
    simpa using hlive

end Sessions

/-! ## Runs -/

section Runs

variable {α β : Type} {cfg : Settings} {s t : State α β} {act : Action α β}

/-- The identifier that an admission ends with. -/
def Action.pushedId : Action α β → Option String
  | .pushed id => some id
  | _ => none

/-- Gradio draws the identifier of an event at random: it is one that no event has had. -/
def FreshId (s : State α β) (act : Action α β) : Prop :=
  ∀ id ∈ act.pushedId, id ∉ s.log.filterMap Entry.admittedId

instance (s : State α β) : DecidablePred (FreshId s) :=
  fun act => inferInstanceAs (Decidable (∀ id ∈ act.pushedId, _))

/-- From a start without events. -/
def retentionSystem (cfg : Settings) : System (State α β) (Action α β) :=
  System.ofFun (fun s => s.events = .empty ∧ s.admittingSessions = [] ∧ s.admission = none ∧
    s.sessions.len ≤ cfg.stateCapacity ∧ s.log = []) (step cfg)

/-- What an admission promises of the record of its event. -/
structure Keeps (s : State α β) (event : Event) (state : Option Nat) (binding : Option β)
    (record : RetainedEvent β) : Prop where
  sessionHash : record.sessionHash = event.sessionHash
  fnIndex : record.fnIndex = event.fn
  authBinding : record.authBinding = binding
  state : record.terminalAt = none → ∀ n ∈ state, s.sessions.get event.sessionHash = some n

/-- Retention is bounded, and records are as they were admitted. -/
structure RetentionInv (cfg : Settings) (s : State α β) : Prop where
  room : s.events.len + s.admission.toList.length ≤ cfg.maximum
  sessions : s.sessions.len ≤ cfg.stateCapacity
  admitting : ∀ a ∈ s.admission, a.session ∈ s.admittingSessions
  held : ∀ a ∈ s.admission, ∀ n ∈ a.state, s.sessions.get a.session = some n
  stated : ∀ a ∈ s.admission, cfg.captures = true → a.state.isSome = true
  known : ∀ id record, s.events.get id = some record →
    ∃ event state binding, .admitted id event state binding ∈ s.log
  keeps : ∀ id event state binding, .admitted id event state binding ∈ s.log →
    (cfg.captures = true → state.isSome = true) ∧
      ∀ record, s.events.get id = some record → Keeps s event state binding record
  once : (s.log.filterMap Entry.admittedId).Nodup

theorem Keeps.congr {event : Event} {state : Option Nat} {binding : Option β}
    {record : RetainedEvent β} (h : Keeps s event state binding record)
    (hsessions : record.terminalAt = none → ∀ n ∈ state,
      t.sessions.get event.sessionHash = s.sessions.get event.sessionHash) :
    Keeps t event state binding record where
  sessionHash := h.sessionHash
  fnIndex := h.fnIndex
  authBinding := h.authBinding
  state hnone n hn := (hsessions hnone n hn).trans (h.state hnone n hn)

namespace RetentionInv

/-- Events may go. -/
theorem shrink (h : RetentionInv cfg s) {tables : Tables α β} (hle : tables.events ≤ s.events) :
    RetentionInv cfg { s with toTables := tables } where
  room := Nat.le_trans (Nat.add_le_add_right (OrderedDict.len_le hle) _) h.room
  sessions := h.sessions
  admitting := h.admitting
  held := h.held
  stated := h.stated
  known id record hget := h.known id record (OrderedDict.get_of_le hle hget)
  keeps id event state binding hmem := ⟨(h.keeps id event state binding hmem).1, fun record hget =>
    ((h.keeps id event state binding hmem).2 record (OrderedDict.get_of_le hle hget)).congr
      fun _ _ _ => rfl⟩
  once := h.once

/-- Events may be finished. -/
theorem finish (h : RetentionInv cfg s) (p : String × RetainedEvent β → Prop) [DecidablePred p]
    (time : Nat) : RetentionInv cfg { s with events := s.events.mapValues fun r =>
      (if p r then { r.2 with terminalAt := some time } else r.2) } := by
  have hback : ∀ id record, (s.events.mapValues fun r =>
      if p r then { r.2 with terminalAt := some time } else r.2).get id = some record →
      ∃ old, s.events.get id = some old ∧
        (if p (id, old) then { old with terminalAt := some time } else old) = record := by
    intro id record hget
    rw [get_finished] at hget
    exact Option.map_eq_some_iff.mp hget
  refine ⟨?_, h.sessions, h.admitting, h.held, h.stated, ?_, ?_, h.once⟩
  · show (s.events.mapValues _).len + _ ≤ _
    rw [OrderedDict.len_mapValues]
    exact h.room
  · intro id record hget
    obtain ⟨old, hold, -⟩ := hback id record hget
    exact h.known id old hold
  · intro id event state binding hmem
    refine ⟨(h.keeps id event state binding hmem).1, ?_⟩
    intro record hget
    obtain ⟨old, hold, rfl⟩ := hback id record hget
    have hkeeps := (h.keeps id event state binding hmem).2 old hold
    split
    · exact ⟨hkeeps.sessionHash, hkeeps.fnIndex, hkeeps.authBinding, fun hnone => by cases hnone⟩
    · exact hkeeps.congr fun _ _ _ => rfl

/-- Nobody loses a state by somebody else's lookup. -/
theorem look (h : RetentionInv cfg s) {session : String} {n : Nat}
    (hlook : Looked cfg s session t n) : RetentionInv cfg t := by
  have hkept : ∀ k m, k ∈ s.protectedSessions → s.sessions.get k = some m →
      t.sessions.get k = some m := by
    intro k m hprotected hget
    by_cases hk : k = session
    · subst hk
      rw [hlook.same m hget]
      exact hlook.here
    · rw [hlook.others k hk hprotected]
      exact hget
  have hrest := hlook.rest
  have hadmission : t.admission = s.admission := by rw [hrest]
  have hevents : t.events = s.events := by rw [hrest]
  have hlog : t.log = s.log := by rw [hrest]
  have hadmitting : t.admittingSessions = s.admittingSessions := by rw [hrest]
  refine ⟨?_, hlook.bounded h.sessions, ?_, ?_, ?_, ?_, ?_, ?_⟩
  · rw [hevents, hadmission]
    exact h.room
  · rw [hadmission, hadmitting]
    exact h.admitting
  · rw [hadmission]
    intro a ha m hm
    exact hkept _ m (mem_protectedSessions.mpr (Or.inl (h.admitting a ha))) (h.held a ha m hm)
  · rw [hadmission]
    exact h.stated
  · rw [hevents, hlog]
    exact h.known
  · rw [hevents, hlog]
    intro id event state binding hmem
    refine ⟨(h.keeps id event state binding hmem).1, ?_⟩
    intro record hget
    have hkeeps := (h.keeps id event state binding hmem).2 record hget
    refine ⟨hkeeps.sessionHash, hkeeps.fnIndex, hkeeps.authBinding, ?_⟩
    intro hnone m hm
    apply hkept _ m _ (hkeeps.state hnone m hm)
    exact mem_protectedSessions.mpr (Or.inr ⟨id, record, hget, hkeeps.sessionHash, Or.inl hnone⟩)
  · rw [hlog]
    exact h.once

theorem write (h : RetentionInv cfg s) {e : Entry β} (he : e.admittedId = none) :
    RetentionInv cfg (s.write e) := by
  have hmem : ∀ id event state binding, .admitted id event state binding ∈ s.log ++ [e] →
      .admitted id event state binding ∈ s.log := by
    intro id event state binding hmem
    rcases List.mem_append.mp hmem with hmem | hmem
    · exact hmem
    · rw [← List.mem_singleton.mp hmem] at he
      cases he
  refine ⟨h.room, h.sessions, h.admitting, h.held, h.stated, ?_, ?_, ?_⟩
  · intro id record hget
    obtain ⟨event, state, binding, hadmitted⟩ := h.known id record hget
    exact ⟨event, state, binding, List.mem_append_left _ hadmitted⟩
  · intro id event state binding hadmitted
    obtain ⟨hstate, hrecords⟩ := h.keeps id event state binding (hmem _ _ _ _ hadmitted)
    exact ⟨hstate, fun record hget => (hrecords record hget).congr fun _ _ _ => rfl⟩
  · show ((s.log ++ [e]).filterMap _).Nodup
    rw [List.filterMap_append]
    simpa [he] using h.once

theorem leave (h : RetentionInv cfg s) (session : String) : RetentionInv cfg (s.leave session) where
  room := Nat.le_trans (Nat.add_le_add_left (Nat.zero_le _) _) h.room
  sessions := h.sessions
  admitting a ha := by cases ha
  held a ha := by cases ha
  stated a ha := by cases ha
  known := h.known
  keeps id event state binding hmem := ⟨(h.keeps id event state binding hmem).1,
    fun record hget => ((h.keeps id event state binding hmem).2 record hget).congr fun _ _ _ => rfl⟩
  once := h.once

/-- Nothing that matters has changed. -/
theorem same (h : RetentionInv cfg s) (hevents : t.events = s.events)
    (hadmission : t.admission = s.admission) (hadmitting : s.admittingSessions ⊆ t.admittingSessions)
    (hsessions : t.sessions = s.sessions) (hlog : t.log = s.log) : RetentionInv cfg t := by
  refine ⟨?_, ?_, ?_, ?_, ?_, ?_, ?_, ?_⟩
  · rw [hevents, hadmission]
    exact h.room
  · rw [hsessions]
    exact h.sessions
  · rw [hadmission]
    exact fun a ha => hadmitting (h.admitting a ha)
  · rw [hadmission, hsessions]
    exact h.held
  · rw [hadmission]
    exact h.stated
  · rw [hevents, hlog]
    exact h.known
  · rw [hevents, hlog]
    intro id event state binding hmem
    refine ⟨(h.keeps id event state binding hmem).1, ?_⟩
    intro record hget
    exact ((h.keeps id event state binding hmem).2 record hget).congr fun _ _ _ => by rw [hsessions]
  · rw [hlog]
    exact h.once

theorem enter (h : RetentionInv cfg s) {a : Admission β} (hroom : s.events.len < cfg.maximum)
    (hadmitting : a.session ∈ s.admittingSessions)
    (hheld : ∀ n ∈ a.state, s.sessions.get a.session = some n)
    (hstated : cfg.captures = true → a.state.isSome = true) :
    RetentionInv cfg { s with admission := some a } where
  room := hroom
  sessions := h.sessions
  admitting _ hx := Option.some.inj hx ▸ hadmitting
  held _ hx := Option.some.inj hx ▸ hheld
  stated _ hx := Option.some.inj hx ▸ hstated
  known := h.known
  keeps id event state binding hmem := ⟨(h.keeps id event state binding hmem).1,
    fun record hget => ((h.keeps id event state binding hmem).2 record hget).congr fun _ _ _ => rfl⟩
  once := h.once

/-- There was room for the event since its request was admitted. -/
theorem finishAdmission (h : RetentionInv cfg s) {a : Admission β} {id : String} {event : Event}
    (ha : s.admission = some a) (hsession : event.sessionHash = a.session)
    (hnew : id ∉ s.log.filterMap Entry.admittedId) :
    RetentionInv cfg (({ s with
      events := s.events.set id ⟨event.sessionHash, none, event.fn, a.binding⟩ }.write
        (.admitted id event a.state a.binding)).leave a.session) := by
  have hroom : s.events.len + 1 ≤ cfg.maximum := by
    have hroom := h.room
    rw [ha] at hroom
    exact hroom
  have hothers : ∀ k event' state binding, .admitted k event' state binding ∈ s.log → k ≠ id := by
    rintro k event' state binding hmem rfl
    exact hnew (List.mem_filterMap.mpr ⟨_, hmem, rfl⟩)
  refine ⟨?_, h.sessions, ?_, ?_, ?_, ?_, ?_, ?_⟩
  · exact Nat.le_trans OrderedDict.len_set_le hroom
  · exact fun x hx => by cases hx
  · exact fun x hx => by cases hx
  · exact fun x hx => by cases hx
  · intro k record hget
    show ∃ event' state binding, _ ∈ s.log ++ [_]
    by_cases hk : k = id
    · subst hk
      exact ⟨event, a.state, a.binding, by simp⟩
    · have hold : s.events.get k = some record := by
        rw [← hget]
        exact (OrderedDict.get_set.trans (if_neg hk)).symm
      obtain ⟨event', state, binding, hmem⟩ := h.known k record hold
      exact ⟨event', state, binding, List.mem_append_left _ hmem⟩
  · intro k event' state binding hmem
    rcases List.mem_append.mp hmem with hmem | hmem
    · refine ⟨(h.keeps k event' state binding hmem).1, ?_⟩
      intro record hget
      have hold : s.events.get k = some record := by
        rw [← hget]
        exact (OrderedDict.get_set.trans (if_neg (hothers _ _ _ _ hmem))).symm
      exact ((h.keeps k event' state binding hmem).2 record hold).congr fun _ _ _ => rfl
    · obtain ⟨rfl, rfl, rfl, rfl⟩ := Entry.admitted.inj (List.mem_singleton.mp hmem)
      refine ⟨h.stated a ha, ?_⟩
      intro record hget
      obtain rfl := Option.some.inj (OrderedDict.get_set_self.symm.trans hget)
      exact ⟨rfl, rfl, rfl, fun _ n hn => hsession ▸ h.held a ha n hn⟩
  · show ((s.log ++ [_]).filterMap _).Nodup
    rw [List.filterMap_append, List.nodup_append]
    refine ⟨h.once, List.nodup_singleton _, ?_⟩
    intro k hk k' hk'
    obtain ⟨e, he, hek⟩ := List.mem_filterMap.mp hk
    obtain rfl := List.mem_singleton.mp hk'
    rintro rfl
    exact hnew (List.mem_filterMap.mpr ⟨e, he, hek⟩)

theorem push (h : RetentionInv cfg s) (session : String) :
    RetentionInv cfg (s.beginPush cfg session) := by
  have hpruned : RetentionInv cfg (s.prune cfg) := h.shrink prune_le
  unfold State.beginPush
  dsimp only
  split
  · exact hpruned.write rfl
  · next hroom =>
    have hadmitting : RetentionInv cfg { s.prune cfg with
        admittingSessions := session :: (s.prune cfg).admittingSessions } :=
      hpruned.same rfl rfl (List.subset_cons_self _ _) rfl rfl
    split
    · split
      · exact (hadmitting.write rfl).leave session
      · next t n hlookup =>
        have hlook := looked_of_lookup hlookup
        have hevents : t.events = (s.prune cfg).events := by rw [hlook.rest]
        apply (hadmitting.look hlook).enter
        · rw [hevents]
          exact Nat.lt_of_not_le hroom
        · rw [hlook.rest]
          exact List.mem_cons_self
        · rintro m ⟨⟩
          exact hlook.here
        · exact fun _ => rfl
    · next hcaptures =>
      apply hadmitting.enter (Nat.lt_of_not_le hroom) List.mem_cons_self
      · exact fun m hm => by cases hm
      · exact fun h => absurd h hcaptures

end RetentionInv

/-- Every step of the store keeps its invariant when Gradio draws fresh ids. -/
theorem retentionInv_step (h : RetentionInv cfg s) (hfresh : FreshId s act)
    (hstep : step cfg s act = some t) :
    RetentionInv cfg t := by
  unfold step at hstep
  cases act with
  | clock time =>
      dsimp only at hstep
      obtain ⟨-, rfl⟩ := of_allowed hstep
      exact h.same rfl rfl (List.Subset.refl _) rfl rfl
  | gradio backend =>
      obtain rfl := Option.some.inj hstep
      exact h.same rfl rfl (List.Subset.refl _) rfl rfl
  | request =>
      obtain rfl := Option.some.inj hstep
      exact h.shrink prune_le
  | lookup session =>
      dsimp only at hstep
      split at hstep
      · split at hstep
        · obtain rfl := Option.some.inj hstep
          exact h.write rfl
        · next u n hlookup =>
          obtain rfl := Option.some.inj hstep
          exact h.look (looked_of_lookup hlookup)
      · cases hstep
  | push session eventId fresh =>
      dsimp only at hstep
      obtain ⟨-, rfl⟩ := of_allowed hstep
      exact h.push _
  | capture binding =>
      dsimp only at hstep
      split at hstep
      · cases hstep
      · next a ha =>
        obtain ⟨-, rfl⟩ := of_guarded hstep
        -- the admission under way has kept a place for the captured state
        have hroom := h.room
        rw [ha] at hroom
        exact h.enter hroom (h.admitting a ha) (h.held a ha) (h.stated a ha)
  | pushed id =>
      dsimp only at hstep
      split at hstep
      · next a event ha hevent =>
        obtain ⟨hguard, rfl⟩ := of_allowed hstep
        exact h.finishAdmission ha hguard.2 (hfresh id rfl)
      · cases hstep
  | notPushed =>
      obtain ⟨a, -, rfl⟩ := Option.map_eq_some_iff.mp hstep
      exact h.leave a.session
  | process ids =>
      obtain rfl := Option.some.inj hstep
      exact h.same rfl rfl (List.Subset.refl _) rfl rfl
  | processed ids =>
      obtain rfl := Option.some.inj hstep
      exact (h.finish (fun r => r.1 ∈ ids) s.now).same rfl rfl (List.Subset.refl _) rfl rfl
  -- the event is marked as ended before the tables are pruned
  | clean session eventId =>
      obtain rfl := Option.some.inj hstep
      exact (h.finish _ s.now).shrink prune_le
  | remove id =>
      dsimp only at hstep
      split at hstep
      · obtain rfl := Option.some.inj hstep
        exact h
      · split at hstep
        · obtain rfl := Option.some.inj hstep
          exact h
        · obtain rfl := Option.some.inj hstep
          exact h.shrink OrderedDict.pop_le

theorem retentionInv_of_reachable (h : ((retentionSystem cfg).restrict FreshId).Reachable s) :
    RetentionInv cfg s := by
  apply h.induct
  · rintro s ⟨hevents, hadmitting, hadmission, hsessions, hlog⟩
    refine ⟨?_, hsessions, ?_, ?_, ?_, ?_, ?_, ?_⟩
    · rw [hevents, hadmission]
      exact Nat.zero_le _
    · rw [hadmission]
      exact fun a ha => by cases ha
    · rw [hadmission]
      exact fun a ha => by cases ha
    · rw [hadmission]
      exact fun a ha => by cases ha
    · rw [hevents]
      exact fun id record hget => by cases hget
    · rw [hlog]
      exact fun id event state binding hmem => by cases hmem
    · rw [hlog]
      exact List.nodup_nil
  · intro s act t _ hs hstep
    exact retentionInv_step hs hstep.2 hstep.1

/-! ## What is retired -/

variable {id : String} {record : RetainedEvent β}

/-- `push` retires what the cleanup in it retires. -/
theorem events_beginPush (session : String) :
    (s.beginPush cfg session).events = (s.prune cfg).events := by
  unfold State.beginPush
  dsimp only
  split
  · rfl
  · split
    · split
      · rfl
      · next hlookup => rw [(looked_of_lookup hlookup).rest]
    · rfl

/-- What a step does to the records, and that the log grows. -/
inductive Effect (cfg : Settings) (s : State α β) : Action α β → State α β → Prop
  | quiet {act : Action α β} {t : State α β} (events : t.events = s.events)
      (log : s.log <+: t.log) : Effect cfg s act t
  | pruned {act : Action α β} {t : State α β} (events : t.events = (s.prune cfg).events)
      (log : s.log <+: t.log) : Effect cfg s act t
  | admitted {id : String} {record : RetainedEvent β} {t : State α β}
      (events : t.events = s.events.set id record)
      (log : s.log <+: t.log) : Effect cfg s (.pushed id) t
  | finished {ids : List String} {t : State α β} (events : t.events = s.events.mapValues fun r =>
      (if r.1 ∈ ids then { r.2 with terminalAt := some s.now } else r.2)) (log : s.log <+: t.log) :
      Effect cfg s (.processed ids) t
  | cleaned {session eventId : Option String} :
      Effect cfg s (.clean session eventId) ((s.finish session eventId).prune cfg)
  | removed {id : String} {t : State α β} (idle : id ∉ s.activeIds)
      (events : t.events = s.events.pop id) (log : s.log <+: t.log) : Effect cfg s (.remove id) t

theorem log_beginPush (session : String) : s.log <+: (s.beginPush cfg session).log := by
  unfold State.beginPush
  dsimp only
  split
  · exact List.prefix_append _ _
  · split
    · split
      · exact List.prefix_append _ _
      · next hlookup =>
        rw [(looked_of_lookup hlookup).rest]
        exact List.prefix_rfl
    · exact List.prefix_rfl

/-- What a step does to the events and to the log. -/
theorem effect_of_step (hstep : step cfg s act = some t) : Effect cfg s act t := by
  unfold step at hstep
  cases act with
  | clock time =>
      dsimp only at hstep
      obtain ⟨-, rfl⟩ := of_allowed hstep
      exact .quiet rfl List.prefix_rfl
  | gradio backend =>
      obtain rfl := Option.some.inj hstep
      exact .quiet rfl List.prefix_rfl
  | request =>
      obtain rfl := Option.some.inj hstep
      exact .pruned rfl List.prefix_rfl
  | lookup session =>
      dsimp only at hstep
      split at hstep
      · split at hstep
        · obtain rfl := Option.some.inj hstep
          exact .quiet rfl (List.prefix_append _ _)
        · next u n hlookup =>
          obtain rfl := Option.some.inj hstep
          rw [(looked_of_lookup hlookup).rest]
          exact .quiet rfl List.prefix_rfl
      · cases hstep
  | push session eventId fresh =>
      dsimp only at hstep
      obtain ⟨-, rfl⟩ := of_allowed hstep
      exact .pruned (events_beginPush _) (log_beginPush _)
  | capture binding =>
      dsimp only at hstep
      split at hstep
      · cases hstep
      · obtain ⟨-, rfl⟩ := of_guarded hstep
        exact .quiet rfl List.prefix_rfl
  | pushed id =>
      dsimp only at hstep
      split at hstep
      · obtain ⟨-, rfl⟩ := of_allowed hstep
        exact .admitted rfl (List.prefix_append _ _)
      · cases hstep
  | notPushed =>
      obtain ⟨a, -, rfl⟩ := Option.map_eq_some_iff.mp hstep
      exact .quiet rfl List.prefix_rfl
  | process ids =>
      obtain rfl := Option.some.inj hstep
      exact .quiet rfl List.prefix_rfl
  | processed ids =>
      obtain rfl := Option.some.inj hstep
      exact .finished rfl List.prefix_rfl
  | clean session eventId =>
      obtain rfl := Option.some.inj hstep
      exact .cleaned
  -- an event that is still active stays
  | remove id =>
      dsimp only at hstep
      split at hstep
      · obtain rfl := Option.some.inj hstep
        exact .quiet rfl List.prefix_rfl
      · next hactive =>
        split at hstep
        · obtain rfl := Option.some.inj hstep
          exact .quiet rfl List.prefix_rfl
        · obtain rfl := Option.some.inj hstep
          exact .removed hactive rfl List.prefix_rfl

/-- The record of an event that is gone does not come back under its identifier. -/
theorem stays_gone (hfresh : FreshId s act) (hstep : step cfg s act = some t)
    (hlogged : id ∈ s.log.filterMap Entry.admittedId) (hgone : s.events.get id = none) :
    id ∈ t.log.filterMap Entry.admittedId ∧ t.events.get id = none := by
  have hfinished : ∀ (p : String × RetainedEvent β → Prop) [DecidablePred p] (time : Nat),
      (s.events.mapValues fun r =>
        (if p r then { r.2 with terminalAt := some time } else r.2)).get id = none := by
    intro p _ time
    rw [get_finished, hgone, Option.map_none]
  have hpruned : ∀ u : State α β, u.events.get id = none → (u.prune cfg).events.get id = none := by
    intro u hu
    rw [Option.eq_none_iff_forall_ne_some]
    intro record hget
    rw [OrderedDict.get_of_le prune_le hget] at hu
    cases hu
  cases effect_of_step hstep with
  | quiet hevents hlog => exact ⟨(hlog.filterMap _).subset hlogged, hevents ▸ hgone⟩
  | pruned hevents hlog => exact ⟨(hlog.filterMap _).subset hlogged, hevents ▸ hpruned s hgone⟩
  | @admitted key _ _ hevents hlog =>
      refine ⟨(hlog.filterMap _).subset hlogged, ?_⟩
      have hne : id ≠ key := by
        rintro rfl
        exact hfresh id rfl hlogged
      rw [hevents, OrderedDict.get_set, if_neg hne]
      exact hgone
  | finished hevents hlog =>
      refine ⟨(hlog.filterMap _).subset hlogged, ?_⟩
      rw [hevents]
      exact hfinished _ _
  | cleaned => exact ⟨hlogged, hpruned _ (hfinished _ _)⟩
  | removed _ hevents hlog =>
      refine ⟨(hlog.filterMap _).subset hlogged, ?_⟩
      rw [hevents, Option.eq_none_iff_forall_ne_some]
      intro record hget
      rw [OrderedDict.get_of_le OrderedDict.pop_le hget] at hgone
      cases hgone

def sampleSettings : Settings := ⟨1, 300, 1, true⟩

def sampleBackend (eventQueues activeJobs : List (List String)) : Backend String where
  eventQueues := eventQueues
  activeJobs := activeJobs
  eventAnalytics := ["e1"]
  eventCountAtLastCache := 0
  eventIdsToEvents id := if id = "e1" then some ⟨"tab1", 3⟩ else none
  pendingEventIdsSession session := if session = "tab1" then some ["e1"] else none
  pendingMessagesPerSession _ := none

def retentionStart : State String String where
  events := .empty
  backend := {
    sampleBackend [] [] with
    eventIdsToEvents := fun _ => none
    pendingEventIdsSession := fun _ => none }
  now := 0
  processing := []
  admittingSessions := []
  admission := none
  sessions := .empty
  states := 0
  log := []

def admittingActions : List (Action String String) := [
  .push (some "tab1") none "f0",
  .capture (some "alice"),
  .gradio (sampleBackend [["e1"]] []),
  .pushed "e1",
  .lookup "tab2",
  .gradio (sampleBackend [] [["e1"]]),
  .process ["e1"]]

/-- Steps of which the identifiers are new. -/
def freshStep (s : State String String) (act : Action String String) :
    Option (State String String) :=
  System.checked (fun s act => decide (FreshId s act)) (step sampleSettings) s act

def runningState : State String String :=
  (System.exec freshStep retentionStart admittingActions).getD retentionStart

theorem runningState_reachable :
    ((retentionSystem sampleSettings).restrict FreshId).Reachable runningState := by
  have hsome : (System.exec freshStep retentionStart admittingActions).isSome = true := by
    decide +kernel
  obtain ⟨t, ht⟩ := Option.isSome_iff_exists.mp hsome
  have hstart : (retentionSystem sampleSettings).init retentionStart :=
    ⟨rfl, rfl, rfl, Nat.zero_le _, rfl⟩
  refine ⟨retentionStart, admittingActions, hstart,
    System.run_of_exec_checked (fun _ _ h => of_decide_eq_true h) ?_⟩
  unfold runningState
  rw [ht, Option.getD_some]
  exact ht

/-- **Bindings are kept.** In every run in which Gradio's identifiers are new an event is admitted once
and has the binding that was captured for it, as long as it has a record, and none after that. Until
it is finished, its session has the state from which the binding was captured. -/
theorem bindings_kept (cfg : Settings)
    (h : ((retentionSystem cfg).restrict FreshId).Reachable s) :
    (∀ id event state binding, .admitted id event state binding ∈ s.log →
      (cfg.captures = true → state.isSome = true) ∧
      (∀ record, s.events.get id = some record → Keeps s event state binding record ∧
        s.admittedAuthBinding id event.sessionHash event.fn = binding) ∧
      (s.events.get id = none → ∀ as t, ((retentionSystem cfg).restrict FreshId).Run s as t →
        ∀ session fn, t.admittedAuthBinding id session fn = none)) ∧
    (∀ id session fn binding, s.admittedAuthBinding id session fn = some binding →
      ∃ state, .admitted id ⟨session, fn⟩ state (some binding) ∈ s.log) ∧
    (s.log.filterMap Entry.admittedId).Nodup ∧ s.sessions.len ≤ cfg.stateCapacity := by
  have hinv := retentionInv_of_reachable h
  refine ⟨?_, ?_, hinv.once, hinv.sessions⟩
  · intro id event state binding hmem
    obtain ⟨hstate, hrecords⟩ := hinv.keeps id event state binding hmem
    refine ⟨hstate, ?_, ?_⟩
    · intro record hget
      have hkeeps := hrecords record hget
      refine ⟨hkeeps, ?_⟩
      unfold State.admittedAuthBinding
      rw [hget, Option.bind_some, if_neg (by simp [hkeeps.sessionHash, hkeeps.fnIndex])]
      exact hkeeps.authBinding
    · intro hgone as t hrun session fn
      have hlogged : id ∈ s.log.filterMap Entry.admittedId :=
        List.mem_filterMap.mpr ⟨_, hmem, rfl⟩
      have hstays : id ∈ t.log.filterMap Entry.admittedId ∧ t.events.get id = none := by
        refine hrun.preserves (I := fun u => id ∈ u.log.filterMap Entry.admittedId ∧
          u.events.get id = none) ?_ ⟨hlogged, hgone⟩
        intro u act v hu hstep
        exact stays_gone hstep.2 hstep.1 hu.1 hu.2
      unfold State.admittedAuthBinding
      rw [hstays.2]
      rfl
  · intro id session fn binding hanswer
    unfold State.admittedAuthBinding at hanswer
    obtain ⟨record, hget, hrecord⟩ := Option.bind_eq_some_iff.mp hanswer
    split at hrecord
    · cases hrecord
    · next hsame =>
      obtain ⟨event, state, binding', hmem⟩ := hinv.known id record hget
      have hkeeps := (hinv.keeps id event state binding' hmem).2 record hget
      obtain ⟨rfl, rfl⟩ : record.sessionHash = session ∧ record.fnIndex = fn := by
        simpa [not_or] using hsame
      refine ⟨state, ?_⟩
      rw [← hrecord, hkeeps.authBinding, hkeeps.sessionHash, hkeeps.fnIndex]
      exact hmem

theorem bindings_kept_sample :
    runningState.admittedAuthBinding "e1" "tab1" 3 = some "alice" ∧
      runningState.sessions.get "tab1" = some 0 := by
  have hadmitted : .admitted "e1" ⟨"tab1", 3⟩ (some 0) (some "alice") ∈ runningState.log := by
    decide +kernel
  have hget : runningState.events.get "e1" = some ⟨"tab1", none, 3, some "alice"⟩ := by
    decide +kernel
  obtain ⟨hbindings, -⟩ := bindings_kept sampleSettings runningState_reachable
  obtain ⟨hkeeps, hbinding⟩ := (hbindings _ _ _ _ hadmitted).2.1 _ hget
  exact ⟨hbinding, hkeeps.state rfl 0 rfl⟩

end Runs

end Scap.Gradio
