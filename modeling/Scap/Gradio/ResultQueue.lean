import Mathlib.Data.List.Induction
import Mathlib.Data.List.Perm.Subperm
import Scap.Lib.Coalescing
import Scap.Lib.Except

/-!
# `_ResultQueue`

The queue of messages to a session of the UI. It has a bound, which the messages that matter, the
starts and the completions, cannot fill. A progress, estimation, heartbeat or completion message
takes the place of one of its kind about the same event that still waits, and in a full queue
another message makes room.

* `putBounded_cases` — what a `put` can do;
* `inv_run` — the invariant of the queue;
* `refines_step` — but for the messages that can go, the queue is one that only coalesces;
* `result_queue` — hence no start is lost, and of the completions of an event the last is delivered.
-/

namespace Scap.Gradio

open Scap.Lib Fifo

/-! ## The queue -/

/-- The class of a message. `other` stands for those that are neither replaced nor kept. -/
inductive MessageClass where
  | estimation
  | progress
  | heartbeat
  | processStarts
  | processCompleted
  | other
  deriving DecidableEq, Repr

structure Message (α : Type) where
  type : MessageClass
  eventId : Option String
  content : α
  deriving DecidableEq, Repr

variable {α : Type}

namespace Message

/-- `_replaceable`. -/
def replaceable (m : Message α) : Bool := m.type ∈ [.estimation, .progress, .heartbeat]

/-- A message that has to be delivered. -/
def terminal (m : Message α) : Bool := m.type ∈ [.processCompleted, .processStarts]

/-- What the messages in the queue are compared by. -/
def key (m : Message α) : MessageClass × Option String := (m.type, m.eventId)

end Message

/-- `queue.Queue` of `asyncio` with its deque. -/
structure ResultQueue (α : Type) where
  maxsize : Nat
  queue : List (Message α)
  unfinishedTasks : Nat

inductive Failure where
  | runtimeError
  | queueFull
  deriving DecidableEq, Repr

namespace ResultQueue

def start (retainedEvents : Nat) : ResultQueue α := ⟨4 * retainedEvents + 8, [], 0⟩

variable (q : ResultQueue α) (item : Message α)

def full : Bool := q.maxsize ≤ q.queue.length

/-- `asyncio.Queue.put_nowait`. -/
def putNowait : Except Failure (ResultQueue α) :=
  if q.full then .error .queueFull
  else .ok { q with queue := q.queue ++ [item], unfinishedTasks := q.unfinishedTasks + 1 }

/-- `_put_bounded`. -/
def putBounded : Except Failure (ResultQueue α) :=
  let replaced := if item.replaceable || item.type = .processCompleted then
    overwrite Message.key item q.queue else none
  match replaced with
  | some queue => .ok { q with queue := queue }
  | none =>
    if q.full then
      match q.queue.find? fun old => !old.terminal with
      | none => .error .runtimeError
      | some _ =>
        -- an equal message further in front would have been found itself
        { q with
          queue := q.queue.eraseP fun old => !old.terminal
          unfinishedTasks := q.unfinishedTasks - 1 }.putNowait item
    else q.putNowait item

/-- `get_nowait`; `none` if there is nothing to get. -/
def get : Option (Message α × ResultQueue α) :=
  match q.queue with
  | [] => none
  | m :: rest => some (m, { q with queue := rest })

end ResultQueue

/-! ## Runs -/

inductive Op (α : Type) where
  | put (item : Message α)
  | get

/-- The queue, and what was got from it. -/
structure Trace (α : Type) where
  queue : ResultQueue α
  delivered : List (Message α)

namespace Trace

def step (t : Trace α) : Op α → Except Failure (Trace α)
  | .put item => (t.queue.putBounded item).map fun q => { t with queue := q }
  | .get =>
    match t.queue.get with
    | none => .ok t
    | some (m, q) => .ok ⟨q, t.delivered ++ [m]⟩

/-- The messages that are not lost, in order. -/
def messages (t : Trace α) : List (Message α) := t.delivered ++ t.queue.queue

/-- The part of a run that must not be lost. -/
def terminal (t : Trace α) : Fifo (Message α) :=
  ⟨t.delivered.filter Message.terminal, t.queue.queue.filter Message.terminal⟩

/-- The events whose starts and completions were inserted, in order. -/
def keys (t : Trace α) : List (MessageClass × Option String) :=
  (t.messages.filter Message.terminal).map Message.key

end Trace

/-- A run from the empty queue. -/
def run (retainedEvents : Nat) (ops : List (Op α)) : Except Failure (Trace α) :=
  ops.foldlM Trace.step ⟨.start retainedEvents, []⟩

def Op.item? : Op α → Option (Message α)
  | .put item => some item
  | .get => none

/-- The messages that are put. -/
def puts (ops : List (Op α)) : List (Message α) := ops.filterMap Op.item?

/-- What Gradio promises: at most so many events, and no event starts twice. -/
structure Admitted (retainedEvents : Nat) (ops : List (Op α)) : Prop where
  events : ∃ es : List (Option String), es.length ≤ retainedEvents ∧
    ∀ m ∈ puts ops, m.terminal → m.eventId ∈ es
  starts : ∀ e, (puts ops).countP (fun m => m.key = (.processStarts, e)) ≤ 1

variable {q q' : ResultQueue α} {item m : Message α} {t t' u : Trace α} {op : Op α}
  {ops before after : List (Op α)} {retainedEvents : Nat} {k : MessageClass × Option String}
  {es : List (Option String)}

theorem run_concat :
    run retainedEvents (ops ++ [op]) = (run retainedEvents ops).bind fun t => t.step op := by
  unfold run
  rw [List.foldlM_append]
  cases ops.foldlM Trace.step (⟨.start retainedEvents, []⟩ : Trace α) with
  | error e => rfl
  | ok t => exact bind_pure (t.step op)

theorem puts_append : puts (before ++ after) = puts before ++ puts after :=
  List.filterMap_append ..

theorem Admitted.of_append (h : Admitted retainedEvents (before ++ after)) :
    Admitted retainedEvents before where
  events := by
    obtain ⟨es, hes, hall⟩ := h.events
    refine ⟨es, hes, fun m hm => hall m ?_⟩
    rw [puts_append]
    exact List.mem_append_left _ hm
  starts e := by
    have hstarts := h.starts e
    rw [puts_append, List.countP_append] at hstarts
    omega

/-! ## A `put` -/

theorem terminal_of_key {b a : Message α} (h : b.key = a.key) : b.terminal = a.terminal := by
  unfold Message.terminal
  rw [show b.type = a.type from congrArg Prod.fst h]

/-- **What a `put` can do**: replace a message, or append one, where another one may make room. -/
theorem putBounded_cases (h : q.putBounded item = .ok q') :
    (overwrite Message.key item q.queue = some q'.queue ∧ item.type ≠ .processStarts ∧
      q'.maxsize = q.maxsize ∧ q'.unfinishedTasks = q.unfinishedTasks) ∨
    ∃ kept, q'.queue = kept ++ [item] ∧ kept.length < q.maxsize ∧ q'.maxsize = q.maxsize ∧
      (item.type = .processCompleted → overwrite Message.key item q.queue = none) ∧
      ((kept = q.queue ∧ q'.unfinishedTasks = q.unfinishedTasks + 1) ∨
        kept = q.queue.eraseP (fun old => !old.terminal) ∧ kept.length + 1 = q.queue.length ∧
          q'.unfinishedTasks = q.unfinishedTasks - 1 + 1) := by
  unfold ResultQueue.putBounded at h
  dsimp only at h
  split at h
  · next queue hreplaced =>
    left
    obtain rfl := Except.ok.inj h
    split at hreplaced
    · next hclass =>
      refine ⟨hreplaced, ?_, rfl, rfl⟩
      intro hstarts
      simp [Message.replaceable, hstarts] at hclass
    · cases hreplaced
  · next hreplaced =>
    right
    have hnone : item.type = .processCompleted → overwrite Message.key item q.queue = none := by
      intro hcompleted
      simpa [hcompleted] using hreplaced
    split at h
    · next hfull =>
      split at h
      · cases h
      · next old hfind =>
        obtain ⟨hroom, h⟩ := error_else_eq_ok.mp h
        obtain rfl := Except.ok.inj h
        have hlength : (q.queue.eraseP fun old => !old.terminal).length + 1 = q.queue.length := by
          have hmem := List.mem_of_find?_eq_some hfind
          have hpos := List.length_pos_of_mem hmem
          rw [List.length_eraseP_of_mem hmem (List.find?_some hfind)]
          omega
        refine ⟨_, rfl, ?_, rfl, hnone, .inr ⟨rfl, hlength, rfl⟩⟩
        simpa [ResultQueue.full] using hroom
    · next hfull =>
      obtain ⟨hroom, h⟩ := error_else_eq_ok.mp h
      obtain rfl := Except.ok.inj h
      refine ⟨_, rfl, ?_, rfl, hnone, .inl ⟨rfl, rfl⟩⟩
      simpa [ResultQueue.full] using hroom

/-- A `put` succeeds if what must be kept leaves a place. -/
theorem exists_putBounded (hsize : q.queue.length ≤ q.maxsize)
    (hroom : (q.queue.filter Message.terminal).length < q.maxsize) :
    ∃ q', q.putBounded item = .ok q' := by
  unfold ResultQueue.putBounded
  dsimp only
  split
  · exact ⟨_, rfl⟩
  · split
    · next hfull =>
      split
      · next hfind =>
        -- everything in the queue would have to be kept
        have hall : q.queue.filter Message.terminal = q.queue := by
          apply List.filter_eq_self.mpr
          intro old hold
          simpa using List.find?_eq_none.mp hfind old hold
        rw [hall] at hroom
        have hle : q.maxsize ≤ q.queue.length := of_decide_eq_true hfull
        omega
      · next old hfind =>
        have hmem := List.mem_of_find?_eq_some hfind
        have hpos := List.length_pos_of_mem hmem
        have hlength := List.length_eraseP_of_mem hmem (List.find?_some hfind)
        refine ⟨_, error_else_eq_ok.mpr ⟨?_, rfl⟩⟩
        simp only [ResultQueue.full, hlength, decide_eq_true_eq]
        omega
    · next hfull => exact ⟨_, error_else_eq_ok.mpr ⟨hfull, rfl⟩⟩

/-! ## The invariant -/

theorem filter_eraseP {l : List (Message α)} :
    (l.eraseP fun old => !old.terminal).filter Message.terminal = l.filter Message.terminal := by
  induction l with
  | nil => rfl
  | cons m l ih =>
      cases hm : m.terminal with
      | false => simp [hm]
      | true => simp [hm, ih]

/-- What a `put` does to a part of the messages that have to be delivered. -/
theorem filter_putBounded {p : Message α → Bool} (h : q.putBounded item = .ok q')
    (hp : ∀ a b : Message α, b.key = a.key → p b = p a) (hterminal : ∀ m, p m = true → m.terminal) :
    (p item = false → q'.queue.filter p = q.queue.filter p) ∧
    (p item = true → (overwrite Message.key item (q.queue.filter p) = some (q'.queue.filter p) ∨
      (item.type = .processCompleted → overwrite Message.key item q.queue = none) ∧
        q'.queue.filter p = q.queue.filter p ++ [item])) := by
  have hfilter : ∀ l : List (Message α), (l.filter Message.terminal).filter p = l.filter p := by
    intro l
    rw [List.filter_filter]
    apply List.filter_congr
    intro m _
    cases hm : p m with
    | false => rfl
    | true => simp [hterminal m hm]
  rcases putBounded_cases h with ⟨hoverwrite, -⟩ | ⟨kept, hqueue, -, -, hnone, hkept⟩
  · exact ⟨filter_overwrite (fun b => hp item b) hoverwrite,
      fun hitem => .inl (overwrite_filter (fun b => hp item b) hoverwrite hitem)⟩
  · have hsame : kept.filter p = q.queue.filter p := by
      rcases hkept with ⟨rfl, -⟩ | ⟨rfl, -⟩
      · rfl
      · rw [← hfilter, filter_eraseP, hfilter]
    rw [hqueue, List.filter_append, hsame]
    constructor
    · intro hitem
      simp [hitem]
    · intro hitem
      exact .inr ⟨hnone, by simp [hitem]⟩

def isStart (m : Message α) : Bool := m.type = .processStarts

theorem isStart_of_key {b a : Message α} (h : b.key = a.key) : isStart b = isStart a := by
  unfold isStart
  rw [show b.type = a.type from congrArg Prod.fst h]

theorem terminal_of_isStart (h : isStart m = true) : m.terminal := by
  simp only [isStart, decide_eq_true_eq] at h
  simp [Message.terminal, h]

/-- The queue keeps its bound, no start or completion waits twice, and no start is lost. -/
structure Inv (retainedEvents : Nat) (es : List (Option String)) (ops : List (Op α))
    (t : Trace α) : Prop where
  maxsize : t.queue.maxsize = 4 * retainedEvents + 8
  size : t.queue.queue.length ≤ t.queue.maxsize
  unfinished : t.queue.unfinishedTasks = t.delivered.length + t.queue.queue.length
  nodup : (t.terminal.waiting.map Message.key).Nodup
  events : ∀ m ∈ t.terminal.waiting, m.eventId ∈ es
  starts : t.messages.filter isStart = (puts ops).filter isStart

/-- There is always room for another message. -/
theorem Inv.room (h : Inv retainedEvents es ops t) (hes : es.length ≤ retainedEvents) :
    (t.queue.queue.filter Message.terminal).length < t.queue.maxsize := by
  have hsub : t.terminal.waiting.map Message.key ⊆
      es.map (fun e => (.processStarts, e)) ++ es.map (fun e => (.processCompleted, e)) := by
    intro k hk
    obtain ⟨m, hm, rfl⟩ := List.mem_map.mp hk
    have hevent := h.events m hm
    have hterminal : m.terminal = true := (List.mem_filter.mp hm).2
    simp only [Message.terminal, List.mem_cons, List.not_mem_nil, or_false,
      decide_eq_true_eq] at hterminal
    rw [List.mem_append]
    rcases hterminal with htype | htype
    · exact .inr (List.mem_map.mpr ⟨m.eventId, hevent, by rw [Message.key, htype]⟩)
    · exact .inl (List.mem_map.mpr ⟨m.eventId, hevent, by rw [Message.key, htype]⟩)
  -- so many keys are there at most
  have hle := (h.nodup.subperm hsub).length_le
  rw [List.length_map, List.length_append, List.length_map, List.length_map] at hle
  change (t.queue.queue.filter Message.terminal).length ≤ _ at hle
  rw [h.maxsize]
  omega

theorem step_put (h : t.step (.put item) = .ok t') :
    t.queue.putBounded item = .ok t'.queue ∧ t'.delivered = t.delivered := by
  obtain ⟨q, hq, rfl⟩ := map_eq_ok.mp h
  exact ⟨hq, rfl⟩

theorem step_get (h : t.step .get = .ok t') : t' = t ∧ t.queue.queue = [] ∨
    ∃ m rest, t.queue.queue = m :: rest ∧
      t' = ⟨{ t.queue with queue := rest }, t.delivered ++ [m]⟩ := by
  obtain ⟨⟨maxsize, queue, unfinished⟩, delivered⟩ := t
  cases queue with
  | nil => exact .inl ⟨(Except.ok.inj h).symm, rfl⟩
  | cons m rest => exact .inr ⟨m, rest, rfl, (Except.ok.inj h).symm⟩

/-- **The queue refines one that only coalesces**, if no event starts twice. -/
theorem refines_step (hfresh : ∀ item, op = .put item → item.type = .processStarts →
      item.key ∉ t.terminal.waiting.map Message.key) (h : t.step op = .ok t') :
    (∃ item, op = .put item ∧ item.terminal ∧ t'.terminal = t.terminal.put Message.key item) ∨
    (∀ item, op = .put item → item.terminal = false) ∧
      (t'.terminal = t.terminal ∨ t'.terminal = t.terminal.deliver) := by
  cases op with
  | put item =>
      obtain ⟨hput, hdelivered⟩ := step_put h
      obtain ⟨hother, hkept⟩ := filter_putBounded hput (fun a b => terminal_of_key) fun _ h => h
      cases hitem : item.terminal with
      | false =>
          right
          refine ⟨fun item' hop => by cases hop; exact hitem, .inl ?_⟩
          unfold Trace.terminal
          rw [hother hitem, hdelivered]
      | true =>
          left
          refine ⟨item, rfl, hitem, ?_⟩
          unfold Trace.terminal Fifo.put
          rw [hdelivered]
          congr 1
          rcases hkept hitem with hoverwrite | ⟨hnone, happend⟩
          · -- in place of one of its kind
            dsimp only
            rw [hoverwrite, Option.getD_some]
          · have hmiss :
                overwrite Message.key item (t.queue.queue.filter Message.terminal) = none := by
              apply overwrite_eq_none.mpr
              -- the source looks for the kind of a completion only
              by_cases hstarts : item.type = .processStarts
              · exact hfresh item rfl hstarts
              · have hcompleted : item.type = .processCompleted := by
                  simpa [Message.terminal, hstarts] using hitem
                intro hmem
                apply overwrite_eq_none.mp (hnone hcompleted)
                exact List.map_subset _ List.filter_sublist.subset hmem
            dsimp only
            rw [hmiss, Option.getD_none, happend]
  | get =>
      right
      have hget : ∀ item, (Op.get : Op α) = .put item → item.terminal = false := by
        intro item hop
        cases hop
      refine ⟨hget, ?_⟩
      rcases step_get h with ⟨rfl, -⟩ | ⟨m, rest, hqueue, rfl⟩
      · exact .inl rfl
      · unfold Trace.terminal
        rw [hqueue]
        cases hm : m.terminal with
        | false =>
            left
            simp [hm]
        | true =>
            right
            simp [hm, Fifo.deliver]

/-! ## Runs -/

/-- No start waits of an event that has not started. -/
theorem Inv.fresh (h : Inv retainedEvents es ops t) (ha : Admitted retainedEvents (ops ++ [op]))
    (item : Message α) (hop : op = .put item) (hstarts : item.type = .processStarts) :
    item.key ∉ t.terminal.waiting.map Message.key := by
  subst hop
  intro hmem
  obtain ⟨m, hm, hkey⟩ := List.mem_map.mp hmem
  have hkeys : item.key = (.processStarts, item.eventId) := by rw [Message.key, hstarts]
  have hput : m ∈ puts ops := by
    have hstart : isStart m = true := by
      rw [isStart_of_key hkey]
      simp [isStart, hstarts]
    have hmessages : m ∈ t.messages.filter isStart :=
      List.mem_filter.mpr ⟨List.mem_append_right _ (List.mem_filter.mp hm).1, hstart⟩
    rw [h.starts] at hmessages
    exact (List.mem_filter.mp hmessages).1
  -- the event would start a second time
  have htwice := ha.starts item.eventId
  have hone : 0 < (puts ops).countP fun m => m.key = (.processStarts, item.eventId) :=
    List.countP_pos_iff.mpr ⟨m, hput, by simp [hkey, hkeys]⟩
  rw [puts_append, List.countP_append] at htwice
  have hnew : (puts [Op.put item]).countP
      (fun m => m.key = (.processStarts, item.eventId)) = 1 := by
    simp [puts, Op.item?, hkeys]
  omega

theorem inv_step (h : Inv retainedEvents es ops t) (ha : Admitted retainedEvents (ops ++ [op]))
    (hes : ∀ m ∈ puts (ops ++ [op]), m.terminal → m.eventId ∈ es) (hstep : t.step op = .ok t') :
    Inv retainedEvents es (ops ++ [op]) t' := by
  have hrefines := refines_step (h.fresh ha) hstep
  have hnodup : (t'.terminal.waiting.map Message.key).Nodup := by
    rcases hrefines with ⟨item, -, -, hput⟩ | ⟨-, hsame | hdeliver⟩
    · rw [hput]
      exact nodup_put h.nodup
    · rw [hsame]
      exact h.nodup
    · rw [hdeliver]
      exact nodup_deliver h.nodup
  cases op with
  | put item =>
      -- what waits afterwards waited before, but for the message
      obtain ⟨hput, hdelivered⟩ := step_put hstep
      have hputs : puts (ops ++ [.put item]) = puts ops ++ [item] := puts_append
      rw [hputs] at hes
      have hwaiting : ∀ m ∈ t'.queue.queue, m ∈ t.queue.queue ∨ m = item := by
        intro m hm
        rcases putBounded_cases hput with ⟨hoverwrite, -⟩ | ⟨kept, hqueue, -, -, -, hkept⟩
        · exact mem_overwrite hoverwrite hm
        · rw [hqueue, List.mem_append, List.mem_singleton] at hm
          rcases hm with hm | hm
          · rcases hkept with ⟨rfl, -⟩ | ⟨rfl, -⟩
            · exact .inl hm
            · exact .inl (List.mem_of_mem_eraseP hm)
          · exact .inr hm
      have hcounts : t'.queue.maxsize = t.queue.maxsize ∧
          t'.queue.queue.length ≤ t.queue.maxsize ∧
          t'.queue.unfinishedTasks = t'.delivered.length + t'.queue.queue.length := by
        have hunfinished := h.unfinished
        have hsize := h.size
        rw [hdelivered]
        rcases putBounded_cases hput with ⟨hoverwrite, -, hmax, htasks⟩ |
          ⟨kept, hqueue, hroom, hmax, -, hkept⟩
        · -- a message that is replaced is not counted twice
          have hlength : t'.queue.queue.length = t.queue.queue.length := by
            have hkeys := congrArg List.length (map_key_overwrite hoverwrite)
            rwa [List.length_map, List.length_map] at hkeys
          omega
        · have hlength : t'.queue.queue.length = kept.length + 1 := by
            rw [hqueue, List.length_append, List.length_singleton]
          rcases hkept with ⟨rfl, htasks⟩ | ⟨-, hkept, htasks⟩
          · omega
          · omega
      obtain ⟨hmax, hlength, hunfinished⟩ := hcounts
      refine ⟨hmax.trans h.maxsize, hmax ▸ hlength, hunfinished, hnodup, ?_, ?_⟩
      · intro m hm
        obtain ⟨hm, hterminal⟩ := List.mem_filter.mp hm
        rcases hwaiting m hm with hold | rfl
        · exact h.events m (List.mem_filter.mpr ⟨hold, hterminal⟩)
        · exact hes m (by simp) hterminal
      · have hstarts := h.starts
        obtain ⟨hother, hstart⟩ := filter_putBounded hput (fun a b => isStart_of_key)
          fun _ => terminal_of_isStart
        unfold Trace.messages at hstarts ⊢
        rw [List.filter_append] at hstarts ⊢
        rw [hdelivered, hputs, List.filter_append, ← hstarts, List.append_assoc]
        congr 1
        cases hitem : isStart item with
        | false => simp [hother hitem, hitem]
        | true =>
            rcases hstart hitem with hoverwrite | ⟨-, happend⟩
            · -- a start is never replaced
              have hmiss : overwrite Message.key item (t.queue.queue.filter isStart) = none := by
                apply overwrite_eq_none.mpr
                intro hmem
                apply h.fresh ha item rfl (by simpa [isStart] using hitem)
                obtain ⟨m, hm, hkey⟩ := List.mem_map.mp hmem
                obtain ⟨hm, hms⟩ := List.mem_filter.mp hm
                exact List.mem_map.mpr
                  ⟨m, List.mem_filter.mpr ⟨hm, terminal_of_isStart hms⟩, hkey⟩
              cases hmiss.symm.trans hoverwrite
            · simp [happend, hitem]
  | get =>
      have hputs : puts (ops ++ [.get]) = puts ops := by
        rw [puts_append]
        exact List.append_nil _
      have hstarts := h.starts
      have hunfinished := h.unfinished
      have hsize := h.size
      rw [hputs] at hes
      rcases step_get hstep with ⟨rfl, -⟩ | ⟨m, rest, hqueue, rfl⟩
      · exact ⟨h.maxsize, h.size, h.unfinished, hnodup, h.events, hputs ▸ hstarts⟩
      · unfold Trace.messages at hstarts
        rw [hqueue] at hunfinished hsize hstarts
        refine ⟨h.maxsize, ?_, ?_, hnodup, ?_, ?_⟩
        · simp only [List.length_cons] at hsize ⊢
          omega
        · simp only [List.length_cons, List.length_append, List.length_nil] at hunfinished ⊢
          omega
        · intro m' hm'
          apply h.events m'
          obtain ⟨hm', hterminal⟩ := List.mem_filter.mp hm'
          exact List.mem_filter.mpr ⟨by rw [hqueue]; exact List.mem_cons_of_mem _ hm', hterminal⟩
        · rw [hputs, ← hstarts]
          simp [Trace.messages]

/-- **The queue never raises, and keeps its invariant**, in every run. -/
theorem inv_run (ha : Admitted retainedEvents ops) (hes : es.length ≤ retainedEvents)
    (hevents : ∀ m ∈ puts ops, m.terminal → m.eventId ∈ es) :
    ∃ t, run retainedEvents ops = .ok t ∧ Inv retainedEvents es ops t := by
  induction ops using List.reverseRecOn with
  | nil => exact ⟨_, rfl, rfl, Nat.zero_le _, rfl, List.nodup_nil, by simp [Trace.terminal,
      ResultQueue.start], rfl⟩
  | append_singleton ops op ih =>
      obtain ⟨t, hrun, hinv⟩ := ih ha.of_append fun m hm => hevents m (by
        rw [puts_append]
        exact List.mem_append_left _ hm)
      have hstep : ∃ t', t.step op = .ok t' := by
        cases op with
        | put item =>
            obtain ⟨q, hq⟩ := exists_putBounded hinv.size (hinv.room hes)
            exact ⟨_, map_eq_ok.mpr ⟨q, hq, rfl⟩⟩
        | get =>
            unfold Trace.step
            dsimp only
            split
            · exact ⟨_, rfl⟩
            · exact ⟨_, rfl⟩
      obtain ⟨t', hstep⟩ := hstep
      refine ⟨t', ?_, inv_step hinv ha hevents hstep⟩
      rw [run_concat, hrun]
      exact hstep

/-! ## Order and latest completion -/

theorem terminal_messages : t.terminal.messages = t.messages.filter Message.terminal :=
  (List.filter_append ..).symm

/-- Nothing with the key of such a message can go. -/
theorem select_terminal (hm : m.terminal) (l : List (Message α)) :
    select Message.key m.key (l.filter Message.terminal) = select Message.key m.key l := by
  unfold select
  rw [List.filter_filter]
  apply List.filter_congr
  intro b _
  by_cases hkey : b.key = m.key
  · simp [hkey, terminal_of_key hkey, hm]
  · simp [hkey]

theorem keys_eq : t.keys = t.terminal.messages.map Message.key := by
  rw [terminal_messages]
  rfl

/-- The place of a start or completion is taken when it is put, unless one of its kind waits. -/
theorem keys_step_put (hinv : Inv retainedEvents es ops t)
    (ha : Admitted retainedEvents (ops ++ [.put m])) (hm : m.terminal)
    (h : t.step (.put m) = .ok t') :
    t'.keys = (if m.key ∈ t.terminal.waiting.map Message.key then t.keys else t.keys ++ [m.key]) ∧
      select Message.key m.key t'.messages =
        select Message.key m.key t.delivered ++ [m] := by
  rcases refines_step (hinv.fresh ha) h with ⟨item, hop, -, hput⟩ | ⟨hother, -⟩
  · cases hop
    constructor
    · rw [keys_eq, keys_eq, hput, keys_put]
      congr
    · have hselect := select_put (a := m) hinv.nodup
      rw [← hput, terminal_messages, select_terminal hm] at hselect
      rw [hselect]
      congr 1
      exact select_terminal hm t.delivered
  · have hnot := hother m rfl
    rw [hm] at hnot
    cases hnot

theorem Inv.keys_step (hinv : Inv retainedEvents es ops t)
    (ha : Admitted retainedEvents (ops ++ [op])) (h : t.step op = .ok t') :
    t.keys <+: t'.keys ∧ ∀ k, (∀ m ∈ puts [op], m.key ≠ k) →
      select Message.key k t'.terminal.messages = select Message.key k t.terminal.messages := by
  rw [keys_eq, keys_eq]
  rcases refines_step (hinv.fresh ha) h with ⟨item, rfl, -, hput⟩ | ⟨-, hsame | hdeliver⟩
  · rw [hput]
    constructor
    · rw [keys_put]
      split
      · exact List.prefix_rfl
      · exact List.prefix_append _ _
    · intro k hk
      exact select_put_of_ne (hk item (by simp [puts, Op.item?]))
  · rw [hsame]
    exact ⟨List.prefix_rfl, fun _ _ => rfl⟩
  · rw [hdeliver, messages_deliver]
    exact ⟨List.prefix_rfl, fun _ _ => rfl⟩

/-- **No place is given up, and a message is only replaced by one of its kind.** -/
theorem run_append (ha : Admitted retainedEvents (before ++ after)) :
    ∃ t u, run retainedEvents before = .ok t ∧ run retainedEvents (before ++ after) = .ok u ∧
      t.keys <+: u.keys ∧ ∀ k, (∀ m ∈ puts after, m.key ≠ k) →
        select Message.key k u.terminal.messages = select Message.key k t.terminal.messages := by
  induction after using List.reverseRecOn with
  | nil =>
      obtain ⟨es, hes, hevents⟩ := ha.of_append.events
      obtain ⟨t, hrun, -⟩ := inv_run ha.of_append hes hevents
      exact ⟨t, t, hrun, by rwa [List.append_nil], List.prefix_rfl, fun _ _ => rfl⟩
  | append_singleton after op ih =>
      rw [← List.append_assoc] at ha ⊢
      obtain ⟨t, u, hrun, hrun', hkeys, hselect⟩ := ih ha.of_append
      obtain ⟨es, hes, hevents⟩ := ha.events
      obtain ⟨v, hrunv, -⟩ := inv_run ha hes hevents
      obtain ⟨w, hrunw, hinv⟩ := inv_run ha.of_append hes fun m hm => hevents m (by
        rw [puts_append]
        exact List.mem_append_left _ hm)
      obtain rfl : w = u := Except.ok.inj (hrunw.symm.trans hrun')
      have hstep : w.step op = .ok v := by
        rw [run_concat, hrunw] at hrunv
        exact hrunv
      obtain ⟨hpre, hsame⟩ := hinv.keys_step ha hstep
      refine ⟨t, v, hrun, hrunv, hkeys.trans hpre, ?_⟩
      intro k hk
      rw [puts_append] at hk
      rw [hsame k fun m hm => hk m (List.mem_append_right _ hm)]
      exact hselect k fun m hm => hk m (List.mem_append_left _ hm)

/-! ## Delivery -/

theorem drain : (List.replicate t.queue.queue.length (Op.get : Op α)).foldlM Trace.step t =
    (.ok ⟨{ t.queue with queue := [] }, t.messages⟩ : Except Failure (Trace α)) := by
  obtain ⟨⟨maxsize, queue, unfinished⟩, delivered⟩ := t
  induction queue generalizing delivered with
  | nil => simp [Trace.messages, pure, Except.pure]
  | cons m rest ih =>
      have hmessages : delivered ++ m :: rest = (delivered ++ [m]) ++ rest := by simp
      show (List.replicate rest.length (Op.get : Op α)).foldlM Trace.step
        ⟨⟨maxsize, rest, unfinished⟩, delivered ++ [m]⟩ = _
      rw [ih (delivered ++ [m])]
      unfold Trace.messages
      rw [hmessages]

/-- **No start and no completion is lost.** In every run nothing is raised, the queue keeps its
bound, and reading on delivers all that waits: every start once, of the completions of an event the
last one once, and what came before it had been delivered when that was put. A start or a completion
is delivered in the place of the first of its kind that it replaces. -/
theorem result_queue (ha : Admitted retainedEvents ops) :
    ∃ t, run retainedEvents ops = .ok t ∧ t.queue.queue.length ≤ 4 * retainedEvents + 8 ∧
      t.queue.unfinishedTasks = t.delivered.length + t.queue.queue.length ∧
      run retainedEvents (ops ++ List.replicate t.queue.queue.length .get) =
        .ok ⟨{ t.queue with queue := [] }, t.messages⟩ ∧
      t.messages.filter isStart = (puts ops).filter isStart ∧
      ∀ before m after, ops = before ++ .put m :: after → m.terminal →
        ∃ s, run retainedEvents before = .ok s ∧
          (if m.key ∈ s.queue.queue.map Message.key then s.keys else s.keys ++ [m.key]) <+: t.keys ∧
          ((∀ m' ∈ puts after, m'.key ≠ m.key) →
            select Message.key m.key t.messages = select Message.key m.key s.delivered ++ [m]) := by
  obtain ⟨es, hes, hevents⟩ := ha.events
  obtain ⟨t, hrun, hinv⟩ := inv_run ha hes hevents
  refine ⟨t, hrun, hinv.maxsize ▸ hinv.size, hinv.unfinished, ?_, hinv.starts, ?_⟩
  · unfold run at hrun ⊢
    rw [List.foldlM_append, hrun]
    exact drain
  · -- the run up to the message, the message, and the rest
    intro before m after hops hm
    have hsplit : ops = (before ++ [.put m]) ++ after := by simp [hops]
    rw [hsplit] at ha hrun
    obtain ⟨u, t', hrunu, hrunt, hkeys, hselect⟩ := run_append ha
    obtain rfl : t' = t := Except.ok.inj (hrunt.symm.trans hrun)
    obtain ⟨s, hruns, hinvs⟩ := inv_run ha.of_append.of_append hes fun m' hm' => hevents m' (by
      rw [hsplit, puts_append, puts_append]
      exact List.mem_append_left _ (List.mem_append_left _ hm'))
    have hstep : s.step (.put m) = .ok u := by
      rw [run_concat, hruns] at hrunu
      exact hrunu
    obtain ⟨hplace, hlast⟩ := keys_step_put hinvs ha.of_append hm hstep
    refine ⟨s, hruns, ?_, ?_⟩
    · have hwaits : m.key ∈ s.queue.queue.map Message.key ↔
          m.key ∈ s.terminal.waiting.map Message.key := by
        have hsame := select_terminal hm s.queue.queue
        rw [← not_iff_not, ← select_eq_nil, ← select_eq_nil]
        exact hsame ▸ Iff.rfl
      simp only [hwaits]
      rw [← hplace]
      exact hkeys
    · intro hafter
      have hsame := hselect m.key hafter
      rw [terminal_messages, terminal_messages, select_terminal hm, select_terminal hm] at hsame
      rw [hsame, hlast]

/-- A reply whose completion is sent twice, the second time while the first still waits. -/
def sampleOps : List (Op String) :=
  [.put ⟨.processStarts, some "a1", ""⟩, .put ⟨.progress, some "a1", "50 %"⟩, .get,
    .put ⟨.processCompleted, some "a1", "cut off"⟩, .put ⟨.heartbeat, none, ""⟩,
    .put ⟨.processCompleted, some "a1", "whole"⟩]

theorem result_queue_sample :
    Admitted 1 sampleOps ∧ ∃ t, run 1 sampleOps = .ok t ∧
      t.messages.filter isStart = [⟨.processStarts, some "a1", ""⟩] ∧
      select Message.key (.processCompleted, some "a1") t.messages =
        [⟨.processCompleted, some "a1", "whole"⟩] := by
  have hadmitted : Admitted 1 sampleOps := by
    refine ⟨⟨[some "a1"], Nat.le_refl 1, by decide⟩, ?_⟩
    intro e
    by_cases he : some "a1" = e
    · subst he
      decide
    · simp [puts, sampleOps, Op.item?, Message.key, List.filterMap_cons, he]
  obtain ⟨t, hrun, -, -, -, hstarts, hlast⟩ := result_queue hadmitted
  refine ⟨hadmitted, t, hrun, hstarts, ?_⟩
  obtain ⟨s, hs, -, hselect⟩ := hlast (sampleOps.take 5) ⟨.processCompleted, some "a1", "whole"⟩ []
    rfl (by decide)
  obtain rfl := Except.ok.inj hs
  exact hselect (by decide)

end Scap.Gradio
