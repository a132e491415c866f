import Mathlib.Data.Int.Order.Basic
import Mathlib.Data.List.Basic

/-!
# `Mailer`

The calls of `send`, each with its message, the calls of `close` that have not shut their executor
down, and the fields that they share. A step is one critical section of the mailer's lock or one
action of an executor; between two steps of one call those of all others may come.

A message keeps a record of what was done about it. `_pending`, which is only written, is left out.
-/

namespace Scap.Mail

/-- What may be done about a message. -/
inductive Event where
  /-- `self._active += 1`. -/
  | reserved
  /-- `self.transport.send(message)` is called. -/
  | handed
  | delivered
  | failed
  | cancelled
  /-- `self._active -= 1`. -/
  | released
  deriving DecidableEq, Repr

/-- How the transport's `send` ends. -/
inductive Sent where
  | returned
  | exception
  /-- A `BaseException`, which `_deliver` does not catch. -/
  | baseException
  deriving DecidableEq, Repr

/-- What comes of a message that is not refused. -/
inductive Outcome where
  | delivered
  | failed
  | cancelled
  deriving DecidableEq, Repr

/-- Where a call of `send`, or the delivery that it submitted, is. -/
inductive Phase where
  /-- Before the first critical section. -/
  | built
  /-- `send` has raised, without a slot or after it gave the slot back. -/
  | refused (hadSlot : Bool)
  /-- A slot is reserved; before the critical section that submits. -/
  | reserved
  /-- That section has raised. -/
  | unwinding
  /-- Not yet handed to the transport: submitted to an executor, or to be delivered by the caller. -/
  | queued (executor : Option Nat)
  /-- In the transport. -/
  | sending
  /-- Before the critical section that counts the delivery or the failure. -/
  | counting (delivered : Bool)
  /-- Before the slot is given back. -/
  | finished (outcome : Outcome)
  | done (outcome : Outcome)
  deriving DecidableEq, Repr

structure Message where
  phase : Phase
  /-- Whether `add_done_callback` was called. -/
  callback : Bool
  events : List Event
  deriving DecidableEq, Repr

/-- What the mailer is built with. -/
structure Settings where
  background : Bool
  maxPending : Nat
  maxPending_pos : 0 < maxPending

structure Mailer where
  active : Int
  rejected : Nat
  delivered : Nat
  failed : Nat
  closed : Bool
  executor : Option Nat
  /-- How many executors were made. -/
  executors : Nat
  /-- The executors that a `close` has taken and not yet shut down. -/
  closing : List Nat
  /-- The executors that are shut down: their queued futures are being cancelled. -/
  shutDown : List Nat
  messages : List Message
  deriving DecidableEq, Repr

inductive Op where
  /-- A call of `send`, with a message that passes the checks before the lock or not. -/
  | send (valid : Bool)
  /-- The first critical section of `send`. -/
  | reserve (i : Nat)
  /-- The second one, and whether `submit` raises in it. -/
  | submit (i : Nat) (raises : Bool)
  /-- The slot is given back after that. -/
  | unwind (i : Nat)
  | addDoneCallback (i : Nat)
  /-- A worker takes the message, or the caller of a synchronous `send` goes on. -/
  | run (i : Nat)
  | sent (i : Nat) (result : Sent)
  /-- The critical section of `_deliver`. -/
  | count (i : Nat)
  /-- An executor that is shut down cancels the future. -/
  | cancel (i : Nat)
  /-- `_forget`, or the `finally` of a synchronous `send`. -/
  | forget (i : Nat)
  | start
  /-- The critical section of `close`. -/
  | close
  /-- `executor.shutdown`, once `flush` has returned. -/
  | shutdown (executor : Nat)
  deriving DecidableEq, Repr

namespace Message

/-- Whether the message is a future of an executor. -/
def submitted (msg : Message) : Bool :=
  match msg.phase with
  | .queued (some _) | .sending | .counting _ | .finished _ => true
  | _ => false

/-- The message in its next phase, with what was done. -/
def goes (msg : Message) (phase : Phase) (events : List Event) : Message :=
  { msg with phase, events := msg.events ++ events }

end Message

namespace Mailer

variable (cfg : Settings) (m : Mailer)

def initial : Mailer := ⟨0, 0, 0, 0, false, none, 0, [], [], []⟩

def put (i : Nat) (msg : Message) : Mailer := { m with messages := m.messages.set i msg }

def reserve (i : Nat) (msg : Message) : Mailer :=
  if m.closed || cfg.maxPending ≤ m.active then
    { m with rejected := m.rejected + 1 }.put i (msg.goes (.refused false) [])
  else
    let phase := if cfg.background then .reserved else .queued none
    { m with active := m.active + 1 }.put i (msg.goes phase [.reserved])

/-- An executor is made when there is none. -/
def withExecutor : Mailer × Nat :=
  match m.executor with
  | some e => (m, e)
  | none => ({ m with executor := some m.executors, executors := m.executors + 1 }, m.executors)

def submit (i : Nat) (msg : Message) (raises : Bool) : Mailer :=
  if m.closed then { m with rejected := m.rejected + 1 }.put i (msg.goes .unwinding [])
  else
    let (m, executor) := m.withExecutor
    if raises then m.put i (msg.goes .unwinding [])
    else m.put i (msg.goes (.queued (some executor)) [])

/-- `self._active -= 1`. -/
def release (i : Nat) (msg : Message) (phase : Phase) : Mailer :=
  { m with active := m.active - 1 }.put i (msg.goes phase [.released])

def sent (i : Nat) (msg : Message) : Sent → Mailer
  | .returned => m.put i (msg.goes (.counting true) [.delivered])
  | .exception => m.put i (msg.goes (.counting false) [.failed])
  | .baseException => m.put i (msg.goes (.finished .failed) [.failed])

def count (i : Nat) (msg : Message) : Bool → Mailer
  | true => { m with delivered := m.delivered + 1 }.put i (msg.goes (.finished .delivered) [])
  | false => { m with failed := m.failed + 1 }.put i (msg.goes (.finished .failed) [])

/-- `start`. It returns or raises `MailBusy` while deliveries are active. -/
def start : Mailer := if m.active ≠ 0 then m else { m with closed := false }

def close : Mailer :=
  { m with closed := true, executor := none, closing := m.closing ++ m.executor.toList }

/-- What a call does next, from the phase it is in. -/
def stepMessage (i : Nat) (msg : Message) : Op → Option Mailer
  | .reserve _ => if msg.phase = .built then some (m.reserve cfg i msg) else none
  | .submit _ raises => if msg.phase = .reserved then some (m.submit i msg raises) else none
  | .unwind _ => if msg.phase = .unwinding then some (m.release i msg (.refused true)) else none
  | .addDoneCallback _ =>
    if cfg.background && msg.submitted && !msg.callback then
      some (m.put i { msg with callback := true })
    else none
  | .run _ =>
    match msg.phase with
    | .queued _ => some (m.put i (msg.goes .sending [.handed]))
    | _ => none
  | .sent _ result => if msg.phase = .sending then some (m.sent i msg result) else none
  | .count _ =>
    match msg.phase with
    | .counting delivered => some (m.count i msg delivered)
    | _ => none
  | .cancel _ =>
    match msg.phase with
    | .queued (some e) =>
      if e ∈ m.shutDown then some (m.put i (msg.goes (.finished .cancelled) [.cancelled])) else none
    | _ => none
  | .forget _ =>
    match msg.phase with
    | .finished outcome =>
      -- a future that is done calls back when the callback is there, be it added later
      if cfg.background && !msg.callback then none else some (m.release i msg (.done outcome))
    | _ => none
  | _ => none

def step (op : Op) : Option Mailer :=
  match op with
  | .send valid =>
    some { m with messages := m.messages ++ [⟨if valid then .built else .refused false, false, []⟩] }
  | .start => some m.start
  | .close => some m.close
  | .shutdown e =>
    if e ∈ m.closing then
      some { m with closing := m.closing.erase e, shutDown := e :: m.shutDown }
    else none
  | .reserve i | .submit i _ | .unwind i | .addDoneCallback i | .run i | .sent i _ | .count i
  | .cancel i | .forget i => do m.stepMessage cfg i (← m.messages[i]?) op

end Mailer

end Scap.Mail
