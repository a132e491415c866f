import Scap.Lib.Run
import Scap.Lib.Slots
import Scap.Mail.Mailer

/-!
# The mailer conserves its slots

A message's record is a matter of its phase (`Phase.story`), and `_active` counts the messages whose
record has a reservation and no release.

* `Moves` — what a step does to one message and to `_active`;
* `Inv`, `inv_step` — the invariant;
* `mailer_conserves_slots` — what it says about every reachable state, and about `start`.

A slot is reserved before the message is submitted, and closing may begin in between: such a message
held a slot and is refused (`not_acceptedOnce`).
-/

namespace Scap.Mail

open Scap.Lib

/-! ## Records -/

/-- From the transport, or from the executor that cancels. -/
def Outcome.story : Outcome → List Event
  | .delivered => [.reserved, .handed, .delivered]
  | .failed => [.reserved, .handed, .failed]
  | .cancelled => [.reserved, .cancelled]

/-- What was done about a message in a phase. -/
def Phase.story : Phase → List Event
  | .built | .refused false => []
  | .refused true => [.reserved, .released]
  | .reserved | .unwinding | .queued _ => [.reserved]
  | .sending => [.reserved, .handed]
  | .counting true => Outcome.story .delivered
  | .counting false => Outcome.story .failed
  | .finished outcome => outcome.story
  | .done outcome => outcome.story ++ [.released]

/-- Whether a slot is held in a phase. -/
def Phase.holds : Phase → Bool
  | .built | .refused _ | .done _ => false
  | .reserved | .unwinding | .queued _ | .sending | .counting _ | .finished _ => true

/-- Reservations less releases. -/
def Message.slots (msg : Message) : Int := msg.events.count .reserved - msg.events.count .released

theorem slots_of_story {msg : Message} (h : msg.events = msg.phase.story) :
    msg.slots = if msg.phase.holds then 1 else 0 := by
  unfold Message.slots
  rw [h]
  cases msg.phase with
  | refused hadSlot => cases hadSlot <;> rfl
  | counting delivered => cases delivered <;> rfl
  | finished outcome => cases outcome <;> rfl
  | done outcome => cases outcome <;> rfl
  | _ => rfl

namespace Mailer

variable (cfg : Settings) (m : Mailer)

/-- `_active` is what the messages hold. -/
structure Inv : Prop where
  story : ∀ msg ∈ m.messages, msg.events = msg.phase.story
  accounted : Accounted (fun _ : Unit => m.active) (fun msg _ => msg.slots) m.messages
  le : m.active ≤ cfg.maxPending

/-- The message in place `i` goes from `msg` to `msg'`, and `_active` changes by what it holds. -/
structure Moves (m m' : Mailer) (i : Nat) (msg msg' : Message) : Prop where
  messages : m'.messages = m.messages.set i msg'
  story : msg'.events = msg'.phase.story
  active : m'.active = m.active - msg.slots + msg'.slots
  le : m'.active ≤ cfg.maxPending

variable {cfg} {m m' : Mailer} {msg msg' : Message} {i : Nat} {op : Op}

theorem Inv.of_moves (h : m.Inv cfg) (hi : m.messages[i]? = some msg)
    (hmoves : Moves cfg m m' i msg msg') : m'.Inv cfg where
  story x hx := by
    rw [hmoves.messages] at hx
    rcases List.mem_or_eq_of_mem_set hx with hx | rfl
    · exact h.story x hx
    · exact hmoves.story
  accounted := by
    rw [hmoves.messages]
    exact h.accounted.move hi fun _ => hmoves.active
  le := hmoves.le

/-- A message that keeps what it holds, while `_active` stays what it is. -/
theorem moves_same (h : m.Inv cfg) (hi : m.messages[i]? = some msg)
    (hmessages : m'.messages = m.messages.set i msg') (hactive : m'.active = m.active)
    (hstory : msg'.events = msg'.phase.story) (hholds : msg'.phase.holds = msg.phase.holds) :
    Moves cfg m m' i msg msg' where
  messages := hmessages
  story := hstory
  active := by
    rw [slots_of_story hstory, slots_of_story (h.story msg (List.mem_of_getElem? hi)), hholds,
      hactive]
    omega
  le := hactive ▸ h.le

/-- A message that gives its slot back. -/
theorem release_moves (h : m.Inv cfg) (hi : m.messages[i]? = some msg) {phase : Phase}
    (hphase : msg.phase.holds = true) (hstory : msg.phase.story ++ [.released] = phase.story)
    (hreleased : phase.holds = false) :
    Moves cfg m (m.release i msg phase) i msg (msg.goes phase [.released]) := by
  have hbefore := h.story msg (List.mem_of_getElem? hi)
  have hafter : (msg.goes phase [.released]).events = (msg.goes phase [.released]).phase.story := by
    show msg.events ++ [.released] = phase.story
    rw [hbefore, hstory]
  have hle := h.le
  refine ⟨rfl, hafter, ?_, ?_⟩
  · rw [slots_of_story hbefore, slots_of_story hafter, hphase,
      show (msg.goes phase [.released]).phase.holds = false from hreleased]
    show m.active - 1 = m.active - 1 + 0
    omega
  · show m.active - 1 ≤ _
    omega

theorem reserve_moves (h : m.Inv cfg) (hi : m.messages[i]? = some msg)
    (hphase : msg.phase = .built) : ∃ msg', Moves cfg m (m.reserve cfg i msg) i msg msg' := by
  have hbefore := h.story msg (List.mem_of_getElem? hi)
  have hempty : msg.events = [] := by rw [hbefore, hphase]; rfl
  unfold reserve
  split
  · refine ⟨_, moves_same h hi rfl rfl ?_ ?_⟩
    · simp [Message.goes, hempty, Phase.story]
    · rw [hphase]
      rfl
  · next hfree =>
    have hroom : m.active < cfg.maxPending := by
      simp only [Bool.or_eq_true, decide_eq_true_eq, not_or, not_le] at hfree
      exact hfree.2
    have hreserved : ∀ phase : Phase, phase.story = [.reserved] → phase.holds = true →
        Moves cfg m ({ m with active := m.active + 1 }.put i (msg.goes phase [.reserved])) i msg
          (msg.goes phase [.reserved]) := by
      intro phase hstory hholds
      have hafter : (msg.goes phase [.reserved]).events = phase.story := by
        rw [hstory]
        simp [Message.goes, hempty]
      refine ⟨rfl, hafter, ?_, ?_⟩
      · rw [slots_of_story hbefore, slots_of_story hafter, hphase,
          show (msg.goes phase [.reserved]).phase.holds = true from hholds]
        show m.active + 1 = m.active - 0 + 1
        omega
      · show m.active + 1 ≤ _
        omega
    dsimp only
    split
    · exact ⟨_, hreserved .reserved rfl rfl⟩
    · exact ⟨_, hreserved (.queued none) rfl rfl⟩

theorem submit_moves (h : m.Inv cfg) (hi : m.messages[i]? = some msg)
    (hphase : msg.phase = .reserved) (raises : Bool) :
    ∃ msg', Moves cfg m (m.submit i msg raises) i msg msg' := by
  have hbefore : msg.events = [.reserved] := by
    rw [h.story msg (List.mem_of_getElem? hi), hphase]
    rfl
  have hmade : m.withExecutor.1.messages = m.messages ∧ m.withExecutor.1.active = m.active := by
    unfold withExecutor
    split <;> exact ⟨rfl, rfl⟩
  unfold submit
  split
  · refine ⟨_, moves_same h hi rfl rfl ?_ ?_⟩
    · simp [Message.goes, hbefore, Phase.story]
    · rw [hphase]
      rfl
  · dsimp only
    split
    · refine ⟨_, moves_same h hi (congrArg (List.set · i _) hmade.1) hmade.2 ?_ ?_⟩
      · simp [Message.goes, hbefore, Phase.story]
      · rw [hphase]
        rfl
    · refine ⟨_, moves_same h hi (congrArg (List.set · i _) hmade.1) hmade.2 ?_ ?_⟩
      · simp [Message.goes, hbefore, Phase.story]
      · rw [hphase]
        rfl

theorem sent_moves (h : m.Inv cfg) (hi : m.messages[i]? = some msg)
    (hphase : msg.phase = .sending) (result : Sent) :
    ∃ msg', Moves cfg m (m.sent i msg result) i msg msg' := by
  have hbefore : msg.events = [.reserved, .handed] := by
    rw [h.story msg (List.mem_of_getElem? hi), hphase]
    rfl
  cases result with
  | returned =>
      refine ⟨_, moves_same h hi rfl rfl ?_ ?_⟩
      · simp [Message.goes, hbefore, Phase.story, Outcome.story]
      · rw [hphase]
        rfl
  | exception =>
      refine ⟨_, moves_same h hi rfl rfl ?_ ?_⟩
      · simp [Message.goes, hbefore, Phase.story, Outcome.story]
      · rw [hphase]
        rfl
  | baseException =>
      refine ⟨_, moves_same h hi rfl rfl ?_ ?_⟩
      · simp [Message.goes, hbefore, Phase.story, Outcome.story]
      · rw [hphase]
        rfl

theorem count_moves (h : m.Inv cfg) (hi : m.messages[i]? = some msg) {delivered : Bool}
    (hphase : msg.phase = .counting delivered) :
    ∃ msg', Moves cfg m (m.count i msg delivered) i msg msg' := by
  have hbefore := h.story msg (List.mem_of_getElem? hi)
  rw [hphase] at hbefore
  cases delivered with
  | true =>
      refine ⟨_, moves_same h hi rfl rfl ?_ ?_⟩
      · simp [Message.goes, hbefore, Phase.story]
      · rw [hphase]
        rfl
  | false =>
      refine ⟨_, moves_same h hi rfl rfl ?_ ?_⟩
      · simp [Message.goes, hbefore, Phase.story]
      · rw [hphase]
        rfl

/-- Every step of a message moves it along its story, and counts its own slot at most. -/
theorem stepMessage_moves (h : m.Inv cfg) (hi : m.messages[i]? = some msg)
    (hstep : m.stepMessage cfg i msg op = some m') : ∃ msg', Moves cfg m m' i msg msg' := by
  have hbefore := h.story msg (List.mem_of_getElem? hi)
  -- The cases are the operations in their order: reserve, submit, unwind, the callback, run, sent,
  -- count, cancel and forget.
  unfold stepMessage at hstep
  split at hstep
  · obtain ⟨hphase, rfl⟩ := of_allowed hstep
    exact reserve_moves h hi hphase
  · obtain ⟨hphase, rfl⟩ := of_allowed hstep
    exact submit_moves h hi hphase _
  · obtain ⟨hphase, rfl⟩ := of_allowed hstep
    refine ⟨_, release_moves h hi ?_ ?_ rfl⟩
    · rw [hphase]
      rfl
    · rw [hphase]
      rfl
  · obtain ⟨-, rfl⟩ := of_allowed hstep
    exact ⟨_, moves_same h hi rfl rfl hbefore rfl⟩
  · split at hstep
    · next hphase =>
      obtain rfl := Option.some.inj hstep
      refine ⟨_, moves_same h hi rfl rfl ?_ ?_⟩
      · simp [Message.goes, hbefore, hphase, Phase.story]
      · rw [hphase]
        rfl
    · cases hstep
  · obtain ⟨hphase, rfl⟩ := of_allowed hstep
    exact sent_moves h hi hphase _
  · split at hstep
    · next hphase =>
      obtain rfl := Option.some.inj hstep
      exact count_moves h hi hphase
    · cases hstep
  · split at hstep
    · next hphase =>
      obtain ⟨-, rfl⟩ := of_allowed hstep
      refine ⟨_, moves_same h hi rfl rfl ?_ ?_⟩
      · simp [Message.goes, hbefore, hphase, Phase.story, Outcome.story]
      · rw [hphase]
        rfl
    · cases hstep
  · split at hstep
    · next outcome hphase =>
      obtain ⟨-, rfl⟩ := of_guarded hstep
      refine ⟨_, release_moves h hi ?_ ?_ rfl⟩
      · rw [hphase]
        rfl
      · rw [hphase]
        rfl
    · cases hstep
  · cases hstep

/-- A step that leaves the messages and `_active` alone. -/
theorem Inv.of_same (h : m.Inv cfg) (hmessages : m'.messages = m.messages)
    (hactive : m'.active = m.active) : m'.Inv cfg where
  story := hmessages ▸ h.story
  accounted := by
    rw [hactive, hmessages]
    exact h.accounted
  le := hactive ▸ h.le

theorem inv_send (h : m.Inv cfg) (valid : Bool) : Inv cfg { m with messages := m.messages ++
    [⟨if valid then .built else .refused false, false, []⟩] } where
  story msg hmsg := by
    rcases List.mem_append.mp hmsg with hmsg | hmsg
    · exact h.story msg hmsg
    · rw [List.mem_singleton.mp hmsg]
      cases valid <;> rfl
  accounted := h.accounted.join fun _ => rfl
  le := h.le

theorem inv_step (h : m.Inv cfg) (hstep : m.step cfg op = some m') : m'.Inv cfg := by
  have hmessage : ∀ i op, (do m.stepMessage cfg i (← m.messages[i]?) op) = some m' →
      m'.Inv cfg := by
    intro i op hstep
    obtain ⟨msg, hi, hstep⟩ := Option.bind_eq_some_iff.mp hstep
    obtain ⟨msg', hmoves⟩ := stepMessage_moves h hi hstep
    exact h.of_moves hi hmoves
  cases op with
  | send valid =>
      rw [← Option.some.inj hstep]
      exact inv_send h valid
  | start =>
      rw [← Option.some.inj hstep]
      unfold start
      split
      · exact h
      · exact h.of_same rfl rfl
  | close =>
      rw [← Option.some.inj hstep]
      exact h.of_same rfl rfl
  | shutdown e =>
      simp only [step] at hstep
      obtain ⟨-, rfl⟩ := of_allowed hstep
      exact h.of_same rfl rfl
  | _ => exact hmessage _ _ hstep

theorem inv_initial : initial.Inv cfg where
  story _ hmsg := absurd hmsg List.not_mem_nil
  accounted := .nil fun _ => rfl
  le := Int.natCast_nonneg _

end Mailer

/-! ## Runs -/

open Mailer

def mail (cfg : Settings) : System Mailer Op := System.ofFun (fun m => m = initial) (step cfg)

variable {cfg : Settings} {m : Mailer}

theorem inv_of_reachable (h : (mail cfg).Reachable m) : m.Inv cfg := by
  apply System.Reachable.induct (I := Inv cfg) ?_ ?_ h
  · intro s hs
    rw [hs]
    exact inv_initial
  · intro s op t _ hs hstep
    exact inv_step hs hstep

/-- A message that is neither refused nor done can go on. -/
theorem can_go_on {msg : Message} {i : Nat} (hi : m.messages[i]? = some msg)
    (hphase : msg.phase.holds = true ∨ msg.phase = .built) :
    ∃ op m', m.step cfg op = some m' := by
  have hgoes : ∀ {op m'}, m.stepMessage cfg i msg op = some m' →
      (m.messages[i]?.bind fun msg => m.stepMessage cfg i msg op) = some m' := by
    intro op m' h
    exact Option.bind_eq_some_iff.mpr ⟨msg, hi, h⟩
  cases h : msg.phase with
  | built => exact ⟨.reserve i, _, hgoes (by rw [stepMessage, if_pos h])⟩
  | reserved => exact ⟨.submit i false, _, hgoes (by rw [stepMessage, if_pos h])⟩
  | unwinding => exact ⟨.unwind i, _, hgoes (by rw [stepMessage, if_pos h])⟩
  | queued executor => exact ⟨.run i, _, hgoes (by rw [stepMessage, h])⟩
  | sending => exact ⟨.sent i .returned, _, hgoes (by rw [stepMessage, if_pos h])⟩
  | counting delivered => exact ⟨.count i, _, hgoes (by rw [stepMessage, h])⟩
  | finished outcome =>
      by_cases hcallback : (cfg.background && !msg.callback) = true
      · refine ⟨.addDoneCallback i, m.put i { msg with callback := true }, hgoes ?_⟩
        simp only [stepMessage, Message.submitted, h, Bool.and_true]
        rw [if_pos hcallback]
      · refine ⟨.forget i, m.release i msg (.done outcome), hgoes ?_⟩
        simp only [stepMessage, h]
        rw [if_neg hcallback]
  | refused hadSlot => simp [h, Phase.holds] at hphase
  | done outcome => simp [h, Phase.holds] at hphase

/-- What the mailer keeps to. -/
structure Conserves (cfg : Settings) (m : Mailer) : Prop where
  active : 0 ≤ m.active ∧ m.active ≤ cfg.maxPending
  /-- `_active` counts the messages with a slot: one each, from its reservation to its release. -/
  counted : m.active = m.messages.countP fun msg => msg.phase.holds
  /-- What was done about each message: at most one slot is reserved and released, at most one of
  delivery, failure and cancellation happens, and before the release. -/
  story : ∀ msg ∈ m.messages, msg.events = msg.phase.story
  /-- What is refused never reaches the transport. -/
  refused : ∀ msg ∈ m.messages, ∀ hadSlot, msg.phase = .refused hadSlot → .handed ∉ msg.events
  /-- A message whose end has not come can go on to it. -/
  goesOn : ∀ (i : Nat) (msg : Message), m.messages[i]? = some msg →
    msg.phase.holds = true ∨ msg.phase = .built → ∃ op m', m.step cfg op = some m'
  /-- `start` reopens the mailer only when no message has a slot. -/
  start : m.closed = true → m.start.closed = false → ∀ msg ∈ m.messages, msg.phase.holds = false

/-- **However the calls and the deliveries interleave, the slots are conserved.** -/
theorem mailer_conserves_slots (h : (mail cfg).Reachable m) : Conserves cfg m := by
  have hinv := inv_of_reachable h
  have hcount : m.active = m.messages.countP fun msg => msg.phase.holds := by
    have hslots : ∀ ms : List Message, (∀ msg ∈ ms, msg.events = msg.phase.story) →
        total (fun msg => msg.slots) ms = ms.countP fun msg => msg.phase.holds := by
      intro ms hms
      induction ms with
      | nil => rfl
      | cons msg ms ih =>
          rw [total_cons, ih fun x hx => hms x (List.mem_cons_of_mem msg hx),
            slots_of_story (hms msg List.mem_cons_self), List.countP_cons]
          split
          · simp
            omega
          · simp
    rw [← hslots m.messages hinv.story]
    exact hinv.accounted ()
  refine ⟨⟨?_, hinv.le⟩, hcount, hinv.story, ?_, fun i msg hi => can_go_on hi, ?_⟩
  · rw [hcount]
    exact Int.natCast_nonneg _
  · intro msg hmsg hadSlot hphase
    rw [hinv.story msg hmsg, hphase]
    cases hadSlot <;> decide
  · intro hclosed hstart
    have hidle : m.active = 0 := by
      unfold start at hstart
      split at hstart
      · rw [hclosed] at hstart
        cases hstart
      · next hzero => exact not_not.mp hzero
    rw [hcount] at hidle
    intro msg hmsg
    simpa using List.countP_eq_zero.mp (Int.natCast_eq_zero.mp hidle) msg hmsg

/-! ## Sample runs -/

def sampleSettings : Settings := ⟨true, 2, by decide⟩

/-- One message is delivered, one is cancelled when the mailer closes, and a third one, that had a
slot, is refused. -/
def sampleOps : List Op :=
  [.send true, .send true, .reserve 0, .submit 0 false, .run 0, .reserve 1, .submit 1 false,
    .sent 0 .returned, .count 0, .addDoneCallback 0, .forget 0, .send true, .reserve 2, .close,
    .submit 2 false, .unwind 2, .shutdown 0, .cancel 1, .addDoneCallback 1, .forget 1, .start]

/-- What a run from the start ends in. -/
def afterOps (ops : List Op) : Option Mailer := System.exec (step sampleSettings) initial ops

theorem reachable_of_afterOps {ops : List Op} (h : afterOps ops = some m) :
    (mail sampleSettings).Reachable m :=
  ⟨initial, ops, rfl, System.run_of_exec h⟩

theorem mailer_sample : ∃ m, (mail sampleSettings).Reachable m ∧ m.closed = false ∧
    m.messages.map Message.phase = [.done .delivered, .done .cancelled, .refused true] ∧
    Conserves sampleSettings m := by
  have hrun : afterOps sampleOps = some ((afterOps sampleOps).getD initial) := by decide +kernel
  have hreachable := reachable_of_afterOps hrun
  exact ⟨_, hreachable, by decide +kernel, by decide +kernel, mailer_conserves_slots hreachable⟩

/-- Whoever is accepted, by a reserved slot, is delivered, fails or is cancelled in the end. -/
def AcceptedOnce (m : Mailer) : Prop :=
  ∀ msg ∈ m.messages, msg.phase.holds = false → .reserved ∈ msg.events →
    .delivered ∈ msg.events ∨ .failed ∈ msg.events ∨ .cancelled ∈ msg.events

/-- `_active` counts the accepted messages that are not finished, where submission accepts. -/
def CountsSubmitted (m : Mailer) : Prop :=
  m.active = m.messages.countP fun msg => msg.submitted

/-- **A message can have a slot and be refused.** Between the two critical sections it counts as
active, and nothing is submitted. -/
theorem not_acceptedOnce :
    (¬ ∀ m, (mail sampleSettings).Reachable m → AcceptedOnce m) ∧
      ¬ ∀ m, (mail sampleSettings).Reachable m → CountsSubmitted m := by
  have hrun : afterOps [.send true, .reserve 0, .close] =
      some { initial with
        active := 1, closed := true, messages := [⟨.reserved, false, [.reserved]⟩] } := by
    decide +kernel
  have hend : afterOps [.send true, .reserve 0, .close, .submit 0 false, .unwind 0] =
      some { initial with
        rejected := 1, closed := true,
        messages := [⟨.refused true, false, [.reserved, .released]⟩] } := by
    decide +kernel
  constructor
  · intro hall
    have honce := hall _ (reachable_of_afterOps hend) _ (List.mem_singleton_self _) rfl
      List.mem_cons_self
    simp at honce
  · intro hall
    have hcounts := hall _ (reachable_of_afterOps hrun)
    revert hcounts
    unfold CountsSubmitted
    decide

end Scap.Mail
