import Scap.E2ee.Membership
import Scap.E2ee.Uploads

/-!
# Outboxes

The two clients of one device keep what they are about to upload in an outbox and repeat the upload
until it is acknowledged: `PrivateClient` one envelope, `MlsClient` the envelopes of one operation,
after it has asked for the epoch of the conversation and, for a commit, changed the member. Between
two requests anything can happen at the relay, and any request or answer can be lost.

`outbox_retry`: an envelope is stored at most once, and once it is stored a flush acknowledges it
exactly as long as it still passes what is checked before the insertion.
-/

namespace Scap.E2ee

open Scap.Lib

variable {cfg : Settings} {digest : ReplayPayload → String} {userId : String}

/-! ## The clients -/

/-- The membership change of a pending commit. -/
structure PendingMember where
  username : String
  accountId : String
  remove : Bool
  deriving DecidableEq, Repr

/-- The outbox of `MlsClient`. -/
structure MlsOutbox where
  conversation : String
  epoch : Nat
  membership : Option PendingMember
  envelopes : List EnvelopeSend
  deriving DecidableEq, Repr

/-- The next request of `MlsClient.flush`; a flush begins with the first. -/
inductive Phase where
  | routing
  | changing
  | listing
  | posting
  deriving DecidableEq, Repr

/-- `accepted` are the uploads from the outboxes that the relay has stored. -/
structure OutboxState where
  relay : Relay
  outbox : Option (String × EnvelopeSend)
  mlsOutbox : Option MlsOutbox
  phase : Phase
  accepted : List (String × EnvelopeSend)

inductive Transport where
  | requestLost
  | responseLost
  | answered
  deriving DecidableEq, Repr

/-- The upload of an envelope. -/
def postEnvelope (cfg : Settings) (digest : ReplayPayload → String) (userId : String)
    (st : OutboxState) (conversation : String) (p : EnvelopeSend) (refusal : Option HttpError)
    (id : String) : OutboxState × Reply E2eeEnvelope :=
  match sendE2eeEnvelope cfg digest st.relay userId conversation p refusal id with
  | (s, .ok e) => ({ st with relay := s, accepted := st.accepted ++ [(conversation, p)] }, .ok e)
  | (s, .error e) => ({ st with relay := s }, .error e)

/-- `PrivateClient.flush`. -/
def flush (cfg : Settings) (digest : ReplayPayload → String) (userId : String) (st : OutboxState)
    (refusal : Option HttpError) (transport : Transport) (id : String) : OutboxState :=
  match st.outbox with
  | none => st
  | some (conversation, p) =>
    let posted := postEnvelope cfg digest userId st conversation p refusal id
    match transport with
    | .requestLost => st
    | .responseLost => posted.1
    | .answered => if acknowledges posted.2 then { posted.1 with outbox := none } else posted.1

/-- Where `MlsClient.flush` goes on from the epoch of the conversation. -/
def afterRouting (entry : MlsOutbox) (epoch : Nat) : Option Phase :=
  match entry.membership with
  | some _ =>
    if epoch + 1 = entry.epoch then some .changing
    else if epoch = entry.epoch then some .listing
    else none
  | none => if epoch = entry.epoch then some .posting else none

/-- Whether the members are those that the pending commit is about. -/
def membershipAcknowledged (entry : MlsOutbox) (members : List ConversationMember) : Bool :=
  entry.membership.any fun change =>
    (members.find? fun m => m.userId = change.accountId).any fun m =>
      (if change.remove then m.removedEpoch = some entry.epoch else m.joinedEpoch = entry.epoch) &&
        m.removedAt.isSome = change.remove

/-- The next request of `MlsClient.flush`. Whatever raises ends the flush. -/
def mlsRequest (cfg : Settings) (digest : ReplayPayload → String) (userId : String)
    (st : OutboxState) (entry : MlsOutbox) (refusal : Option HttpError) (answered : Bool)
    (id : String) : OutboxState :=
  let stop (s : Relay) : OutboxState := { st with relay := s, phase := .routing }
  let go (s : Relay) (phase : Phase) : OutboxState :=
    { st with relay := s, phase := if answered then phase else .routing }
  match st.phase with
  | .routing =>
    match e2eeSessionState cfg st.relay userId entry.conversation refusal with
    | (s, .error _) => stop s
    | (s, .ok epoch) =>
      match afterRouting entry epoch with
      | none => stop s
      | some phase => go s phase
  | .changing =>
    match entry.membership with
    | none => stop st.relay
    | some change =>
      let (s, done) := if change.remove then
          let r := removeE2eeMember cfg st.relay userId entry.conversation change.username refusal
          (r.1, r.2.isOk)
        else
          let r := addE2eeMember cfg st.relay userId entry.conversation change.username refusal
          (r.1, r.2.isOk)
      if done then go s .listing else stop s
  | .listing =>
    match listE2eeMembers cfg st.relay userId entry.conversation refusal with
    | (s, .error _) => stop s
    | (s, .ok members) =>
      if membershipAcknowledged entry members then go s .posting else stop s
  | .posting =>
    match entry.envelopes with
    | [] => { st with mlsOutbox := none, phase := .routing }
    | p :: rest =>
      let posted := postEnvelope cfg digest userId st entry.conversation p refusal id
      if answered && acknowledges posted.2 then
        { posted.1 with mlsOutbox := some { entry with envelopes := rest } }
      else { posted.1 with phase := .routing }

/-- What can happen. `prepare` and `prepareMls` stand for the operations that fill an outbox, and
`restart` for a crash of the client. -/
inductive OutboxAction where
  | relay (a : Action)
  | prepare (conversation : String) (p : EnvelopeSend)
  | flush (refusal : Option HttpError) (transport : Transport) (id : String)
  | prepareMls (entry : MlsOutbox)
  | request (refusal : Option HttpError) (transport : Transport) (id : String)
  | restart
  deriving DecidableEq, Repr

/-- The bearer of a request is never refused with the verdict on duplicates, and the identifier of
a row is new. -/
def canRequest (s : Relay) (refusal : Option HttpError) (id : String) : Bool :=
  refusal ≠ some replayed && id ∉ s.drawn && isCanonicalUuid id

def stepOutbox (cfg : Settings) (digest : ReplayPayload → String) (userId : String)
    (st : OutboxState) : OutboxAction → Option OutboxState
  | .relay a => (stepRelay cfg digest st.relay a).map fun s => { st with relay := s }
  | .prepare conversation p =>
      if st.outbox.isSome ∨ p.protocol ≠ protocolDoubleRatchet then none
      else some { st with outbox := some (conversation, p) }
  | .flush refusal transport id =>
      if canRequest st.relay refusal id then
        some (flush cfg digest userId st refusal transport id)
      else none
  | .prepareMls entry =>
      if st.mlsOutbox.isSome ∨
          ¬ entry.envelopes.all (fun p => p.protocol = protocolMls && p.epoch = entry.epoch) then
        none
      else some { st with mlsOutbox := some entry, phase := .routing }
  | .request refusal transport id =>
      match canRequest st.relay refusal id, st.mlsOutbox with
      | true, some entry =>
        match transport with
        | .requestLost => some { st with phase := .routing }
        | .responseLost => some (mlsRequest cfg digest userId st entry refusal false id)
        | .answered => some (mlsRequest cfg digest userId st entry refusal true id)
      | _, _ => none
  | .restart => some { st with phase := .routing }

/-- One device's clients and everything else at the relay. -/
def outboxSystem (cfg : Settings) (digest : ReplayPayload → String) (userId : String) :
    System OutboxState OutboxAction :=
  System.ofFun
    (fun st => (relaySystem cfg digest).Reachable st.relay ∧ st.outbox = none ∧
      st.mlsOutbox = none ∧ st.phase = .routing ∧ st.accepted = [])
    (stepOutbox cfg digest userId)

/-! ## One step -/

variable {st st' : OutboxState} {s t : Relay} {conversation : String} {p : EnvelopeSend}
  {refusal : Option HttpError} {id : String}

/-- An upload is refused or accepted for the first time. -/
theorem postEnvelope_cases (cfg : Settings) (userId conversation : String) (p : EnvelopeSend)
    (refusal : Option HttpError) (id : String) (hs : StoredInv st.relay) :
    (∃ e, postEnvelope cfg digest userId st conversation p refusal id =
      ({ st with
        relay := (requirePrivateMemberSession cfg st.relay userId conversation refusal).1 },
        .error e)) ∨
    ∃ e, postEnvelope cfg digest userId st conversation p refusal id =
      ({ st with
        relay := storeEnvelope st.relay e
        accepted := st.accepted ++ [(conversation, p)] }, .ok e) ∧
      Uploaded digest (storeEnvelope st.relay e) conversation p ∧
      ¬ Uploaded digest st.relay conversation p := by
  unfold postEnvelope
  by_cases haccepted : ∃ row member o,
      Accepted cfg digest st.relay userId conversation p refusal row member o
  · obtain ⟨row, member, o, h⟩ := haccepted
    rw [sendE2eeEnvelope_of_accepted id h]
    exact .inr ⟨_, rfl, uploaded_storeEnvelope id h,
      fun hup => not_accepted_of_uploaded hs hup h⟩
  · have hnot : ∀ row member o,
        ¬ Accepted cfg digest st.relay userId conversation p refusal row member o :=
      fun row member o h => haccepted ⟨row, member, o, h⟩
    obtain ⟨e, he⟩ := sendE2eeEnvelope_of_not_accepted id hnot
    rw [he]
    exact .inl ⟨e, rfl⟩

theorem postEnvelope_relay : (postEnvelope cfg digest userId st conversation p refusal id).1.relay =
    (sendE2eeEnvelope cfg digest st.relay userId conversation p refusal id).1 := by
  unfold postEnvelope
  split <;> next h => rw [h]

theorem postEnvelope_reply : (postEnvelope cfg digest userId st conversation p refusal id).2 =
    (sendE2eeEnvelope cfg digest st.relay userId conversation p refusal id).2 := by
  unfold postEnvelope
  split <;> next h => rw [h]

theorem postEnvelope_phase : (postEnvelope cfg digest userId st conversation p refusal id).1.phase =
    st.phase := by
  unfold postEnvelope
  split <;> rfl

/-- The relay's state is that of a run of the relay, what is accepted is stored there and once, and
a commit that is still to change the membership has no stored envelope. -/
structure OutboxInv (cfg : Settings) (digest : ReplayPayload → String) (st : OutboxState) :
    Prop where
  reachable : (relaySystem cfg digest).Reachable st.relay
  uploaded : ∀ x ∈ st.accepted, Uploaded digest st.relay x.1 x.2
  once : st.accepted.Nodup
  outbox : ∀ conversation p, st.outbox = some (conversation, p) →
    p.protocol = protocolDoubleRatchet
  entry : ∀ entry, st.mlsOutbox = some entry → ∀ p ∈ entry.envelopes,
    p.protocol = protocolMls ∧ p.epoch = entry.epoch
  changing : st.phase = .changing → ∀ entry, st.mlsOutbox = some entry →
    ∀ p : EnvelopeSend, p.protocol = protocolMls → p.epoch = entry.epoch →
      (entry.conversation, p) ∉ st.accepted

/-- Something happens at the relay. -/
theorem OutboxInv.relay (h : OutboxInv cfg digest st) {a : Action}
    (hstep : stepRelay cfg digest st.relay a = some s) :
    OutboxInv cfg digest { st with relay := s } where
  reachable := h.reachable.step hstep
  uploaded x hx := (h.uploaded x hx).change (change_of_step hstep)
  once := h.once
  outbox := h.outbox
  entry := h.entry
  changing := h.changing

/-- The flush ends or goes on to a request that changes nothing. -/
theorem OutboxInv.phase (h : OutboxInv cfg digest st) {phase : Phase} (hphase : phase ≠ .changing) :
    OutboxInv cfg digest { st with phase := phase } :=
  ⟨h.reachable, h.uploaded, h.once, h.outbox, h.entry, fun hchanging => absurd hchanging hphase⟩

theorem OutboxInv.post (h : OutboxInv cfg digest st) (hfresh : id ∉ st.relay.drawn)
    (hcanonical : isCanonicalUuid id = true)
    (hother : st.phase = .changing → p.protocol = protocolDoubleRatchet) :
    OutboxInv cfg digest (postEnvelope cfg digest userId st conversation p refusal id).1 := by
  have hstep : stepRelay cfg digest st.relay (.send userId conversation p refusal id) =
      some (sendE2eeEnvelope cfg digest st.relay userId conversation p refusal id).1 := by
    simp [stepRelay, hfresh, hcanonical]
  have hrelay := h.relay hstep
  rw [← postEnvelope_relay] at hrelay
  rcases postEnvelope_cases cfg userId conversation p refusal id
    (storedInv_of_reachable h.reachable) with ⟨e, he⟩ | ⟨e, he, hup, hnew⟩
  · rw [he] at hrelay ⊢
    exact hrelay
  · rw [he] at hrelay ⊢
    refine ⟨hrelay.reachable, ?_, ?_, hrelay.outbox, hrelay.entry, ?_⟩
    · intro x hx
      rcases List.mem_append.mp hx with hx | hx
      · exact hrelay.uploaded x hx
      · rw [List.mem_singleton.mp hx]
        exact hup
    · apply List.nodup_append.mpr
      refine ⟨h.once, List.nodup_singleton _, ?_⟩
      rintro x hx y hy rfl
      rw [List.mem_singleton.mp hy] at hx
      exact hnew (h.uploaded _ hx)
    · intro hchanging entry hentry q hprotocol hepoch hmem
      rcases List.mem_append.mp hmem with hmem | hmem
      · exact h.changing hchanging entry hentry q hprotocol hepoch hmem
      · -- the other client's envelopes have another protocol
        obtain ⟨-, rfl⟩ := Prod.mk.inj (List.mem_singleton.mp hmem)
        rw [hother hchanging] at hprotocol
        simp [protocolDoubleRatchet, protocolMls] at hprotocol

theorem canRequest_iff : canRequest s refusal id = true ↔
    refusal ≠ some replayed ∧ id ∉ s.drawn ∧ isCanonicalUuid id = true := by
  simp only [canRequest, Bool.and_eq_true, decide_eq_true_eq, and_assoc]

theorem outboxInv_flush (h : OutboxInv cfg digest st)
    (hcan : canRequest st.relay refusal id = true) (transport : Transport) :
    OutboxInv cfg digest (flush cfg digest userId st refusal transport id) := by
  obtain ⟨-, hfresh, hcanonical⟩ := canRequest_iff.mp hcan
  unfold flush
  split
  · exact h
  · next conversation p hentry =>
    have hpost : OutboxInv cfg digest
        (postEnvelope cfg digest userId st conversation p refusal id).1 :=
      h.post hfresh hcanonical fun _ => h.outbox conversation p hentry
    cases transport with
    | requestLost => exact h
    | responseLost => exact hpost
    | answered =>
        dsimp only
        split
        · exact { hpost with outbox := fun _ _ hnone => by cases hnone }
        · exact hpost

theorem stepRelay_state {reply : Reply Nat} {s : Relay}
    (h : e2eeSessionState cfg st.relay userId conversation refusal = (s, reply)) :
    stepRelay cfg digest st.relay (.state userId conversation refusal) = some s := by
  show some (e2eeSessionState cfg st.relay userId conversation refusal).1 = some s
  rw [h]

/-- Listing the members does to the store what asking for the epoch does. -/
theorem stepRelay_list {reply : Reply (List ConversationMember)} {s : Relay}
    (h : listE2eeMembers cfg st.relay userId conversation refusal = (s, reply)) :
    stepRelay cfg digest st.relay (.state userId conversation refusal) = some s := by
  show some (e2eeSessionState cfg st.relay userId conversation refusal).1 = some s
  have hfst : (e2eeSessionState cfg st.relay userId conversation refusal).1 =
      (listE2eeMembers cfg st.relay userId conversation refusal).1 := by
    unfold e2eeSessionState listE2eeMembers
    split <;> rfl
  rw [hfst, h]

theorem e2eeSessionState_ok {epoch : Nat} {s : Relay}
    (h : e2eeSessionState cfg st.relay userId conversation refusal = (s, .ok epoch)) :
    s = st.relay ∧ ∃ row m,
      requirePrivateMemberSession cfg st.relay userId conversation refusal =
        (st.relay, .ok (row, m)) ∧ row.currentCryptoEpoch = epoch := by
  unfold e2eeSessionState at h
  split at h
  · cases h
  · next t row m hguard =>
    obtain ⟨rfl, -⟩ := requirePrivateMemberSession_ok hguard
    obtain ⟨rfl, hok⟩ := Prod.mk.inj h
    exact ⟨rfl, row, m, hguard, Except.ok.inj hok⟩

/-- What is stored is not from an epoch that the conversation has yet to reach. -/
theorem not_accepted_of_earlier (h : OutboxInv cfg digest st) {row : ChatSession}
    (hrow : st.relay.sessions.find? conversation = some row)
    (hearlier : row.currentCryptoEpoch < p.epoch) : (conversation, p) ∉ st.accepted := by
  intro hmem
  obtain ⟨hrow, hid⟩ := KeyedTable.find?_eq_some hrow
  have hle : p.epoch ≤ row.currentCryptoEpoch :=
    epoch_le_of_uploaded (storedInv_of_reachable h.reachable) (epochInv_of_reachable h.reachable)
      (h.uploaded _ hmem) hrow hid
  omega

/-- One request of a group flush keeps the invariant, whatever the relay answers and whether or not
the answer arrives. -/
theorem outboxInv_mlsRequest (h : OutboxInv cfg digest st) {entry : MlsOutbox}
    (hentry : st.mlsOutbox = some entry) (hcan : canRequest st.relay refusal id = true)
    (answered : Bool) :
    OutboxInv cfg digest (mlsRequest cfg digest userId st entry refusal answered id) := by
  obtain ⟨-, hfresh, hcanonical⟩ := canRequest_iff.mp hcan
  -- a request that is answered with success goes on to its phase, any other starts over
  have hgo : ∀ {a : Action} {s : Relay} {phase : Phase},
      stepRelay cfg digest st.relay a = some s → phase ≠ .changing →
      OutboxInv cfg digest { st with
        relay := s
        phase := if answered then phase else .routing } := by
    intro a s phase hstep hphase
    apply (h.relay hstep).phase
    split
    · exact hphase
    · exact nofun
  have hstop : ∀ {a : Action} {s : Relay}, stepRelay cfg digest st.relay a = some s →
      OutboxInv cfg digest { st with relay := s, phase := .routing } :=
    fun hstep => (h.relay hstep).phase nofun
  unfold mlsRequest
  dsimp only
  split
  · split
    · next hreply => exact hstop (stepRelay_state hreply)
    · next s epoch hreply =>
      split
      · exact hstop (stepRelay_state hreply)
      · next phase hafter =>
        -- the state says an earlier epoch than the entry, so no envelope of it is accepted yet
        by_cases hphase : phase = .changing
        · subst hphase
          obtain ⟨rfl, row, m, hguard, rfl⟩ := e2eeSessionState_ok hreply
          obtain ⟨-, -, -, hrow, -⟩ := requirePrivateMemberSession_ok hguard
          have hearlier : row.currentCryptoEpoch < entry.epoch := by
            unfold afterRouting at hafter
            grind
          refine ⟨h.reachable, h.uploaded, h.once, h.outbox, h.entry, ?_⟩
          intro _ entry' hentry' p _ hepoch
          obtain rfl := Option.some.inj (hentry.symm.trans hentry')
          have hnot : (entry.conversation, p) ∉ st.accepted :=
            not_accepted_of_earlier h hrow (hepoch ▸ hearlier)
          exact hnot
        · exact hgo (stepRelay_state hreply) hphase
  · split
    · exact h.phase nofun
    · next change _ =>
      have hremove : stepRelay cfg digest st.relay
          (.removeMember userId entry.conversation change.username refusal) = some
          (removeE2eeMember cfg st.relay userId entry.conversation change.username refusal).1 := rfl
      have hadd : stepRelay cfg digest st.relay
          (.addMember userId entry.conversation change.username refusal) = some
          (addE2eeMember cfg st.relay userId entry.conversation change.username refusal).1 := rfl
      split
      · split
        · exact hgo hremove nofun
        · exact hstop hremove
      · split
        · exact hgo hadd nofun
        · exact hstop hadd
  · split
    · next hreply => exact hstop (stepRelay_list hreply)
    · next hreply =>
      split
      · exact hgo (stepRelay_list hreply) nofun
      · exact hstop (stepRelay_list hreply)
  · next hphase =>
    split
    · exact ⟨h.reachable, h.uploaded, h.once, h.outbox, nofun, nofun⟩
    · next p rest hlist =>
      have hpost : OutboxInv cfg digest
          (postEnvelope cfg digest userId st entry.conversation p refusal id).1 :=
        h.post hfresh hcanonical fun hchanging => by rw [hphase] at hchanging; cases hchanging
      split
      · refine ⟨hpost.reachable, hpost.uploaded, hpost.once, hpost.outbox, ?_, ?_⟩
        · rintro _ ⟨⟩ q hq
          exact h.entry entry hentry q (hlist ▸ List.mem_cons_of_mem _ hq)
        · intro hchanging
          have hposting : st.phase = .changing := postEnvelope_phase ▸ hchanging
          rw [hphase] at hposting
          cases hposting
      · exact hpost.phase nofun

theorem outboxInv_step {a : OutboxAction} (h : OutboxInv cfg digest st)
    (hstep : stepOutbox cfg digest userId st a = some st') : OutboxInv cfg digest st' := by
  cases a with
  | relay a =>
      simp only [stepOutbox, Option.map_eq_some_iff] at hstep
      obtain ⟨s, hs, rfl⟩ := hstep
      exact h.relay hs
  | prepare conversation p =>
      obtain ⟨hguard, rfl⟩ := of_guarded hstep
      refine { h with outbox := ?_ }
      rintro _ _ ⟨⟩
      exact not_not.mp (not_or.mp hguard).2
  | flush refusal transport id =>
      obtain ⟨hcan, rfl⟩ := of_allowed hstep
      exact outboxInv_flush h hcan transport
  | prepareMls entry =>
      obtain ⟨hguard, rfl⟩ := of_guarded hstep
      refine ⟨h.reachable, h.uploaded, h.once, h.outbox, ?_, nofun⟩
      rintro _ ⟨⟩ p hp
      have hall := List.all_eq_true.mp (not_not.mp (not_or.mp hguard).2) p hp
      simpa using hall
  | request refusal transport id =>
      simp only [stepOutbox] at hstep
      split at hstep
      · next entry hcan hentry =>
        cases transport with
        | requestLost =>
            obtain rfl := Option.some.inj hstep
            exact h.phase nofun
        | responseLost =>
            obtain rfl := Option.some.inj hstep
            exact outboxInv_mlsRequest h hentry hcan false
        | answered =>
            obtain rfl := Option.some.inj hstep
            exact outboxInv_mlsRequest h hentry hcan true
      · cases hstep
  | restart =>
      obtain rfl := Option.some.inj hstep
      exact h.phase nofun

theorem outboxInv_of_reachable (h : (outboxSystem cfg digest userId).Reachable st) :
    OutboxInv cfg digest st := by
  refine System.Reachable.induct (I := OutboxInv cfg digest) ?_ ?_ h
  · rintro st ⟨hrelay, hout, hmls, hphase, haccepted⟩
    constructor
    · exact hrelay
    · rw [haccepted]
      exact fun _ hx => absurd hx List.not_mem_nil
    · rw [haccepted]
      exact List.nodup_nil
    · rw [hout]
      exact nofun
    · rw [hmls]
      exact nofun
    · rw [hphase]
      exact nofun
  · exact fun st a st' _ hinv hstep => outboxInv_step hinv hstep

/-! ## What a flush achieves -/

/-- The next envelope of the outbox is stored already, or, if none is left, an earlier one. -/
def HeadAccepted (st : OutboxState) (entry : MlsOutbox) : Prop :=
  ∃ p : EnvelopeSend, p.protocol = protocolMls ∧ p.epoch = entry.epoch ∧
    (entry.conversation, p) ∈ st.accepted ∧ ∀ q ∈ entry.envelopes.head?, q = p

/-- The flush of `entry` goes on from `st` to its next request; posting acknowledges the envelope and
takes it out of the outbox, and the outbox is cleared with the last. -/
def GoesOn (st st' : OutboxState) (entry : MlsOutbox) : Prop :=
  match st.phase with
  | .routing => st'.phase ≠ .routing
  | .changing => st'.phase = .listing
  | .listing => st'.phase = .posting
  | .posting =>
    match entry.envelopes with
    | [] => st'.mlsOutbox = none
    | _ :: rest => st'.mlsOutbox = some { entry with envelopes := rest } ∧ st'.phase = .posting

/-- What the requests of `MlsClient.flush` need: the member, the epoch of the outbox, the membership
that the commit is about, and for an upload what is checked before the insertion. -/
def FlushPasses (cfg : Settings) (userId : String) (st : OutboxState) (entry : MlsOutbox)
    (refusal : Option HttpError) : Prop :=
  match st.phase with
  | .routing => MemberAdmitted cfg st.relay userId entry.conversation refusal ∧
      ∀ row, st.relay.sessions.find? entry.conversation = some row →
        row.currentCryptoEpoch = entry.epoch
  -- a commit with a stored envelope never asks for its membership change again
  | .changing => False
  | .listing => MemberAdmitted cfg st.relay userId entry.conversation refusal ∧
      membershipAcknowledged entry
        (st.relay.members.rows.filter fun m => m.sessionId = entry.conversation) = true
  | .posting => ∀ p ∈ entry.envelopes.head?,
      StillAdmitted cfg st.relay userId entry.conversation p refusal

theorem flush_clears_iff (h : OutboxInv cfg digest st)
    (hentry : st.outbox = some (conversation, p)) (hstored : (conversation, p) ∈ st.accepted)
    (hcan : canRequest st.relay refusal id = true) :
    (flush cfg digest userId st refusal .answered id).outbox = none ↔
      StillAdmitted cfg st.relay userId conversation p refusal := by
  obtain ⟨hrefusal, -⟩ := canRequest_iff.mp hcan
  have hiff : acknowledges (sendE2eeEnvelope cfg digest st.relay userId conversation p
      refusal id).2 = true ↔ StillAdmitted cfg st.relay userId conversation p refusal :=
    acknowledges_iff id (h.uploaded _ hstored) hrefusal
  rw [← postEnvelope_reply] at hiff
  unfold flush
  rw [hentry]
  dsimp only
  split
  · next hack => exact iff_of_true rfl (hiff.mp hack)
  · next hack =>
    apply iff_of_false
    · rcases postEnvelope_cases cfg userId conversation p refusal id
        (storedInv_of_reachable h.reachable) with ⟨e, he⟩ | ⟨e, he, -⟩
      · rw [he]
        simp [hentry]
      · rw [he]
        simp [hentry]
    · exact fun hstill => hack (hiff.mpr hstill)

theorem e2eeSessionState_of_admitted
    (h : MemberAdmitted cfg s userId conversation refusal) : ∃ row,
      s.sessions.find? conversation = some row ∧
      e2eeSessionState cfg s userId conversation refusal = (s, .ok row.currentCryptoEpoch) ∧
      listE2eeMembers cfg s userId conversation refusal =
        (s, .ok (s.members.rows.filter fun m => m.sessionId = conversation)) := by
  obtain ⟨row, m, hguard⟩ := memberAdmitted_iff.mp h
  obtain ⟨-, -, -, hrow, -⟩ := requirePrivateMemberSession_ok hguard
  have hid := (KeyedTable.find?_eq_some hrow).2
  refine ⟨row, hrow, ?_, ?_⟩
  · unfold e2eeSessionState
    rw [hguard]
  · unfold listE2eeMembers
    rw [hguard, ← hid]

theorem refused_of_not_admitted (h : ¬ MemberAdmitted cfg s userId conversation refusal) :
    (∃ t e, e2eeSessionState cfg s userId conversation refusal = (t, .error e)) ∧
      ∃ t e, listE2eeMembers cfg s userId conversation refusal = (t, .error e) := by
  unfold e2eeSessionState listE2eeMembers
  split
  · next t e _ => exact ⟨⟨t, e, rfl⟩, t, e, rfl⟩
  · next t row m hguard =>
    obtain ⟨rfl, -⟩ := requirePrivateMemberSession_ok hguard
    exact absurd (memberAdmitted_iff.mpr ⟨row, m, hguard⟩) h

/-- From the epoch of the outbox a flush goes on, and from a later one it does not. -/
theorem afterRouting_cases {entry : MlsOutbox} {epoch : Nat} (h : ¬ epoch < entry.epoch) :
    (epoch ≠ entry.epoch ∧ afterRouting entry epoch = none) ∨
      (epoch = entry.epoch ∧ ∃ phase, phase ≠ .routing ∧ afterRouting entry epoch = some phase) := by
  unfold afterRouting
  have hnext : epoch + 1 ≠ entry.epoch := by omega
  by_cases hsame : epoch = entry.epoch
  · refine .inr ⟨hsame, ?_⟩
    split
    · rw [if_neg hnext, if_pos hsame]
      exact ⟨.listing, nofun, rfl⟩
    · rw [if_pos hsame]
      exact ⟨.posting, nofun, rfl⟩
  · refine .inl ⟨hsame, ?_⟩
    split
    · rw [if_neg hnext, if_neg hsame]
    · rw [if_neg hsame]

/-- Where the next envelope is stored, an answered request goes on just if the flush passes. -/
theorem mlsRequest_goesOn_iff (h : OutboxInv cfg digest st) {entry : MlsOutbox}
    (hentry : st.mlsOutbox = some entry) (hstored : HeadAccepted st entry)
    (hcan : canRequest st.relay refusal id = true) :
    GoesOn st (mlsRequest cfg digest userId st entry refusal true id) entry ↔
      FlushPasses cfg userId st entry refusal := by
  obtain ⟨hrefusal, -⟩ := canRequest_iff.mp hcan
  obtain ⟨p, hprotocol, hepoch, haccepted, hhead⟩ := hstored
  cases hphase : st.phase with
  | routing =>
      simp only [GoesOn, FlushPasses, mlsRequest, hphase]
      by_cases hadmitted : MemberAdmitted cfg st.relay userId entry.conversation refusal
      · obtain ⟨row, hrow, hstate, -⟩ := e2eeSessionState_of_admitted hadmitted
        -- the accepted envelope shows that the relay has reached the epoch of the entry
        have hlate : ¬ row.currentCryptoEpoch < entry.epoch :=
          fun hlt => not_accepted_of_earlier h hrow (hepoch ▸ hlt) haccepted
        rw [hstate]
        rcases afterRouting_cases hlate with ⟨hne, hafter⟩ | ⟨heq, phase, hgo, hafter⟩
        · simp [hafter, hrow, hne]
        · rw [heq] at hafter
          simp [hafter, hrow, heq, hgo, hadmitted]
      · obtain ⟨⟨t, e, hstate⟩, -⟩ := refused_of_not_admitted hadmitted
        simp [hstate, hadmitted]
  | changing => exact absurd haccepted (h.changing hphase entry hentry p hprotocol hepoch)
  | listing =>
      simp only [GoesOn, FlushPasses, mlsRequest, hphase]
      by_cases hadmitted : MemberAdmitted cfg st.relay userId entry.conversation refusal
      · obtain ⟨row, -, -, hlist⟩ := e2eeSessionState_of_admitted hadmitted
        rw [hlist]
        by_cases hmatch : membershipAcknowledged entry
            (st.relay.members.rows.filter fun m => m.sessionId = entry.conversation) = true
        · simp [hmatch, hadmitted]
        · simp [hmatch]
      · obtain ⟨-, t, e, hlist⟩ := refused_of_not_admitted hadmitted
        simp [hlist, hadmitted]
  | posting =>
      simp only [GoesOn, FlushPasses, mlsRequest, hphase]
      cases hlist : entry.envelopes with
      | nil => simp
      | cons q rest =>
          obtain rfl : q = p := hhead q (by rw [hlist]; rfl)
          have hiff : acknowledges (sendE2eeEnvelope cfg digest st.relay userId
              entry.conversation q refusal id).2 = true ↔
              StillAdmitted cfg st.relay userId entry.conversation q refusal :=
            acknowledges_iff id (h.uploaded _ haccepted) hrefusal
          rw [← postEnvelope_reply] at hiff
          by_cases hstill : StillAdmitted cfg st.relay userId entry.conversation q refusal
          · simp [hiff.mpr hstill, hstill, postEnvelope_phase, hphase]
          · have hnot := mt hiff.mp hstill
            simp [hnot, hstill]

/-- **Outboxes.** In every reachable state each stored upload has one row, and a flush of what is
stored acknowledges it and goes on to clear the outbox if and only if it passes what is checked
before the insertion. -/
theorem outbox_retry (cfg : Settings) (digest : ReplayPayload → String) (userId : String)
    (st : OutboxState) (h : (outboxSystem cfg digest userId).Reachable st) :
    (∀ conversation replayKey, (uploadsOf st.relay conversation replayKey).length ≤ 1) ∧
    st.accepted.Nodup ∧
    (∀ x ∈ st.accepted, (uploadsOf st.relay x.1 (replayKeyOf digest x.2)).length = 1) ∧
    (∀ refusal id st' conversation p,
      (outboxSystem cfg digest userId).step st (.flush refusal .answered id) st' →
      st.outbox = some (conversation, p) → (conversation, p) ∈ st.accepted →
      (st'.outbox = none ↔ StillAdmitted cfg st.relay userId conversation p refusal)) ∧
    ∀ refusal id st' entry,
      (outboxSystem cfg digest userId).step st (.request refusal .answered id) st' →
      st.mlsOutbox = some entry → HeadAccepted st entry →
      (GoesOn st st' entry ↔ FlushPasses cfg userId st entry refusal) := by
  have hinv := outboxInv_of_reachable h
  have honce := stored_once (storedInv_of_reachable hinv.reachable)
  refine ⟨honce, hinv.once, ?_, ?_, ?_⟩
  · intro x hx
    obtain ⟨e, he, hkey, -⟩ := (hinv.uploaded x hx).row
    apply le_antisymm (honce _ _)
    exact List.length_pos_of_mem (List.mem_filter.mpr ⟨he, by simpa using hkey⟩)
  · intro refusal id st' conversation p hstep hentry hstored
    replace hstep : stepOutbox cfg digest userId st (.flush refusal .answered id) = some st' := hstep
    obtain ⟨hcan, rfl⟩ := of_allowed hstep
    exact flush_clears_iff hinv hentry hstored hcan
  · intro refusal id st' entry hstep hentry hstored
    replace hstep : stepOutbox cfg digest userId st (.request refusal .answered id) = some st' :=
      hstep
    simp only [stepOutbox] at hstep
    split at hstep
    · next entry' hcan hentry' =>
      obtain rfl := Option.some.inj (hentry.symm.trans hentry')
      obtain rfl := Option.some.inj hstep
      exact mlsRequest_goesOn_iff hinv hentry hstored hcan
    · cases hstep

/-! ### An upload whose answer is lost -/

/-- Bob's client uploads an envelope and does not get the answer. -/
def lostAnswer : OutboxState :=
  (System.exec (stepOutbox sampleSettings sampleDigest "bob")
    ⟨quietRelay, none, none, .routing, []⟩
    [.prepare "session" (sampleSend "m-1"),
      .flush none .responseLost "00000000-0000-4000-8000-000000000001"]).get (by decide +kernel)

theorem reachable_lostAnswer :
    (outboxSystem sampleSettings sampleDigest "bob").Reachable lostAnswer :=
  ⟨⟨quietRelay, none, none, .routing, []⟩, _, ⟨reachable_quietRelay, rfl, rfl, rfl, rfl⟩,
    System.run_of_exec (Option.some_get _).symm⟩

def retryFlush : OutboxAction := .flush none .answered "00000000-0000-4000-8000-000000000002"

def flushedAgain : OutboxState :=
  (stepOutbox sampleSettings sampleDigest "bob" lostAnswer retryFlush).get (by decide +kernel)

theorem outbox_retry_sample : flushedAgain.outbox = none ∧
    StillAdmitted sampleSettings lostAnswer.relay "bob" "session" (sampleSend "m-1") none := by
  obtain ⟨hentry, hstored, hcleared⟩ :
      lostAnswer.outbox = some ("session", sampleSend "m-1") ∧
      ("session", sampleSend "m-1") ∈ lostAnswer.accepted ∧
      flushedAgain.outbox = none := by decide +kernel
  have hstep : (outboxSystem sampleSettings sampleDigest "bob").step lostAnswer retryFlush
      flushedAgain := (Option.some_get _).symm
  obtain ⟨-, -, -, hflush, -⟩ := outbox_retry sampleSettings sampleDigest "bob" lostAnswer
    reachable_lostAnswer
  exact ⟨hcleared, (hflush _ _ _ _ _ hstep hentry hstored).mp hcleared⟩

/-- Before the retry alice adds carol. -/
def laterEpoch : OutboxState :=
  (System.exec (stepOutbox sampleSettings sampleDigest "bob") lostAnswer
    [.relay (.register "carol" "carol" false),
      .relay (.addMember "alice" "session" "carol" none)]).get (by decide +kernel)

theorem run_laterEpoch : (outboxSystem sampleSettings sampleDigest "bob").Run lostAnswer
    [.relay (.register "carol" "carol" false),
      .relay (.addMember "alice" "session" "carol" none)] laterEpoch :=
  System.run_of_exec (Option.some_get _).symm

def flushedLater : OutboxState :=
  (stepOutbox sampleSettings sampleDigest "bob" laterEpoch retryFlush).get (by decide +kernel)

/-- The stored envelope is refused for its epoch and stays in the outbox. -/
theorem stored_upload_not_acknowledged :
    (outboxSystem sampleSettings sampleDigest "bob").Reachable laterEpoch ∧
      laterEpoch.outbox = some ("session", sampleSend "m-1") ∧
      ("session", sampleSend "m-1") ∈ laterEpoch.accepted ∧
      (outboxSystem sampleSettings sampleDigest "bob").step laterEpoch retryFlush flushedLater ∧
      flushedLater.outbox = some ("session", sampleSend "m-1") := by
  obtain ⟨hentry, hstored, hkept⟩ :
      laterEpoch.outbox = some ("session", sampleSend "m-1") ∧
      ("session", sampleSend "m-1") ∈ laterEpoch.accepted ∧
      flushedLater.outbox = some ("session", sampleSend "m-1") := by decide +kernel
  exact ⟨reachable_lostAnswer.run run_laterEpoch, hentry, hstored, (Option.some_get _).symm, hkept⟩

end Scap.E2ee
