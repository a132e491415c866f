import Scap.E2ee.Membership
import Scap.Lib.Cursor

/-!
# Delivery

A device polls a conversation with the cursor of the last envelope it has received, while members
upload. The device is the reader of the table of envelopes it is served, a table that only grows.

* `follows_step`, `misses_step` — a device has received exactly what lies up to its cursor until an
  envelope is stored below the cursor, which it never gets;
* `delivered_iff_above_cursor` — what a device has received once a page is empty.
-/

namespace Scap.E2ee

open Scap.Lib

variable {cfg : Settings} {digest : ReplayPayload → String}

/-! ## A device that polls -/

structure Poller where
  userId : String
  sessionId : String
  deviceId : String
  deriving DecidableEq, Repr

/-- The relay, and the device with its cursor and everything it has received. -/
structure DeliveryState where
  relay : Relay
  inbox : Reader E2eeEnvelope (Int ×ₗ String)

/-- A poll of `PrivateClient.receive` or `MlsClient.receive`, with the cursor as `after` and
`after_id`. -/
def nextPage (cfg : Settings) (v : Poller) (st : DeliveryState) (limit : Nat)
    (refusal : Option HttpError) : Relay × Reply (List E2eeEnvelope) :=
  receiveE2eeEnvelopes cfg st.relay v.userId v.sessionId v.deviceId
    (st.inbox.cursor.map fun k => (ofLex k).1) (st.inbox.cursor.map fun k => (ofLex k).2)
    limit refusal

/-- What happens meanwhile. A client that stops in the middle of a page has polled with a smaller
limit. -/
inductive DeliveryAction where
  | tick (microseconds : Nat)
  | send (userId sessionId : String) (p : EnvelopeSend) (refusal : Option HttpError) (id : String)
  | poll (limit : Nat) (refusal : Option HttpError)
  deriving DecidableEq, Repr

def stepDelivery (cfg : Settings) (digest : ReplayPayload → String) (v : Poller)
    (st : DeliveryState) : DeliveryAction → Option DeliveryState
  | .tick d => (stepRelay cfg digest st.relay (.tick d)).map fun s => ⟨s, st.inbox⟩
  | .send userId sessionId p refusal id =>
      (stepRelay cfg digest st.relay (.send userId sessionId p refusal id)).map fun s =>
        ⟨s, st.inbox⟩
  | .poll limit refusal =>
      if limit = 0 ∨ 200 < limit then none
      else match nextPage cfg v st limit refusal with
        | (s, .error _) => some ⟨s, st.inbox⟩
        | (s, .ok page) => some ⟨s, st.inbox.read E2eeEnvelope.cursor page⟩

/-- Members upload and the device polls, from any state of the relay on. -/
def deliverySystem (cfg : Settings) (digest : ReplayPayload → String) (v : Poller) :
    System DeliveryState DeliveryAction :=
  System.ofFun (fun st => (relaySystem cfg digest).Reachable st.relay ∧ st.inbox = .fresh)
    (stepDelivery cfg digest v)

/-- A stored envelope that the device is entitled to. -/
def Entitled (v : Poller) (s : Relay) (e : E2eeEnvelope) : Prop :=
  e ∈ s.envelopes.rows ∧
    ∃ m, s.activeMember? v.sessionId v.userId = some m ∧ servedTo m v.deviceId e = true

/-- The device has everything it is entitled to, once and in the order of the cursors. -/
structure Delivered (v : Poller) (st : DeliveryState) : Prop where
  inOrder : st.inbox.received.Pairwise fun e e' => e.cursor < e'.cursor
  exact : ∀ e, e ∈ st.inbox.received ↔ Entitled v st.relay e

/-- An upload goes to the device: it is addressed to it or to the group. -/
def Addresses (v : Poller) (s : Relay) (sessionId : String) (p : EnvelopeSend) : Prop :=
  sessionId = v.sessionId ∧
    (∃ m, s.activeMember? v.sessionId v.userId = some m ∧ m.joinedEpoch ≤ p.epoch) ∧
    (p.recipientDeviceId.filter (· ≠ "") = some v.deviceId ∨
      (p.recipientDeviceId.filter (· ≠ "") = none ∧ p.protocol = protocolMls))

/-- An envelope for the device that is stored at the time of its cursor gets a greater id. -/
def AboveCursor (cfg : Settings) (digest : ReplayPayload → String) (v : Poller)
    (st : DeliveryState) : DeliveryAction → Prop
  | .send userId sessionId p refusal id =>
      (∃ row member envelope,
        Accepted cfg digest st.relay userId sessionId p refusal row member envelope) →
      Addresses v st.relay sessionId p →
      ∀ last, st.inbox.cursor = some (toLex (st.relay.clock, last)) → last < id
  | _ => True

/-! ## What the device is served -/

/-- The table a member's device reads. -/
def served (m : ConversationMember) (deviceId : String) (s : Relay) :
    KeyedTable E2eeEnvelope.cursor :=
  s.envelopes.filter (servedTo m deviceId)

variable {v : Poller} {m : ConversationMember} {s t : Relay} {st st' : DeliveryState}
  {a : DeliveryAction}

theorem delivered_iff (hm : st.relay.activeMember? v.sessionId v.userId = some m) :
    Delivered v st ↔ st.inbox.received = (served m v.deviceId st.relay).rows := by
  have hmem : ∀ e, e ∈ (served m v.deviceId st.relay).rows ↔ Entitled v st.relay e := by
    intro e
    unfold served Entitled
    rw [KeyedTable.mem_filter, hm]
    simp
  constructor
  · intro h
    have : Std.Irrefl fun a b : E2eeEnvelope => a.cursor < b.cursor := ⟨fun a => lt_irrefl _⟩
    apply h.inOrder.eq_of_mem_iff (served m v.deviceId st.relay).sorted
    intro e
    rw [h.exact, hmem]
  · intro h
    constructor
    · rw [h]
      exact (served m v.deviceId st.relay).sorted
    · intro e
      rw [h, hmem]

/-- A page is what comes next in the table of the device. -/
theorem nextPage_ok {limit : Nat} {refusal : Option HttpError} {page : List E2eeEnvelope}
    (h : nextPage cfg v st limit refusal = (t, .ok page)) :
    t = st.relay ∧ ∃ m, st.relay.activeMember? v.sessionId v.userId = some m ∧
      page = ((served m v.deviceId st.relay).beyond st.inbox.cursor).take limit := by
  unfold nextPage receiveE2eeEnvelopes at h
  split at h
  · cases h
  · next row m hmember =>
    obtain ⟨rfl, -, -, -, -, -, hm⟩ := requirePrivateMemberSession_ok hmember
    split at h
    · cases h
    · next device hdevice =>
      obtain ⟨hdevice, -⟩ := Option.filter_eq_some_iff.mp hdevice
      obtain ⟨-, hid, -⟩ := trustedDevice?_eq_some.mp hdevice
      rw [hid] at h
      cases hcursor : st.inbox.cursor with
      | none =>
          rw [hcursor] at h
          obtain ⟨rfl, hok⟩ := Prod.mk.inj h
          exact ⟨rfl, m, hm, (Except.ok.inj hok).symm⟩
      | some k =>
          rw [hcursor] at h
          dsimp only [Option.map_some] at h
          split at h
          · cases h
          · obtain ⟨rfl, hok⟩ := Prod.mk.inj h
            exact ⟨rfl, m, hm, (Except.ok.inj hok).symm⟩

/-- The member and the table of its device are the same in both stores. -/
structure SameView (v : Poller) (m : ConversationMember) (s t : Relay) : Prop where
  member : s.activeMember? v.sessionId v.userId = some m
  table : served m v.deviceId t = served m v.deviceId s

theorem sameView_dropSession {sessionId : String}
    (h : (dropSession s sessionId).activeMember? v.sessionId v.userId = some m) :
    SameView v m s (dropSession s sessionId) := by
  obtain ⟨hmem, hsession, huser, hactive⟩ := activeMember?_eq_some.mp h
  obtain ⟨hmem, hne⟩ := KeyedTable.mem_filter.mp hmem
  have hne : m.sessionId ≠ sessionId := by simpa using hne
  refine ⟨activeMember?_eq_some.mpr ⟨hmem, hsession, huser, hactive⟩, ?_⟩
  apply KeyedTable.ext_mem
  intro e
  show e ∈ ((s.envelopes.filter _).filter _).rows ↔ e ∈ (s.envelopes.filter _).rows
  rw [KeyedTable.mem_filter, KeyedTable.mem_filter, KeyedTable.mem_filter]
  constructor
  · exact fun ⟨⟨he, _⟩, hserved⟩ => ⟨he, hserved⟩
  · intro ⟨he, hserved⟩
    -- what is served is in the member's own conversation
    have hown : e.sessionId = m.sessionId := by
      simp only [servedTo, Bool.and_eq_true, decide_eq_true_eq] at hserved
      exact hserved.1.1
    exact ⟨⟨he, by simpa [hown] using hne⟩, hserved⟩

theorem sameView_guard {userId sessionId : String} {refusal : Option HttpError}
    (h : (requirePrivateMemberSession cfg s userId sessionId refusal).1.activeMember?
      v.sessionId v.userId = some m) :
    SameView v m s (requirePrivateMemberSession cfg s userId sessionId refusal).1 := by
  rcases requirePrivateMemberSession_fst cfg s userId sessionId refusal with hsame | ⟨id, hdrop⟩
  · rw [hsame] at h ⊢
    exact ⟨h, rfl⟩
  · rw [hdrop] at h ⊢
    exact sameView_dropSession h

theorem addresses_iff {userId sessionId : String} (id : String) {p : EnvelopeSend}
    {refusal : Option HttpError} {row : ChatSession} {member : ConversationMember}
    {envelope : OpaqueEnvelope} (hm : s.activeMember? v.sessionId v.userId = some m)
    (h : Accepted cfg digest s userId sessionId p refusal row member envelope) :
    Addresses v s sessionId p ↔
      servedTo m v.deviceId (envelopeRow digest s userId row p envelope id) = true := by
  obtain ⟨-, -, -, hrow, -⟩ := requirePrivateMemberSession_ok h.admitted
  obtain ⟨-, hid⟩ := KeyedTable.find?_eq_some hrow
  obtain ⟨-, -, -, ⟨expected, -, hvalid⟩, -⟩ := checkEnvelope_ok h.checked
  obtain ⟨hprotocol, -, hepoch, -⟩ := validateOpaqueEnvelope_ok hvalid
  have hsession : m.sessionId = v.sessionId := (activeMember?_eq_some.mp hm).2.1
  simp only [Addresses, servedTo, envelopeRow, hm, hid, hsession, hepoch, hprotocol,
    Option.some.injEq, exists_eq_left', Bool.and_eq_true, Bool.or_eq_true, decide_eq_true_eq,
    and_assoc]

/-- What a step is to the device: nothing, a page or an envelope for it. -/
inductive DeliveryChange (cfg : Settings) (digest : ReplayPayload → String) (v : Poller)
    (m : ConversationMember) (st : DeliveryState) (a : DeliveryAction) : DeliveryState → Prop
  | view {t : Relay} (h : SameView v m st.relay t) (habove : AboveCursor cfg digest v st a) :
      DeliveryChange cfg digest v m st a ⟨t, st.inbox⟩
  | page (limit : Nat) (hm : st.relay.activeMember? v.sessionId v.userId = some m)
      (habove : AboveCursor cfg digest v st a) :
      DeliveryChange cfg digest v m st a ⟨st.relay, st.inbox.read E2eeEnvelope.cursor
        (((served m v.deviceId st.relay).beyond st.inbox.cursor).take limit)⟩
  | store (e : E2eeEnvelope) (hm : st.relay.activeMember? v.sessionId v.userId = some m)
      (hfresh : e.id ∉ st.relay.drawn) (hnow : e.createdAt = st.relay.clock)
      (hserved : servedTo m v.deviceId e = true)
      (habove : AboveCursor cfg digest v st a ↔
        ∀ last, st.inbox.cursor = some (toLex (st.relay.clock, last)) → last < e.id) :
      DeliveryChange cfg digest v m st a ⟨storeEnvelope st.relay e, st.inbox⟩

theorem deliveryChange_send {userId sessionId id : String} {p : EnvelopeSend}
    {refusal : Option HttpError} (hinv : EnvelopeInv st.relay) (hfresh : id ∉ st.relay.drawn)
    (hm : (sendE2eeEnvelope cfg digest st.relay userId sessionId p refusal id).1.activeMember?
      v.sessionId v.userId = some m) :
    DeliveryChange cfg digest v m st (.send userId sessionId p refusal id)
      ⟨(sendE2eeEnvelope cfg digest st.relay userId sessionId p refusal id).1, st.inbox⟩ := by
  by_cases haccepted : ∃ row member envelope,
      Accepted cfg digest st.relay userId sessionId p refusal row member envelope
  · obtain ⟨row, member, envelope, h⟩ := haccepted
    rw [sendE2eeEnvelope_of_accepted id h] at hm ⊢
    have hm : st.relay.activeMember? v.sessionId v.userId = some m := hm
    have haddresses := addresses_iff id hm h
    by_cases hserved :
        servedTo m v.deviceId (envelopeRow digest st.relay userId row p envelope id) = true
    · apply DeliveryChange.store _ hm hfresh rfl hserved
      constructor
      · exact fun habove => habove ⟨row, member, envelope, h⟩ (haddresses.mpr hserved)
      · exact fun hlast _ _ => hlast
    · -- it goes to somebody else
      refine .view ⟨hm, ?_⟩ fun _ hto => absurd (haddresses.mp hto) hserved
      unfold served
      refine (KeyedTable.filter_insertNew (fresh_cursor hinv hfresh)).trans ?_
      rw [if_neg hserved]
  · have hnot : ∀ row member envelope,
        ¬ Accepted cfg digest st.relay userId sessionId p refusal row member envelope :=
      fun row member envelope h => haccepted ⟨row, member, envelope, h⟩
    obtain ⟨e, he⟩ := sendE2eeEnvelope_of_not_accepted id hnot
    rw [he] at hm ⊢
    exact .view (sameView_guard hm) fun h => absurd h haccepted

theorem nextPage_fst (limit : Nat) (refusal : Option HttpError)
    (hm : (nextPage cfg v st limit refusal).1.activeMember? v.sessionId v.userId = some m) :
    SameView v m st.relay (nextPage cfg v st limit refusal).1 := by
  have hguard : (nextPage cfg v st limit refusal).1 =
      (requirePrivateMemberSession cfg st.relay v.userId v.sessionId refusal).1 := by
    unfold nextPage receiveE2eeEnvelopes
    split
    · next hmember => rw [hmember]
    · next hmember =>
      rw [hmember]
      dsimp only
      repeat' split
      all_goals rfl
  rw [hguard] at hm ⊢
  exact sameView_guard hm

theorem deliveryChange_of_step (hinv : EnvelopeInv st.relay)
    (h : stepDelivery cfg digest v st a = some st')
    (hm : st'.relay.activeMember? v.sessionId v.userId = some m) :
    DeliveryChange cfg digest v m st a st' := by
  cases a with
  | tick d =>
      obtain rfl := Option.some.inj h
      exact .view ⟨hm, rfl⟩ trivial
  | send userId sessionId p refusal id =>
      simp only [stepDelivery, stepRelay] at h
      split at h
      · cases h
      · next hguard =>
        obtain rfl := Option.some.inj h
        exact deliveryChange_send hinv (not_or.mp hguard).1 hm
  | poll limit refusal =>
      simp only [stepDelivery] at h
      split at h
      · cases h
      · split at h
        · next t e hpage =>
          obtain rfl := Option.some.inj h
          have hview : (nextPage cfg v st limit refusal).1.activeMember? v.sessionId v.userId =
              some m := by rw [hpage]; exact hm
          have hsame := nextPage_fst limit refusal hview
          rw [hpage] at hsame
          exact .view hsame trivial
        · next t page hpage =>
          obtain rfl := Option.some.inj h
          obtain ⟨rfl, m', hm', rfl⟩ := nextPage_ok hpage
          obtain rfl : m' = m := Option.some.inj (hm'.symm.trans hm)
          exact .page limit hm' trivial

/-! ## Runs -/

theorem DeliveryChange.member (h : DeliveryChange cfg digest v m st a st') :
    st.relay.activeMember? v.sessionId v.userId = some m := by
  cases h with
  | view h habove => exact h.member
  | page limit hm habove => exact hm
  | store e hm hfresh hnow hserved habove => exact hm

/-- The cursor is the time and the identifier of an envelope of the past. -/
def PastCursor (st : DeliveryState) : Prop :=
  ∀ k, st.inbox.cursor = some k → (ofLex k).1 ≤ st.relay.clock

theorem served_storeEnvelope {e : E2eeEnvelope} (hinv : EnvelopeInv s) (hfresh : e.id ∉ s.drawn)
    (hserved : servedTo m v.deviceId e = true) :
    served m v.deviceId (storeEnvelope s e) = (served m v.deviceId s).insertNew e := by
  refine (KeyedTable.filter_insertNew (fresh_cursor hinv hfresh)).trans ?_
  rw [if_pos hserved]
  rfl

theorem fresh_served {e : E2eeEnvelope} (hinv : EnvelopeInv s) (hfresh : e.id ∉ s.drawn) :
    ∀ x ∈ (served m v.deviceId s).rows, x.cursor ≠ e.cursor :=
  fun x hx => fresh_cursor hinv hfresh x (KeyedTable.mem_filter.mp hx).1

/-- A device that is up to date stays so as long as nothing is stored for it below its cursor. -/
theorem follows_step (hinv : EnvelopeInv st.relay) (hpast : PastCursor st)
    (h : DeliveryChange cfg digest v m st a st') (habove : AboveCursor cfg digest v st a)
    (hs : st.inbox.UpToDate (served m v.deviceId st.relay)) :
    st'.inbox.UpToDate (served m v.deviceId st'.relay) := by
  cases h with
  | view hview _ =>
      rw [hview.table]
      exact hs
  | page limit hm _ => exact hs.read limit
  | store e hm hfresh hnow hserved hiff =>
      rw [served_storeEnvelope hinv hfresh hserved]
      apply hs.insert (fresh_served hinv hfresh)
      intro k hk
      -- the cursor's time is over, or it is now and the identifiers decide
      show k < toLex (e.createdAt, e.id)
      rw [Prod.Lex.lt_iff, hnow]
      rcases lt_or_eq_of_le (hpast k hk) with hlt | heq
      · exact .inl hlt
      · refine .inr ⟨heq, hiff.mp habove _ ?_⟩
        rw [hk, ← heq]
        rfl

/-- An envelope stored below the cursor is missed. -/
theorem misses_of_step (hinv : EnvelopeInv st.relay)
    (h : DeliveryChange cfg digest v m st a st') (hbelow : ¬ AboveCursor cfg digest v st a)
    (hs : st.inbox.UpToDate (served m v.deviceId st.relay)) :
    st'.inbox.Missed (served m v.deviceId st'.relay) := by
  cases h with
  | view _ habove => exact absurd habove hbelow
  | page limit hm habove => exact absurd habove hbelow
  | store e hm hfresh hnow hserved hiff =>
      rw [served_storeEnvelope hinv hfresh hserved]
      rw [hiff] at hbelow
      push Not at hbelow
      obtain ⟨last, hcursor, hle⟩ := hbelow
      apply Reader.missed_of_insert hs.subset (fresh_served hinv hfresh) hcursor
      show toLex (e.createdAt, e.id) ≤ toLex (st.relay.clock, last)
      rw [Prod.Lex.le_iff]
      exact .inr ⟨hnow, hle⟩

/-- What is missed once is missed for good. -/
theorem misses_step (hinv : EnvelopeInv st.relay) (h : DeliveryChange cfg digest v m st a st')
    (hs : st.inbox.Missed (served m v.deviceId st.relay)) :
    st'.inbox.Missed (served m v.deviceId st'.relay) := by
  cases h with
  | view hview _ =>
      rw [hview.table]
      exact hs
  | page limit hm _ => exact hs.read limit
  | store e hm hfresh hnow hserved hiff =>
      rw [served_storeEnvelope hinv hfresh hserved]
      exact hs.insert

theorem relay_of_step (h : stepDelivery cfg digest v st a = some st') :
    ∃ b, stepRelay cfg digest st.relay b = some st'.relay := by
  cases a with
  | tick d =>
      simp only [stepDelivery, Option.map_eq_some_iff] at h
      obtain ⟨s, hs, rfl⟩ := h
      exact ⟨_, hs⟩
  | send userId sessionId p refusal id =>
      simp only [stepDelivery, Option.map_eq_some_iff] at h
      obtain ⟨s, hs, rfl⟩ := h
      exact ⟨_, hs⟩
  | poll limit refusal =>
      refine ⟨.receive v.userId v.sessionId v.deviceId
        (st.inbox.cursor.map fun k => (ofLex k).1) (st.inbox.cursor.map fun k => (ofLex k).2)
        limit refusal, ?_⟩
      simp only [stepDelivery] at h
      split at h
      · cases h
      · show some (nextPage cfg v st limit refusal).1 = some st'.relay
        split at h
        · next t e hpage =>
          obtain rfl := Option.some.inj h
          rw [hpage]
        · next t page hpage =>
          obtain rfl := Option.some.inj h
          rw [hpage]

theorem pastCursor_step (hinv : EnvelopeInv st.relay) (hpast : PastCursor st)
    (h : stepDelivery cfg digest v st a = some st') : PastCursor st' := by
  obtain ⟨b, hb⟩ := relay_of_step h
  have hlater : st.relay.clock ≤ st'.relay.clock := (later_change (change_of_step hb)).clock
  have hsame : st'.inbox = st.inbox → PastCursor st' := by
    intro hinbox k hk
    rw [hinbox] at hk
    exact (hpast k hk).trans hlater
  cases a with
  | tick d => exact hsame (by rw [← Option.some.inj h])
  | send userId sessionId p refusal id =>
      simp only [stepDelivery, Option.map_eq_some_iff] at h
      obtain ⟨s, -, rfl⟩ := h
      exact hsame rfl
  | poll limit refusal =>
      simp only [stepDelivery] at h
      split at h
      · cases h
      · split at h
        · exact hsame (by rw [← Option.some.inj h])
        · next t page hpage =>
          obtain rfl := Option.some.inj h
          obtain ⟨rfl, m, hm, rfl⟩ := nextPage_ok hpage
          intro k hk
          rcases Option.or_eq_some_iff.mp hk with hlast | ⟨-, hold⟩
          · obtain ⟨e, he, rfl⟩ := Option.map_eq_some_iff.mp hlast
            have hbeyond := List.mem_of_mem_take (List.mem_of_getLast? he)
            have hserved := (KeyedTable.mem_beyond.mp hbeyond).1
            exact hinv.past e (KeyedTable.mem_filter.mp hserved).1
          · exact hpast k hold

theorem relay_reachable {as : List DeliveryAction}
    (hrun : (deliverySystem cfg digest v).Run st as st')
    (h : (relaySystem cfg digest).Reachable st.relay) :
    (relaySystem cfg digest).Reachable st'.relay := by
  refine hrun.preserves (I := fun st => (relaySystem cfg digest).Reachable st.relay) ?_ h
  intro st a st' hs hstep
  obtain ⟨b, hb⟩ := relay_of_step hstep
  exact hs.step hb

theorem deliverySystem_deterministic (st : DeliveryState) (a : DeliveryAction)
    (st₁ st₂ : DeliveryState) (h₁ : (deliverySystem cfg digest v).step st a st₁)
    (h₂ : (deliverySystem cfg digest v).step st a st₂) : st₁ = st₂ :=
  System.ofFun_deterministic st a st₁ st₂ h₁ h₂

/-- A device is up to date as long as every envelope for it is stored above its cursor, and has
missed one for good from the first that is not. -/
theorem follows_or_misses {as : List DeliveryAction} (h₀ : (deliverySystem cfg digest v).init st)
    (hrun : (deliverySystem cfg digest v).Run st as st') :
    PastCursor st' ∧ ∀ m, st'.relay.activeMember? v.sessionId v.userId = some m →
      (st'.inbox.UpToDate (served m v.deviceId st'.relay) ∧
        ((deliverySystem cfg digest v).restrict (AboveCursor cfg digest v)).Run st as st') ∨
      (st'.inbox.Missed (served m v.deviceId st'.relay) ∧
        ¬ ((deliverySystem cfg digest v).restrict (AboveCursor cfg digest v)).Run st as st') := by
  obtain ⟨hreachable, hfresh⟩ := h₀
  induction hrun with
  | nil =>
      constructor
      · intro k hk
        rw [hfresh] at hk
        cases hk
      · intro m hm
        rw [hfresh]
        exact .inl ⟨Reader.upToDate_fresh _, .nil⟩
  | @snoc as a st₁ st₂ hrun hstep ih =>
      obtain ⟨hpast, ih⟩ := ih
      have hinv := envelopeInv_of_reachable (relay_reachable hrun hreachable)
      refine ⟨pastCursor_step hinv hpast hstep, ?_⟩
      intro m hm
      have hchange := deliveryChange_of_step hinv hstep hm
      rw [hrun.restrict_snoc deliverySystem_deterministic hstep]
      rcases ih m hchange.member with ⟨hfollows, hclear⟩ | ⟨hmisses, hnot⟩
      · by_cases habove : AboveCursor cfg digest v st₁ a
        · exact .inl ⟨follows_step hinv hpast hchange habove hfollows, hclear, habove⟩
        · exact .inr ⟨misses_of_step hinv hchange habove hfollows, fun h => habove h.2⟩
      · exact .inr ⟨misses_step hinv hchange hmisses, fun h => hnot h.1⟩

/-- **What a device has received once a page is empty.** It is exactly what it is entitled to, once
and in the order of the cursors, if and only if every envelope for it was stored above its cursor:
one stored in the same microsecond as the cursor's needs a greater identifier. -/
theorem delivered_iff_above_cursor (cfg : Settings) (digest : ReplayPayload → String) (v : Poller)
    (st st' : DeliveryState) (as : List DeliveryAction)
    (h₀ : (deliverySystem cfg digest v).init st)
    (hrun : (deliverySystem cfg digest v).Run st as st') (limit : Nat) (hlimit : 0 < limit)
    (refusal : Option HttpError) (t : Relay)
    (hempty : nextPage cfg v st' limit refusal = (t, .ok [])) :
    Delivered v st' ↔
      ((deliverySystem cfg digest v).restrict (AboveCursor cfg digest v)).Run st as st' := by
  obtain ⟨-, m, hm, hpage⟩ := nextPage_ok hempty
  have hbeyond : (served m v.deviceId st'.relay).beyond st'.inbox.cursor = [] := by
    rcases List.take_eq_nil_iff.mp hpage.symm with hzero | hnil
    · omega
    · exact hnil
  rw [delivered_iff hm]
  rcases (follows_or_misses h₀ hrun).2 m hm with ⟨hfollows, hclear⟩ | ⟨hmisses, hnot⟩
  · exact iff_of_true (hfollows.complete hbeyond) hclear
  · exact iff_of_false hmisses.incomplete hnot

/-! ### Two envelopes of one microsecond -/

def alicePoller : Poller := ⟨"alice", "session", "alice-device"⟩

def aliceMember : ConversationMember := ⟨"session", "alice", 1, none, none⟩

/-- Between two uploads of one microsecond alice polls; the second is stored as `last`. -/
def tiedRun (last : String) : List DeliveryAction := [
  .send "bob" "session" (sampleSend "m-1") none "00000000-0000-4000-8000-000000000002",
  .poll 100 none,
  .send "bob" "session" (sampleSend "m-2") none last,
  .poll 100 none]

def tiedBelow : DeliveryState :=
  (System.exec (stepDelivery sampleSettings sampleDigest alicePoller) ⟨quietRelay, .fresh⟩
    (tiedRun "00000000-0000-4000-8000-000000000001")).get (by decide +kernel)

theorem run_tiedBelow : (deliverySystem sampleSettings sampleDigest alicePoller).Run
    ⟨quietRelay, .fresh⟩ (tiedRun "00000000-0000-4000-8000-000000000001") tiedBelow :=
  System.run_of_exec (Option.some_get _).symm

def tiedAbove : DeliveryState :=
  (System.exec (stepDelivery sampleSettings sampleDigest alicePoller) ⟨quietRelay, .fresh⟩
    (tiedRun "00000000-0000-4000-8000-000000000003")).get (by decide +kernel)

theorem run_tiedAbove : (deliverySystem sampleSettings sampleDigest alicePoller).Run
    ⟨quietRelay, .fresh⟩ (tiedRun "00000000-0000-4000-8000-000000000003") tiedAbove :=
  System.run_of_exec (Option.some_get _).symm

theorem delivered_iff_above_cursor_sample :
    Delivered alicePoller tiedAbove ∧
      ((deliverySystem sampleSettings sampleDigest alicePoller).restrict
        (AboveCursor sampleSettings sampleDigest alicePoller)).Run ⟨quietRelay, .fresh⟩
        (tiedRun "00000000-0000-4000-8000-000000000003") tiedAbove := by
  obtain ⟨hm, hall, hpage⟩ :
      tiedAbove.relay.activeMember? alicePoller.sessionId alicePoller.userId =
        some aliceMember ∧
      tiedAbove.inbox.received = (served aliceMember "alice-device" tiedAbove.relay).rows ∧
      (nextPage sampleSettings alicePoller tiedAbove 100 none).2 = .ok [] := by decide +kernel
  have hall : Delivered alicePoller tiedAbove := (delivered_iff hm).mpr hall
  have hempty : nextPage sampleSettings alicePoller tiedAbove 100 none =
      ((nextPage sampleSettings alicePoller tiedAbove 100 none).1, .ok []) := by rw [← hpage]
  exact ⟨hall, (delivered_iff_above_cursor sampleSettings sampleDigest alicePoller
    ⟨quietRelay, .fresh⟩ tiedAbove _ ⟨reachable_quietRelay, rfl⟩ run_tiedAbove 100 (by decide)
    none _ hempty).mp hall⟩

/-- The second envelope has the smaller identifier and never arrives. -/
theorem tied_envelope_missed :
    (deliverySystem sampleSettings sampleDigest alicePoller).init ⟨quietRelay, .fresh⟩ ∧
      (deliverySystem sampleSettings sampleDigest alicePoller).Run ⟨quietRelay, .fresh⟩
        (tiedRun "00000000-0000-4000-8000-000000000001") tiedBelow ∧
      (∃ t, nextPage sampleSettings alicePoller tiedBelow 100 none = (t, .ok [])) ∧
      ¬ Delivered alicePoller tiedBelow := by
  obtain ⟨hm, hlength, hpage⟩ :
      tiedBelow.relay.activeMember? alicePoller.sessionId alicePoller.userId =
        some aliceMember ∧
      tiedBelow.inbox.received.length ≠
        (served aliceMember "alice-device" tiedBelow.relay).rows.length ∧
      (nextPage sampleSettings alicePoller tiedBelow 100 none).2 = .ok [] := by decide +kernel
  have hempty : nextPage sampleSettings alicePoller tiedBelow 100 none =
      ((nextPage sampleSettings alicePoller tiedBelow 100 none).1, .ok []) := by rw [← hpage]
  refine ⟨⟨reachable_quietRelay, rfl⟩, run_tiedBelow, ⟨_, hempty⟩, ?_⟩
  rw [delivered_iff hm]
  intro hall
  exact hlength (congrArg List.length hall)

end Scap.E2ee
