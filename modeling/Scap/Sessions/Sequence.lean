import Scap.Sessions.Carried

/-!
# The messages of a conversation in the order of their creation

* `exchanged_of_storeExchange`: a commit appends its two rows to those of its conversation;
* `sound_of_step`: under its locks a send finds the quota as it was checked and its index above
  every message, and stores both rows or neither;
* `message_sequence_integrity`: so the messages of every conversation are those that its sends
  stored, in pairs and in increasing order, and no more than the limit.
-/

namespace Scap.Sessions

open Scap.Lib Scap.E2ee

variable {cfg : Settings} {digest : ReplayPayload → String} {s t u : Store}

/-! ## The two rows of an exchange -/

theorem turns_insert?_self {messages messages' : KeyedTable SecureMessage.key} {m : SecureMessage}
    (h : messages.insert? m = some messages')
    (habove : ∀ k ∈ turns messages m.sessionId, k.1 < m.messageIndex) :
    turns messages' m.sessionId = turns messages m.sessionId ++ [(m.messageIndex, m.role)] := by
  unfold turns
  rw [KeyedTable.filter_insert?_of_above h (by simp), List.map_append]
  · rfl
  · intro x hx hsame
    have hid : x.sessionId = m.sessionId := of_decide_eq_true hsame
    apply Prod.Lex.toLex_lt_toLex.mpr
    refine .inr ⟨hid, habove (x.messageIndex, x.role) ?_⟩
    exact List.mem_map.mpr ⟨x, List.mem_filter.mpr ⟨hx, hsame⟩, rfl⟩

theorem turns_insert?_of_ne {messages messages' : KeyedTable SecureMessage.key}
    {m : SecureMessage} {id : String} (h : messages.insert? m = some messages')
    (hid : m.sessionId ≠ id) : turns messages' id = turns messages id := by
  unfold turns
  rw [KeyedTable.filter_insert?_of_not h (decide_eq_false hid)]

/-- What the commit of a send leaves. -/
structure Exchanged (s t : Store) (id : String) (firstIndex : Nat) : Prop where
  own : turns t.messages id =
    turns s.messages id ++ [(firstIndex, .user), (firstIndex + 1, .assistant)]
  others : ∀ i ≠ id, turns t.messages i = turns s.messages i
  sessions : ∀ i, s.hasSession i → t.hasSession i
  locked : ∀ i ≠ id, t.relay.sessions.find? i = s.relay.sessions.find? i

theorem find?_ensureSessionKey_of_ne {row row' : ChatSession} {generated : Option WrappedDek}
    {id : String} (h : ensureSessionKey s row generated = .ok (t, row')) (hid : id ≠ row.id) :
    t.relay.sessions.find? id = s.relay.sessions.find? id := by
  obtain ⟨-, -, -, -, hrelay, -⟩ := ensureSessionKey_ok h
  rcases hrelay with hrelay | hrelay <;> rw [hrelay]
  unfold setEpoch
  rw [KeyedTable.find?_modify]
  cases hfind : s.relay.sessions.find? id with
  | none => rfl
  | some c =>
      obtain ⟨-, rfl⟩ := KeyedTable.find?_eq_some hfind
      rw [Option.map_some, if_neg hid]

theorem exchanged_of_storeExchange {row : ChatSession} {firstIndex : Nat}
    {generated : Option WrappedDek} {sealedUser sealedAssistant : Option String}
    (habove : ∀ k ∈ turns s.messages row.id, k.1 < firstIndex)
    (h : storeExchange s row firstIndex generated sealedUser sealedAssistant = .ok t) :
    Exchanged s t row.id firstIndex := by
  unfold storeExchange at h
  split at h
  · cases h
  · next s₁ row₁ _ huser =>
    have huser := encryptMessage_ok huser
    obtain ⟨hid₁, -, -, hmessages₁, -⟩ := ensureSessionKey_ok huser
    split at h
    · cases h
    · next s₂ row₂ _ hassistant =>
      have hassistant := encryptMessage_ok hassistant
      obtain ⟨-, -, -, hmessages₂, -⟩ := ensureSessionKey_ok hassistant
      split at h
      · cases h
      · next messages₁ hfirst =>
        split at h
        · cases h
        · next messages₂ hsecond =>
          obtain rfl := Except.ok.inj h
          rw [hmessages₂, hmessages₁] at hfirst
          rw [hid₁] at hfirst hsecond
          have hown₁ := turns_insert?_self hfirst habove
          have hown₂ := turns_insert?_self hsecond (by
            intro k hk
            rw [hown₁] at hk
            rcases List.mem_append.mp hk with hk | hk
            · exact (habove k hk).trans (Nat.lt_succ_self _)
            · obtain rfl := List.mem_singleton.mp hk
              exact Nat.lt_succ_self _)
          constructor
          · rw [hown₂, hown₁, List.append_assoc]
            rfl
          · intro i hi
            rw [turns_insert?_of_ne hsecond hi.symm, turns_insert?_of_ne hfirst hi.symm]
          · intro i hi
            have hi₁ := hasSession_ensureSessionKey huser hi
            have hi₂ := hasSession_ensureSessionKey hassistant hi₁
            exact hi₂
          · intro i hi
            show s₂.relay.sessions.find? i = s.relay.sessions.find? i
            rw [find?_ensureSessionKey_of_ne hassistant (hid₁ ▸ hi),
              find?_ensureSessionKey_of_ne huser hi]

/-- The next index is above all that are taken. -/
theorem lt_nextMessageIndex (s : Store) (id : String) :
    ∀ k ∈ turns s.messages id, k.1 < nextMessageIndex s id := by
  intro k hk
  obtain ⟨m, hm, rfl⟩ := List.mem_map.mp hk
  have hle (start : Nat) (is : List Nat) :
      start ≤ is.foldl max start ∧ ∀ i ∈ is, i ≤ is.foldl max start := by
    induction is generalizing start with
    | nil => simp
    | cons j is ih =>
        obtain ⟨hstart, his⟩ := ih (max start j)
        refine ⟨(le_max_left _ _).trans hstart, fun i hi => ?_⟩
        rcases List.mem_cons.mp hi with rfl | hi
        · exact (le_max_right _ _).trans hstart
        · exact his i hi
  apply Nat.lt_succ_of_le
  exact (hle 0 _).2 m.messageIndex (List.mem_map_of_mem hm)

/-- Where nothing comes in between, the commit does what `ChatService.chat` does. -/
theorem chat_eq_storeExchange {row : ChatSession} (hmode : row.securityMode ≠ .privateE2ee)
    (generated : Option WrappedDek) (sealedUser sealedAssistant : Option String) :
    chat s row (.ok ()) generated sealedUser sealedAssistant =
      storeExchange s row (nextMessageIndex s row.id) generated sealedUser sealedAssistant := by
  unfold chat storeExchange
  rw [if_neg hmode]
  cases huser : encryptMessage s row generated sealedUser with
  | error e => rfl
  | ok r =>
    obtain ⟨s₁, row₁, userCiphertext⟩ := r
    obtain ⟨hid₁, -, -, hmessages₁, -⟩ := ensureSessionKey_ok (encryptMessage_ok huser)
    dsimp only
    cases hassistant : encryptMessage s₁ row₁ generated sealedAssistant with
    | error e => rfl
    | ok r =>
      obtain ⟨s₂, row₂, assistantCiphertext⟩ := r
      obtain ⟨-, -, -, hmessages₂, -⟩ := ensureSessionKey_ok (encryptMessage_ok hassistant)
      have hmessages : s₂.messages = s.messages := hmessages₂.trans hmessages₁
      have hnew (m : SecureMessage) (hm : m ∈ s₂.messages.rows) (n : Nat)
          (hn : nextMessageIndex s row.id ≤ n) : m.key ≠ toLex (row₁.id, n) := by
        intro hkey
        obtain ⟨hid, rfl⟩ := Prod.mk.inj (toLex_inj.mp hkey)
        have hmem : (m.messageIndex, m.role) ∈ turns s.messages row.id :=
          List.mem_map.mpr ⟨m, List.mem_filter.mpr ⟨hmessages ▸ hm,
            decide_eq_true (hid.trans hid₁)⟩, rfl⟩
        exact absurd (lt_nextMessageIndex s row.id _ hmem) (not_lt.mpr hn)
      obtain ⟨messages₁, hfirst⟩ := KeyedTable.exists_insert? (t := s₂.messages)
        (r := ⟨row₁.id, .user, nextMessageIndex s row.id, userCiphertext,
          row₁.currentCryptoEpoch, .envelopeV1⟩) fun m hm => hnew m hm _ (le_refl _)
      obtain ⟨messages₂, hsecond⟩ := KeyedTable.exists_insert? (t := messages₁)
        (r := ⟨row₁.id, .assistant, nextMessageIndex s row.id + 1, assistantCiphertext,
          row₂.currentCryptoEpoch, .envelopeV1⟩) (by
          intro m hm
          rcases (KeyedTable.mem_insert? hfirst).mp hm with rfl | hm
          · intro hkey
            exact Nat.ne_of_lt (Nat.lt_succ_self _) (Prod.mk.inj (toLex_inj.mp hkey)).2
          · exact hnew m hm _ (Nat.le_succ _))
      simp only [KeyedTable.insertNew, hfirst, hsecond, Option.getD_some]

/-- The table shows the messages of a conversation by index. -/
theorem increasing_turns (messages : KeyedTable SecureMessage.key) (id : String) :
    (turns messages id).Pairwise fun a b => a.1 < b.1 := by
  unfold turns
  rw [List.pairwise_map, List.pairwise_filter]
  apply messages.sorted.imp
  intro m n hlt hm hn
  have hsame : m.sessionId = n.sessionId := (of_decide_eq_true hm).trans (of_decide_eq_true hn).symm
  rcases Prod.Lex.toLex_lt_toLex.mp hlt with hlt | ⟨-, hlt⟩
  · exact absurd hsame (ne_of_lt hlt)
  · exact hlt

/-! ## The invariant -/

def Created.turn (c : Created) : Nat × Role := (c.messageIndex, c.role)

/-- The messages of a conversation, and those of a send, in the order of their creation. -/
def Service.createdIn (s : Service) (id : String) : List Created :=
  s.created.filter fun c => c.sessionId = id

def Service.createdBy (s : Service) (request : Nat) : List Created :=
  s.created.filter fun c => c.request = request

/-- Both rows of a send, or neither. -/
def Whole (request : Nat) (cs : List Created) : Prop :=
  cs = [] ∨ ∃ id n, cs = [⟨request, id, .user, n⟩, ⟨request, id, .assistant, n + 1⟩]

/-- Turns are stored as created, under the lock of their sending. -/
structure Sound (cfg : Settings) (s : Service) : Prop where
  housed : Housed s.store
  locked : ∀ p ∈ s.sending.rows, s.store.relay.sessions.find? p.row.id = some p.row
  apart : ∀ p ∈ s.sending.rows, ∀ q ∈ s.sending.rows, p.row.id = q.row.id → p = q
  stored : ∀ id, turns s.store.messages id = (s.createdIn id).map Created.turn
  quota : ∀ id, (turns s.store.messages id).length ≤ cfg.maxMessagesPerSession
  room : ∀ p ∈ s.sending.rows,
    (turns s.store.messages p.row.id).length + 2 ≤ cfg.maxMessagesPerSession
  above : ∀ p ∈ s.sending.rows, ∀ n, p.firstIndex = some n →
    ∀ k ∈ turns s.store.messages p.row.id, k.1 < n
  unsent : ∀ p ∈ s.sending.rows, p.request < s.requests ∧ ∀ c ∈ s.created, c.request ≠ p.request
  sent : ∀ c ∈ s.created, c.request < s.requests
  whole : ∀ request, Whole request (s.createdBy request)

section

variable {s : Service}

theorem sound_fresh (h : Fresh s) : Sound cfg s where
  housed m hm := by
    rw [h.messages] at hm
    cases hm
  locked p hp := by
    rw [h.sending] at hp
    cases hp
  apart p hp := by
    rw [h.sending] at hp
    cases hp
  stored id := by simp [turns, Service.createdIn, h.messages, h.created]
  quota id := by simp [turns, h.messages]
  room p hp := by
    rw [h.sending] at hp
    cases hp
  above p hp := by
    rw [h.sending] at hp
    cases hp
  unsent p hp := by
    rw [h.sending] at hp
    cases hp
  sent c hc := by
    rw [h.created] at hc
    cases hc
  whole request := .inl (by simp [Service.createdBy, h.created])

/-- Both rows of a send are in one conversation, and go with it. -/
theorem Whole.filter {request : Nat} {cs : List Created} (h : Whole request cs)
    (p : String → Bool) : Whole request (cs.filter fun c => p c.sessionId) := by
  rcases h with rfl | ⟨id, n, rfl⟩
  · exact .inl rfl
  · cases hid : p id with
    | false => exact .inl (by simp [hid])
    | true => exact .inr ⟨id, n, by simp [hid]⟩

/-- A change by another route keeps the invariant if it leaves the locked conversations alone. -/
theorem sound_moved {t : Store} (hs : Sound cfg s) (ht : Carried s.store t)
    (hlocked : ∀ p ∈ s.sending.rows,
      t.relay.sessions.find? p.row.id = s.store.relay.sessions.find? p.row.id) :
    Sound cfg (s.moved t) := by
  -- a conversation keeps its turns while it is there, and loses all of them when it is deleted
  have hstays (p : Sending) (hp : p ∈ s.sending.rows) :
      turns t.messages p.row.id = turns s.store.messages p.row.id := by
    apply ht.kept
    unfold Store.hasSession
    rw [hlocked p hp, hs.locked p hp]
    rfl
  have hless (id : String) : turns t.messages id = turns s.store.messages id ∨
      turns t.messages id = [] := by
    by_cases hid : t.hasSession id
    · exact .inl (ht.kept id hid)
    · exact .inr (turns_eq_nil ht.housed hid)
  constructor
  · exact ht.housed
  · intro p hp
    exact (hlocked p hp).trans (hs.locked p hp)
  · exact hs.apart
  · intro id
    show turns t.messages id = ((s.created.filter _).filter _).map _
    rw [List.filter_filter]
    by_cases hid : t.hasSession id
    · rw [ht.kept id hid, hs.stored id]
      unfold Service.createdIn
      congr 1
      apply List.filter_congr
      intro c _
      by_cases hc : c.sessionId = id
      · replace hid : (t.relay.sessions.find? id).isSome = true := hid
        simp [hc, hid]
      · simp [hc]
    · rw [turns_eq_nil ht.housed hid, eq_comm, List.map_eq_nil_iff, List.filter_eq_nil_iff]
      intro c _ hboth
      obtain ⟨hsame, hsome⟩ := Bool.and_eq_true_iff.mp hboth
      exact hid (of_decide_eq_true hsame ▸ hsome)
  · intro id
    show (turns t.messages id).length ≤ _
    rcases hless id with heq | heq <;> rw [heq]
    · exact hs.quota id
    · exact Nat.zero_le _
  · intro p hp
    show (turns t.messages p.row.id).length + 2 ≤ _
    rw [hstays p hp]
    exact hs.room p hp
  · intro p hp n hn k hk
    replace hk : k ∈ turns t.messages p.row.id := hk
    rw [hstays p hp] at hk
    exact hs.above p hp n hn k hk
  · intro p hp
    obtain ⟨hlt, hne⟩ := hs.unsent p hp
    exact ⟨hlt, fun c hc => hne c (List.mem_filter.mp hc).1⟩
  · intro c hc
    exact hs.sent c (List.mem_filter.mp hc).1
  · intro request
    show Whole request ((s.created.filter _).filter _)
    rw [List.filter_comm]
    exact (hs.whole request).filter fun id => (t.relay.sessions.find? id).isSome

theorem sound_drop (hs : Sound cfg s) (request : Nat) : Sound cfg (s.drop request) := by
  have hsub (p : Sending) (hp : p ∈ (s.drop request).sending.rows) : p ∈ s.sending.rows :=
    (KeyedTable.mem_filter.mp hp).1
  constructor
  · exact hs.housed
  · intro p hp
    exact hs.locked p (hsub p hp)
  · intro p hp q hq
    exact hs.apart p (hsub p hp) q (hsub q hq)
  · exact hs.stored
  · exact hs.quota
  · intro p hp
    exact hs.room p (hsub p hp)
  · intro p hp
    exact hs.above p (hsub p hp)
  · intro p hp
    exact hs.unsent p (hsub p hp)
  · exact hs.sent
  · exact hs.whole

/-- A refusal of the owner's guard touches the conversation that was asked for only. -/
theorem find?_requireOwnedSession_of_ne {r relay : Relay} {userId sessionId id : String}
    {refusal : Option HttpError} {e : HttpError}
    (h : requireOwnedSession cfg r userId sessionId refusal = (relay, .error e))
    (hid : id ≠ sessionId) : relay.sessions.find? id = r.sessions.find? id := by
  unfold requireOwnedSession at h
  split at h
  · cases h
    rfl
  · next row hrow =>
    obtain ⟨-, hrowid⟩ := KeyedTable.find?_eq_some (Option.filter_eq_some_iff.mp hrow).1
    split at h
    · cases h
      rfl
    · split at h
      · cases h
        show (r.sessions.filter _).find? id = r.sessions.find? id
        unfold KeyedTable.find? KeyedTable.filter
        rw [List.find?_filter]
        apply congrArg (List.find? · r.sessions.rows)
        funext c
        by_cases hc : c.id = id
        · simp [hc, hrowid, hid]
        · simp [hc]
      · split at h
        · cases h
          rfl
        · cases h

/-- A request that begins to send, or is refused, keeps the invariant. -/
theorem sound_beginSend {userId sessionId : String} {refusal : Option HttpError} {limited : Bool}
    (hs : Sound cfg s) (hfree : s.free userId sessionId = true) :
    Sound cfg (beginSend cfg s userId sessionId refusal limited) := by
  have hother (p : Sending) (hp : p ∈ s.sending.rows) : p.row.id ≠ sessionId := by
    have hp := List.all_eq_true.mp hfree p hp
    exact of_decide_eq_true (Bool.and_eq_true_iff.mp hp).2
  unfold beginSend
  split
  -- an expired conversation is deleted on sight; nobody else sends to it, for it is free
  · next howned =>
    apply sound_moved hs (carried_cascade _ _)
    intro p hp
    exact find?_requireOwnedSession_of_ne howned (hother p hp)
  · next row howned =>
    obtain ⟨-, hrow, hid, -⟩ := requireOwnedSession_ok howned
    dsimp only
    split
    · exact hs
    · next hquota =>
      split
      · exact hs
      · have hnew (p : Sending) (hp : p ∈ s.sending.rows) : p.request ≠ s.requests :=
          Nat.ne_of_lt (hs.unsent p hp).1
        have hroom : (turns s.store.messages row.id).length + 2 ≤ cfg.maxMessagesPerSession := by
          rw [turns, List.length_map, ← List.countP_eq_length_filter]
          omega
        constructor
        · exact hs.housed
        · intro p hp
          rcases (KeyedTable.mem_insertNew hnew).mp hp with rfl | hp
          · exact KeyedTable.find?_of_mem hrow
          · exact hs.locked p hp
        · intro p hp q hq hsame
          rcases (KeyedTable.mem_insertNew hnew).mp hp with rfl | hp <;>
            rcases (KeyedTable.mem_insertNew hnew).mp hq with rfl | hq
          · rfl
          · exact absurd (hsame.symm.trans hid) (hother q hq)
          · exact absurd (hsame.trans hid) (hother p hp)
          · exact hs.apart p hp q hq hsame
        · exact hs.stored
        · exact hs.quota
        · intro p hp
          rcases (KeyedTable.mem_insertNew hnew).mp hp with rfl | hp
          · exact hroom
          · exact hs.room p hp
        · intro p hp n hn
          rcases (KeyedTable.mem_insertNew hnew).mp hp with rfl | hp
          · cases hn
          · exact hs.above p hp n hn
        · intro p hp
          rcases (KeyedTable.mem_insertNew hnew).mp hp with rfl | hp
          · exact ⟨Nat.lt_succ_self _, fun c hc => Nat.ne_of_lt (hs.sent c hc)⟩
          · obtain ⟨hlt, hne⟩ := hs.unsent p hp
            exact ⟨hlt.trans (Nat.lt_succ_self _), hne⟩
        · intro c hc
          exact (hs.sent c hc).trans (Nat.lt_succ_self _)
        · exact hs.whole

theorem sound_answeredSend {p : Sending} {answer : Reply Unit} (hs : Sound cfg s)
    (hp : p ∈ s.sending.rows) : Sound cfg (answeredSend s p answer) := by
  unfold answeredSend
  split
  · exact sound_drop hs _
  · split
    · exact sound_drop hs _
    · -- only the index of `p` is set, and it is above what is there
      constructor
      · exact hs.housed
      · intro _ hmem
        obtain ⟨q, hq, rfl⟩ := List.mem_map.mp hmem
        rw [q.allocate_row]
        exact hs.locked q hq
      · intro _ hmem _ hmem' hsame
        obtain ⟨q, hq, rfl⟩ := List.mem_map.mp hmem
        obtain ⟨q', hq', rfl⟩ := List.mem_map.mp hmem'
        rw [q.allocate_row, q'.allocate_row] at hsame
        rw [hs.apart q hq q' hq' hsame]
      · exact hs.stored
      · exact hs.quota
      · intro _ hmem
        obtain ⟨q, hq, rfl⟩ := List.mem_map.mp hmem
        rw [q.allocate_row]
        exact hs.room q hq
      · intro _ hmem n hn
        obtain ⟨q, hq, rfl⟩ := List.mem_map.mp hmem
        rw [q.allocate_row]
        unfold Sending.allocate at hn
        split at hn
        · next hrequest =>
          obtain rfl := KeyedTable.eq_of_key hq hp hrequest
          obtain rfl := Option.some.inj hn
          exact lt_nextMessageIndex s.store q.row.id
        · exact hs.above q hq n hn
      · intro _ hmem
        obtain ⟨q, hq, rfl⟩ := List.mem_map.mp hmem
        rw [q.allocate_request]
        exact hs.unsent q hq
      · exact hs.sent
      · exact hs.whole

/-- A commit keeps the invariant: the exchange takes the two places that its request allocated, and
the request leaves the table of the sending ones. -/
theorem sound_commitSend {p : Sending} {firstIndex : Nat} {generated : Option WrappedDek}
    {sealedUser sealedAssistant : Option String} (hs : Sound cfg s) (hp : p ∈ s.sending.rows)
    (hindex : p.firstIndex = some firstIndex) :
    Sound cfg (commitSend s p firstIndex generated sealedUser sealedAssistant) := by
  unfold commitSend
  split
  · exact sound_drop hs _
  · next store hstore =>
    have hrows := exchanged_of_storeExchange (hs.above p hp _ hindex) hstore
    -- the row lock: no other sending request is at the conversation of this one
    have hother (q : Sending) (hq : q ∈ (s.drop p.request).sending.rows) :
        q ∈ s.sending.rows ∧ q.row.id ≠ p.row.id := by
      obtain ⟨hq, hne⟩ := KeyedTable.mem_filter.mp hq
      refine ⟨hq, fun hsame => ?_⟩
      rw [hs.apart q hq p hp hsame] at hne
      exact absurd rfl (of_decide_eq_true hne)
    -- a sending request has created nothing yet
    have hfirst : s.createdBy p.request = [] := by
      apply List.filter_eq_nil_iff.mpr
      intro c hc hsame
      exact (hs.unsent p hp).2 c hc (of_decide_eq_true hsame)
    constructor
    · apply housed_of_turns
      intro id hid
      apply hrows.sessions
      by_cases hown : id = p.row.id
      · unfold Store.hasSession
        rw [hown, hs.locked p hp]
        rfl
      · by_contra hgone
        apply hid
        show turns store.messages id = []
        rw [hrows.others id hown]
        exact turns_eq_nil hs.housed hgone
    · intro q hq
      obtain ⟨hq, hne⟩ := hother q hq
      exact (hrows.locked _ hne).trans (hs.locked q hq)
    · intro q hq q' hq'
      exact hs.apart q (hother q hq).1 q' (hother q' hq').1
    · intro id
      show turns store.messages id = ((s.created ++ _).filter _).map _
      rw [List.filter_append, List.map_append, ← Service.createdIn, ← hs.stored id]
      by_cases hid : id = p.row.id
      · subst hid
        rw [hrows.own]
        simp [Created.turn]
      · have hne : p.row.id ≠ id := fun h => hid h.symm
        rw [hrows.others id hid]
        simp [hne]
    · intro id
      show (turns store.messages id).length ≤ _
      by_cases hid : id = p.row.id
      · subst hid
        rw [hrows.own, List.length_append]
        exact hs.room p hp
      · rw [hrows.others id hid]
        exact hs.quota id
    · intro q hq
      obtain ⟨hq, hne⟩ := hother q hq
      show (turns store.messages q.row.id).length + 2 ≤ _
      rw [hrows.others _ hne]
      exact hs.room q hq
    · intro q hq n hn k hk
      obtain ⟨hq, hne⟩ := hother q hq
      replace hk : k ∈ turns store.messages q.row.id := hk
      rw [hrows.others _ hne] at hk
      exact hs.above q hq n hn k hk
    · intro q hq
      have hne : q.request ≠ p.request := of_decide_eq_true (KeyedTable.mem_filter.mp hq).2
      obtain ⟨hlt, hold⟩ := hs.unsent q (hother q hq).1
      refine ⟨hlt, fun c hc => ?_⟩
      rcases List.mem_append.mp hc with hc | hc
      · exact hold c hc
      · intro hsame
        apply hne
        rw [← hsame]
        simp only [List.mem_cons, List.not_mem_nil, or_false] at hc
        rcases hc with rfl | rfl <;> rfl
    · intro c hc
      rcases List.mem_append.mp hc with hc | hc
      · exact hs.sent c hc
      · simp only [List.mem_cons, List.not_mem_nil, or_false] at hc
        rcases hc with rfl | rfl <;> exact (hs.unsent p hp).1
    · intro request
      show Whole request ((s.created ++ _).filter _)
      rw [List.filter_append, ← Service.createdBy]
      by_cases hrequest : request = p.request
      · subst hrequest
        rw [hfirst]
        exact .inr ⟨p.row.id, firstIndex, by simp⟩
      · have hne : p.request ≠ request := fun h => hrequest h.symm
        have hnone := hs.whole request
        simpa [hne] using hnone

theorem sound_of_step {a : SendAction} {s' : Service} (hs : Sound cfg s)
    (h : (sendSystem cfg digest).step s a s') : Sound cfg s' := by
  replace h : stepService cfg digest s a = some s' := h
  cases a with
  | begin userId sessionId refusal limited =>
      obtain ⟨hfree, rfl⟩ := of_allowed h
      exact sound_beginSend hs hfree
  | answered request answer =>
      simp only [stepService] at h
      split at h
      · next p hp =>
        obtain ⟨-, rfl⟩ := of_allowed h
        exact sound_answeredSend hs (KeyedTable.find?_eq_some hp).1
      · cases h
  | commit request generated sealedUser sealedAssistant =>
      simp only [stepService] at h
      split at h
      · next p hp =>
        obtain ⟨n, hn, rfl⟩ := Option.map_eq_some_iff.mp h
        exact sound_commitSend hs (KeyedTable.find?_eq_some hp).1 hn
      · cases h
  | fail request => exact Option.some.inj h ▸ sound_drop hs request
  | other a =>
      simp only [stepService] at h
      split at h
      · cases h
      · next hsends =>
        split at h
        · next store hstep =>
          obtain ⟨hlocked, rfl⟩ := of_allowed h
          apply sound_moved hs
          · exact carried_of_step hs.housed (Bool.eq_false_of_not_eq_true hsends) hstep
          · intro p hp
            have hp := List.all_eq_true.mp hlocked p hp
            exact of_decide_eq_true (Bool.and_eq_true_iff.mp hp).1
        · cases h

theorem sound_of_reachable (h : (sendSystem cfg digest).Reachable s) : Sound cfg s :=
  h.induct (fun _ => sound_fresh) fun _ _ _ _ => sound_of_step

/-- **Whatever order sends, replies, refusals and failures come in**, the messages of a conversation
are those that its sends created, with indices that increase in the order of creation, and no more
than the limit; and a send created both rows of its exchange or none. -/
theorem message_sequence_integrity (h : (sendSystem cfg digest).Reachable s) :
    (∀ id, turns s.store.messages id = (s.createdIn id).map Created.turn ∧
      ((s.createdIn id).map (·.messageIndex)).Pairwise (· < ·) ∧
      (s.createdIn id).length ≤ cfg.maxMessagesPerSession) ∧
    ∀ request, Whole request (s.createdBy request) := by
  have hs := sound_of_reachable h
  refine ⟨fun id => ⟨hs.stored id, ?_, ?_⟩, hs.whole⟩
  · have hsorted := increasing_turns s.store.messages id
    rw [hs.stored id, List.pairwise_map] at hsorted
    exact List.pairwise_map.mpr hsorted
  · have hquota := hs.quota id
    rwa [hs.stored id, List.length_map] at hquota

end

/-! ### Two sends, of which one is refused by the AI service and tried again -/

def sampleSends : List SendAction := [
  .other (.relay (.register "alice" "alice" false)),
  .other (.relay (.register "bob" "bob" false)),
  .other (.createSession "alice" ⟨"confidential", "highly_confidential"⟩ none (some sampleKey)
    "session"),
  .other (.createSession "bob" ⟨"secure", "internal"⟩ none (some sampleKey) "other"),
  .begin "alice" "session" none false,
  .begin "bob" "other" none false,
  .answered 0 (.error ⟨503, "busy"⟩),
  .answered 1 (.ok ()),
  .begin "alice" "session" none false,
  .answered 2 (.ok ()),
  .commit 2 none (some "question") (some "answer"),
  .commit 1 none (some "question") (some "answer")]

def emptyService : Service := ⟨emptyStore, .empty, [], 0⟩

def sampleService : Service :=
  (System.exec (stepService sampleSettings sampleDigest) emptyService sampleSends).get
    (by decide +kernel)

theorem reachable_sampleService :
    (sendSystem sampleSettings sampleDigest).Reachable sampleService :=
  ⟨emptyService, sampleSends, ⟨upgraded_emptyStore, rfl, rfl, rfl⟩,
    System.run_of_exec (Option.some_get _).symm⟩

theorem message_sequence_integrity_sample :
    (∀ id, (sampleService.createdIn id).length ≤ sampleSettings.maxMessagesPerSession) ∧
      sampleService.createdIn "session" =
        [⟨2, "session", .user, 1⟩, ⟨2, "session", .assistant, 2⟩] ∧
      Whole 0 (sampleService.createdBy 0) := by
  obtain ⟨hall, hwhole⟩ := message_sequence_integrity reachable_sampleService
  exact ⟨fun id => (hall id).2.2, by decide +kernel, hwhole 0⟩

end Scap.Sessions
