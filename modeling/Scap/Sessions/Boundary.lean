import Scap.Sessions.Kept

/-!
# The trust boundary of the security modes

`serverRows` is what the server can read of a conversation, `clientRows` what only its clients can.
`Boundary` says that a conversation has rows on one side alone, the side its mode names, and that
its mode and label are a pair the validators allow. Two rules carry it over a step: `of_kept` where
no policy is set, and `of_policy` where one is.
-/

namespace Scap.Sessions

open Scap.Lib Scap.E2ee

variable {cfg : Settings} {digest : ReplayPayload → String} {s t : Store}

/-- Messages, key epochs or an active key of the conversation. -/
def Store.serverRows (s : Store) (id : String) : Prop :=
  (∃ m ∈ s.messages.rows, m.sessionId = id) ∨ (∃ k ∈ s.keyEpochs.rows, k.sessionId = id) ∨
    ∃ k ∈ s.activeKeys.rows, k.sessionId = id

/-- Envelopes or members of the conversation. -/
def clientRows (s : Relay) (id : String) : Prop :=
  (∃ e ∈ s.envelopes.rows, e.sessionId = id) ∨ ∃ m ∈ s.members.rows, m.sessionId = id

/-- A conversation in a mode that the server reads. -/
def ServerSide (s : Relay) (id : String) : Prop :=
  ∃ b ∈ s.sessions.rows, b.id = id ∧ b.securityMode ≠ .privateE2ee

structure Boundary (s : Store) : Prop where
  drawn : DrawnInv s.relay
  serverDrawn : ∀ id, s.serverRows id → id ∈ s.relay.drawn
  clientDrawn : ∀ id, clientRows s.relay id → id ∈ s.relay.drawn
  content : ∀ c ∈ s.relay.sessions.rows, c.securityMode = .privateE2ee → ¬ s.serverRows c.id
  ciphertext : ∀ c ∈ s.relay.sessions.rows, c.securityMode ≠ .privateE2ee →
    ¬ clientRows s.relay c.id
  policy : ∀ c ∈ s.relay.sessions.rows, ∃ d : DataClass, c.dataClassification = d.value ∧
    Allowed c.securityMode d

/-! ## Where no policy is set -/

/-- New members and envelopes are those of private conversations. -/
theorem clientRows_of_kept {r r' : Relay} {id : String} (h : Kept r r') (hrows : clientRows r' id) :
    clientRows r id ∨ ∃ b ∈ r.sessions.rows, b.id = id ∧ b.securityMode = .privateE2ee := by
  rcases hrows with ⟨e, he, rfl⟩ | ⟨m, hm, rfl⟩
  · rcases h.envelopes e he with he | hprivate
    · exact .inl (.inl ⟨e, he, rfl⟩)
    · exact .inr hprivate
  · rcases h.members m hm with ⟨n, hn, hsame⟩ | hprivate
    · exact .inl (.inr ⟨n, hn, hsame⟩)
    · exact .inr hprivate

/-- The boundary survives what keeps policies, if new server-side rows are those of server-side
conversations. -/
theorem Boundary.of_kept (hs : Boundary s) (hkept : Kept s.relay t.relay)
    (hdrawn : DrawnInv t.relay) (hlater : s.relay.drawn ⊆ t.relay.drawn)
    (hserver : ∀ id, t.serverRows id → s.serverRows id ∨ ServerSide s.relay id) : Boundary t where
  drawn := hdrawn
  serverDrawn := by
    intro id hrows
    rcases hserver id hrows with hrows | ⟨b, hb, rfl, -⟩
    · exact hlater (hs.serverDrawn id hrows)
    · exact hlater (hs.drawn.sessions b hb)
  clientDrawn := by
    intro id hrows
    rcases clientRows_of_kept hkept hrows with hrows | ⟨b, hb, rfl, -⟩
    · exact hlater (hs.clientDrawn id hrows)
    · exact hlater (hs.drawn.sessions b hb)
  content := by
    intro c hc hprivate hrows
    obtain ⟨b, hb, hid, hmode, -⟩ := hkept.sessions c hc
    rw [← hid] at hrows
    rcases hserver b.id hrows with hrows | ⟨b', hb', hid', hmode'⟩
    · exact hs.content b hb (hmode.trans hprivate) hrows
    · obtain rfl := KeyedTable.eq_of_key hb' hb hid'
      exact hmode' (hmode.trans hprivate)
  ciphertext := by
    intro c hc hmode hrows
    obtain ⟨b, hb, hid, hsame, -⟩ := hkept.sessions c hc
    rw [← hid] at hrows
    rw [← hsame] at hmode
    rcases clientRows_of_kept hkept hrows with hrows | ⟨b', hb', hid', hprivate⟩
    · exact hs.ciphertext b hb hmode hrows
    · obtain rfl := KeyedTable.eq_of_key hb' hb hid'
      exact hmode hprivate
  policy := by
    intro c hc
    obtain ⟨b, hb, -, hmode, hlabel⟩ := hkept.sessions c hc
    obtain ⟨d, hd, hallowed⟩ := hs.policy b hb
    exact ⟨d, hlabel ▸ hd, hmode ▸ hallowed⟩

theorem serverRows_cascade {relay : Relay} {id : String} (h : (cascade s relay).serverRows id) :
    s.serverRows id := by
  rcases h with ⟨m, hm, hid⟩ | ⟨k, hk, hid⟩ | ⟨k, hk, hid⟩
  · exact .inl ⟨m, (KeyedTable.mem_filter.mp hm).1, hid⟩
  · exact .inr (.inl ⟨k, (KeyedTable.mem_filter.mp hk).1, hid⟩)
  · exact .inr (.inr ⟨k, (KeyedTable.mem_filter.mp hk).1, hid⟩)

theorem boundary_cascade {relay : Relay} (hs : Boundary s) (hkept : Kept s.relay relay)
    (hdrawn : DrawnInv relay) (hlater : s.relay.drawn ⊆ relay.drawn) :
    Boundary (cascade s relay) :=
  hs.of_kept hkept hdrawn hlater fun _ h => .inl (serverRows_cascade h)

/-- A refusal of the owner's guard. -/
theorem boundary_requireOwnedSession {userId sessionId : String} {refusal : Option HttpError}
    {relay : Relay} {e : HttpError} (hs : Boundary s)
    (h : requireOwnedSession cfg s.relay userId sessionId refusal = (relay, .error e)) :
    Boundary (cascade s relay) := by
  have hkept : Kept s.relay (requireOwnedSession cfg s.relay userId sessionId refusal).1 :=
    kept_requireOwnedSession
  rw [h] at hkept
  have heffects : Effects (.deleteSession userId sessionId refusal) s.relay relay :=
    requireOwnedSession_error h
  exact boundary_cascade hs hkept (drawnInv_effects hs.drawn heffects)
    (later_effects heffects).drawn

/-! ## Keys -/

theorem kept_setEpoch (r : Relay) (id : String) (epoch : Nat) : Kept r (setEpoch r id epoch) := by
  refine Kept.of_rows (fun c => if c.id = id then { c with currentCryptoEpoch := epoch } else c)
    (fun c => ?_) rfl ?_ rfl
  · split <;> exact ⟨rfl, rfl, rfl⟩
  · intro m hm
    exact ⟨m, hm, rfl⟩

theorem drawnInv_setEpoch {r : Relay} (id : String) (epoch : Nat) (h : DrawnInv r) :
    DrawnInv (setEpoch r id epoch) := by
  refine h.of_ids (List.Subset.refl _) (fun u hu => ⟨u, hu, rfl⟩) fun c hc => ?_
  obtain ⟨b, hb, hid, -⟩ := (kept_setEpoch r id epoch).sessions c hc
  exact ⟨b, hb, hid⟩

theorem serverRows_setActiveKey {sessionId : String} {wrapped : WrappedDek} {id : String}
    (h : (setActiveKey s sessionId wrapped).serverRows id) : s.serverRows id ∨ id = sessionId := by
  rcases h with hm | hk | ⟨k, hk, rfl⟩
  · exact .inl (.inl hm)
  · exact .inl (.inr (.inl hk))
  · rcases KeyedTable.mem_insertNew_or hk with rfl | hk
    · exact .inr rfl
    · exact .inl (.inr (.inr ⟨k, (KeyedTable.mem_filter.mp hk).1, rfl⟩))

/-- A key is made for a server-side conversation only, and nothing else changes. -/
theorem ensureSessionKey_ok {row row' : ChatSession} {generated : Option WrappedDek}
    (h : ensureSessionKey s row generated = .ok (t, row')) :
    row'.id = row.id ∧ row'.securityMode = row.securityMode ∧ row.securityMode ≠ .privateE2ee ∧
      t.messages = s.messages ∧
      (t.relay = s.relay ∨ t.relay = setEpoch s.relay row.id row'.currentCryptoEpoch) ∧
      ∀ id, t.serverRows id → s.serverRows id ∨ id = row.id := by
  unfold ensureSessionKey at h
  by_cases hmode : row.securityMode = .privateE2ee
  · rw [if_pos hmode] at h
    cases h
  · rw [if_neg hmode] at h
    split at h
    · cases h
      exact ⟨rfl, rfl, hmode, rfl, .inl rfl, fun id hrows => .inl hrows⟩
    · split at h
      · cases h
      · dsimp only at h
        split at h
        · cases h
        · next keyEpochs hinsert =>
          cases h
          refine ⟨rfl, rfl, hmode, rfl, .inr rfl, fun id hrows => ?_⟩
          rcases serverRows_setActiveKey hrows with (hm | ⟨k, hk, rfl⟩ | hk) | hid
          · exact .inl (.inl hm)
          · rcases (KeyedTable.mem_insert? hinsert).mp hk with rfl | hk
            · exact .inr rfl
            · exact .inl (.inr (.inl ⟨k, hk, rfl⟩))
          · exact .inl (.inr (.inr hk))
          · exact .inr hid

theorem serverSide_setEpoch {r : Relay} {id other : String} {epoch : Nat} (h : ServerSide r id) :
    ServerSide (setEpoch r other epoch) id := by
  obtain ⟨b, hb, hid, hmode⟩ := h
  refine ⟨_, List.mem_map.mpr ⟨b, hb, rfl⟩, ?_, ?_⟩
  · split <;> exact hid
  · split <;> exact hmode

theorem boundary_ensureSessionKey {row row' : ChatSession} {generated : Option WrappedDek}
    (hs : Boundary s) (hrow : ServerSide s.relay row.id)
    (h : ensureSessionKey s row generated = .ok (t, row')) :
    Boundary t ∧ ServerSide t.relay row'.id := by
  obtain ⟨hid, -, -, -, hrelay, hserver⟩ := ensureSessionKey_ok h
  have hnew : ∀ id, t.serverRows id → s.serverRows id ∨ ServerSide s.relay id := by
    intro id hrows
    rcases hserver id hrows with hrows | rfl
    · exact .inl hrows
    · exact .inr hrow
  have hsame := Kept.refl s.relay
  rw [hid]
  rcases hrelay with hrelay | hrelay
  · refine ⟨hs.of_kept ?_ ?_ ?_ hnew, ?_⟩ <;> rw [hrelay]
    · exact hsame
    · exact hs.drawn
    · exact List.Subset.refl _
    · exact hrow
  · refine ⟨hs.of_kept ?_ ?_ ?_ hnew, ?_⟩ <;> rw [hrelay]
    · exact kept_setEpoch _ _ _
    · exact drawnInv_setEpoch _ _ hs.drawn
    · exact List.Subset.refl _
    · exact serverSide_setEpoch hrow

theorem boundary_encryptMessage {row row' : ChatSession} {generated : Option WrappedDek}
    {sealed : Option String} {ciphertext : String} (hs : Boundary s) (hrow : ServerSide s.relay row.id)
    (h : encryptMessage s row generated sealed = .ok (t, row', ciphertext)) :
    Boundary t ∧ ServerSide t.relay row'.id ∧ row'.id = row.id := by
  unfold encryptMessage at h
  split at h
  · cases h
  · next hkey =>
    split at h
    · cases h
    · cases h
      obtain ⟨hboundary, hside⟩ := boundary_ensureSessionKey hs hrow hkey
      exact ⟨hboundary, hside, (ensureSessionKey_ok hkey).1⟩

/-- A change of the server-side rows of a server-side conversation. -/
theorem boundary_of_serverSide {id : String} (hs : Boundary s) (hrow : ServerSide s.relay id)
    (hrelay : t.relay = s.relay) (hserver : ∀ i, t.serverRows i → s.serverRows i ∨ i = id) :
    Boundary t := by
  have hkept := Kept.refl s.relay
  have hdrawn := hs.drawn
  rw [← hrelay] at hkept hdrawn
  refine hs.of_kept (hrelay ▸ hkept) hdrawn (hrelay ▸ List.Subset.refl _) fun i hrows => ?_
  rcases hserver i hrows with hrows | rfl
  · exact .inl hrows
  · exact .inr hrow

/-! ## Where a policy is set -/

/-- The conversation `id` gets a policy, and its rows are on the side that the policy names. -/
theorem Boundary.of_policy {id : String} {mode : SecurityMode} {d : DataClass} (hs : Boundary s)
    (hallowed : Allowed mode d) (hdrawn : DrawnInv t.relay)
    (hlater : s.relay.drawn ⊆ t.relay.drawn) (hid : id ∈ t.relay.drawn)
    (hsessions : ∀ c ∈ t.relay.sessions.rows,
      (c.id = id ∧ c.securityMode = mode ∧ c.dataClassification = d.value) ∨
      (c.id ≠ id ∧ c ∈ s.relay.sessions.rows))
    (hserver : ∀ i, t.serverRows i → s.serverRows i)
    (hserverSide : mode = .privateE2ee → ¬ t.serverRows id)
    (hclient : ∀ i, clientRows t.relay i → i = id ∨ clientRows s.relay i)
    (hclientSide : mode ≠ .privateE2ee → ¬ clientRows t.relay id) : Boundary t where
  drawn := hdrawn
  serverDrawn i hrows := hlater (hs.serverDrawn i (hserver i hrows))
  clientDrawn := by
    intro i hrows
    rcases hclient i hrows with rfl | hrows
    · exact hid
    · exact hlater (hs.clientDrawn i hrows)
  content := by
    intro c hc hprivate hrows
    rcases hsessions c hc with ⟨rfl, hmode, -⟩ | ⟨-, hold⟩
    · exact hserverSide (hmode.symm.trans hprivate) hrows
    · exact hs.content c hold hprivate (hserver c.id hrows)
  ciphertext := by
    intro c hc hserverMode hrows
    rcases hsessions c hc with ⟨rfl, rfl, -⟩ | ⟨hother, hold⟩
    · exact hclientSide hserverMode hrows
    · rcases hclient c.id hrows with heq | hrows
      · exact hother heq
      · exact hs.ciphertext c hold hserverMode hrows
  policy := by
    intro c hc
    rcases hsessions c hc with ⟨-, rfl, hlabel⟩ | ⟨-, hold⟩
    · exact ⟨d, hlabel, hallowed⟩
    · exact hs.policy c hold

/-! ## The relay's two policy routes -/

theorem createSession_ok {r r' : Relay} {userId classification id : String} {mode : SecurityMode}
    {refusal : Option HttpError} {row : ChatSession}
    (h : E2ee.createSession cfg r userId mode classification refusal id = (r', .ok row)) :
    row.id = id ∧ row.securityMode = mode ∧ row.dataClassification = classification ∧
      r'.sessions = r.sessions.insertNew row ∧ r'.drawn = id :: r.drawn ∧
      r'.envelopes = r.envelopes ∧ (mode ≠ .privateE2ee → r'.members = r.members) ∧
      ∀ m ∈ r'.members.rows, m.sessionId = id ∨ m ∈ r.members.rows := by
  unfold E2ee.createSession at h
  split at h
  · cases h
  · split at h
    · cases h
    · dsimp only at h
      split at h
      · cases h
      · cases h
        refine ⟨rfl, rfl, rfl, rfl, rfl, rfl, fun hmode => ?_, fun m hm => ?_⟩
        · show (if mode = .privateE2ee then _ else r.members) = r.members
          rw [if_neg hmode]
        · dsimp only at hm
          split at hm
          · rcases KeyedTable.mem_insertNew_or hm with rfl | hm
            · exact .inl rfl
            · exact .inr hm
          · exact .inr hm

/-- The relay's rows after a new policy for `row`. -/
structure Repoliced (r r' : Relay) (row : ChatSession) (mode : SecurityMode)
    (classification : String) : Prop where
  sessions : ∀ c ∈ r'.sessions.rows,
    (c.id = row.id ∧ c.securityMode = mode ∧ c.dataClassification = classification) ∨
    (c.id ≠ row.id ∧ c ∈ r.sessions.rows)
  envelopes : r'.envelopes = r.envelopes
  members : ∀ m ∈ r'.members.rows, m.sessionId = row.id ∨ m ∈ r.members.rows
  emptied : row.securityMode = .privateE2ee → mode ≠ .privateE2ee →
    ∀ m ∈ r'.members.rows, m.sessionId ≠ row.id
  unchanged : row.securityMode ≠ .privateE2ee → mode ≠ .privateE2ee → r'.members = r.members
  stays : ∃ c ∈ r'.sessions.rows, c.id = row.id ∧ c.securityMode = mode

theorem repoliced_switchMode {r : Relay} {row : ChatSession} (mode : SecurityMode)
    (hrow : row ∈ r.sessions.rows) :
    (∀ c ∈ (switchMode r row mode).sessions.rows,
      (c.id = row.id ∧ c.securityMode = mode) ∨ (c.id ≠ row.id ∧ c ∈ r.sessions.rows)) ∧
    ∃ c ∈ (switchMode r row mode).sessions.rows, c.id = row.id ∧ c.securityMode = mode := by
  unfold switchMode
  by_cases hmode : row.securityMode = mode
  · rw [if_pos hmode]
    refine ⟨fun c hc => ?_, row, hrow, rfl, hmode⟩
    by_cases hid : c.id = row.id
    · obtain rfl := KeyedTable.eq_of_key hc hrow hid
      exact .inl ⟨rfl, hmode⟩
    · exact .inr ⟨hid, hc⟩
  · rw [if_neg hmode]
    constructor
    · intro c hc
      obtain ⟨b, hb, rfl⟩ := List.mem_map.mp hc
      by_cases hid : b.id = row.id
      · rw [if_pos hid]
        exact .inl ⟨hid, rfl⟩
      · rw [if_neg hid]
        exact .inr ⟨hid, hb⟩
    · refine ⟨_, List.mem_map.mpr ⟨row, hrow, rfl⟩, ?_⟩
      rw [if_pos rfl]
      exact ⟨rfl, rfl⟩

theorem members_switchMode {r : Relay} {row : ChatSession} {mode : SecurityMode}
    {m : ConversationMember} (h : m ∈ (switchMode r row mode).members.rows) :
    m.sessionId = row.id ∨ m ∈ r.members.rows := by
  unfold switchMode at h
  split at h
  · exact .inr h
  · dsimp only at h
    split at h
    · rcases KeyedTable.mem_insertNew_or h with rfl | h
      · exact .inl rfl
      · exact .inr h
    · split at h
      · exact .inr (KeyedTable.mem_filter.mp h).1
      · exact .inr h

theorem repoliced {r : Relay} {row : ChatSession} (mode : SecurityMode) (classification : String)
    (deadline : Int) (hrow : row ∈ r.sessions.rows) :
    Repoliced r (relabel (switchMode r row mode) row classification deadline) row mode
      classification := by
  obtain ⟨hswitched, b, hb, hid, hbmode⟩ := repoliced_switchMode mode hrow
  constructor
  · intro c hc
    obtain ⟨b, hb, rfl⟩ := List.mem_map.mp hc
    rcases hswitched b hb with ⟨hid, hmode⟩ | ⟨hid, hold⟩
    · rw [if_pos hid]
      exact .inl ⟨hid, hmode, rfl⟩
    · rw [if_neg hid]
      exact .inr ⟨hid, hold⟩
  · show (switchMode r row mode).envelopes = r.envelopes
    unfold switchMode
    split <;> rfl
  · intro m hm
    exact members_switchMode hm
  · intro hprivate hmode m hm
    replace hm : m ∈ (switchMode r row mode).members.rows := hm
    unfold switchMode at hm
    have hchanged : row.securityMode ≠ mode := fun h => hmode (h.symm.trans hprivate)
    rw [if_neg hchanged] at hm
    dsimp only at hm
    rw [if_neg hmode, if_pos hprivate] at hm
    simpa using (KeyedTable.mem_filter.mp hm).2
  · intro hserver hmode
    show (switchMode r row mode).members = r.members
    unfold switchMode
    split <;> rfl
  · refine ⟨_, List.mem_map.mpr ⟨b, hb, rfl⟩, ?_⟩
    rw [if_pos hid]
    exact ⟨hid, hbmode⟩

/-- What the relay has checked when it sets a policy. -/
theorem updateSessionSecurity_ok {r r' : Relay} {userId sessionId classification : String}
    {mode : SecurityMode} {hasMessages : Bool} {refusal : Option HttpError}
    (h : E2ee.updateSessionSecurity cfg r userId sessionId mode classification hasMessages refusal =
      (r', .ok ())) :
    ∃ row ∈ r.sessions.rows, row.id = sessionId ∧ Repoliced r r' row mode classification ∧
      (row.securityMode ≠ mode → hasMessages = false ∧
        ∀ e ∈ r.envelopes.rows, e.sessionId ≠ row.id) := by
  unfold E2ee.updateSessionSecurity at h
  split at h
  · cases h
  · next row howned =>
    obtain ⟨rfl, hrow, hid, -⟩ := requireOwnedSession_ok howned
    dsimp only at h
    split at h
    · cases h
    · split at h
      · cases h
      · next hboundary =>
        cases h
        refine ⟨row, hrow, hid, repoliced mode classification _ hrow, fun hmode => ?_⟩
        have hnone := not_and.mp hboundary hmode
        rw [not_or, Bool.not_eq_true] at hnone
        refine ⟨hnone.1, fun e he hsession => hnone.2 (List.any_eq_true.mpr ⟨e, he, ?_⟩)⟩
        exact decide_eq_true hsession

theorem kept_updateSessionSecurity_error {r r' : Relay} {userId sessionId classification : String}
    {mode : SecurityMode} {hasMessages : Bool} {refusal : Option HttpError} {e : HttpError}
    (h : E2ee.updateSessionSecurity cfg r userId sessionId mode classification hasMessages refusal =
      (r', .error e)) : Kept r r' := by
  have howned : Kept r (requireOwnedSession cfg r userId sessionId refusal).1 :=
    kept_requireOwnedSession
  unfold E2ee.updateSessionSecurity at h
  split at h
  · next hrefused =>
    cases h
    rwa [hrefused] at howned
  · next hrow =>
    rw [hrow] at howned
    dsimp only at h
    split at h
    · cases h
      exact howned
    · split at h
      · cases h
        exact howned
      · cases h

end Scap.Sessions
