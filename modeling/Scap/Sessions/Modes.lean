import Scap.E2ee.Membership
import Scap.Sessions.Boundary

/-!
# The boundary over whole runs

Every route keeps `Boundary`, so that it holds of every reachable store.
-/

namespace Scap.Sessions

open Scap.Lib Scap.E2ee

variable {cfg : Settings} {digest : ReplayPayload → String} {s t : Store}

/-! ## Creation -/

theorem boundary_created {userId id : String} {mode : SecurityMode} {d : DataClass}
    {refusal : Option HttpError} {relay : Relay} {row : ChatSession} (hs : Boundary s)
    (hfresh : id ∉ s.relay.drawn) (hallowed : Allowed mode d)
    (h : E2ee.createSession cfg s.relay userId mode d.value refusal id = (relay, .ok row)) :
    Boundary { s with relay := relay } := by
  obtain ⟨hid, hmode, hlabel, hsessions, hdrawn, henvelopes, hmembers, hnew⟩ := createSession_ok h
  have heffects : Effects (.createSession userId mode d.value refusal id) s.relay
      (E2ee.createSession cfg s.relay userId mode d.value refusal id).1 :=
    effects_createSession hfresh
  rw [h] at heffects
  have hlater : s.relay.drawn ⊆ relay.drawn := hdrawn ▸ List.subset_cons_self _ _
  have hmem : id ∈ relay.drawn := hdrawn ▸ List.mem_cons_self
  refine hs.of_policy hallowed (drawnInv_effects hs.drawn heffects) hlater hmem ?_ (fun _ h => h)
    ?_ ?_ ?_
  · intro c hc
    rw [hsessions] at hc
    rcases KeyedTable.mem_insertNew_or hc with rfl | hc
    · exact .inl ⟨hid, hmode, hlabel⟩
    · refine .inr ⟨?_, hc⟩
      rintro rfl
      exact hfresh (hs.drawn.sessions c hc)
  · intro _ hrows
    exact hfresh (hs.serverDrawn id hrows)
  · rintro i (⟨e, he, rfl⟩ | ⟨m, hm, rfl⟩)
    · exact .inr (.inl ⟨e, henvelopes ▸ he, rfl⟩)
    · rcases hnew m hm with heq | hm
      · exact .inl heq
      · exact .inr (.inr ⟨m, hm, rfl⟩)
  · rintro hserver (⟨e, he, rfl⟩ | ⟨m, hm, rfl⟩)
    · exact hfresh (hs.clientDrawn _ (.inl ⟨e, henvelopes ▸ he, rfl⟩))
    · exact hfresh (hs.clientDrawn _ (.inr ⟨m, hmembers hserver ▸ hm, rfl⟩))

theorem boundary_createSession {userId id : String} {payload : PolicyPayload}
    {refusal : Option HttpError} {generated : Option WrappedDek} (hs : Boundary s)
    (hfresh : id ∉ s.relay.drawn) :
    Boundary (createSession cfg s userId payload refusal generated id).1 := by
  unfold createSession
  split
  · exact hs
  · next mode d hvalid =>
    split
    · exact hs
    · next relay row hcreate =>
      have hcreated := boundary_created hs hfresh (allowed_of_validate hvalid) hcreate
      obtain ⟨-, -, -, hsessions, -⟩ := createSession_ok hcreate
      dsimp only
      split
      · exact hcreated
      · next hmode =>
        have hserver : ServerSide relay row.id := by
          obtain ⟨hid, -⟩ := createSession_ok hcreate
          refine ⟨row, hsessions ▸ (KeyedTable.mem_insertNew fun c hc heq => ?_).mpr (.inl rfl),
            rfl, hmode⟩
          exact hfresh (hid ▸ heq ▸ hs.drawn.sessions c hc)
        split
        · exact hs
        · next hkey =>
          refine (boundary_ensureSessionKey hcreated ?_ hkey).1
          exact hserver

/-! ## A new policy -/

theorem serverRows_dropKeys {id i : String} (h : (dropKeys s id).serverRows i) :
    s.serverRows i ∧ (i = id → ∃ m ∈ s.messages.rows, m.sessionId = i) := by
  rcases h with hm | ⟨k, hk, rfl⟩ | ⟨k, hk, rfl⟩
  · exact ⟨.inl hm, fun _ => hm⟩
  · obtain ⟨hk, hother⟩ := KeyedTable.mem_filter.mp hk
    exact ⟨.inr (.inl ⟨k, hk, rfl⟩), fun hid => absurd hid (of_decide_eq_true hother)⟩
  · obtain ⟨hk, hother⟩ := KeyedTable.mem_filter.mp hk
    exact ⟨.inr (.inr ⟨k, hk, rfl⟩), fun hid => absurd hid (of_decide_eq_true hother)⟩

/-- The relay sets a policy, and the store has the server-side rows of `s` or fewer, none of the
conversation if it is private now. -/
theorem boundary_repoliced {row : ChatSession} {mode : SecurityMode} {d : DataClass}
    (hs : Boundary s) (hrow : row ∈ s.relay.sessions.rows) (hallowed : Allowed mode d)
    (hrelay : Repoliced s.relay t.relay row mode d.value) (hdrawn : DrawnInv t.relay)
    (hlater : s.relay.drawn ⊆ t.relay.drawn)
    (hempty : row.securityMode ≠ mode → ∀ e ∈ s.relay.envelopes.rows, e.sessionId ≠ row.id)
    (hserver : ∀ i, t.serverRows i → s.serverRows i)
    (hserverSide : mode = .privateE2ee → ¬ t.serverRows row.id) : Boundary t := by
  refine hs.of_policy hallowed hdrawn hlater (hlater (hs.drawn.sessions row hrow)) hrelay.sessions
    hserver hserverSide ?_ ?_
  · rintro i (⟨e, he, rfl⟩ | ⟨m, hm, rfl⟩)
    · exact .inr (.inl ⟨e, hrelay.envelopes ▸ he, rfl⟩)
    · rcases hrelay.members m hm with heq | hm
      · exact .inl heq
      · exact .inr (.inr ⟨m, hm, rfl⟩)
  · intro hmode hrows
    by_cases hprivate : row.securityMode = .privateE2ee
    · -- the members went with the switch and there were no envelopes
      have hchanged : row.securityMode ≠ mode := fun h => hmode (h.symm.trans hprivate)
      rcases hrows with ⟨e, he, hid⟩ | ⟨m, hm, hid⟩
      · exact hempty hchanged e (hrelay.envelopes ▸ he) hid
      · exact hrelay.emptied hprivate hmode m hm hid
    · have hbefore : clientRows s.relay row.id := by
        rcases hrows with ⟨e, he, hid⟩ | ⟨m, hm, hid⟩
        · exact .inl ⟨e, hrelay.envelopes ▸ he, hid⟩
        · exact .inr ⟨m, hrelay.unchanged hprivate hmode ▸ hm, hid⟩
      exact hs.ciphertext row hrow hprivate hbefore

/-- A change of policy keeps the boundary between the modes. -/
theorem boundary_updateSessionSecurity {userId sessionId : String} {payload : PolicyPayload}
    {refusal : Option HttpError} {generated : Option WrappedDek} (hs : Boundary s) :
    Boundary (updateSessionSecurity cfg s userId sessionId payload refusal generated).1 := by
  unfold updateSessionSecurity
  split
  · exact hs
  · next mode d hvalid =>
    have hallowed := allowed_of_validate hvalid
    have heffects : Effects (.updateSecurity userId sessionId mode d.value
        (s.hasMessages sessionId) refusal) s.relay (E2ee.updateSessionSecurity cfg s.relay userId
        sessionId mode d.value (s.hasMessages sessionId) refusal).1 :=
      effects_updateSessionSecurity
    have hlater := (later_effects heffects).drawn
    have hdrawn := drawnInv_effects hs.drawn heffects
    split
    · exact hs
    · next e hupdate =>
      rw [hupdate] at hlater hdrawn
      exact boundary_cascade hs (kept_updateSessionSecurity_error hupdate) hdrawn hlater
    · next row relay hfind hupdate =>
      rw [hupdate] at hlater hdrawn
      obtain ⟨row', hrow, hid, hrelay, hguard⟩ := updateSessionSecurity_ok hupdate
      obtain ⟨hrow', hid'⟩ := KeyedTable.find?_eq_some hfind
      obtain rfl := KeyedTable.eq_of_key hrow hrow' (hid.trans hid'.symm)
      have hempty := fun h => (hguard h).2
      have hsame (hserver : mode = .privateE2ee → ¬ s.serverRows row'.id) :
          Boundary { s with relay := relay } :=
        boundary_repoliced hs hrow hallowed hrelay hdrawn hlater hempty (fun _ h => h) hserver
      dsimp only
      by_cases hmode : row'.securityMode = mode
      · rw [if_pos hmode]
        exact hsame fun hprivate => hs.content row' hrow (hmode.trans hprivate)
      · rw [if_neg hmode]
        by_cases hprivate : mode = .privateE2ee
        -- the mode changes only while there is no message, and the server keys go with it
        · rw [if_pos hprivate]
          refine boundary_repoliced hs hrow hallowed hrelay hdrawn hlater hempty
            (fun i hrows => (serverRows_dropKeys hrows).1) fun _ hrows => ?_
          obtain ⟨m, hm, hmid⟩ := (serverRows_dropKeys hrows).2 rfl
          have hnone := (hguard hmode).1
          rw [← hid] at hnone
          refine absurd (List.any_eq_true.mpr ⟨m, hm, ?_⟩) (Bool.not_eq_true _ ▸ hnone)
          exact decide_eq_true hmid
        · rw [if_neg hprivate]
          have hupdated := hsame fun h => absurd h hprivate
          split
          · split
            · exact hs
            · next hkey =>
              have hserver : ServerSide relay row'.id := by
                obtain ⟨c, hc, hcid, hcmode⟩ := hrelay.stays
                exact ⟨c, hc, hcid, fun h => hprivate (hcmode.symm.trans h)⟩
              refine (boundary_ensureSessionKey hupdated ?_ hkey).1
              exact hserver
          · exact hupdated

/-! ## Messages -/

theorem boundary_chat {row : ChatSession} {answer : Reply Unit} {generated : Option WrappedDek}
    {sealedUser sealedAssistant : Option String} (hs : Boundary s)
    (hrow : row ∈ s.relay.sessions.rows)
    (h : chat s row answer generated sealedUser sealedAssistant = .ok t) : Boundary t := by
  unfold chat at h
  by_cases hmode : row.securityMode = .privateE2ee
  · rw [if_pos hmode] at h
    cases h
  · rw [if_neg hmode] at h
    split at h
    · cases h
    · dsimp only at h
      split at h
      · cases h
      · next s₁ row₁ _ huser =>
        obtain ⟨hs₁, hside₁, hid₁⟩ := boundary_encryptMessage hs ⟨row, hrow, rfl, hmode⟩ huser
        split at h
        · cases h
        · next s₂ row₂ _ hassistant =>
          cases h
          obtain ⟨hs₂, hside₂, hid₂⟩ := boundary_encryptMessage hs₁ hside₁ hassistant
          rw [hid₂] at hside₂
          refine boundary_of_serverSide hs₂ hside₂ rfl ?_
          rintro i (⟨m, hm, rfl⟩ | hkeys)
          · rcases KeyedTable.mem_insertNew_or hm with rfl | hm
            · exact .inr rfl
            · rcases KeyedTable.mem_insertNew_or hm with rfl | hm
              · exact .inr rfl
              · exact .inl (.inl ⟨m, hm, rfl⟩)
          · exact .inl (.inr hkeys)

theorem boundary_sendMessage {userId sessionId : String} {refusal : Option HttpError}
    {answer : Reply Unit} {generated : Option WrappedDek}
    {sealedUser sealedAssistant : Option String} (hs : Boundary s) :
    Boundary (sendMessage cfg s userId sessionId refusal answer generated sealedUser
      sealedAssistant).1 := by
  unfold sendMessage
  split
  · next h => exact boundary_requireOwnedSession hs h
  · next row h =>
    obtain ⟨-, hrow, -⟩ := requireOwnedSession_ok h
    dsimp only
    split
    · exact hs
    · split
      · exact hs
      · next hchat => exact boundary_chat hs hrow hchat

theorem boundary_exportSession {userId sessionId : String} {refusal : Option HttpError}
    (hs : Boundary s) : Boundary (exportSession cfg s userId sessionId refusal).1 := by
  unfold exportSession
  split
  · next h => exact boundary_requireOwnedSession hs h
  · exact hs

/-! ## Maintenance -/

theorem boundary_migrateLegacyMessage {m : SecureMessage} {generated : Option WrappedDek}
    {sealed : Option String} (hs : Boundary s) :
    Boundary (migrateLegacyMessage s m generated sealed) := by
  unfold migrateLegacyMessage
  split
  · next row _ hfind =>
    split
    · exact hs
    · next hskip =>
      split
      · exact hs
      · next hencrypt =>
        obtain ⟨hrow, -⟩ := KeyedTable.find?_eq_some hfind
        obtain ⟨hboundary, hside, -⟩ :=
          boundary_encryptMessage hs ⟨row, hrow, rfl, (not_or.mp hskip).1⟩ hencrypt
        refine boundary_of_serverSide hboundary hside rfl ?_
        rintro i (⟨x, hx, rfl⟩ | hkeys)
        · obtain ⟨y, hy, rfl⟩ := List.mem_map.mp hx
          refine .inl (.inl ⟨y, hy, ?_⟩)
          split <;> rfl
        · exact .inl (.inr hkeys)
  · exact hs

theorem boundary_rewrapSessionKeys {sessionId : String} {rewrap : WrappedDek → WrappedDek}
    (hs : Boundary s) : Boundary (rewrapSessionKeys s sessionId rewrap) := by
  unfold rewrapSessionKeys
  dsimp only
  split
  · next row key hfind hactive =>
    obtain ⟨hrow, hid⟩ := KeyedTable.find?_eq_some hfind
    obtain ⟨hkey, hsession⟩ := KeyedTable.find?_eq_some hactive
    have hmode : row.securityMode ≠ .privateE2ee := by
      intro hprivate
      exact hs.content row hrow hprivate (.inr (.inr ⟨key, hkey, hsession.trans hid.symm⟩))
    have hrewrapped : ∀ i, Store.serverRows { s with
        keyEpochs := s.keyEpochs.modify
          (fun k => if k.sessionId = sessionId then { k with wrapped := rewrap k.wrapped } else k)
          fun k => by split <;> rfl } i → s.serverRows i := by
      rintro i (hm | ⟨k, hk, rfl⟩ | hk)
      · exact .inl hm
      · obtain ⟨x, hx, rfl⟩ := List.mem_map.mp hk
        refine .inr (.inl ⟨x, hx, ?_⟩)
        split <;> rfl
      · exact .inr (.inr hk)
    have hside : ServerSide s.relay sessionId := ⟨row, hrow, hid, hmode⟩
    split
    · refine boundary_of_serverSide hs hside rfl ?_
      intro i hrows
      rcases serverRows_setActiveKey hrows with hrows | rfl
      · exact .inl (hrewrapped i hrows)
      · exact .inr rfl
    · exact boundary_of_serverSide hs hside rfl fun i hrows => .inl (hrewrapped i hrows)
  · exact hs

/-! ## Every reachable store -/

theorem boundary_upgraded (h : Upgraded s) : Boundary s where
  drawn := ⟨h.users, fun c hc => (h.sessions c hc).1⟩
  serverDrawn := by
    rintro id (⟨m, hm, rfl⟩ | ⟨k, hk, -⟩ | ⟨k, hk, -⟩)
    · obtain ⟨c, hc, hid⟩ := (h.messages m hm).2
      exact hid ▸ (h.sessions c hc).1
    · rw [h.keyEpochs] at hk
      cases hk
    · rw [h.activeKeys] at hk
      cases hk
  clientDrawn := by
    rintro id (⟨e, he, -⟩ | ⟨m, hm, -⟩)
    · rw [h.envelopes] at he
      cases he
    · rw [h.members] at hm
      cases hm
  content := by
    intro c hc hprivate
    rw [(h.sessions c hc).2.1] at hprivate
    cases hprivate
  ciphertext := by
    rintro c hc - (⟨e, he, -⟩ | ⟨m, hm, -⟩)
    · rw [h.envelopes] at he
      cases he
    · rw [h.members] at hm
      cases hm
  policy := by
    intro c hc
    obtain ⟨-, hmode, hlabel, -⟩ := h.sessions c hc
    exact ⟨.internal, hlabel, by rw [hmode]; rfl⟩

theorem boundary_step {a : Action} (hs : Boundary s) (h : (storeSystem cfg digest).step s a t) :
    Boundary t := by
  replace h : stepStore cfg digest s a = some t := h
  cases a with
  | relay a =>
      simp only [stepStore] at h
      split at h
      · cases h
      · next hpolicy =>
        obtain ⟨relay, hstep, rfl⟩ := Option.map_eq_some_iff.mp h
        have hrelay : (relaySystem cfg digest).step s.relay a relay := hstep
        have hchange := change_of_step hrelay
        exact boundary_cascade hs (kept_of_step hrelay (Bool.not_eq_true _ ▸ hpolicy))
          (drawnInv_change hs.drawn hchange) (later_change hchange).drawn
  | createSession userId payload refusal generated id =>
      obtain ⟨hfresh, rfl⟩ := of_guarded h
      exact boundary_createSession hs hfresh
  | updateSecurity userId sessionId payload refusal generated =>
      exact Option.some.inj h ▸ boundary_updateSessionSecurity hs
  | sendMessage userId sessionId refusal answer generated sealedUser sealedAssistant =>
      exact Option.some.inj h ▸ boundary_sendMessage hs
  | exportSession userId sessionId refusal => exact Option.some.inj h ▸ boundary_exportSession hs
  | migrateMessage m generated sealed =>
      exact Option.some.inj h ▸ boundary_migrateLegacyMessage hs
  | rewrapKeys sessionId rewrap => exact Option.some.inj h ▸ boundary_rewrapSessionKeys hs

theorem boundary_of_reachable (h : (storeSystem cfg digest).Reachable s) : Boundary s :=
  h.induct (fun _ hs => boundary_upgraded hs) fun _ _ _ _ hs hstep => boundary_step hs hstep

/-- **Trust boundary of the modes.** A private conversation has no message, no key epoch and no
wrapped key; any other has no envelope and no member; the mode is private exactly if the label is
`e2ee_private`, and mode and label are a pair the validators allow. -/
theorem mode_trust_boundary (h : (storeSystem cfg digest).Reachable s) {c : ChatSession}
    (hc : c ∈ s.relay.sessions.rows) :
    (c.securityMode = .privateE2ee →
      (∀ m ∈ s.messages.rows, m.sessionId ≠ c.id) ∧
      (∀ k ∈ s.keyEpochs.rows, k.sessionId ≠ c.id) ∧
      ∀ k ∈ s.activeKeys.rows, k.sessionId ≠ c.id) ∧
    (c.securityMode ≠ .privateE2ee →
      (∀ e ∈ s.relay.envelopes.rows, e.sessionId ≠ c.id) ∧
      ∀ m ∈ s.relay.members.rows, m.sessionId ≠ c.id) ∧
    (c.securityMode = .privateE2ee ↔ c.dataClassification = DataClass.e2eePrivate.value) ∧
    ∃ d : DataClass, c.dataClassification = d.value ∧ Allowed c.securityMode d := by
  have hs := boundary_of_reachable h
  obtain ⟨d, hlabel, hallowed⟩ := hs.policy c hc
  refine ⟨fun hmode => ?_, fun hmode => ?_, ?_, d, hlabel, hallowed⟩
  · have hnone := hs.content c hc hmode
    refine ⟨fun m hm hid => ?_, fun k hk hid => ?_, fun k hk hid => ?_⟩
    · exact hnone (.inl ⟨m, hm, hid⟩)
    · exact hnone (.inr (.inl ⟨k, hk, hid⟩))
    · exact hnone (.inr (.inr ⟨k, hk, hid⟩))
  · have hnone := hs.ciphertext c hc hmode
    refine ⟨fun e he hid => ?_, fun m hm hid => ?_⟩
    · exact hnone (.inl ⟨e, he, hid⟩)
    · exact hnone (.inr ⟨m, hm, hid⟩)
  · rw [hlabel, DataClass.value_injective.eq_iff]
    exact hallowed.private_iff

/-! ### A confidential conversation of one exchange -/

def emptyStore : Store := ⟨Relay.initial 0, .empty, .empty, .empty⟩

theorem upgraded_emptyStore : Upgraded emptyStore := by
  constructor <;> simp [emptyStore, Relay.initial]

def sampleKey : WrappedDek := ⟨"wrapped", "local://default", "1"⟩

def sampleExchange : List Action := [
  .relay (.register "alice" "alice" false),
  .createSession "alice" ⟨"confidential", "highly_confidential"⟩ none (some sampleKey) "session",
  .sendMessage "alice" "session" none (.ok ()) none (some "question") (some "answer")]

def sampleStore : Store :=
  (System.exec (stepStore sampleSettings sampleDigest) emptyStore sampleExchange).get
    (by decide +kernel)

theorem reachable_sampleStore :
    (storeSystem sampleSettings sampleDigest).Reachable sampleStore :=
  ⟨emptyStore, sampleExchange, upgraded_emptyStore,
    System.run_of_exec (Option.some_get _).symm⟩

def sampleConversation : ChatSession :=
  ⟨"session", "alice", .confidential, "highly_confidential", 1, days 7⟩

theorem mode_trust_boundary_sample :
    sampleConversation ∈ sampleStore.relay.sessions.rows ∧
      (∀ e ∈ sampleStore.relay.envelopes.rows, e.sessionId ≠ "session") ∧
      ∀ m ∈ sampleStore.relay.members.rows, m.sessionId ≠ "session" := by
  have hmem : sampleConversation ∈ sampleStore.relay.sessions.rows := by decide +kernel
  exact ⟨hmem, (mode_trust_boundary reachable_sampleStore hmem).2.1 (by decide)⟩

end Scap.Sessions
