import Scap.Sessions.Modes

/-!
# The policy of a conversation with data

Once a conversation has a message or an envelope, its mode stays. Its label stays too unless the
owner sets another one, which the route allows: it compares modes only. So the rank of the label
does not fall in a run exactly as long as no update of a conversation with data names a lower one.
-/

namespace Scap.Sessions

open Scap.Lib Scap.E2ee

variable {cfg : Settings} {digest : ReplayPayload → String} {s t u : Store} {a : Action}

/-- A message or an envelope of the conversation. -/
def HasData (s : Store) (id : String) : Prop :=
  (∃ m ∈ s.messages.rows, m.sessionId = id) ∨ ∃ e ∈ s.relay.envelopes.rows, e.sessionId = id

/-- The rank of the label of a conversation. -/
def classRank (c : ChatSession) : Nat :=
  ((DataClass.ofValue? c.dataClassification).map DataClass.rank).getD 0

theorem classRank_eq {c : ChatSession} {d : DataClass} (h : c.dataClassification = d.value) :
    classRank c = d.rank := by
  unfold classRank
  rw [h, DataClass.ofValue?_value]
  rfl

/-- No update of a conversation with data names a label of a lower rank. -/
def NoDowngrade (s : Store) : Action → Prop
  | .updateSecurity _ sessionId payload _ _ => ∀ mode d, payload.validate = .ok (mode, d) →
      ∀ c ∈ s.relay.sessions.rows, c.id = sessionId → HasData s c.id → classRank c ≤ d.rank
  | _ => True

/-! ## What leaves policies and data alone -/

structure Untouched (s t : Store) : Prop where
  sessions : ∀ c ∈ t.relay.sessions.rows, ∃ b ∈ s.relay.sessions.rows, b.id = c.id ∧
    b.securityMode = c.securityMode ∧ b.dataClassification = c.dataClassification
  data : ∀ id, HasData s id → (∃ c ∈ t.relay.sessions.rows, c.id = id) → HasData t id
  drawn : s.relay.drawn ⊆ t.relay.drawn

theorem Untouched.refl (s : Store) : Untouched s s :=
  ⟨fun c hc => ⟨c, hc, rfl, rfl, rfl⟩, fun _ h _ => h, List.Subset.refl _⟩

theorem Untouched.trans (h : Untouched s t) (h' : Untouched t u) : Untouched s u where
  sessions := by
    intro c hc
    obtain ⟨b, hb, hid, hmode, hlabel⟩ := h'.sessions c hc
    obtain ⟨a, ha, hid', hmode', hlabel'⟩ := h.sessions b hb
    exact ⟨a, ha, hid'.trans hid, hmode'.trans hmode, hlabel'.trans hlabel⟩
  data := by
    intro id hdata ⟨c, hc, hid⟩
    obtain ⟨b, hb, hid', -⟩ := h'.sessions c hc
    exact h'.data id (h.data id hdata ⟨b, hb, hid'.trans hid⟩) ⟨c, hc, hid⟩
  drawn := List.Subset.trans h.drawn h'.drawn

theorem untouched_cascade {relay : Relay} (h : Kept s.relay relay)
    (hdrawn : s.relay.drawn ⊆ relay.drawn) : Untouched s (cascade s relay) where
  sessions := h.sessions
  drawn := hdrawn
  data := by
    rintro id (⟨m, hm, rfl⟩ | ⟨e, he, rfl⟩) ⟨c, hc, hid⟩
    · refine .inl ⟨m, KeyedTable.mem_filter.mpr ⟨hm, ?_⟩, rfl⟩
      replace hc : c ∈ relay.sessions.rows := hc
      rw [← hid, KeyedTable.find?_of_mem hc]
      rfl
    · exact .inr ⟨e, h.held e he ⟨c, hc, hid⟩, rfl⟩

/-- Where messages are added or rewritten in place. -/
theorem Untouched.of_messages (hkept : Kept s.relay t.relay)
    (hdrawn : s.relay.drawn ⊆ t.relay.drawn)
    (hmessages : ∀ m ∈ s.messages.rows, ∃ n ∈ t.messages.rows, n.sessionId = m.sessionId) :
    Untouched s t where
  sessions := hkept.sessions
  drawn := hdrawn
  data := by
    rintro id (⟨m, hm, rfl⟩ | ⟨e, he, rfl⟩) hstays
    · exact .inl (hmessages m hm)
    · exact .inr ⟨e, hkept.held e he hstays, rfl⟩

theorem untouched_ensureSessionKey {row row' : ChatSession} {generated : Option WrappedDek}
    (h : ensureSessionKey s row generated = .ok (t, row')) : Untouched s t := by
  obtain ⟨-, -, -, hmessages, hrelay, -⟩ := ensureSessionKey_ok h
  have hkept : Kept s.relay t.relay ∧ s.relay.drawn ⊆ t.relay.drawn := by
    rcases hrelay with hrelay | hrelay <;> rw [hrelay]
    · exact ⟨.refl _, List.Subset.refl _⟩
    · exact ⟨kept_setEpoch _ _ _, List.Subset.refl _⟩
  apply Untouched.of_messages hkept.1 hkept.2
  intro m hm
  exact ⟨m, hmessages ▸ hm, rfl⟩

theorem untouched_encryptMessage {row row' : ChatSession} {generated : Option WrappedDek}
    {sealed : Option String} {ciphertext : String}
    (h : encryptMessage s row generated sealed = .ok (t, row', ciphertext)) : Untouched s t := by
  unfold encryptMessage at h
  split at h
  · cases h
  · next hkey =>
    split at h
    · cases h
    · cases h
      exact untouched_ensureSessionKey hkey

theorem untouched_chat {row : ChatSession} {answer : Reply Unit} {generated : Option WrappedDek}
    {sealedUser sealedAssistant : Option String}
    (h : chat s row answer generated sealedUser sealedAssistant = .ok t) : Untouched s t := by
  unfold chat at h
  split at h
  · cases h
  · split at h
    · cases h
    · dsimp only at h
      split at h
      · cases h
      · next huser =>
        split at h
        · cases h
        · next hassistant =>
          cases h
          apply (untouched_encryptMessage huser).trans
          apply (untouched_encryptMessage hassistant).trans
          refine Untouched.of_messages (.refl _) (List.Subset.refl _) ?_
          intro m hm
          exact ⟨m, KeyedTable.mem_insertNew_of_mem (KeyedTable.mem_insertNew_of_mem hm), rfl⟩

/-- A refusal of the owner's guard, and what goes on where it does not refuse. -/
theorem untouched_requireOwnedSession {userId sessionId : String} {refusal : Option HttpError}
    {relay : Relay} {e : HttpError}
    (h : requireOwnedSession cfg s.relay userId sessionId refusal = (relay, .error e)) :
    Untouched s (cascade s relay) := by
  have hkept : Kept s.relay (requireOwnedSession cfg s.relay userId sessionId refusal).1 :=
    kept_requireOwnedSession
  rw [h] at hkept
  have heffects : Effects (.deleteSession userId sessionId refusal) s.relay relay :=
    requireOwnedSession_error h
  exact untouched_cascade hkept (later_effects heffects).drawn

theorem untouched_sendMessage {userId sessionId : String} {refusal : Option HttpError}
    {answer : Reply Unit} {generated : Option WrappedDek}
    {sealedUser sealedAssistant : Option String} :
    Untouched s (sendMessage cfg s userId sessionId refusal answer generated sealedUser
      sealedAssistant).1 := by
  unfold sendMessage
  split
  · next h => exact untouched_requireOwnedSession h
  · dsimp only
    split
    · exact .refl s
    · split
      · exact .refl s
      · next hchat => exact untouched_chat hchat

theorem untouched_exportSession {userId sessionId : String} {refusal : Option HttpError} :
    Untouched s (exportSession cfg s userId sessionId refusal).1 := by
  unfold exportSession
  split
  · next h => exact untouched_requireOwnedSession h
  · exact .refl s

theorem untouched_migrateLegacyMessage {m : SecureMessage} {generated : Option WrappedDek}
    {sealed : Option String} : Untouched s (migrateLegacyMessage s m generated sealed) := by
  unfold migrateLegacyMessage
  split
  · split
    · exact .refl s
    · split
      · exact .refl s
      · next hencrypt =>
        apply (untouched_encryptMessage hencrypt).trans
        refine Untouched.of_messages (.refl _) (List.Subset.refl _) ?_
        intro x hx
        refine ⟨_, List.mem_map.mpr ⟨x, hx, rfl⟩, ?_⟩
        split <;> rfl
  · exact .refl s

theorem untouched_rewrapSessionKeys {sessionId : String} {rewrap : WrappedDek → WrappedDek} :
    Untouched s (rewrapSessionKeys s sessionId rewrap) := by
  unfold rewrapSessionKeys
  dsimp only
  repeat' split
  all_goals exact .of_messages (.refl _) (List.Subset.refl _) fun m hm => ⟨m, hm, rfl⟩

/-! ## One step -/

/-- An update of a policy that is not refused sets it, and leaves the rest alone; with data it
keeps the mode. -/
theorem updateSessionSecurity_cases (cfg : Settings) (s : Store) (userId sessionId : String)
    (payload : PolicyPayload) (refusal : Option HttpError) (generated : Option WrappedDek) :
    Untouched s (updateSessionSecurity cfg s userId sessionId payload refusal generated).1 ∨
      ∃ mode d, payload.validate = .ok (mode, d) ∧ ∃ row ∈ s.relay.sessions.rows,
        row.id = sessionId ∧ (row.securityMode ≠ mode → ¬ HasData s row.id) ∧ ∃ relay,
          Repoliced s.relay relay row mode d.value ∧ s.relay.drawn ⊆ relay.drawn ∧
          Untouched { s with relay := relay }
            (updateSessionSecurity cfg s userId sessionId payload refusal generated).1 := by
  unfold updateSessionSecurity
  split
  · exact .inl (.refl s)
  · next mode d hvalid =>
    have heffects : Effects (.updateSecurity userId sessionId mode d.value
        (s.hasMessages sessionId) refusal) s.relay (E2ee.updateSessionSecurity cfg s.relay userId
        sessionId mode d.value (s.hasMessages sessionId) refusal).1 :=
      effects_updateSessionSecurity
    have hdrawn := (later_effects heffects).drawn
    split
    · exact .inl (.refl s)
    · next e hupdate =>
      rw [hupdate] at hdrawn
      exact .inl (untouched_cascade (kept_updateSessionSecurity_error hupdate) hdrawn)
    · next row relay hfind hupdate =>
      rw [hupdate] at hdrawn
      obtain ⟨row', hrow, hid, hrelay, hguard⟩ := updateSessionSecurity_ok hupdate
      obtain ⟨hrow', hid'⟩ := KeyedTable.find?_eq_some hfind
      obtain rfl := KeyedTable.eq_of_key hrow hrow' (hid.trans hid'.symm)
      have hempty : row'.securityMode ≠ mode → ¬ HasData s row'.id := by
        rintro hmode (⟨m, hm, hmid⟩ | ⟨e, he, heid⟩)
        · have hnone := (hguard hmode).1
          have hsome : s.hasMessages sessionId = true :=
            List.any_eq_true.mpr ⟨m, hm, decide_eq_true (hmid.trans hid)⟩
          rw [hsome] at hnone
          cases hnone
        · exact (hguard hmode).2 e he heid
      have hset (t : Store) (ht : Untouched { s with relay := relay } t) :
          Untouched s t ∨ ∃ mode d, payload.validate = .ok (mode, d) ∧
            ∃ row ∈ s.relay.sessions.rows, row.id = sessionId ∧
              (row.securityMode ≠ mode → ¬ HasData s row.id) ∧ ∃ relay,
                Repoliced s.relay relay row mode d.value ∧ s.relay.drawn ⊆ relay.drawn ∧
                  Untouched { s with relay := relay } t :=
        .inr ⟨mode, d, hvalid, row', hrow, hid, hempty, relay, hrelay, hdrawn, ht⟩
      dsimp only
      split
      · exact hset _ (.refl _)
      · split
        · exact hset _ (.of_messages (.refl _) (List.Subset.refl _) fun m hm => ⟨m, hm, rfl⟩)
        · split
          · split
            · exact .inl (.refl s)
            · next hkey => exact hset _ (untouched_ensureSessionKey hkey)
          · exact hset _ (.refl _)

/-- What a step may do to a conversation with data that is there before and after it. -/
structure Relabelled (s t : Store) (a : Action) (b c : ChatSession) : Prop where
  data : HasData s b.id → HasData t b.id
  mode : HasData s b.id → c.securityMode = b.securityMode
  label : c.dataClassification = b.dataClassification ∨
    ∃ userId payload refusal generated mode d,
      a = .updateSecurity userId b.id payload refusal generated ∧
      payload.validate = .ok (mode, d) ∧ c.dataClassification = d.value

theorem Untouched.relabelled (h : Untouched s t) {c : ChatSession}
    (hc : c ∈ t.relay.sessions.rows) :
    ∃ b ∈ s.relay.sessions.rows, b.id = c.id ∧ Relabelled s t a b c := by
  obtain ⟨b, hb, hid, hmode, hlabel⟩ := h.sessions c hc
  exact ⟨b, hb, hid, fun hdata => h.data b.id hdata ⟨c, hc, hid.symm⟩, fun _ => hmode.symm,
    .inl hlabel.symm⟩

theorem relabelled_updateSecurity {userId sessionId : String} {payload : PolicyPayload}
    {refusal : Option HttpError} {generated : Option WrappedDek} {c : ChatSession}
    (h : (updateSessionSecurity cfg s userId sessionId payload refusal generated).1 = t)
    (hc : c ∈ t.relay.sessions.rows) :
    ∃ b ∈ s.relay.sessions.rows, b.id = c.id ∧
      Relabelled s t (.updateSecurity userId sessionId payload refusal generated) b c := by
  have hcases := updateSessionSecurity_cases cfg s userId sessionId payload refusal generated
  rw [h] at hcases
  rcases hcases with hsame | ⟨mode, d, hvalid, row, hrow, rfl, hempty, relay, hrelay, -, hafter⟩
  · exact hsame.relabelled hc
  · obtain ⟨b, hb, hid, hmode, hlabel⟩ := hafter.sessions c hc
    have hdata (id : String) (hid : c.id = id) (hdata : HasData s id) : HasData t id := by
      apply hafter.data id _ ⟨c, hc, hid⟩
      rcases hdata with hm | ⟨e, he, heid⟩
      · exact .inl hm
      · exact .inr ⟨e, hrelay.envelopes ▸ he, heid⟩
    rcases hrelay.sessions b hb with ⟨hrowid, hset, hnew⟩ | ⟨-, hold⟩
    · refine ⟨row, hrow, hrowid.symm.trans hid, hdata _ (hid.symm.trans hrowid), ?_, ?_⟩
      · intro hrowdata
        by_contra hchanged
        refine hempty (fun hsame => hchanged ?_) hrowdata
        rw [hsame, ← hmode, hset]
      · exact .inr ⟨userId, payload, refusal, generated, mode, d, rfl, hvalid,
          hlabel.symm.trans hnew⟩
    · exact ⟨b, hold, hid, hdata _ hid.symm, fun _ => hmode.symm, .inl hlabel.symm⟩

theorem relabelled_createSession {userId id : String} {payload : PolicyPayload}
    {refusal : Option HttpError} {generated : Option WrappedDek} {c : ChatSession}
    (hc : c ∈ (createSession cfg s userId payload refusal generated id).1.relay.sessions.rows)
    (hid : c.id ≠ id) :
    ∃ b ∈ s.relay.sessions.rows, b.id = c.id ∧
      Relabelled s (createSession cfg s userId payload refusal generated id).1 a b c := by
  unfold createSession at hc ⊢
  split
  · next hinvalid =>
    rw [hinvalid] at hc
    exact (Untouched.refl s).relabelled hc
  · next mode d hvalid =>
    rw [hvalid] at hc
    dsimp only at hc
    split
    · next hcreate =>
      rw [hcreate] at hc
      exact (Untouched.refl s).relabelled hc
    · next relay row hcreate =>
      rw [hcreate] at hc
      dsimp only at hc ⊢
      obtain ⟨hrowid, -, -, hsessions, -, henvelopes, -⟩ := createSession_ok hcreate
      have hcreated (t : Store) (ht : Untouched { s with relay := relay } t)
          (hc : c ∈ t.relay.sessions.rows) :
          ∃ b ∈ s.relay.sessions.rows, b.id = c.id ∧ Relabelled s t a b c := by
        obtain ⟨b, hb, hbid, hmode, hlabel⟩ := ht.sessions c hc
        replace hb : b ∈ relay.sessions.rows := hb
        rw [hsessions] at hb
        rcases KeyedTable.mem_insertNew_or hb with rfl | hb
        · exact absurd (hbid.symm.trans hrowid) hid
        · refine ⟨b, hb, hbid, fun hdata => ht.data b.id ?_ ⟨c, hc, hbid.symm⟩,
            fun _ => hmode.symm, .inl hlabel.symm⟩
          rcases hdata with hm | ⟨e, he, heid⟩
          · exact .inl hm
          · exact .inr ⟨e, henvelopes ▸ he, heid⟩
      split
      · next hmode =>
        rw [if_pos hmode] at hc
        exact hcreated _ (.refl _) hc
      · next hmode =>
        rw [if_neg hmode] at hc
        split
        · next hkey =>
          rw [hkey] at hc
          exact (Untouched.refl s).relabelled hc
        · next hkey =>
          rw [hkey] at hc
          exact hcreated _ (untouched_ensureSessionKey hkey) hc

/-- A conversation whose identifier was drawn before the step was there before it. -/
theorem relabelled_of_step (h : (storeSystem cfg digest).step s a t) {c : ChatSession}
    (hc : c ∈ t.relay.sessions.rows) (hdrawn : c.id ∈ s.relay.drawn) :
    ∃ b ∈ s.relay.sessions.rows, b.id = c.id ∧ Relabelled s t a b c := by
  replace h : stepStore cfg digest s a = some t := h
  cases a with
  | relay a =>
      simp only [stepStore] at h
      split at h
      · cases h
      · next hpolicy =>
        obtain ⟨relay, hstep, rfl⟩ := Option.map_eq_some_iff.mp h
        have hrelay : (relaySystem cfg digest).step s.relay a relay := hstep
        exact (untouched_cascade (kept_of_step hrelay (Bool.not_eq_true _ ▸ hpolicy))
          (later_change (change_of_step hrelay)).drawn).relabelled hc
  | createSession userId payload refusal generated id =>
      obtain ⟨hfresh, rfl⟩ := of_guarded h
      apply relabelled_createSession hc
      rintro rfl
      exact hfresh hdrawn
  | updateSecurity userId sessionId payload refusal generated =>
      exact relabelled_updateSecurity (Option.some.inj h) hc
  | sendMessage userId sessionId refusal answer generated sealedUser sealedAssistant =>
      obtain rfl := Option.some.inj h
      exact untouched_sendMessage.relabelled hc
  | exportSession userId sessionId refusal =>
      obtain rfl := Option.some.inj h
      exact untouched_exportSession.relabelled hc
  | migrateMessage m generated sealed =>
      obtain rfl := Option.some.inj h
      exact untouched_migrateLegacyMessage.relabelled hc
  | rewrapKeys sessionId rewrap =>
      obtain rfl := Option.some.inj h
      exact untouched_rewrapSessionKeys.relabelled hc

/-! ## Whole runs -/

theorem drawn_createSession {userId id : String} {payload : PolicyPayload}
    {refusal : Option HttpError} {generated : Option WrappedDek} :
    s.relay.drawn ⊆ (createSession cfg s userId payload refusal generated id).1.relay.drawn := by
  have hsame := List.Subset.refl s.relay.drawn
  unfold createSession
  split
  · exact hsame
  · split
    · exact hsame
    · next hcreate =>
      obtain ⟨-, -, -, -, hdrawn, -⟩ := createSession_ok hcreate
      have hcreated := hdrawn ▸ List.subset_cons_self id s.relay.drawn
      dsimp only
      split
      · exact hcreated
      · split
        · exact hsame
        · next hkey => exact List.Subset.trans hcreated (untouched_ensureSessionKey hkey).drawn

theorem drawn_step (h : (storeSystem cfg digest).step s a t) : s.relay.drawn ⊆ t.relay.drawn := by
  replace h : stepStore cfg digest s a = some t := h
  cases a with
  | relay a =>
      simp only [stepStore] at h
      split at h
      · cases h
      · obtain ⟨relay, hstep, rfl⟩ := Option.map_eq_some_iff.mp h
        have hrelay : (relaySystem cfg digest).step s.relay a relay := hstep
        exact (later_change (change_of_step hrelay)).drawn
  | createSession userId payload refusal generated id =>
      obtain ⟨-, rfl⟩ := of_guarded h
      exact drawn_createSession
  | updateSecurity userId sessionId payload refusal generated =>
      obtain rfl := Option.some.inj h
      rcases updateSessionSecurity_cases cfg s userId sessionId payload refusal generated with
        hsame | ⟨_, _, _, _, _, _, _, _, _, hdrawn, hafter⟩
      · exact hsame.drawn
      · exact List.Subset.trans hdrawn hafter.drawn
  | sendMessage userId sessionId refusal answer generated sealedUser sealedAssistant =>
      exact Option.some.inj h ▸ untouched_sendMessage.drawn
  | exportSession userId sessionId refusal =>
      exact Option.some.inj h ▸ untouched_exportSession.drawn
  | migrateMessage m generated sealed =>
      exact Option.some.inj h ▸ untouched_migrateLegacyMessage.drawn
  | rewrapKeys sessionId rewrap => exact Option.some.inj h ▸ untouched_rewrapSessionKeys.drawn

/-- A conversation with data, later: it has data still, in its mode, if it is there. -/
structure Held (c : ChatSession) (t : Store) : Prop where
  drawn : c.id ∈ t.relay.drawn
  kept : ∀ c' ∈ t.relay.sessions.rows, c'.id = c.id →
    HasData t c.id ∧ c'.securityMode = c.securityMode

theorem held_step {c : ChatSession} (h : (storeSystem cfg digest).step s a t) (hs : Held c s) :
    Held c t where
  drawn := drawn_step h hs.drawn
  kept := by
    intro c' hc' hid
    obtain ⟨b, hb, hbid, hlabelled⟩ := relabelled_of_step h hc' (hid ▸ hs.drawn)
    obtain ⟨hdata, hmode⟩ := hs.kept b hb (hbid.trans hid)
    rw [← hbid.trans hid] at hdata ⊢
    exact ⟨hlabelled.data hdata, (hlabelled.mode hdata).trans hmode⟩

/-- The rank of the label over a step that names no lower one. -/
theorem classRank_step {c : ChatSession} (h : (storeSystem cfg digest).step s a t)
    (ha : NoDowngrade s a) (hs : Held c s)
    (hrank : ∀ b ∈ s.relay.sessions.rows, b.id = c.id → classRank c ≤ classRank b) :
    ∀ c' ∈ t.relay.sessions.rows, c'.id = c.id → classRank c ≤ classRank c' := by
  intro c' hc' hid
  obtain ⟨b, hb, hbid, hlabelled⟩ := relabelled_of_step h hc' (hid ▸ hs.drawn)
  have hbefore := hrank b hb (hbid.trans hid)
  rcases hlabelled.label with hlabel | ⟨userId, payload, refusal, generated, mode, d, rfl, hvalid,
    hlabel⟩
  · have hsame : classRank c' = classRank b := by
      unfold classRank
      rw [hlabel]
    rw [hsame]
    exact hbefore
  · obtain ⟨hdata, -⟩ := hs.kept b hb (hbid.trans hid)
    have hnamed := ha mode d hvalid b hb rfl (by rwa [hbid.trans hid])
    rw [classRank_eq hlabel]
    exact hbefore.trans hnamed

/-- **The policy of a conversation with data.** Its mode never changes, and in a run in which no
update of a conversation with data names a label of a lower rank, the rank of its label never
falls. -/
theorem policy_frozen (hs : (storeSystem cfg digest).Reachable s) {as : List Action}
    {c c' : ChatSession} (hc : c ∈ s.relay.sessions.rows) (hdata : HasData s c.id)
    (hc' : c' ∈ t.relay.sessions.rows) (hid : c'.id = c.id) :
    ((storeSystem cfg digest).Run s as t → c'.securityMode = c.securityMode) ∧
    (((storeSystem cfg digest).restrict NoDowngrade).Run s as t → classRank c ≤ classRank c') := by
  have hunique : ∀ b ∈ s.relay.sessions.rows, b.id = c.id → b = c :=
    fun b hb hbid => KeyedTable.eq_of_key hb hc hbid
  have hheld : Held c s := by
    refine ⟨(boundary_of_reachable hs).drawn.sessions c hc, fun b hb hbid => ⟨hdata, ?_⟩⟩
    rw [hunique b hb hbid]
  constructor
  · intro hrun
    have hlast := hrun.preserves (fun _ _ _ hs hstep => held_step hstep hs) hheld
    exact (hlast.kept c' hc' hid).2
  · intro hrun
    have hlast : Held c t ∧ ∀ b ∈ t.relay.sessions.rows, b.id = c.id →
        classRank c ≤ classRank b := by
      refine hrun.preserves (I := fun t => Held c t ∧ ∀ b ∈ t.relay.sessions.rows, b.id = c.id →
        classRank c ≤ classRank b) ?_ ⟨hheld, fun b hb hbid => (hunique b hb hbid).symm ▸ le_refl _⟩
      intro s a t hs hstep
      exact ⟨held_step hstep.1 hs.1, classRank_step hstep.1 hstep.2 hs.1 hs.2⟩
    exact hlast.2 c' hc' hid

/-- The condition is about nothing else: an update that is accepted sets the label it names. -/
theorem classRank_of_accepted {userId sessionId : String} {payload : PolicyPayload}
    {refusal : Option HttpError} {generated : Option WrappedDek} {mode : SecurityMode}
    {d : DataClass} {c : ChatSession} (hvalid : payload.validate = .ok (mode, d))
    (h : updateSessionSecurity cfg s userId sessionId payload refusal generated = (t, .ok ()))
    (hc : c ∈ t.relay.sessions.rows) (hid : c.id = sessionId) : classRank c = d.rank := by
  unfold updateSessionSecurity at h
  rw [hvalid] at h
  dsimp only at h
  split at h
  · cases h
  · cases h
  · next row relay hfind hupdate =>
    obtain ⟨row', hrow, hrowid, hrelay, -⟩ := updateSessionSecurity_ok hupdate
    have hset (t : Store) (ht : Untouched { s with relay := relay } t)
        (hc : c ∈ t.relay.sessions.rows) : classRank c = d.rank := by
      obtain ⟨b, hb, hbid, -, hlabel⟩ := ht.sessions c hc
      rcases hrelay.sessions b hb with ⟨-, -, hnew⟩ | ⟨hother, -⟩
      · exact classRank_eq (hlabel.symm.trans hnew)
      · exact absurd (hbid.trans (hid.trans hrowid.symm)) hother
    split at h
    · cases h
      exact hset _ (.refl _) hc
    · split at h
      · cases h
        refine hset _ ?_ hc
        exact .of_messages (.refl _) (List.Subset.refl _) fun m hm => ⟨m, hm, rfl⟩
      · split at h
        · split at h
          · cases h
          · next hkey =>
            cases h
            exact hset _ (untouched_ensureSessionKey hkey) hc
        · cases h
          exact hset _ (.refl _) hc

/-! ### Another label after an exchange -/

def sampleUpdate (classification : String) : Action :=
  .updateSecurity "alice" "session" ⟨"confidential", classification⟩ none none

def relabelledStore (classification : String) : Store :=
  ((stepStore sampleSettings sampleDigest sampleStore (sampleUpdate classification)).getD
    sampleStore)

theorem sampleStore_facts : sampleConversation ∈ sampleStore.relay.sessions.rows ∧
    (∃ m ∈ sampleStore.messages.rows, m.sessionId = sampleConversation.id) ∧
    (∃ c ∈ (relabelledStore "confidential").relay.sessions.rows, c.id = sampleConversation.id ∧
      classRank c < classRank sampleConversation) ∧
    ∀ c ∈ sampleStore.relay.sessions.rows, classRank c ≤ 3 := by
  decide +kernel

theorem step_relabelledStore (classification : String) :
    (storeSystem sampleSettings sampleDigest).step sampleStore (sampleUpdate classification)
      (relabelledStore classification) := by
  show stepStore _ _ _ _ = some _
  rfl

theorem policy_frozen_fails :
    ¬ ∀ (cfg : Settings) (digest : ReplayPayload → String) (s t : Store) (as : List Action),
      (storeSystem cfg digest).Reachable s → (storeSystem cfg digest).Run s as t →
      ∀ c ∈ s.relay.sessions.rows, HasData s c.id → ∀ c' ∈ t.relay.sessions.rows, c'.id = c.id →
        c'.securityMode = c.securityMode ∧ classRank c ≤ classRank c' := by
  intro hclaim
  obtain ⟨hmem, hdata, ⟨c', hc', hid, hlower⟩, -⟩ := sampleStore_facts
  have hkept := hclaim sampleSettings sampleDigest sampleStore (relabelledStore "confidential")
    [sampleUpdate "confidential"] reachable_sampleStore (System.Run.single (step_relabelledStore _))
    sampleConversation hmem (.inl hdata) c' hc' hid
  omega

theorem policy_frozen_sample : ∃ c ∈ (relabelledStore "highly_confidential").relay.sessions.rows,
    c.id = "session" ∧ classRank sampleConversation ≤ classRank c := by
  have hsome : ∃ c ∈ (relabelledStore "highly_confidential").relay.sessions.rows,
      c.id = "session" := by decide +kernel
  obtain ⟨c, hc, hid⟩ := hsome
  obtain ⟨hmem, hdata, -, hranks⟩ := sampleStore_facts
  have hvalid : PolicyPayload.validate ⟨"confidential", "highly_confidential"⟩ =
      .ok (.confidential, .highlyConfidential) := by decide +kernel
  have hrun : ((storeSystem sampleSettings sampleDigest).restrict NoDowngrade).Run sampleStore
      [sampleUpdate "highly_confidential"] (relabelledStore "highly_confidential") := by
    apply System.Run.single
    refine ⟨step_relabelledStore _, ?_⟩
    intro mode d hnamed b hb _ _
    rw [hvalid] at hnamed
    cases hnamed
    exact hranks b hb
  exact ⟨c, hc, hid, (policy_frozen reachable_sampleStore hmem (.inl hdata) hc hid).2 hrun⟩

end Scap.Sessions
