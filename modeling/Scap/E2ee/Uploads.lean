import Scap.E2ee.Envelopes

/-!
# Repeated uploads

An upload is stored at most once, whatever happens between its attempts (`stored_once`), and once it
is stored a repetition is answered as a duplicate exactly when it still passes every check that
stands before the insertion (`acknowledges_iff`).
-/

namespace Scap.E2ee

open Scap.Lib

variable {cfg : Settings} {digest : ReplayPayload → String} {s t : Relay} {a : Action}

/-! ## Stored at most once -/

/-- The conversation and the replay key tell uploads apart. -/
def E2eeEnvelope.uploadKey (e : E2eeEnvelope) : String × String := (e.sessionId, e.replayKey)

/-- What was stored is there as long as its conversation is, which never comes back. -/
structure StoredInv (s : Relay) : Prop where
  once : (s.stored.map (·.uploadKey)).Nodup
  drawn : ∀ e ∈ s.stored, e.sessionId ∈ s.drawn
  kept : ∀ e ∈ s.stored, e ∈ s.envelopes.rows ∨ ∀ row ∈ s.sessions.rows, row.id ≠ e.sessionId

/-- A change that stores nothing and leaves the envelopes of the conversations it leaves. -/
theorem StoredInv.of_rows (hs : StoredInv s) (hstored : t.stored = s.stored)
    (hdrawn : s.drawn ⊆ t.drawn)
    (hrows : ∀ e ∈ s.envelopes.rows, e ∈ t.envelopes.rows ∨
      ∀ row ∈ t.sessions.rows, row.id ≠ e.sessionId)
    (hids : ∀ row ∈ t.sessions.rows, row.id ∉ s.drawn ∨ ∃ b ∈ s.sessions.rows, b.id = row.id) :
    StoredInv t := by
  refine ⟨hstored ▸ hs.once, ?_, ?_⟩
  · intro e he
    rw [hstored] at he
    exact hdrawn (hs.drawn e he)
  · intro e he
    rw [hstored] at he
    rcases hs.kept e he with hmem | hgone
    · exact hrows e hmem
    · refine .inr fun row hrow hsession => ?_
      rcases hids row hrow with hnew | ⟨b, hb, hid⟩
      · exact hnew (hsession ▸ hs.drawn e he)
      · exact hgone b hb (hid.trans hsession)

theorem storedInv_effect (hs : StoredInv s) (h : Effect a s t) : StoredInv t := by
  have hkeep : ∀ e ∈ s.envelopes.rows, e ∈ s.envelopes.rows ∨
      ∀ row ∈ t.sessions.rows, row.id ≠ e.sessionId := fun e he => .inl he
  have hsame : ∀ row ∈ s.sessions.rows, row.id ∉ s.drawn ∨ ∃ b ∈ s.sessions.rows, b.id = row.id :=
    fun row hrow => .inr ⟨row, hrow, rfl⟩
  have hmapped : ∀ f : ChatSession → ChatSession, (∀ c, (f c).id = c.id) →
      ∀ row ∈ s.sessions.rows.map f, row.id ∉ s.drawn ∨ ∃ b ∈ s.sessions.rows, b.id = row.id := by
    intro f hf row hrow
    obtain ⟨b, hb, rfl⟩ := List.mem_map.mp hrow
    exact .inr ⟨b, hb, (hf b).symm⟩
  have hdrawn := (later_effect h).drawn
  cases h with
  | createSession userId classification refusal row hfresh ha =>
      refine hs.of_rows rfl hdrawn hkeep fun row' hrow' => ?_
      rcases KeyedTable.mem_insertNew_or hrow' with rfl | hold
      · exact .inl hfresh
      · exact hsame row' hold
  | dropSession sessionId =>
      refine hs.of_rows rfl hdrawn (fun e he => ?_)
        fun row hrow => hsame row (KeyedTable.mem_filter.mp hrow).1
      by_cases hid : e.sessionId = sessionId
      · refine .inr fun row hrow hrowid => ?_
        have hne := (KeyedTable.mem_filter.mp hrow).2
        simp [hrowid, hid] at hne
      · exact .inl (KeyedTable.mem_filter.mpr ⟨he, by simpa using hid⟩)
  | switchMode row mode classification hasMessages refusal hrow hempty ha =>
      unfold switchMode at hkeep hdrawn ⊢
      split
      · exact hs
      · rw [if_neg ‹_›] at hkeep hdrawn
        exact hs.of_rows rfl hdrawn hkeep (hmapped _ fun c => by split <;> rfl)
  | relabel row classification deadline =>
      exact hs.of_rows rfl hdrawn hkeep (hmapped _ fun c => by split <;> rfl)
  | beginMembership ownerId refusal row target hrow htarget hinactive ha =>
      exact hs.of_rows rfl hdrawn hkeep (hmapped _ fun c => by split <;> rfl)
  | endMembership row userId hrow =>
      exact hs.of_rows rfl hdrawn hkeep (hmapped _ fun c => by split <;> rfl)
  | advanceEpoch sessionId =>
      exact hs.of_rows rfl hdrawn hkeep (hmapped _ fun c => by split <;> rfl)
  | _ => exact hs.of_rows rfl hdrawn hkeep hsame

theorem storedInv_effects (hs : StoredInv s) (h : Effects a s t) : StoredInv t := by
  induction h with
  | refl => exact hs
  | tail _ hlast ih => exact storedInv_effect ih hlast

/-- The row of a new upload is told apart from all rows before it. -/
theorem storedInv_storeEnvelope (hs : StoredInv s) (hids : DrawnInv s) {e : E2eeEnvelope}
    (hunder : StoredUnder s e) (hfresh : ∀ x ∈ s.envelopes.rows, x.cursor ≠ e.cursor)
    (hreplay : ∀ x ∈ s.envelopes.rows, x.replayKey ≠ e.replayKey) :
    StoredInv (storeEnvelope s e) := by
  obtain ⟨row, hrow, hid, -⟩ := hunder.session
  have hnew : e.uploadKey ∉ s.stored.map (·.uploadKey) := by
    intro hmem
    obtain ⟨x, hx, hkey⟩ := List.mem_map.mp hmem
    obtain ⟨hsession, hsame⟩ := Prod.mk.inj hkey
    rcases hs.kept x hx with hkept | hgone
    · exact hreplay x hkept hsame
    · exact hgone row hrow (hid.trans hsession.symm)
  constructor
  · show ((s.stored ++ [e]).map (·.uploadKey)).Nodup
    rw [List.map_append, List.nodup_append]
    refine ⟨hs.once, List.nodup_singleton _, ?_⟩
    rintro k hk k' hk' rfl
    rw [List.map_singleton, List.mem_singleton] at hk'
    exact hnew (hk' ▸ hk)
  · intro x hx
    rcases List.mem_append.mp hx with hx | hx
    · exact List.mem_cons_of_mem _ (hs.drawn x hx)
    · rw [List.mem_singleton.mp hx, ← hid]
      exact List.mem_cons_of_mem _ (hids.sessions row hrow)
  · intro x hx
    rcases List.mem_append.mp hx with hx | hx
    · exact (hs.kept x hx).imp_left KeyedTable.mem_insertNew_of_mem
    · exact .inl ((KeyedTable.mem_insertNew hfresh).mpr (.inl (List.mem_singleton.mp hx)))

theorem storedInv_change (hs : StoredInv s) (hids : DrawnInv s) (hpast : EnvelopeInv s)
    (h : Change a s t) : StoredInv t := by
  cases h with
  | control heffects => exact storedInv_effects hs heffects
  | store userId sessionId p refusal e hunder hfresh hnow hreplay ha =>
      exact storedInv_storeEnvelope hs hids hunder (fresh_cursor hpast hfresh) hreplay
  | sweep heffects prekeyIds =>
      have hcontrol := storedInv_effects hs heffects
      exact ⟨hcontrol.once, hcontrol.drawn, hcontrol.kept⟩
  | _ => exact ⟨hs.once, hs.drawn, hs.kept⟩

theorem storedInv_of_reachable (h : (relaySystem cfg digest).Reachable s) : StoredInv s := by
  refine System.Reachable.induct (I := StoredInv) ?_ ?_ h
  · intro s ⟨clock, hs⟩
    subst hs
    constructor <;> simp [Relay.initial]
  · intro s a t hs hinv hstep
    exact storedInv_change hinv (drawnInv_of_reachable hs) (envelopeInv_of_reachable hs)
      (change_of_step hstep)

/-- Every row that an upload to the conversation with this replay key became. -/
def uploadsOf (s : Relay) (sessionId replayKey : String) : List E2eeEnvelope :=
  s.stored.filter fun e => e.uploadKey = (sessionId, replayKey)

theorem stored_once (hs : StoredInv s) (sessionId replayKey : String) :
    (uploadsOf s sessionId replayKey).length ≤ 1 := by
  have hcount := List.nodup_iff_count_le_one.mp hs.once (sessionId, replayKey)
  rw [List.count, List.countP_map, List.countP_eq_length_filter] at hcount
  simpa only [uploadsOf, Function.comp_def, beq_eq_decide] using hcount

/-! ## A repeated upload -/

/-- The replay key of an upload. -/
def replayKeyOf (digest : ReplayPayload → String) (p : EnvelopeSend) : String :=
  digest (replayPayload p)

/-- An upload has been stored, and what it names is well formed. -/
structure Uploaded (digest : ReplayPayload → String) (s : Relay) (sessionId : String)
    (p : EnvelopeSend) : Prop where
  row : ∃ e ∈ s.stored, e.uploadKey = (sessionId, replayKeyOf digest p) ∧ e.groupEpoch = p.epoch
  valid : ∃ expected, (∀ row : ChatSession, row.id = sessionId →
    expectedRecipient row p = .ok expected) ∧ ∃ o, validateOpaqueEnvelope p expected = .ok o

/-- What the relay checks of a member: the bearer, the account, the conversation and the
membership. -/
structure MemberAdmitted (cfg : Settings) (s : Relay) (userId sessionId : String)
    (refusal : Option HttpError) : Prop where
  bearer : refusal = none
  account : ∃ u, s.users.find? userId = some u ∧ u.isActive = true ∧
    (cfg.highSecurity = true → u.mfaEnabled = true)
  session : ∃ row, s.sessions.find? sessionId = some row ∧ row.securityMode = .privateE2ee ∧
    s.clock < row.retentionExpiresAt
  member : (s.activeMember? sessionId userId).isSome = true

/-- What the relay checks on an upload before it inserts the row, but for the form of the upload:
the member, the sender's device, the epoch, the recipient and the limit of the conversation. -/
structure StillAdmitted (cfg : Settings) (s : Relay) (userId sessionId : String)
    (p : EnvelopeSend) (refusal : Option HttpError) : Prop where
  admitted : MemberAdmitted cfg s userId sessionId refusal
  device : ∃ d, s.trustedDevice? p.senderDeviceId = some d ∧ d.userId = userId
  joined : ∀ m, s.activeMember? sessionId userId = some m → m.joinedEpoch ≤ p.epoch
  current : ∀ row, s.sessions.find? sessionId = some row → p.epoch = row.currentCryptoEpoch
  recipient : ∀ d, p.recipientDeviceId.filter (· ≠ "") = some d →
    ∃ device, s.trustedDevice? d = some device ∧
      (s.activeMember? sessionId device.userId).isSome = true
  room : s.envelopes.rows.countP (fun e => e.sessionId = sessionId) < cfg.maxMessagesPerSession

/-- The answers on which a client clears the upload: 201, or the verdict on duplicates. -/
def acknowledges : Reply E2eeEnvelope → Bool
  | .ok _ => true
  | .error e => e = replayed

theorem expectedRecipient_congr {row row' : ChatSession} (h : row.id = row'.id)
    (p : EnvelopeSend) : expectedRecipient row p = expectedRecipient row' p := by
  unfold expectedRecipient
  rw [h]

section
variable {userId sessionId : String} {p : EnvelopeSend} {refusal : Option HttpError}

theorem uploaded_storeEnvelope {row : ChatSession} {member : ConversationMember}
    {o : OpaqueEnvelope} (id : String)
    (h : Accepted cfg digest s userId sessionId p refusal row member o) :
    Uploaded digest (storeEnvelope s (envelopeRow digest s userId row p o id)) sessionId p := by
  obtain ⟨-, -, -, hrow, -⟩ := requirePrivateMemberSession_ok h.admitted
  obtain ⟨-, hid⟩ := KeyedTable.find?_eq_some hrow
  obtain ⟨-, -, -, ⟨expected, hexpected, hvalid⟩, -⟩ := checkEnvelope_ok h.checked
  obtain ⟨-, hrecipient, hepoch, hmessage, hdevice⟩ := validateOpaqueEnvelope_ok hvalid
  refine ⟨⟨_, List.mem_append_right _ (List.mem_singleton_self _), ?_, hepoch⟩, expected, ?_, o,
    hvalid⟩
  · simp only [E2eeEnvelope.uploadKey, envelopeRow, replayKeyOf, replayPayload, hid, hrecipient,
      hmessage, hdevice]
  · intro row' hrow'
    rw [expectedRecipient_congr (hrow'.trans hid.symm)]
    exact hexpected

theorem memberAdmitted_iff :
    MemberAdmitted cfg s userId sessionId refusal ↔ ∃ row m,
      requirePrivateMemberSession cfg s userId sessionId refusal = (s, .ok (row, m)) := by
  constructor
  · intro hs
    obtain ⟨u, hu, hactive, hmfa⟩ := hs.account
    obtain ⟨row, hrow, hmode, hretained⟩ := hs.session
    obtain ⟨m, hm⟩ := Option.isSome_iff_exists.mp hs.member
    have hfilter : (s.users.find? userId).filter (fun u => u.isActive) = some u := by
      simp [hu, hactive]
    have hlock : lockRequestMutation s userId refusal = .ok u := by
      unfold lockRequestMutation
      rw [hs.bearer, hfilter]
    have hnomfa : ¬ (cfg.highSecurity = true ∧ u.mfaEnabled = false) := by
      intro ⟨hhigh, hoff⟩
      rw [hmfa hhigh] at hoff
      cases hoff
    refine ⟨row, m, ?_⟩
    simp only [requirePrivateMemberSession, hlock, hrow, hm, hmode, ne_eq, not_true_eq_false,
      if_false, if_neg (not_le.mpr hretained), if_neg hnomfa]
  · rintro ⟨row, m, hguard⟩
    obtain ⟨-, hbearer, haccount, hrow, hmode, hretained, hm⟩ :=
      requirePrivateMemberSession_ok hguard
    exact ⟨hbearer, haccount, ⟨row, hrow, hmode, hretained⟩, by rw [hm]; rfl⟩

/-- The checks before the insertion, for an upload that is well formed. -/
theorem stillAdmitted_iff (h : Uploaded digest s sessionId p) :
    StillAdmitted cfg s userId sessionId p refusal ↔ ∃ row m o,
      requirePrivateMemberSession cfg s userId sessionId refusal = (s, .ok (row, m)) ∧
        checkEnvelope cfg s userId row m p = .ok o := by
  constructor
  · intro hs
    obtain ⟨row, m, hguard⟩ := memberAdmitted_iff.mp hs.admitted
    obtain ⟨-, -, -, hrow, -, -, hm⟩ := requirePrivateMemberSession_ok hguard
    obtain ⟨d, hd, howner⟩ := hs.device
    obtain ⟨expected, hexpected, o, hvalid⟩ := h.valid
    have hid := (KeyedTable.find?_eq_some hrow).2
    -- each check of the route, from the condition that stands for it
    have hallowed : recipientAllowed s row p = true := by
      unfold recipientAllowed
      rw [hid]
      cases hto : p.recipientDeviceId.filter (· ≠ "") with
      | none => rfl
      | some d =>
          obtain ⟨device, hdevice, hmember⟩ := hs.recipient d hto
          simp [hdevice, hmember]
    have hsender : (s.trustedDevice? p.senderDeviceId).filter (fun d => d.userId = userId) =
        some d := by
      simp [hd, howner]
    have hcurrent : ¬ (p.epoch < m.joinedEpoch ∨ p.epoch ≠ row.currentCryptoEpoch) := by
      rintro (hlt | hne)
      · have hjoined := hs.joined m hm
        omega
      · exact hne (hs.current row hrow)
    have hroom : ¬ cfg.maxMessagesPerSession ≤
        s.envelopes.rows.countP (fun e => e.sessionId = row.id) := by
      rw [hid]
      exact not_le.mpr hs.room
    refine ⟨row, m, o, hguard, ?_⟩
    simp only [checkEnvelope, hsender, if_neg hcurrent, hexpected row hid, hallowed,
      Bool.true_eq_false, if_false, hvalid, if_neg hroom]
  · rintro ⟨row, m, o, hguard, hcheck⟩
    obtain ⟨-, -, -, hrow, -, -, hm⟩ := requirePrivateMemberSession_ok hguard
    obtain ⟨hdevice, hjoined, hepoch, -, hallowed, hroom⟩ := checkEnvelope_ok hcheck
    have hid := (KeyedTable.find?_eq_some hrow).2
    rw [hid] at hroom
    refine ⟨memberAdmitted_iff.mpr ⟨row, m, hguard⟩, hdevice, ?_, ?_, ?_, hroom⟩
    · intro m' hm'
      rwa [Option.some.inj (hm'.symm.trans hm)]
    · intro row' hrow'
      rwa [Option.some.inj (hrow'.symm.trans hrow)]
    · intro d hto
      unfold recipientAllowed at hallowed
      rw [hto, hid, Option.all_some] at hallowed
      cases hdevice : s.trustedDevice? d with
      | none =>
          rw [hdevice] at hallowed
          cases hallowed
      | some device =>
          rw [hdevice] at hallowed
          exact ⟨device, rfl, hallowed⟩

theorem lockRequestMutation_error {e : HttpError}
    (h : lockRequestMutation s userId refusal = .error e) : refusal = some e ∨ e.status = 401 := by
  unfold lockRequestMutation at h
  split at h
  · exact .inl (by rw [Except.error.inj h])
  · exact .inr (by rw [← Except.error.inj h])
  · cases h

theorem expectedRecipient_error {row : ChatSession} {e : HttpError}
    (h : expectedRecipient row p = .error e) : e.status = 422 := by
  revert h
  unfold expectedRecipient
  dsimp only
  repeat' split
  all_goals rintro ⟨⟩
  all_goals rfl

/-- No refusal before the insertion looks like the verdict on duplicates. -/
theorem requirePrivateMemberSession_ne_replayed {e : HttpError}
    (h : requirePrivateMemberSession cfg s userId sessionId refusal = (t, .error e))
    (hrefusal : refusal ≠ some replayed) : e ≠ replayed := by
  rintro rfl
  have hsnd := congrArg Prod.snd h
  revert hsnd
  unfold requirePrivateMemberSession
  split
  · next e hlock =>
    intro herror
    obtain rfl := Except.error.inj herror
    rcases lockRequestMutation_error hlock with hsame | hstatus
    · exact hrefusal hsame
    · simp [replayed] at hstatus
  · repeat' split
    all_goals simp [replayed, e2eeSessionNotFound, sessionNotFound]

theorem checkEnvelope_ne_replayed {row : ChatSession} {m : ConversationMember} {e : HttpError}
    (h : checkEnvelope cfg s userId row m p = .error e) : e ≠ replayed := by
  rintro rfl
  revert h
  unfold checkEnvelope
  split
  · simp [replayed]
  · split
    · simp [replayed, epochNotCurrent]
    · split
      · next e hexpected =>
        intro herror
        have hstatus := expectedRecipient_error hexpected
        rw [Except.error.inj herror] at hstatus
        simp [replayed] at hstatus
      · repeat' split
        all_goals simp [replayed, recipientNotFound, quotaReached]

/-- **A stored upload that is repeated is acknowledged exactly if it still passes the checks.** -/
theorem acknowledges_iff (id : String) (h : Uploaded digest s sessionId p)
    (hrefusal : refusal ≠ some replayed) :
    acknowledges (sendE2eeEnvelope cfg digest s userId sessionId p refusal id).2 = true ↔
      StillAdmitted cfg s userId sessionId p refusal := by
  rw [stillAdmitted_iff h]
  unfold sendE2eeEnvelope
  split
  · next t e hguard =>
    have hne := requirePrivateMemberSession_ne_replayed hguard hrefusal
    apply iff_of_false
    · simpa [acknowledges] using hne
    · rintro ⟨row, m, o, hok, -⟩
      rw [hguard] at hok
      cases hok
  · next t row m hguard =>
    obtain ⟨rfl, -⟩ := requirePrivateMemberSession_ok hguard
    split
    · next e hcheck =>
      have hne := checkEnvelope_ne_replayed hcheck
      apply iff_of_false
      · simpa [acknowledges] using hne
      · rintro ⟨row', m', o, hok, hcheck'⟩
        rw [hguard] at hok
        obtain ⟨rfl, rfl⟩ := Prod.mk.inj (Except.ok.inj (Prod.mk.inj hok).2)
        rw [hcheck] at hcheck'
        cases hcheck'
    · next o hcheck =>
      apply iff_of_true
      · dsimp only
        split <;> simp [acknowledges]
      · exact ⟨row, m, o, hguard, hcheck⟩

/-- A stored upload is never stored again. -/
theorem not_accepted_of_uploaded (hs : StoredInv s) (h : Uploaded digest s sessionId p)
    {row : ChatSession} {m : ConversationMember} {o : OpaqueEnvelope} :
    ¬ Accepted cfg digest s userId sessionId p refusal row m o := by
  intro haccepted
  obtain ⟨-, -, -, hrow, -⟩ := requirePrivateMemberSession_ok haccepted.admitted
  obtain ⟨hmem, hid⟩ := KeyedTable.find?_eq_some hrow
  obtain ⟨-, -, -, ⟨expected, -, hvalid⟩, -⟩ := checkEnvelope_ok haccepted.checked
  obtain ⟨-, hrecipient, -, hmessage, hdevice⟩ := validateOpaqueEnvelope_ok hvalid
  obtain ⟨e, he, hkey, -⟩ := h.row
  obtain ⟨hsession, hreplay⟩ := Prod.mk.inj hkey
  rcases hs.kept e he with hkept | hgone
  · apply haccepted.unused e hkept
    rw [hreplay, hrecipient, hmessage, hdevice]
    rfl
  · exact hgone row hmem (hid.trans hsession.symm)

end

/-! ## Stored for good -/

theorem stored_effects (h : Effects a s t) : t.stored = s.stored := by
  induction h with
  | refl => rfl
  | tail _ hlast ih =>
      rw [← ih]
      cases hlast with
      | switchMode row mode classification hasMessages refusal hrow hempty ha =>
          unfold switchMode
          split <;> rfl
      | _ => rfl

theorem stored_change (h : Change a s t) : s.stored ⊆ t.stored := by
  cases h with
  | control heffects => exact (stored_effects heffects) ▸ List.Subset.refl _
  | store userId sessionId p refusal e hunder hfresh hnow hreplay ha =>
      exact List.subset_append_left _ _
  | sweep heffects prekeyIds => exact (stored_effects heffects) ▸ List.Subset.refl _
  | _ => exact List.Subset.refl _

theorem Uploaded.change {sessionId : String} {p : EnvelopeSend} (h : Uploaded digest s sessionId p)
    (hchange : Change a s t) : Uploaded digest t sessionId p := by
  obtain ⟨e, he, hkey⟩ := h.row
  exact ⟨⟨e, stored_change hchange he, hkey⟩, h.valid⟩

/-- No envelope is from a later epoch than the one its conversation is in. -/
structure EpochInv (s : Relay) : Prop where
  drawn : ∀ e ∈ s.envelopes.rows, e.sessionId ∈ s.drawn
  past : ∀ e ∈ s.envelopes.rows, ∀ row ∈ s.sessions.rows, row.id = e.sessionId →
    e.groupEpoch ≤ row.currentCryptoEpoch

theorem epochInv_effect (hs : EpochInv s) (h : Effect a s t) : EpochInv t := by
  have hdrawn : ∀ e ∈ t.envelopes.rows, e.sessionId ∈ t.drawn :=
    fun e he => (later_effect h).drawn (hs.drawn e (envelopes_effect h he))
  refine ⟨hdrawn, ?_⟩
  have hmapped : ∀ f : ChatSession → ChatSession, (∀ c, (f c).id = c.id) →
      (∀ c, c.currentCryptoEpoch ≤ (f c).currentCryptoEpoch) → ∀ e ∈ s.envelopes.rows,
      ∀ row ∈ s.sessions.rows.map f, row.id = e.sessionId →
        e.groupEpoch ≤ row.currentCryptoEpoch := by
    intro f hid hle e he row hrow hsession
    obtain ⟨c, hc, rfl⟩ := List.mem_map.mp hrow
    exact (hs.past e he c hc ((hid c).symm.trans hsession)).trans (hle c)
  cases h with
  | createSession userId classification refusal row hfresh ha =>
      intro e he row' hrow' hsession
      rcases KeyedTable.mem_insertNew_or hrow' with rfl | hold
      · exact absurd (hsession ▸ hs.drawn e he) hfresh
      · exact hs.past e he row' hold hsession
  | dropSession sessionId =>
      intro e he row hrow hsession
      exact hs.past e (KeyedTable.mem_filter.mp he).1 row (KeyedTable.mem_filter.mp hrow).1 hsession
  | switchMode row mode classification hasMessages refusal hrow hempty ha =>
      unfold switchMode
      split
      · exact hs.past
      · next hmode =>
        intro e he row' hrow' hsession
        obtain ⟨c, hc, rfl⟩ := List.mem_map.mp hrow'
        have hne : c.id ≠ row.id := by
          intro hid
          rw [if_pos hid] at hsession
          exact hempty hmode e he (hsession.symm.trans hid)
        rw [if_neg hne] at hsession ⊢
        exact hs.past e he c hc hsession
  | relabel row classification deadline =>
      refine hmapped _ (fun c => ?_) fun c => ?_ <;> split <;> rfl
  | beginMembership ownerId refusal row target hrow htarget hinactive ha =>
      refine hmapped _ (fun c => ?_) fun c => ?_
      · split <;> rfl
      · split <;> simp
  | endMembership row userId hrow =>
      refine hmapped _ (fun c => ?_) fun c => ?_
      · split <;> rfl
      · split <;> simp
  | advanceEpoch sessionId =>
      refine hmapped _ (fun c => ?_) fun c => ?_
      · split <;> rfl
      · split <;> simp
  | _ => exact hs.past

theorem epochInv_effects (hs : EpochInv s) (h : Effects a s t) : EpochInv t := by
  induction h with
  | refl => exact hs
  | tail _ hlast ih => exact epochInv_effect ih hlast

theorem epochInv_change (hs : EpochInv s) (hids : DrawnInv s) (h : Change a s t) :
    EpochInv t := by
  cases h with
  | control heffects => exact epochInv_effects hs heffects
  | store userId sessionId p refusal new hunder hfresh hnow hreplay ha =>
      obtain ⟨row, hrow, hid, -, hepoch⟩ := hunder.session
      constructor
      · intro e he
        rcases KeyedTable.mem_insertNew_or he with rfl | he
        · exact List.mem_cons_of_mem _ (hid ▸ hids.sessions row hrow)
        · exact List.mem_cons_of_mem _ (hs.drawn e he)
      · intro e he row' hrow' hsession
        rcases KeyedTable.mem_insertNew_or he with rfl | he
        · rw [KeyedTable.eq_of_key hrow' hrow (hsession.trans hid.symm), hepoch]
        · exact hs.past e he row' hrow' hsession
  | sweep heffects prekeyIds =>
      have hcontrol := epochInv_effects hs heffects
      exact ⟨hcontrol.drawn, hcontrol.past⟩
  | _ => exact ⟨hs.drawn, hs.past⟩

theorem epochInv_of_reachable (h : (relaySystem cfg digest).Reachable s) : EpochInv s := by
  refine System.Reachable.induct (I := EpochInv) ?_ ?_ h
  · intro s ⟨clock, hs⟩
    subst hs
    constructor <;> simp [Relay.initial]
  · intro s a t hs hinv hstep
    exact epochInv_change hinv (drawnInv_of_reachable hs) (change_of_step hstep)

/-- The conversation of a stored upload has not gone back to an earlier epoch. -/
theorem epoch_le_of_uploaded (hs : StoredInv s) (hepoch : EpochInv s) {sessionId : String}
    {p : EnvelopeSend} (h : Uploaded digest s sessionId p) {row : ChatSession}
    (hrow : row ∈ s.sessions.rows) (hid : row.id = sessionId) :
    p.epoch ≤ row.currentCryptoEpoch := by
  obtain ⟨e, he, hkey, hsame⟩ := h.row
  have hsession : row.id = e.sessionId := hid.trans (Prod.mk.inj hkey).1.symm
  rcases hs.kept e he with hkept | hgone
  · rw [← hsame]
    exact hepoch.past e hkept row hrow hsession
  · exact absurd hsession (hgone row hrow)

end Scap.E2ee
