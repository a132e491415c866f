import Scap.E2ee.Envelopes
import Scap.Sessions.Store

/-!
# What the relay leaves of a conversation's policy

`Kept s t` is what every route of the relay but the two policy routes does to conversations: they
may disappear, with their members and envelopes, but those that stay keep their mode and their
label, and only private ones get members and envelopes.
-/

namespace Scap.Sessions

open Scap.Lib Scap.E2ee

variable {cfg : Settings} {digest : ReplayPayload → String} {s t u : Relay}

/-- No mode changes, and no relay data comes to other modes. -/
structure Kept (s t : Relay) : Prop where
  sessions : ∀ c ∈ t.sessions.rows, ∃ b ∈ s.sessions.rows, b.id = c.id ∧
    b.securityMode = c.securityMode ∧ b.dataClassification = c.dataClassification
  members : ∀ m ∈ t.members.rows, (∃ n ∈ s.members.rows, n.sessionId = m.sessionId) ∨
    ∃ b ∈ s.sessions.rows, b.id = m.sessionId ∧ b.securityMode = .privateE2ee
  envelopes : ∀ e ∈ t.envelopes.rows, e ∈ s.envelopes.rows ∨
    ∃ b ∈ s.sessions.rows, b.id = e.sessionId ∧ b.securityMode = .privateE2ee
  held : ∀ e ∈ s.envelopes.rows, (∃ c ∈ t.sessions.rows, c.id = e.sessionId) →
    e ∈ t.envelopes.rows

theorem Kept.refl (s : Relay) : Kept s s where
  sessions c hc := ⟨c, hc, rfl, rfl, rfl⟩
  members m hm := .inl ⟨m, hm, rfl⟩
  envelopes _ he := .inl he
  held _ he _ := he

theorem Kept.trans (h : Kept s t) (h' : Kept t u) : Kept s u where
  sessions := by
    intro c hc
    obtain ⟨b, hb, hid, hmode, hlabel⟩ := h'.sessions c hc
    obtain ⟨a, ha, hid', hmode', hlabel'⟩ := h.sessions b hb
    exact ⟨a, ha, hid'.trans hid, hmode'.trans hmode, hlabel'.trans hlabel⟩
  members := by
    intro m hm
    rcases h'.members m hm with ⟨n, hn, hsame⟩ | ⟨b, hb, hid, hmode⟩
    · rw [← hsame]
      exact h.members n hn
    · obtain ⟨a, ha, hid', hmode', -⟩ := h.sessions b hb
      exact .inr ⟨a, ha, hid'.trans hid, hmode'.trans hmode⟩
  envelopes := by
    intro e he
    rcases h'.envelopes e he with he | ⟨b, hb, hid, hmode⟩
    · exact h.envelopes e he
    · obtain ⟨a, ha, hid', hmode', -⟩ := h.sessions b hb
      exact .inr ⟨a, ha, hid'.trans hid, hmode'.trans hmode⟩
  held := by
    intro e he hstays
    obtain ⟨c, hc, hid⟩ := hstays
    obtain ⟨b, hb, hid', -⟩ := h'.sessions c hc
    exact h'.held e (h.held e he ⟨b, hb, hid'.trans hid⟩) ⟨c, hc, hid⟩

/-- Where no conversation changes but for its epoch and no member row appears. -/
theorem Kept.of_rows (f : ChatSession → ChatSession)
    (hf : ∀ c, (f c).id = c.id ∧ (f c).securityMode = c.securityMode ∧
      (f c).dataClassification = c.dataClassification)
    (hsessions : t.sessions.rows = s.sessions.rows.map f)
    (hmembers : ∀ m ∈ t.members.rows, ∃ n ∈ s.members.rows, n.sessionId = m.sessionId)
    (henvelopes : t.envelopes = s.envelopes) : Kept s t where
  sessions := by
    intro c hc
    rw [hsessions] at hc
    obtain ⟨b, hb, rfl⟩ := List.mem_map.mp hc
    obtain ⟨hid, hmode, hlabel⟩ := hf b
    exact ⟨b, hb, hid.symm, hmode.symm, hlabel.symm⟩
  members m hm := .inl (hmembers m hm)
  envelopes _ he := .inl (henvelopes ▸ he)
  held _ he _ := henvelopes ▸ he

/-- Where the three tables stay as they are. -/
theorem Kept.of_eq (hsessions : t.sessions = s.sessions) (hmembers : t.members = s.members)
    (henvelopes : t.envelopes = s.envelopes) : Kept s t := by
  apply Kept.of_rows id (fun c => ⟨rfl, rfl, rfl⟩)
  · rw [hsessions, List.map_id]
  · intro m hm
    exact ⟨m, hmembers ▸ hm, rfl⟩
  · exact henvelopes

/-! ## The parts of a route -/

theorem kept_dropSession (s : Relay) (id : String) : Kept s (dropSession s id) where
  sessions c hc := ⟨c, (KeyedTable.mem_filter.mp hc).1, rfl, rfl, rfl⟩
  members m hm := .inl ⟨m, (KeyedTable.mem_filter.mp hm).1, rfl⟩
  envelopes _ he := .inl (KeyedTable.mem_filter.mp he).1
  held := by
    intro e he ⟨c, hc, hid⟩
    have hother := (KeyedTable.mem_filter.mp hc).2
    apply KeyedTable.mem_filter.mpr
    exact ⟨he, hid ▸ hother⟩

theorem kept_advanceEpoch (s : Relay) (id : String) : Kept s (advanceEpoch s id) := by
  refine Kept.of_rows (fun c => if c.id = id then
    { c with currentCryptoEpoch := c.currentCryptoEpoch + 1 } else c) (fun c => ?_) rfl ?_ rfl
  · split <;> exact ⟨rfl, rfl, rfl⟩
  · intro m hm
    exact ⟨m, hm, rfl⟩

theorem kept_endMembership (s : Relay) (row : ChatSession) (userId : String) :
    Kept s (endMembership s row userId) := by
  apply (kept_advanceEpoch s row.id).trans
  apply Kept.of_rows id (fun c => ⟨rfl, rfl, rfl⟩)
  · exact (List.map_id _).symm
  · intro m hm
    obtain ⟨n, hn, rfl⟩ := List.mem_map.mp hm
    exact ⟨n, hn, by split <;> rfl⟩
  · rfl

theorem kept_beginMembership {row : ChatSession} (userId : String) (hrow : row ∈ s.sessions.rows)
    (hmode : row.securityMode = .privateE2ee) : Kept s (beginMembership s row userId) := by
  have hadvanced := kept_advanceEpoch s row.id
  refine ⟨hadvanced.sessions, ?_, hadvanced.envelopes, hadvanced.held⟩
  intro m hm
  rcases KeyedTable.mem_insertNew_or hm with rfl | hm
  · exact .inr ⟨row, hrow, rfl, hmode⟩
  · obtain ⟨n, hn, rfl⟩ := List.mem_map.mp hm
    exact .inl ⟨n, hn, by split <;> rfl⟩

theorem kept_foldl {ι : Type} {f : Relay → ι → Relay} (h : ∀ s i, Kept s (f s i)) (is : List ι)
    (s : Relay) : Kept s (is.foldl f s) := by
  induction is generalizing s with
  | nil => exact .refl s
  | cons i is ih => exact (h s i).trans (ih (f s i))

theorem kept_requireOwnedSession {userId sessionId : String} {refusal : Option HttpError} :
    Kept s (requireOwnedSession cfg s userId sessionId refusal).1 := by
  unfold requireOwnedSession
  repeat' split
  all_goals first
    | exact .refl s
    | exact kept_dropSession s _

theorem kept_requirePrivateMemberSession {userId sessionId : String}
    {refusal : Option HttpError} :
    Kept s (requirePrivateMemberSession cfg s userId sessionId refusal).1 := by
  rcases requirePrivateMemberSession_fst cfg s userId sessionId refusal with h | ⟨id, h⟩
  · rw [h]
    exact .refl s
  · rw [h]
    exact kept_dropSession s id

/-- A conversation whose membership is being looked at ends or moves on. -/
theorem kept_ifStillActive {act : Relay → ChatSession → Relay}
    (h : ∀ s row, Kept s (act s row)) (userId sessionId : String) :
    Kept s (ifStillActive act userId s sessionId) := by
  unfold ifStillActive
  split
  · split
    · exact h s _
    · exact .refl s
  · exact .refl s

theorem kept_revokeActiveE2eeMemberships (s : Relay) (userId : String) :
    Kept s (revokeActiveE2eeMemberships s userId) := by
  apply kept_foldl
  intro s id
  exact kept_ifStillActive (fun s row => kept_endMembership s row userId) userId id

theorem kept_advanceActiveEpochs (s : Relay) (userId : String) :
    Kept s (advanceActiveEpochs s userId) := by
  apply kept_foldl
  intro s id
  exact kept_ifStillActive (fun s row => kept_advanceEpoch s row.id) userId id

/-! ## Route by route -/

theorem kept_updateUserStatus {targetId : String} {isActive : Bool} {refusal : Option HttpError} :
    Kept s (updateUserStatus s targetId isActive refusal).1 := by
  unfold updateUserStatus
  split
  · exact .refl s
  · cases isActive with
    | true => exact .of_eq rfl rfl rfl
    | false =>
        exact (kept_revokeActiveE2eeMemberships s targetId).trans (.of_eq rfl rfl rfl)

theorem kept_deleteSession {userId sessionId : String} {refusal : Option HttpError} :
    Kept s (deleteSession cfg s userId sessionId refusal).1 := by
  have howned : Kept s (requireOwnedSession cfg s userId sessionId refusal).1 :=
    kept_requireOwnedSession
  unfold deleteSession
  split
  · next h => rwa [h] at howned
  · next h =>
    rw [h] at howned
    exact howned.trans (kept_dropSession _ _)

theorem kept_addE2eeMember {ownerId sessionId username : String} {refusal : Option HttpError} :
    Kept s (addE2eeMember cfg s ownerId sessionId username refusal).1 := by
  have howned : Kept s (requireOwnedSession cfg s ownerId sessionId refusal).1 :=
    kept_requireOwnedSession
  unfold addE2eeMember
  split
  · exact .refl s
  · next target _ =>
    split
    · next h => rwa [h] at howned
    · next row h =>
      obtain ⟨rfl, hrow, -⟩ := requireOwnedSession_ok h
      by_cases hmode : row.securityMode = .privateE2ee
      · rw [if_neg (not_not.mpr hmode)]
        split
        · exact .refl s
        · exact kept_beginMembership target.id hrow hmode
      · rw [if_pos hmode]
        exact .refl s

theorem kept_removeE2eeMember {ownerId sessionId username : String} {refusal : Option HttpError} :
    Kept s (removeE2eeMember cfg s ownerId sessionId username refusal).1 := by
  have howned : Kept s (requireOwnedSession cfg s ownerId sessionId refusal).1 :=
    kept_requireOwnedSession
  unfold removeE2eeMember
  split
  · next h => rwa [h] at howned
  · next h =>
    rw [h] at howned
    repeat' split
    all_goals first
      | exact howned
      | exact howned.trans (kept_endMembership _ _ _)

theorem kept_registerE2eeDevice {userId deviceId : String} {keys : List String}
    {refusal : Option HttpError} :
    Kept s (registerE2eeDevice s userId deviceId keys refusal).1 := by
  unfold registerE2eeDevice
  repeat' split
  all_goals first
    | exact .refl s
    | exact .of_eq rfl rfl rfl

theorem kept_consumePrekeyBundle {requesterId username : String} {deviceId : Option String}
    {refusal : Option HttpError} {tieDevice tieKey : Nat} :
    Kept s (consumePrekeyBundle s requesterId username deviceId refusal tieDevice tieKey).1 := by
  unfold consumePrekeyBundle
  dsimp only
  repeat' split
  all_goals first
    | exact .refl s
    | exact .of_eq rfl rfl rfl

theorem kept_revokeE2eeDevice {userId deviceId : String} {refusal : Option HttpError} :
    Kept s (revokeE2eeDevice s userId deviceId refusal).1 := by
  unfold revokeE2eeDevice
  dsimp only
  split
  · exact .refl s
  · next user _ =>
    split
    · exact .refl s
    · split
      · exact .refl s
      · apply Kept.trans _ (kept_advanceActiveEpochs _ user.id)
        exact .of_eq rfl rfl rfl

theorem kept_sendE2eeEnvelope {userId sessionId id : String} {p : EnvelopeSend}
    {refusal : Option HttpError} :
    Kept s (sendE2eeEnvelope cfg digest s userId sessionId p refusal id).1 := by
  by_cases h : ∃ row member envelope,
      Accepted cfg digest s userId sessionId p refusal row member envelope
  · obtain ⟨row, member, envelope, haccepted⟩ := h
    obtain ⟨-, -, -, hrow, hmode, -⟩ := requirePrivateMemberSession_ok haccepted.admitted
    rw [sendE2eeEnvelope_of_accepted id haccepted]
    have hsame := Kept.refl s
    refine ⟨hsame.sessions, hsame.members, fun e he => ?_,
      fun e he _ => KeyedTable.mem_insertNew_of_mem he⟩
    rcases KeyedTable.mem_insertNew_or he with rfl | he
    · exact .inr ⟨row, (KeyedTable.find?_eq_some hrow).1, rfl, hmode⟩
    · exact .inl he
  · obtain ⟨e, hrefused⟩ := sendE2eeEnvelope_of_not_accepted id
      fun row member envelope haccepted => h ⟨row, member, envelope, haccepted⟩
    rw [hrefused]
    exact kept_requirePrivateMemberSession

theorem kept_receiveE2eeEnvelopes {userId sessionId deviceId : String} {after : Option Int}
    {afterId : Option String} {limit : Nat} {refusal : Option HttpError} :
    Kept s
      (receiveE2eeEnvelopes cfg s userId sessionId deviceId after afterId limit refusal).1 := by
  have hmember : Kept s (requirePrivateMemberSession cfg s userId sessionId refusal).1 :=
    kept_requirePrivateMemberSession
  unfold receiveE2eeEnvelopes
  split
  · next h => rwa [h] at hmember
  · next h =>
    rw [h] at hmember
    dsimp only
    repeat' split
    all_goals exact hmember

theorem kept_e2eeSessionState {userId sessionId : String} {refusal : Option HttpError} :
    Kept s (e2eeSessionState cfg s userId sessionId refusal).1 := by
  have hmember : Kept s (requirePrivateMemberSession cfg s userId sessionId refusal).1 :=
    kept_requirePrivateMemberSession
  unfold e2eeSessionState
  split
  · next h => rwa [h] at hmember
  · next h => rwa [h] at hmember

/-- **The relay leaves the policy of a conversation to the two routes that set it.** -/
theorem kept_of_step {a : E2ee.Action} (h : (relaySystem cfg digest).step s a t)
    (ha : setsPolicy a = false) : Kept s t := by
  replace h : stepRelay cfg digest s a = some t := h
  cases a with
  | createSession => cases ha
  | updateSecurity => cases ha
  | register id username mfaEnabled =>
      obtain ⟨-, rfl⟩ := of_guarded h
      exact .of_eq rfl rfl rfl
  | send userId sessionId p refusal id =>
      obtain ⟨-, rfl⟩ := of_guarded h
      exact kept_sendE2eeEnvelope
  | tick d => exact Option.some.inj h ▸ .of_eq rfl rfl rfl
  | setMfa userId mfaEnabled => exact Option.some.inj h ▸ .of_eq rfl rfl rfl
  | updateStatus targetId isActive refusal => exact Option.some.inj h ▸ kept_updateUserStatus
  | deleteSession userId sessionId refusal => exact Option.some.inj h ▸ kept_deleteSession
  | addMember ownerId sessionId username refusal => exact Option.some.inj h ▸ kept_addE2eeMember
  | removeMember ownerId sessionId username refusal =>
      exact Option.some.inj h ▸ kept_removeE2eeMember
  | registerDevice userId deviceId keys refusal =>
      exact Option.some.inj h ▸ kept_registerE2eeDevice
  | updatePrekeys userId deviceId keys refusal =>
      obtain rfl := Option.some.inj h
      rcases updateE2eePrekeys_cases s userId deviceId keys refusal with hsame | ⟨new, -, hnew⟩
      · rw [hsame]
        exact .refl s
      · rw [hnew]
        exact .of_eq rfl rfl rfl
  | bundle requesterId username deviceId refusal tieDevice tieKey =>
      exact Option.some.inj h ▸ kept_consumePrekeyBundle
  | revokeDevice userId deviceId refusal => exact Option.some.inj h ▸ kept_revokeE2eeDevice
  | receive userId sessionId deviceId after afterId limit refusal =>
      exact Option.some.inj h ▸ kept_receiveE2eeEnvelopes
  | state userId sessionId refusal => exact Option.some.inj h ▸ kept_e2eeSessionState
  | retention sessionIds prekeyIds =>
      obtain rfl := Option.some.inj h
      exact (kept_foldl (fun s id => kept_dropSession s id) _ s).trans (.of_eq rfl rfl rfl)

end Scap.Sessions
