import Scap.E2ee.Routes

/-!
# What a step of the relay can do

`Effect` lists what happens to accounts, conversations, memberships and devices; an action is a
sequence of these, with loops over conversations among them. `Change` adds the five things that
happen to prekeys and envelopes, one to an action. `change_of_step` reads all of it off the routes
once. Both carry the action as a label where it matters who is added and what is uploaded.
-/

namespace Scap.E2ee

open Scap.Lib

variable {cfg : Settings} {digest : ReplayPayload → String} {s t : Relay} {a : Action}

/-- What holds of the store when an envelope goes into it. -/
structure StoredUnder (s : Relay) (e : E2eeEnvelope) : Prop where
  sender : ∃ u ∈ s.users.rows, u.id = e.senderUserId ∧ u.isActive = true
  device : ∃ d ∈ s.devices.rows,
    d.id = e.senderDeviceId ∧ d.userId = e.senderUserId ∧ d.trusted = true
  session : ∃ row ∈ s.sessions.rows, row.id = e.sessionId ∧ row.securityMode = .privateE2ee ∧
    row.currentCryptoEpoch = e.groupEpoch
  member : ∃ m, s.activeMember? e.sessionId e.senderUserId = some m ∧ m.joinedEpoch ≤ e.groupEpoch

/-- The relay accepts an upload of prekeys as `keys`. -/
structure UploadAccepted (s : Relay) (userId deviceId : String) (raw : List String)
    (refusal : Option HttpError) (keys : List String) : Prop where
  user : ∃ u, lockRequestMutation s userId refusal = .ok u ∧ u.id = userId
  device : ∃ d, s.trustedDevice? deviceId = some d ∧ d.userId = userId
  canonical : canonicalPrekeys raw = .ok keys
  distinct : keys.Nodup
  unused : ∀ p ∈ s.prekeys, p.deviceId = deviceId → p.publicKey ∉ keys
  available : s.prekeys.countP (fun p => p.deviceId = deviceId && p.consumedAt = none) +
    keys.length ≤ 100
  historical : s.prekeys.countP (fun p => p.deviceId = deviceId) + keys.length ≤ 10000

/-- One change of accounts, conversations, memberships or devices under the action `a`. -/
inductive Effect (a : Action) (s : Relay) : Relay → Prop
  | tick (d : Nat) : Effect a s { s with clock := s.clock + d }
  | register (id username : String) (mfaEnabled : Bool) (hfresh : id ∉ s.drawn) :
      Effect a s { s with
        users := s.users.insertNew ⟨id, username, true, mfaEnabled⟩
        drawn := id :: s.drawn }
  | setAccount (f : Account → Account) (hid : ∀ u, (f u).id = u.id)
      (hname : ∀ u, (f u).username = u.username) :
      Effect a s { s with users := s.users.modify f hid }
  | createSession (userId : String) (classification : String) (refusal : Option HttpError)
      (row : ChatSession) (hfresh : row.id ∉ s.drawn)
      (ha : a = .createSession userId row.securityMode classification refusal row.id) :
      Effect a s { s with
        sessions := s.sessions.insertNew row
        members := if row.securityMode = .privateE2ee then
          s.members.insertNew ⟨row.id, userId, 1, none, none⟩ else s.members
        drawn := row.id :: s.drawn }
  | dropSession (sessionId : String) : Effect a s (dropSession s sessionId)
  | switchMode (row : ChatSession) (mode : SecurityMode) (classification : String)
      (hasMessages : Bool) (refusal : Option HttpError) (hrow : row ∈ s.sessions.rows)
      (hempty : row.securityMode ≠ mode → ∀ e ∈ s.envelopes.rows, e.sessionId ≠ row.id)
      (ha : a = .updateSecurity row.ownerId row.id mode classification hasMessages refusal) :
      Effect a s (switchMode s row mode)
  | relabel (row : ChatSession) (classification : String) (deadline : Int) :
      Effect a s (relabel s row classification deadline)
  | beginMembership (ownerId : String) (refusal : Option HttpError) (row : ChatSession)
      (target : Account) (hrow : row ∈ s.sessions.rows)
      (htarget : s.userByName? target.username = some target)
      (hinactive : s.activeMember? row.id target.id = none)
      (ha : a = .addMember ownerId row.id target.username refusal) :
      Effect a s (beginMembership s row target.id)
  | endMembership (row : ChatSession) (userId : String) (hrow : row ∈ s.sessions.rows) :
      Effect a s (endMembership s row userId)
  | advanceEpoch (sessionId : String) : Effect a s (advanceEpoch s sessionId)
  | distrust (deviceId : String) :
      Effect a s { s with
        devices := s.devices.modify
          (fun d => if d.id = deviceId then { d with trusted := false } else d)
          fun d => by split <;> rfl }
  | consume (p : E2eePreKey → Bool) : Effect a s (consumeWhere s p)

/-- Several changes in a row. -/
abbrev Effects (a : Action) : Relay → Relay → Prop := Relation.ReflTransGen (Effect a)

theorem Effect.once (h : Effect a s t) : Effects a s t := Relation.ReflTransGen.single h

/-- What an action amounts to. -/
inductive Change (a : Action) (s : Relay) : Relay → Prop
  | control {t : Relay} (h : Effects a s t) : Change a s t
  | addDevice (device : E2eeDevice) (keys : List String)
      (hnew : s.devices.find? device.id = none) (hkeys : keys.Nodup) :
      Change a s (addPrekeys { s with devices := s.devices.insertNew device } device.id keys)
  | upload (userId deviceId : String) (raw keys : List String) (refusal : Option HttpError)
      (hupload : UploadAccepted s userId deviceId raw refusal keys)
      (ha : a = .updatePrekeys userId deviceId raw refusal) :
      Change a s (addPrekeys s deviceId keys)
  | handOut (candidate : E2eePreKey) (hmem : candidate ∈ s.prekeys)
      (hleft : candidate.consumedAt = none) :
      Change a s { consumeWhere s (fun p => p.id = candidate.id) with
        handedOut := s.handedOut ++ [(candidate.deviceId, candidate.publicKey)] }
  | store (userId sessionId : String) (p : EnvelopeSend) (refusal : Option HttpError)
      (e : E2eeEnvelope) (hunder : StoredUnder s e) (hfresh : e.id ∉ s.drawn)
      (hnow : e.createdAt = s.clock)
      (hreplay : ∀ x ∈ s.envelopes.rows, x.replayKey ≠ e.replayKey)
      (ha : a = .send userId sessionId p refusal e.id) :
      Change a s (storeEnvelope s e)
  | sweep {t : Relay} (h : Effects a s t) (prekeyIds : List Nat) :
      Change a s (sweepPrekeys t prekeyIds)

/-! ## Guards -/

theorem lockRequestMutation_ok {userId : String} {refusal : Option HttpError} {u : Account}
    (h : lockRequestMutation s userId refusal = .ok u) :
    refusal = none ∧ s.users.find? userId = some u ∧ u.isActive = true := by
  unfold lockRequestMutation at h
  split at h
  · cases h
  · cases h
  · next hfind =>
    obtain rfl := Except.ok.inj h
    exact ⟨rfl, Option.filter_eq_some_iff.mp hfind⟩

/-- What `require_private_member_session` guarantees. -/
theorem requirePrivateMemberSession_ok {userId sessionId : String} {refusal : Option HttpError}
    {row : ChatSession} {m : ConversationMember}
    (h : requirePrivateMemberSession cfg s userId sessionId refusal = (t, .ok (row, m))) :
    s = t ∧ refusal = none ∧ (∃ u, s.users.find? userId = some u ∧ u.isActive = true ∧
        (cfg.highSecurity = true → u.mfaEnabled = true)) ∧
      s.sessions.find? sessionId = some row ∧ row.securityMode = .privateE2ee ∧
      s.clock < row.retentionExpiresAt ∧ s.activeMember? sessionId userId = some m := by
  unfold requirePrivateMemberSession at h
  split at h
  · cases h
  · next u hlock =>
    obtain ⟨hrefusal, hfind, hactive⟩ := lockRequestMutation_ok hlock
    split at h
    · cases h
    · next row' hrow =>
      split at h
      · cases h
      · next hmode =>
        split at h
        · cases h
        · next hretained =>
          split at h
          · cases h
          · next m' hmember =>
            split at h
            · cases h
            · next hmfa =>
              obtain ⟨rfl, hok⟩ := Prod.mk.inj h
              obtain ⟨rfl, rfl⟩ := Prod.mk.inj (Except.ok.inj hok)
              refine ⟨rfl, hrefusal, ⟨u, hfind, hactive, fun hhigh => ?_⟩, hrow,
                not_not.mp hmode, not_le.mp hretained, hmember⟩
              simpa [hhigh] using hmfa

/-- What `require_private_member_session` may do to the store when it refuses. -/
theorem requirePrivateMemberSession_error {userId sessionId : String}
    {refusal : Option HttpError} {e : HttpError}
    (h : requirePrivateMemberSession cfg s userId sessionId refusal = (t, .error e)) :
    Effects a s t := by
  have heffects : Effects a s (requirePrivateMemberSession cfg s userId sessionId refusal).1 := by
    unfold requirePrivateMemberSession
    repeat' split
    all_goals first
      | exact .refl
      | exact (Effect.dropSession _).once
  rwa [h] at heffects

theorem requireOwnedSession_ok {userId sessionId : String} {refusal : Option HttpError}
    {row : ChatSession}
    (h : requireOwnedSession cfg s userId sessionId refusal = (t, .ok row)) :
    s = t ∧ row ∈ s.sessions.rows ∧ row.id = sessionId ∧ row.ownerId = userId := by
  unfold requireOwnedSession at h
  split at h
  · cases h
  · next row' hrow =>
    split at h
    · cases h
    · split at h
      · cases h
      · split at h
        · cases h
        · obtain ⟨rfl, hok⟩ := Prod.mk.inj h
          obtain rfl := Except.ok.inj hok
          obtain ⟨hfind, howner⟩ := Option.filter_eq_some_iff.mp hrow
          obtain ⟨hmem, hid⟩ := KeyedTable.find?_eq_some hfind
          exact ⟨rfl, hmem, hid, by simpa using howner⟩

theorem requireOwnedSession_error {userId sessionId : String} {refusal : Option HttpError}
    {e : HttpError} (h : requireOwnedSession cfg s userId sessionId refusal = (t, .error e)) :
    Effects a s t := by
  have heffects : Effects a s (requireOwnedSession cfg s userId sessionId refusal).1 := by
    unfold requireOwnedSession
    repeat' split
    all_goals first
      | exact .refl
      | exact (Effect.dropSession _).once
  rwa [h] at heffects

/-! ## Loops over conversations -/

theorem effects_foldl {ι : Type} {f : Relay → ι → Relay} (h : ∀ s i, Effects a s (f s i))
    (is : List ι) (s : Relay) : Effects a s (is.foldl f s) := by
  induction is generalizing s with
  | nil => exact .refl
  | cons i is ih => exact (h s i).trans (ih (f s i))

theorem effects_revokeActiveE2eeMemberships {userId : String} :
    Effects a s (revokeActiveE2eeMemberships s userId) := by
  apply effects_foldl
  intro s sessionId
  unfold ifStillActive
  split
  · next row _ hrow _ =>
    split
    · exact (Effect.endMembership row userId (KeyedTable.find?_eq_some hrow).1).once
    · exact .refl
  · exact .refl

theorem effects_advanceActiveEpochs {userId : String} :
    Effects a s (advanceActiveEpochs s userId) := by
  apply effects_foldl
  intro s sessionId
  unfold ifStillActive
  split
  · split
    · exact (Effect.advanceEpoch _).once
    · exact .refl
  · exact .refl

/-! ## Route by route -/

theorem effects_createSession {userId classification id : String} {mode : SecurityMode}
    {refusal : Option HttpError} (hfresh : id ∉ s.drawn) :
    Effects (.createSession userId mode classification refusal id) s
      (createSession cfg s userId mode classification refusal id).1 := by
  unfold createSession
  split
  · exact .refl
  · next u hlock =>
    split
    · exact .refl
    · dsimp only
      split
      · exact .refl
      · obtain ⟨-, hfind, -⟩ := lockRequestMutation_ok hlock
        obtain rfl := (KeyedTable.find?_eq_some hfind).2
        exact (Effect.createSession u.id classification refusal
          ⟨id, u.id, mode, classification, 1, _⟩ hfresh rfl).once

theorem effects_updateSessionSecurity {userId sessionId classification : String}
    {mode : SecurityMode} {hasMessages : Bool} {refusal : Option HttpError} :
    Effects (.updateSecurity userId sessionId mode classification hasMessages refusal) s
      (updateSessionSecurity cfg s userId sessionId mode classification hasMessages refusal).1 := by
  unfold updateSessionSecurity
  split
  · next howned => exact requireOwnedSession_error howned
  · next row howned =>
    obtain ⟨rfl, hrow, rfl, rfl⟩ := requireOwnedSession_ok howned
    dsimp only
    split
    · exact .refl
    · split
      · exact .refl
      · next hboundary =>
        have hempty : row.securityMode ≠ mode → ∀ e ∈ s.envelopes.rows, e.sessionId ≠ row.id := by
          intro hmode e he hsession
          apply hboundary
          exact ⟨hmode, .inr (List.any_eq_true.mpr ⟨e, he, by simpa using hsession⟩)⟩
        refine .tail (Effect.once ?_) (Effect.relabel row classification _)
        exact Effect.switchMode row mode classification hasMessages refusal hrow hempty rfl

theorem effects_deleteSession {userId sessionId : String} {refusal : Option HttpError} :
    Effects a s (deleteSession cfg s userId sessionId refusal).1 := by
  unfold deleteSession
  split
  · next howned => exact requireOwnedSession_error howned
  · next howned =>
    obtain ⟨rfl, -⟩ := requireOwnedSession_ok howned
    exact (Effect.dropSession _).once

theorem userByName?_eq_some {username : String} {u : Account}
    (h : s.userByName? username = some u) : u ∈ s.users.rows ∧ u.username = username :=
  ⟨List.mem_of_find?_eq_some h, by simpa using List.find?_some h⟩

theorem effects_addE2eeMember {ownerId sessionId username : String}
    {refusal : Option HttpError} :
    Effects (.addMember ownerId sessionId username refusal) s
      (addE2eeMember cfg s ownerId sessionId username refusal).1 := by
  unfold addE2eeMember
  split
  · exact .refl
  · next target htarget =>
    obtain ⟨hname, -⟩ := Option.filter_eq_some_iff.mp htarget
    obtain ⟨-, rfl⟩ := userByName?_eq_some hname
    split
    · next howned => exact requireOwnedSession_error howned
    · next row howned =>
      obtain ⟨rfl, hrow, rfl, rfl⟩ := requireOwnedSession_ok howned
      split
      · exact .refl
      · split
        · exact .refl
        · next hinactive =>
          refine (Effect.beginMembership row.ownerId refusal row target hrow hname ?_ rfl).once
          simpa using hinactive

theorem effects_removeE2eeMember {ownerId sessionId username : String}
    {refusal : Option HttpError} :
    Effects a s (removeE2eeMember cfg s ownerId sessionId username refusal).1 := by
  unfold removeE2eeMember
  split
  · next howned => exact requireOwnedSession_error howned
  · next row howned =>
    obtain ⟨rfl, hrow, -⟩ := requireOwnedSession_ok howned
    split
    · exact .refl
    · split
      · exact .refl
      · split
        · exact .refl
        · exact (Effect.endMembership row _ hrow).once

theorem effects_updateUserStatus {targetId : String} {isActive : Bool}
    {refusal : Option HttpError} :
    Effects a s (updateUserStatus s targetId isActive refusal).1 := by
  unfold updateUserStatus
  split
  · exact .refl
  · cases isActive with
    | true => exact (Effect.setAccount _ _ fun u => by split <;> rfl).once
    | false =>
        refine .tail effects_revokeActiveE2eeMemberships (Effect.setAccount _ _ fun u => ?_)
        split <;> rfl

theorem change_registerE2eeDevice {userId deviceId : String} {keys : List String}
    {refusal : Option HttpError} :
    Change a s (registerE2eeDevice s userId deviceId keys refusal).1 := by
  unfold registerE2eeDevice
  split
  · exact .control .refl
  · next u _ =>
    split
    · exact .control .refl
    · next hnew =>
      split
      · exact .control .refl
      · split
        · exact .control .refl
        · next hkeys =>
          exact .addDevice ⟨deviceId, u.id, true, s.clock⟩ _ (by simpa using hnew)
            (not_not.mp hkeys)

/-- An upload of prekeys is accepted or changes nothing. -/
theorem updateE2eePrekeys_cases (s : Relay) (userId deviceId : String) (raw : List String)
    (refusal : Option HttpError) :
    (updateE2eePrekeys s userId deviceId raw refusal).1 = s ∨
      ∃ keys, UploadAccepted s userId deviceId raw refusal keys ∧
        updateE2eePrekeys s userId deviceId raw refusal =
          (addPrekeys s deviceId keys, .ok keys.length) := by
  unfold updateE2eePrekeys
  split
  · exact .inl rfl
  · next u hlock =>
    obtain ⟨-, hfind, -⟩ := lockRequestMutation_ok hlock
    obtain ⟨-, hid⟩ := KeyedTable.find?_eq_some hfind
    split
    · exact .inl rfl
    · next device hdevice =>
      obtain ⟨hdevice, howner⟩ := Option.filter_eq_some_iff.mp hdevice
      obtain ⟨-, hdid, -⟩ := trustedDevice?_eq_some.mp hdevice
      have howner : device.userId = userId := (of_decide_eq_true howner).trans hid
      split
      · exact .inl rfl
      · next keys hcanonical =>
        split
        · exact .inl rfl
        · next hreuse =>
          dsimp only
          split
          · exact .inl rfl
          · next hroom =>
            obtain ⟨hnodup, hnone⟩ := not_or.mp hreuse
            obtain ⟨havailable, hhistorical⟩ := not_or.mp hroom
            rw [hdid] at hnone havailable hhistorical ⊢
            refine .inr ⟨keys, ⟨⟨u, hlock, hid⟩, ⟨device, hdevice, howner⟩, hcanonical,
              not_not.mp hnodup, ?_, not_lt.mp havailable, not_lt.mp hhistorical⟩, rfl⟩
            intro p hp hsame hkey
            exact hnone (List.any_eq_true.mpr ⟨p, hp, by simpa [hsame] using hkey⟩)

theorem change_updateE2eePrekeys {userId deviceId : String} {raw : List String}
    {refusal : Option HttpError} :
    Change (.updatePrekeys userId deviceId raw refusal) s
      (updateE2eePrekeys s userId deviceId raw refusal).1 := by
  rcases updateE2eePrekeys_cases s userId deviceId raw refusal with hsame | ⟨keys, h, hupload⟩
  · rw [hsame]
    exact .control .refl
  · rw [hupload]
    exact .upload userId deviceId raw keys refusal h rfl

theorem change_consumePrekeyBundle {requesterId username : String} {deviceId : Option String}
    {refusal : Option HttpError} {tieDevice tieKey : Nat} :
    Change a s
      (consumePrekeyBundle s requesterId username deviceId refusal tieDevice tieKey).1 := by
  unfold consumePrekeyBundle
  split
  · exact .control .refl
  · split
    · exact .control .refl
    · dsimp only
      split
      · exact .control .refl
      · next device _ =>
        split
        · exact .control .refl
        · next candidate holdest =>
          obtain ⟨hmem, hleft⟩ := List.mem_filter.mp (mem_of_oldest holdest)
          simp only [Bool.and_eq_true, decide_eq_true_eq] at hleft
          rw [← hleft.1]
          exact .handOut candidate hmem hleft.2

theorem effects_revokeE2eeDevice {userId deviceId : String} {refusal : Option HttpError} :
    Effects a s (revokeE2eeDevice s userId deviceId refusal).1 := by
  unfold revokeE2eeDevice
  split
  · exact .refl
  · split
    · exact .refl
    · next device _ =>
      split
      · exact .refl
      · refine .trans ?_ effects_advanceActiveEpochs
        exact .tail (Effect.distrust device.id).once (Effect.consume _)

/-- What an accepted upload has passed. -/
theorem checkEnvelope_ok {userId : String} {row : ChatSession} {m : ConversationMember}
    {p : EnvelopeSend} {o : OpaqueEnvelope} (h : checkEnvelope cfg s userId row m p = .ok o) :
    (∃ d, s.trustedDevice? p.senderDeviceId = some d ∧ d.userId = userId) ∧
      m.joinedEpoch ≤ p.epoch ∧ p.epoch = row.currentCryptoEpoch ∧
      (∃ expected, expectedRecipient row p = .ok expected ∧
        validateOpaqueEnvelope p expected = .ok o) ∧
      recipientAllowed s row p = true ∧
      s.envelopes.rows.countP (fun e => e.sessionId = row.id) < cfg.maxMessagesPerSession := by
  unfold checkEnvelope at h
  split at h
  · cases h
  · next d hdevice =>
    obtain ⟨hdevice, howner⟩ := Option.filter_eq_some_iff.mp hdevice
    split at h
    · cases h
    · next hepoch =>
      obtain ⟨hjoined, hcurrent⟩ := not_or.mp hepoch
      split at h
      · cases h
      · next expected hexpected =>
        split at h
        · cases h
        · next hallowed =>
          split at h
          · cases h
          · next o' hvalid =>
            split at h
            · cases h
            · next hquota =>
              obtain rfl := Except.ok.inj h
              exact ⟨⟨d, hdevice, by simpa using howner⟩, not_lt.mp hjoined, not_not.mp hcurrent,
                ⟨expected, hexpected, hvalid⟩, by simpa using hallowed, not_le.mp hquota⟩

theorem change_sendE2eeEnvelope {userId sessionId id : String} {p : EnvelopeSend}
    {refusal : Option HttpError} (hfresh : id ∉ s.drawn) :
    Change (.send userId sessionId p refusal id) s
      (sendE2eeEnvelope cfg digest s userId sessionId p refusal id).1 := by
  unfold sendE2eeEnvelope
  split
  · next hmember => exact .control (requirePrivateMemberSession_error hmember)
  · next row m hmember =>
    obtain ⟨rfl, -, ⟨u, hu, hactive, -⟩, hrow, hmode, -, hm⟩ :=
      requirePrivateMemberSession_ok hmember
    split
    · exact .control .refl
    · next o hcheck =>
      obtain ⟨⟨d, hd, howner⟩, hjoined, hepoch, ⟨expected, -, hvalid⟩, -, -⟩ :=
        checkEnvelope_ok hcheck
      obtain ⟨hdmem, hdid, htrusted⟩ := trustedDevice?_eq_some.mp hd
      obtain ⟨humem, huid⟩ := KeyedTable.find?_eq_some hu
      obtain ⟨hrowmem, rfl⟩ := KeyedTable.find?_eq_some hrow
      have hsame : o.epoch = p.epoch := (validateOpaqueEnvelope_ok hvalid).2.2.1
      dsimp only
      split
      · exact .control .refl
      · next hreplay =>
        refine .store userId row.id p refusal _ ⟨⟨u, humem, huid, hactive⟩,
          ⟨d, hdmem, hdid, howner, htrusted⟩, ⟨row, hrowmem, rfl, hmode, ?_⟩, m, hm, ?_⟩
          hfresh rfl (fun x hx => ?_) rfl
        · exact (hsame.trans hepoch).symm
        · exact hjoined.trans_eq hsame.symm
        · intro heq
          exact hreplay (List.any_eq_true.mpr ⟨x, hx, by simpa using heq⟩)

theorem effects_receiveE2eeEnvelopes {userId sessionId deviceId : String} {after : Option Int}
    {afterId : Option String} {limit : Nat} {refusal : Option HttpError} :
    Effects a s
      (receiveE2eeEnvelopes cfg s userId sessionId deviceId after afterId limit refusal).1 := by
  unfold receiveE2eeEnvelopes
  split
  · next hmember => exact requirePrivateMemberSession_error hmember
  · next hmember =>
    obtain ⟨rfl, -⟩ := requirePrivateMemberSession_ok hmember
    dsimp only
    repeat' split
    all_goals exact .refl

theorem effects_e2eeSessionState {userId sessionId : String} {refusal : Option HttpError} :
    Effects a s (e2eeSessionState cfg s userId sessionId refusal).1 := by
  unfold e2eeSessionState
  split
  · next hmember => exact requirePrivateMemberSession_error hmember
  · next hmember =>
    obtain ⟨rfl, -⟩ := requirePrivateMemberSession_ok hmember
    exact .refl

theorem change_enforceRetention {sessionIds : List String} {prekeyIds : List Nat} :
    Change a s (enforceRetention s sessionIds prekeyIds) := by
  apply Change.sweep
  exact effects_foldl (fun s i => (Effect.dropSession i).once) _ s

/-- **Every step is a change under its own label.** -/
theorem change_of_step (h : (relaySystem cfg digest).step s a t) : Change a s t := by
  replace h : stepRelay cfg digest s a = some t := h
  cases a with
  | tick d =>
      obtain rfl := Option.some.inj h
      exact .control (Effect.tick d).once
  | register id username mfaEnabled =>
      obtain ⟨hfresh, rfl⟩ := of_guarded h
      exact .control (Effect.register id username mfaEnabled (not_or.mp hfresh).1).once
  | setMfa userId mfaEnabled =>
      obtain rfl := Option.some.inj h
      exact .control (Effect.setAccount _ _ fun u => by split <;> rfl).once
  | updateStatus targetId isActive refusal =>
      exact Option.some.inj h ▸ .control effects_updateUserStatus
  | createSession userId mode classification refusal id =>
      obtain ⟨hfresh, rfl⟩ := of_guarded h
      exact .control (effects_createSession hfresh)
  | updateSecurity userId sessionId mode classification hasMessages refusal =>
      exact Option.some.inj h ▸ .control effects_updateSessionSecurity
  | deleteSession userId sessionId refusal =>
      exact Option.some.inj h ▸ .control effects_deleteSession
  | addMember ownerId sessionId username refusal =>
      exact Option.some.inj h ▸ .control effects_addE2eeMember
  | removeMember ownerId sessionId username refusal =>
      exact Option.some.inj h ▸ .control effects_removeE2eeMember
  | registerDevice userId deviceId keys refusal =>
      exact Option.some.inj h ▸ change_registerE2eeDevice
  | updatePrekeys userId deviceId keys refusal =>
      exact Option.some.inj h ▸ change_updateE2eePrekeys
  | bundle requesterId username deviceId refusal tieDevice tieKey =>
      exact Option.some.inj h ▸ change_consumePrekeyBundle
  | revokeDevice userId deviceId refusal =>
      exact Option.some.inj h ▸ .control effects_revokeE2eeDevice
  | send userId sessionId p refusal id =>
      obtain ⟨hguard, rfl⟩ := of_guarded h
      exact change_sendE2eeEnvelope (not_or.mp hguard).1
  | receive userId sessionId deviceId after afterId limit refusal =>
      exact Option.some.inj h ▸ .control effects_receiveE2eeEnvelopes
  | state userId sessionId refusal =>
      exact Option.some.inj h ▸ .control effects_e2eeSessionState
  | retention sessionIds prekeyIds =>
      exact Option.some.inj h ▸ change_enforceRetention

end Scap.E2ee
