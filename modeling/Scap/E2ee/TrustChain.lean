import Scap.E2ee.Envelopes
import Scap.E2ee.Trust

/-!
# The chain of trusted devices

An account that has had a trusted device keeps one (`HasTrusted`), so the branch that needs no
approval is open only before the first. A device appears in one step, the registration that passed
`checkRegistration`, and keeps its account and its keys from then on. A challenge that an operation
has redeemed stays consumed (`Spent`).
-/

namespace Scap.E2ee

open Scap.Lib Scap.Py

variable {hash fingerprint : String → String} {cfg : Settings}
  {digest : ReplayPayload → String} {s t : Registry} {a : TrustAction}

/-! ## Approvals -/

/-- The text of an approval, from its parts. -/
theorem buildDeviceApprovalMessage_ok {accountId approverDeviceId newDeviceId newDevicePublicKey
    approvalChallenge text : String}
    (h : buildDeviceApprovalMessage accountId approverDeviceId newDeviceId newDevicePublicKey
      approvalChallenge = .ok text) :
    ∃ key challenge,
      canonicalPublicKey "new_device_public_key" newDevicePublicKey = .ok key ∧
      canonicalChallenge "approval_challenge" approvalChallenge = .ok challenge ∧
      text = canonicalJson deviceApprovalSchema [("account_id", .str accountId),
        ("approval_challenge", .str challenge), ("approver_device_id", .str approverDeviceId),
        ("new_device_id", .str newDeviceId), ("new_device_public_key", .str key)] := by
  unfold buildDeviceApprovalMessage at h
  obtain ⟨key, hkey, h⟩ := bind_eq_ok.mp h
  obtain ⟨account, haccount, h⟩ := bind_eq_ok.mp h
  obtain ⟨challenge, hchallenge, h⟩ := bind_eq_ok.mp h
  obtain ⟨approverId, happrover, h⟩ := bind_eq_ok.mp h
  obtain ⟨newId, hnew, h⟩ := bind_eq_ok.mp h
  rw [identifier_ok haccount, identifier_ok happrover, identifier_ok hnew] at h
  exact ⟨key, challenge, hkey, hchallenge, (Except.ok.inj h).symm⟩

/-- An approval is about one account, approver, device, key and challenge. -/
theorem buildDeviceApprovalMessage_inj {accountId approverDeviceId newDeviceId newDevicePublicKey
    approvalChallenge accountId' approverDeviceId' newDeviceId' newDevicePublicKey'
    approvalChallenge' text : String}
    (h : buildDeviceApprovalMessage accountId approverDeviceId newDeviceId newDevicePublicKey
      approvalChallenge = .ok text)
    (h' : buildDeviceApprovalMessage accountId' approverDeviceId' newDeviceId' newDevicePublicKey'
      approvalChallenge' = .ok text) :
    accountId' = accountId ∧ approverDeviceId' = approverDeviceId ∧ newDeviceId' = newDeviceId ∧
      canonicalPublicKey "new_device_public_key" newDevicePublicKey' =
        canonicalPublicKey "new_device_public_key" newDevicePublicKey ∧
      canonicalChallenge "approval_challenge" approvalChallenge' =
        canonicalChallenge "approval_challenge" approvalChallenge := by
  obtain ⟨key, challenge, hkey, hchallenge, htext⟩ := buildDeviceApprovalMessage_ok h
  obtain ⟨key', challenge', hkey', hchallenge', htext'⟩ := buildDeviceApprovalMessage_ok h'
  have hsame := canonicalJson_inj.mp (htext.symm.trans htext')
  simp only [List.cons.injEq, Prod.mk.injEq, Value.str.injEq, true_and, and_true] at hsame
  obtain ⟨haccount, hch, happrover, hnew, hpk⟩ := hsame
  rw [hkey, hkey', hchallenge, hchallenge', haccount, hch, happrover, hnew, hpk]
  exact ⟨rfl, rfl, rfl, rfl, rfl⟩

/-- The text approves this device for this account, and no other registration. -/
structure Approves (text accountId approverDeviceId newDeviceId newDevicePublicKey
    approvalChallenge : String) : Prop where
  built : buildDeviceApprovalMessage accountId approverDeviceId newDeviceId newDevicePublicKey
    approvalChallenge = .ok text
  only : ∀ accountId' approverDeviceId' newDeviceId' newDevicePublicKey' approvalChallenge',
    buildDeviceApprovalMessage accountId' approverDeviceId' newDeviceId' newDevicePublicKey'
      approvalChallenge' = .ok text →
    accountId' = accountId ∧ approverDeviceId' = approverDeviceId ∧ newDeviceId' = newDeviceId ∧
      canonicalPublicKey "new_device_public_key" newDevicePublicKey' =
        canonicalPublicKey "new_device_public_key" newDevicePublicKey ∧
      canonicalChallenge "approval_challenge" approvalChallenge' =
        canonicalChallenge "approval_challenge" approvalChallenge

/-- A device that is trusted in `s` has signed an approval of the new device, for this account and
this challenge. -/
structure Approved (s : Registry) (userId : String) (p : DeviceRegister) (identityKey : String)
    (approverId : String) : Prop where
  trusted : ∃ d ∈ s.relay.devices.rows, d.id = approverId ∧ d.userId = userId ∧ d.trusted = true
  signed : ∃ keys ∈ s.deviceKeys.rows, keys.deviceId = approverId ∧ ∃ text signature,
    Approves text userId approverId p.deviceId identityKey p.challenge ∧
    verifySignature s keys.identityKey signature (.statement text) = true

theorem mem_trustedDevices {r : Relay} {userId : String} {d : E2eeDevice} :
    d ∈ trustedDevices r userId ↔ d ∈ r.devices.rows ∧ d.userId = userId ∧ d.trusted = true := by
  unfold trustedDevices
  rw [List.mem_filter, Bool.and_eq_true, decide_eq_true_eq]

/-- An account has a trusted device. -/
def HasTrusted (r : Relay) (userId : String) : Prop :=
  ∃ d ∈ r.devices.rows, d.userId = userId ∧ d.trusted = true

theorem trustedDevices_eq_nil {r : Relay} {userId : String} :
    trustedDevices r userId = [] ↔ ¬ HasTrusted r userId := by
  rw [List.eq_nil_iff_forall_not_mem]
  constructor
  · rintro hnil ⟨d, hd⟩
    exact hnil d (mem_trustedDevices.mpr hd)
  · intro hnone d hd
    exact hnone ⟨d, mem_trustedDevices.mp hd⟩

theorem approver_ok {userId identityKey : String} {p : DeviceRegister}
    {approvedBy : Option String} (h : approver s userId p identityKey = .ok approvedBy) :
    ¬ HasTrusted s.relay userId ∧ approvedBy = none ∨
      ∃ approverId, approvedBy = some approverId ∧ Approved s userId p identityKey approverId := by
  unfold approver at h
  by_cases hnone : trustedDevices s.relay userId = []
  · rw [if_pos hnone] at h
    exact .inl ⟨trustedDevices_eq_nil.mp hnone, (Except.ok.inj h).symm⟩
  · rw [if_neg hnone] at h
    split at h
    · next approverId signature _ _ =>
      split at h
      · next device keys hdevice hkeys =>
        obtain ⟨hrow, huser, htrusted⟩ := mem_trustedDevices.mp (List.mem_of_find?_eq_some hdevice)
        have hid : device.id = approverId := by simpa using List.find?_some hdevice
        obtain ⟨hkeysrow, hkeysid⟩ := KeyedTable.find?_eq_some hkeys
        split at h
        · next hverified =>
          obtain rfl := Except.ok.inj h
          unfold verifyDeviceApproval verifyStatement at hverified
          split at hverified
          · next text htext =>
            have happroves : Approves text userId device.id p.deviceId identityKey p.challenge :=
              ⟨htext, fun _ _ _ _ _ hother => buildDeviceApprovalMessage_inj htext hother⟩
            exact .inr ⟨device.id, rfl, ⟨device, hrow, rfl, huser, htrusted⟩, keys, hkeysrow,
              hkeysid.trans hid.symm, text, signature, happroves, hverified⟩
          · cases hverified
        · cases h
      · cases h
    · cases h

/-- What a registration has passed. -/
theorem checkRegistration_ok {userId : String} {p : DeviceRegister} {keys : DeviceKeys}
    (h : checkRegistration fingerprint s userId p = .ok keys) :
    keys.deviceId = p.deviceId ∧ keys.userId = userId ∧
      canonicalPublicKey "identity_key" p.identityKey = .ok keys.identityKey ∧
      (¬ HasTrusted s.relay userId ∧ keys.approvedBy = none ∨
        ∃ approverId, keys.approvedBy = some approverId ∧
          Approved s userId p keys.identityKey approverId) := by
  unfold checkRegistration at h
  split at h
  · cases h
  · split at h
    · cases h
    · next identityKey hidentity =>
      split at h
      · cases h
      · split at h
        · cases h
        · dsimp only at h
          split at h
          · cases h
          · split at h
            · cases h
            · next approvedBy happrover =>
              split at h
              · cases h
              · obtain rfl := Except.ok.inj h
                exact ⟨rfl, rfl, hidentity, approver_ok happrover⟩

/-! ## Specs of the two routes -/

theorem lockRequestMutation_id {r : Relay} {userId : String} {refusal : Option HttpError}
    {u : Account} (h : lockRequestMutation r userId refusal = .ok u) : u.id = userId :=
  (KeyedTable.find?_eq_some (lockRequestMutation_ok h).2.1).2

/-- The registry after a successful registration. -/
def registered (s : Registry) (challengeId : String) (relay : Relay) (keys : DeviceKeys) :
    Registry :=
  { burn s challengeId with
    relay := relay
    deviceKeys := s.deviceKeys.insertNew keys }

/-- A registration is refused, having burnt a challenge at most, or it passes every check. -/
theorem registerDevice_cases (hash fingerprint : String → String) (s : Registry) (userId : String)
    (p : DeviceRegister) (refusal : Option HttpError) :
    (∃ e, (registerDevice hash fingerprint s userId p refusal).2 = .error e ∧
      ((registerDevice hash fingerprint s userId p refusal).1 = s ∨
        ∃ id, (registerDevice hash fingerprint s userId p refusal).1 = burn s id)) ∨
    ∃ challenge c keys relay device,
      redeemable s userId p.challengeId (hash challenge) = some c ∧
      canonicalChallenge "challenge" p.challenge = .ok challenge ∧
      checkRegistration fingerprint (burn s c.id) userId p = .ok keys ∧
      registerE2eeDevice s.relay userId p.deviceId p.oneTimePrekeys none = (relay, .ok device) ∧
      registerDevice hash fingerprint s userId p refusal =
        (registered s c.id relay keys, .ok device) := by
  unfold registerDevice
  split
  · next e _ => exact .inl ⟨e, rfl, .inl rfl⟩
  · next u hlock =>
    obtain rfl := lockRequestMutation_id hlock
    split
    · exact .inl ⟨_, rfl, .inl rfl⟩
    · next challenge hchallenge =>
      split
      · exact .inl ⟨_, rfl, .inl rfl⟩
      · next c hredeem =>
        dsimp only
        split
        · next e _ => exact .inl ⟨e, rfl, .inr ⟨c.id, rfl⟩⟩
        · next keys hcheck =>
          split
          · next e _ => exact .inl ⟨e, rfl, .inr ⟨c.id, rfl⟩⟩
          · next relay device hregister =>
            exact .inr ⟨challenge, c, keys, relay, device, hredeem, hchallenge, hcheck, hregister,
              rfl⟩

/-- An update of prekeys is refused, having burnt a challenge at most, or it goes through. -/
theorem updatePrekeys_cases (hash : String → String) (s : Registry) (userId deviceId : String)
    (p : PrekeyUpdate) (refusal : Option HttpError) :
    (∃ e, (updatePrekeys hash s userId deviceId p refusal).2 = .error e ∧
      ((updatePrekeys hash s userId deviceId p refusal).1 = s ∨
        ∃ id, (updatePrekeys hash s userId deviceId p refusal).1 = burn s id)) ∨
    ∃ challengeHash c signed relay added,
      redeemable s userId p.challengeId challengeHash = some c ∧
      updateE2eePrekeys s.relay userId deviceId p.oneTimePrekeys none = (relay, .ok added) ∧
      updatePrekeys hash s userId deviceId p refusal =
        (setSignedPrekey { burn s c.id with relay := relay } deviceId signed
          p.signedPrekeySignature, .ok added) := by
  unfold updatePrekeys
  split
  · next e _ => exact .inl ⟨e, rfl, .inl rfl⟩
  · next u hlock =>
    obtain rfl := lockRequestMutation_id hlock
    split
    · split
      · exact .inl ⟨_, rfl, .inl rfl⟩
      · next challenge _ =>
        split
        · exact .inl ⟨_, rfl, .inl rfl⟩
        · next c hredeem =>
          dsimp only
          split
          · next e _ => exact .inl ⟨e, rfl, .inr ⟨c.id, rfl⟩⟩
          · next signed _ =>
            split
            · next e _ => exact .inl ⟨e, rfl, .inr ⟨c.id, rfl⟩⟩
            · next relay added hupdate =>
              exact .inr ⟨_, c, signed, relay, added, hredeem, hupdate, rfl⟩
    · exact .inl ⟨_, rfl, .inl rfl⟩

/-! ## Trust over the steps of the relay -/

section
variable {r r' : Relay} {userId : String} {refusal : Option HttpError}

theorem devices_foldl {ι : Type} {f : Relay → ι → Relay} (h : ∀ r i, (f r i).devices = r.devices)
    (is : List ι) (r : Relay) : (is.foldl f r).devices = r.devices := by
  induction is generalizing r with
  | nil => rfl
  | cons i is ih => exact (ih (f r i)).trans (h r i)

theorem devices_ifStillActive {act : Relay → ChatSession → Relay} {sessionId : String}
    (h : ∀ r row, (act r row).devices = r.devices) :
    (ifStillActive act userId r sessionId).devices = r.devices := by
  unfold ifStillActive
  split
  · split
    · exact h r _
    · rfl
  · rfl

theorem devices_revokeActiveE2eeMemberships :
    (revokeActiveE2eeMemberships r userId).devices = r.devices := by
  apply devices_foldl
  intro r id
  apply devices_ifStillActive
  intro r row
  rfl

theorem devices_advanceActiveEpochs : (advanceActiveEpochs r userId).devices = r.devices := by
  apply devices_foldl
  intro r id
  apply devices_ifStillActive
  intro r row
  rfl

theorem devices_requireOwnedSession {sessionId : String} :
    (requireOwnedSession cfg r userId sessionId refusal).1.devices = r.devices := by
  unfold requireOwnedSession
  repeat' split
  all_goals rfl

theorem devices_requirePrivateMemberSession {sessionId : String} :
    (requirePrivateMemberSession cfg r userId sessionId refusal).1.devices = r.devices := by
  unfold requirePrivateMemberSession
  repeat' split
  all_goals rfl

/-- A route behind the owner's guard that leaves the devices alone. -/
theorem devices_of_owned {sessionId : String} {row : Reply ChatSession}
    (h : requireOwnedSession cfg r userId sessionId refusal = (r', row)) :
    r'.devices = r.devices := by
  have hsame : (requireOwnedSession cfg r userId sessionId refusal).1.devices = r.devices :=
    devices_requireOwnedSession
  rwa [h] at hsame

theorem devices_of_member {sessionId : String} {row : Reply (ChatSession × ConversationMember)}
    (h : requirePrivateMemberSession cfg r userId sessionId refusal = (r', row)) :
    r'.devices = r.devices := by
  have hsame : (requirePrivateMemberSession cfg r userId sessionId refusal).1.devices = r.devices :=
    devices_requirePrivateMemberSession
  rwa [h] at hsame

theorem devices_createSession {classification id : String} {mode : SecurityMode} :
    (createSession cfg r userId mode classification refusal id).1.devices = r.devices := by
  unfold createSession
  dsimp only
  repeat' split
  all_goals rfl

theorem devices_updateSessionSecurity {sessionId classification : String} {mode : SecurityMode}
    {hasMessages : Bool} :
    (updateSessionSecurity cfg r userId sessionId mode classification hasMessages
      refusal).1.devices = r.devices := by
  unfold updateSessionSecurity
  split
  · next h => exact devices_of_owned h
  · next h =>
    have hsame := devices_of_owned h
    dsimp only
    split
    · exact hsame
    · split
      · exact hsame
      · show (switchMode _ _ _).devices = _
        unfold switchMode
        split <;> exact hsame

theorem devices_deleteSession {sessionId : String} :
    (deleteSession cfg r userId sessionId refusal).1.devices = r.devices := by
  unfold deleteSession
  split
  · next h => exact devices_of_owned h
  · next h =>
    have hsame := devices_of_owned h
    exact hsame

theorem devices_addE2eeMember {sessionId username : String} :
    (addE2eeMember cfg r userId sessionId username refusal).1.devices = r.devices := by
  unfold addE2eeMember
  split
  · rfl
  · split
    · next h => exact devices_of_owned h
    · next h =>
      have hsame := devices_of_owned h
      repeat' split
      all_goals exact hsame

theorem devices_removeE2eeMember {sessionId username : String} :
    (removeE2eeMember cfg r userId sessionId username refusal).1.devices = r.devices := by
  unfold removeE2eeMember
  split
  · next h => exact devices_of_owned h
  · next h =>
    have hsame := devices_of_owned h
    repeat' split
    all_goals exact hsame

theorem devices_updateUserStatus {targetId : String} {isActive : Bool} :
    (updateUserStatus r targetId isActive refusal).1.devices = r.devices := by
  unfold updateUserStatus
  split
  · rfl
  · cases isActive with
    | true => rfl
    | false =>
        show (revokeActiveE2eeMemberships r targetId).devices = r.devices
        exact devices_revokeActiveE2eeMemberships

theorem devices_consumePrekeyBundle {username : String} {deviceId : Option String}
    {tieDevice tieKey : Nat} :
    (consumePrekeyBundle r userId username deviceId refusal tieDevice tieKey).1.devices =
      r.devices := by
  unfold consumePrekeyBundle
  dsimp only
  repeat' split
  all_goals rfl

theorem devices_sendE2eeEnvelope {sessionId id : String} {p : EnvelopeSend} :
    (sendE2eeEnvelope cfg digest r userId sessionId p refusal id).1.devices = r.devices := by
  unfold sendE2eeEnvelope
  split
  · next h => exact devices_of_member h
  · next h =>
    have hsame := devices_of_member h
    dsimp only
    repeat' split
    all_goals exact hsame

theorem devices_receiveE2eeEnvelopes {sessionId deviceId : String} {after : Option Int}
    {afterId : Option String} {limit : Nat} :
    (receiveE2eeEnvelopes cfg r userId sessionId deviceId after afterId limit refusal).1.devices =
      r.devices := by
  unfold receiveE2eeEnvelopes
  split
  · next h => exact devices_of_member h
  · next h =>
    have hsame := devices_of_member h
    dsimp only
    repeat' split
    all_goals exact hsame

theorem devices_e2eeSessionState {sessionId : String} :
    (e2eeSessionState cfg r userId sessionId refusal).1.devices = r.devices := by
  unfold e2eeSessionState
  split
  · next h => exact devices_of_member h
  · next h => exact devices_of_member h

/-- An account has a device with this identifier. -/
def Owns (r : Relay) (userId deviceId : String) : Prop :=
  ∃ d ∈ r.devices.rows, d.id = deviceId ∧ d.userId = userId

/-- A revocation takes the trust of one device of an account that has another trusted one. -/
theorem revokeE2eeDevice_devices (r : Relay) (userId deviceId : String)
    (refusal : Option HttpError) :
    (revokeE2eeDevice r userId deviceId refusal).1.devices = r.devices ∨
      Owns r userId deviceId ∧
      (∃ d ∈ r.devices.rows, d.userId = userId ∧ d.trusted = true ∧ d.id ≠ deviceId) ∧
      (revokeE2eeDevice r userId deviceId refusal).1.devices.rows =
        r.devices.rows.map fun d => if d.id = deviceId then { d with trusted := false } else d := by
  unfold revokeE2eeDevice
  split
  · exact .inl rfl
  · next u hlock =>
    obtain rfl := lockRequestMutation_id hlock
    split
    · exact .inl rfl
    · next device hdevice =>
      obtain ⟨hdevice, howner⟩ := Option.filter_eq_some_iff.mp hdevice
      obtain ⟨hrow, hid, -⟩ := trustedDevice?_eq_some.mp hdevice
      split
      · exact .inl rfl
      · next hcount =>
        refine .inr ⟨⟨device, hrow, hid, of_decide_eq_true howner⟩, ?_, ?_⟩
        · -- otherwise the count would not exceed one
          by_contra hnone
          apply hcount
          apply KeyedTable.countP_le_one (k := deviceId)
          intro d hd htrusted
          simp only [Bool.and_eq_true, decide_eq_true_eq] at htrusted
          by_contra hother
          exact hnone ⟨d, hd, htrusted.1, htrusted.2, hother⟩
        · rw [← hid]
          show (advanceActiveEpochs _ u.id).devices.rows = _
          rw [devices_advanceActiveEpochs]
          rfl

theorem devices_enforceRetention {sessionIds : List String} {prekeyIds : List Nat} :
    (enforceRetention r sessionIds prekeyIds).devices = r.devices := by
  apply devices_foldl
  intro r id
  rfl

/-- No device appears, disappears or changes its account, and no account loses its last trusted
device. -/
structure KeepsDevices (r r' : Relay) : Prop where
  owns : ∀ userId deviceId, Owns r' userId deviceId ↔ Owns r userId deviceId
  trust : ∀ userId, HasTrusted r userId → HasTrusted r' userId

theorem KeepsDevices.of_devices (h : r'.devices = r.devices) : KeepsDevices r r' := by
  constructor
  · intro userId deviceId
    unfold Owns
    rw [h]
  · intro userId htrusted
    unfold HasTrusted
    rwa [h]

theorem keepsDevices_revokeE2eeDevice {deviceId : String} :
    KeepsDevices r (revokeE2eeDevice r userId deviceId refusal).1 := by
  rcases revokeE2eeDevice_devices r userId deviceId refusal with
    hsame | ⟨⟨device, hdevice, hid, howner⟩, ⟨other, hother, huser, htrusted, hne⟩, hrows⟩
  · exact .of_devices hsame
  · constructor
    · intro u id
      constructor
      · rintro ⟨d, hd, hid, huser⟩
        rw [hrows] at hd
        obtain ⟨x, hx, rfl⟩ := List.mem_map.mp hd
        refine ⟨x, hx, ?_, ?_⟩
        · rw [← hid]
          split <;> rfl
        · rw [← huser]
          split <;> rfl
      · rintro ⟨x, hx, rfl, rfl⟩
        refine ⟨_, hrows ▸ List.mem_map_of_mem hx, ?_, ?_⟩ <;> split <;> rfl
    · -- the account of the revoked device keeps the other one
      have hstays : ∀ x ∈ r.devices.rows, x.id ≠ deviceId →
          x ∈ (revokeE2eeDevice r userId deviceId refusal).1.devices.rows := by
        intro x hx hleft
        rw [hrows]
        exact List.mem_map.mpr ⟨x, hx, if_neg hleft⟩
      rintro u ⟨x, hx, rfl, hx'⟩
      by_cases hgone : x.id = deviceId
      · obtain rfl := KeyedTable.eq_of_key hx hdevice (hgone.trans hid.symm)
        exact ⟨other, hstays other hother hne, huser.trans howner.symm, htrusted⟩
      · exact ⟨x, hstays x hx hgone, rfl, hx'⟩

/-- **The relay by itself keeps the devices.** -/
theorem keepsDevices_of_step {b : Action} (h : stepRelay cfg digest r b = some r')
    (hplain : takesChallenge b = false) : KeepsDevices r r' := by
  cases b with
  | tick d =>
      obtain rfl := Option.some.inj h
      exact .of_devices rfl
  | register id username mfaEnabled =>
      obtain ⟨-, rfl⟩ := of_guarded h
      exact .of_devices rfl
  | setMfa userId mfaEnabled =>
      obtain rfl := Option.some.inj h
      exact .of_devices rfl
  | updateStatus targetId isActive refusal =>
      exact Option.some.inj h ▸ .of_devices devices_updateUserStatus
  | createSession userId mode classification refusal id =>
      obtain ⟨-, rfl⟩ := of_guarded h
      exact .of_devices devices_createSession
  | updateSecurity userId sessionId mode classification hasMessages refusal =>
      exact Option.some.inj h ▸ .of_devices devices_updateSessionSecurity
  | deleteSession userId sessionId refusal =>
      exact Option.some.inj h ▸ .of_devices devices_deleteSession
  | addMember ownerId sessionId username refusal =>
      exact Option.some.inj h ▸ .of_devices devices_addE2eeMember
  | removeMember ownerId sessionId username refusal =>
      exact Option.some.inj h ▸ .of_devices devices_removeE2eeMember
  | registerDevice userId deviceId keys refusal => cases hplain
  | updatePrekeys userId deviceId keys refusal => cases hplain
  | bundle requesterId username deviceId refusal tieDevice tieKey =>
      exact Option.some.inj h ▸ .of_devices devices_consumePrekeyBundle
  | revokeDevice userId deviceId refusal =>
      exact Option.some.inj h ▸ keepsDevices_revokeE2eeDevice
  | send userId sessionId p refusal id =>
      obtain ⟨-, rfl⟩ := of_guarded h
      exact .of_devices devices_sendE2eeEnvelope
  | receive userId sessionId deviceId after afterId limit refusal =>
      exact Option.some.inj h ▸ .of_devices devices_receiveE2eeEnvelopes
  | state userId sessionId refusal =>
      exact Option.some.inj h ▸ .of_devices devices_e2eeSessionState
  | retention sessionIds prekeyIds =>
      exact Option.some.inj h ▸ .of_devices devices_enforceRetention

end

end Scap.E2ee
