import Scap.E2ee.Model
import Scap.Lib.Run

/-!
# The relay's routes

Conversations and their members, devices and their prekeys, envelopes: each route as the change of
the store and the reply. `digest` is the SHA-256 of a replay statement as `make_replay_key` returns
it; nothing below depends on what it returns. Usernames are in the cleaned form they are stored in.
-/

namespace Scap.E2ee

open Scap.Lib

variable (cfg : Settings) (digest : ReplayPayload → String)

/-! ## Conversations -/

/-- `create_session`; the id is drawn by the server. -/
def createSession (s : Relay) (userId : String) (mode : SecurityMode) (classification : String)
    (refusal : Option HttpError) (id : String) : Relay × Reply ChatSession :=
  match lockRequestMutation s userId refusal with
  | .error e => (s, .error e)
  | .ok user =>
    if cfg.highSecurity = true ∧ mode ≠ .secure ∧ user.mfaEnabled = false then
      (s, .error ⟨403, "Chế độ hội thoại nhạy cảm bắt buộc tài khoản đã bật MFA."⟩)
    else
      let count := s.sessions.rows.countP fun c =>
        c.ownerId = user.id && s.clock < c.retentionExpiresAt
      if cfg.maxSessionsPerUser ≤ count then
        (s, .error ⟨409, "Đã đạt giới hạn " ++ toString cfg.maxSessionsPerUser ++
          " phiên hội thoại. Vui lòng xóa bớt phiên cũ."⟩)
      else
        let retention := if mode = .secure then cfg.secureRetentionDays
          else cfg.confidentialRetentionDays
        -- a server-side conversation gets its first key epoch, which is 1 as well
        let row : ChatSession :=
          ⟨id, user.id, mode, classification, 1, s.clock + days retention⟩
        let members := if mode = .privateE2ee then
          s.members.insertNew ⟨id, user.id, 1, none, none⟩ else s.members
        ({ s with
          sessions := s.sessions.insertNew row
          members := members
          drawn := id :: s.drawn }, .ok row)

/-- The new trust boundary of a conversation without content. -/
def switchMode (s : Relay) (row : ChatSession) (mode : SecurityMode) : Relay :=
  if row.securityMode = mode then s
  else
    let sessions := s.sessions.modify
      (fun c => if c.id = row.id then
        { c with
          securityMode := mode
          currentCryptoEpoch := if mode = .privateE2ee ∨ row.securityMode = .privateE2ee then 1
            else c.currentCryptoEpoch } else c)
      fun c => by split <;> rfl
    let members := if mode = .privateE2ee then
        s.members.insertNew ⟨row.id, row.ownerId, 1, none, none⟩
      else if row.securityMode = .privateE2ee then s.members.filter fun m => m.sessionId ≠ row.id
      else s.members
    { s with sessions := sessions, members := members }

/-- The label and the deadline of `update_session_security`; a deadline is never extended. -/
def relabel (s : Relay) (row : ChatSession) (classification : String) (deadline : Int) : Relay :=
  { s with
    sessions := s.sessions.modify
      (fun c => if c.id = row.id then
        { c with
          dataClassification := classification
          retentionExpiresAt := min c.retentionExpiresAt deadline } else c)
      fun c => by split <;> rfl }

/-- `update_session_security`; `hasMessages` says whether the conversation has plaintext rows. -/
def updateSessionSecurity (s : Relay) (userId sessionId : String) (mode : SecurityMode)
    (classification : String) (hasMessages : Bool) (refusal : Option HttpError) :
    Relay × Reply Unit :=
  match requireOwnedSession cfg s userId sessionId refusal with
  | (s, .error e) => (s, .error e)
  | (s, .ok row) =>
    let mfa := (s.users.find? userId).any (·.mfaEnabled)
    if cfg.highSecurity = true ∧ mode ≠ .secure ∧ mfa = false then
      (s, .error ⟨403, "Chế độ hội thoại nhạy cảm bắt buộc tài khoản đã bật MFA."⟩)
    else if row.securityMode ≠ mode ∧
        (hasMessages = true ∨ s.envelopes.rows.any (fun e => e.sessionId = row.id)) then
      (s, .error ⟨409, "Không thể đổi trust boundary sau khi hội thoại đã có dữ liệu."⟩)
    else
      let retention := if mode = .secure then cfg.secureRetentionDays
        else cfg.confidentialRetentionDays
      (relabel (switchMode s row mode) row classification (s.clock + days retention), .ok ())

/-- `delete_session_endpoint`. -/
def deleteSession (s : Relay) (userId sessionId : String) (refusal : Option HttpError) :
    Relay × Reply Unit :=
  match requireOwnedSession cfg s userId sessionId refusal with
  | (s, .error e) => (s, .error e)
  | (s, .ok row) => (dropSession s row.id, .ok ())

/-! ## Members -/

def userNotFound : HttpError := ⟨404, "Không tìm thấy người dùng."⟩
def memberNotFound : HttpError := ⟨404, "Không tìm thấy thành viên có thể xóa."⟩
def notPrivate : HttpError := ⟨409, "Phiên này không ở chế độ Private E2EE."⟩

def Relay.userByName? (s : Relay) (username : String) : Option Account :=
  s.users.rows.find? fun u => u.username = username

/-- A membership begins, in the epoch that its beginning starts. -/
def beginMembership (s : Relay) (row : ChatSession) (userId : String) : Relay :=
  let s := advanceEpoch s row.id
  let joined := row.currentCryptoEpoch + 1
  let members := s.members.modify
    (fun m => if m.key = toLex (row.id, userId) then
      { m with joinedEpoch := joined, removedEpoch := none, removedAt := none } else m)
    fun m => by split <;> rfl
  { s with members := members.insertNew ⟨row.id, userId, joined, none, none⟩ }

/-- `add_e2ee_member`. -/
def addE2eeMember (s : Relay) (ownerId sessionId username : String)
    (refusal : Option HttpError) : Relay × Reply Nat :=
  match (s.userByName? username).filter (·.isActive) with
  | none => (s, .error userNotFound)
  | some target =>
    match requireOwnedSession cfg s ownerId sessionId refusal with
    | (s, .error e) => (s, .error e)
    | (s, .ok row) =>
      if row.securityMode ≠ .privateE2ee then (s, .error notPrivate)
      else if (s.activeMember? row.id target.id).isSome then
        (s, .error ⟨409, "Người dùng đã là thành viên."⟩)
      else (beginMembership s row target.id, .ok (row.currentCryptoEpoch + 1))

/-- `remove_e2ee_member`. -/
def removeE2eeMember (s : Relay) (ownerId sessionId username : String)
    (refusal : Option HttpError) : Relay × Reply Unit :=
  match requireOwnedSession cfg s ownerId sessionId refusal with
  | (s, .error e) => (s, .error e)
  | (s, .ok row) =>
    if row.securityMode ≠ .privateE2ee then (s, .error notPrivate)
    else match (s.userByName? username).filter fun u => u.id ≠ ownerId with
      | none => (s, .error memberNotFound)
      | some target =>
        match s.activeMember? row.id target.id with
        | none => (s, .error memberNotFound)
        | some _ => (endMembership s row target.id, .ok ())

/-- `list_e2ee_members`. -/
def listE2eeMembers (s : Relay) (userId sessionId : String) (refusal : Option HttpError) :
    Relay × Reply (List ConversationMember) :=
  match requirePrivateMemberSession cfg s userId sessionId refusal with
  | (s, .error e) => (s, .error e)
  | (s, .ok (row, _)) => (s, .ok (s.members.rows.filter fun m => m.sessionId = row.id))

/-- `e2ee_session_state`: the routing epoch. -/
def e2eeSessionState (s : Relay) (userId sessionId : String) (refusal : Option HttpError) :
    Relay × Reply Nat :=
  match requirePrivateMemberSession cfg s userId sessionId refusal with
  | (s, .error e) => (s, .error e)
  | (s, .ok (row, _)) => (s, .ok row.currentCryptoEpoch)

/-- The status half of `update_user_status`. -/
def updateUserStatus (s : Relay) (targetId : String) (isActive : Bool)
    (refusal : Option HttpError) : Relay × Reply Unit :=
  match refusal with
  | some e => (s, .error e)
  | none =>
    let s := if isActive then s else revokeActiveE2eeMemberships s targetId
    let users := s.users.modify
      (fun u => if u.id = targetId then { u with isActive := isActive } else u)
      fun u => by split <;> rfl
    ({ s with users := users }, .ok ())

/-! ## Devices and prekeys -/

/-- The rows of new prekeys. -/
def prekeyRows (s : Relay) (deviceId : String) (keys : List String) : List E2eePreKey :=
  keys.mapIdx fun i key => ⟨s.nextPrekey + i, deviceId, key, none, s.clock⟩

def addPrekeys (s : Relay) (deviceId : String) (keys : List String) : Relay :=
  { s with
    prekeys := s.prekeys ++ prekeyRows s deviceId keys
    nextPrekey := s.nextPrekey + keys.length }

/-- The keys in canonical form, or the first that is not one. -/
def canonicalPrekeys (keys : List String) : Except String (List String) :=
  keys.mapM fun key => (decodeBase64Strict "one_time_prekey" key 1 none (some 32)).map (·.canonical)

/-- `register_e2ee_device`. -/
def registerE2eeDevice (s : Relay) (userId deviceId : String) (oneTimePrekeys : List String)
    (refusal : Option HttpError) : Relay × Reply E2eeDevice :=
  match lockRequestMutation s userId refusal with
  | .error e => (s, .error e)
  | .ok user =>
    if (s.devices.find? deviceId).isSome then (s, .error ⟨409, "Thiết bị đã tồn tại."⟩)
    else match canonicalPrekeys oneTimePrekeys with
      | .error text => (s, .error ⟨422, text⟩)
      | .ok keys =>
        if ¬ keys.Nodup then (s, .error ⟨422, "Bằng chứng khóa công khai không hợp lệ."⟩)
        else
          let device : E2eeDevice := ⟨deviceId, user.id, true, s.clock⟩
          (addPrekeys { s with devices := s.devices.insertNew device } deviceId keys, .ok device)

def prekeyReused : HttpError := ⟨422, "Không được sử dụng lại one-time prekey."⟩

/-- `update_e2ee_prekeys`: how many keys were added. -/
def updateE2eePrekeys (s : Relay) (userId deviceId : String) (oneTimePrekeys : List String)
    (refusal : Option HttpError) : Relay × Reply Nat :=
  match lockRequestMutation s userId refusal with
  | .error e => (s, .error e)
  | .ok user =>
    match (s.trustedDevice? deviceId).filter fun d => d.userId = user.id with
    | none => (s, .error ⟨404, "Không tìm thấy thiết bị tin cậy."⟩)
    | some device =>
      match canonicalPrekeys oneTimePrekeys with
      | .error _ => (s, .error ⟨422, "Prekey công khai không hợp lệ."⟩)
      | .ok keys =>
        if ¬ keys.Nodup ∨
            s.prekeys.any (fun p => p.deviceId = device.id && p.publicKey ∈ keys) then
          (s, .error prekeyReused)
        else
          let historical := s.prekeys.countP fun p => p.deviceId = device.id
          let available := s.prekeys.countP fun p =>
            p.deviceId = device.id && p.consumedAt = none
          if 100 < available + keys.length ∨ 10000 < historical + keys.length then
            (s, .error ⟨409, "Thiết bị đã đạt giới hạn lưu prekey."⟩)
          else (addPrekeys s device.id keys, .ok keys.length)

/-- `consumed_at = now` on the rows that satisfy `p`. -/
def consumeWhere (s : Relay) (p : E2eePreKey → Bool) : Relay :=
  { s with
    prekeys := s.prekeys.map fun k => if p k then { k with consumedAt := some s.clock } else k }

def bundleNotFound : HttpError := ⟨404, "Không tìm thấy prekey bundle."⟩

/-- `consume_prekey_bundle`: the device, and a one-time prekey if there is one left. The two `tie`
arguments settle which of several equally old rows the database returns. -/
def consumePrekeyBundle (s : Relay) (requesterId username : String) (deviceId : Option String)
    (refusal : Option HttpError) (tieDevice tieKey : Nat) :
    Relay × Reply (E2eeDevice × Option String) :=
  match lockRequestMutation s requesterId refusal with
  | .error e => (s, .error e)
  | .ok _ =>
    match (s.userByName? username).filter (·.isActive) with
    | none => (s, .error bundleNotFound)
    | some target =>
      let devices := s.devices.rows.filter fun d =>
        d.userId = target.id && d.trusted && (deviceId.filter (· ≠ "")).all (· = d.id)
      match oldest (·.createdAt) devices tieDevice with
      | none => (s, .error bundleNotFound)
      | some device =>
        let unconsumed := s.prekeys.filter fun p => p.deviceId = device.id && p.consumedAt = none
        match oldest (·.createdAt) unconsumed tieKey with
        | none => (s, .ok (device, none))
        | some candidate =>
          ({ consumeWhere s (fun p => p.id = candidate.id) with
            handedOut := s.handedOut ++ [(device.id, candidate.publicKey)] },
            .ok (device, some candidate.publicKey))

/-- `revoke_e2ee_device`. -/
def revokeE2eeDevice (s : Relay) (userId deviceId : String) (refusal : Option HttpError) :
    Relay × Reply Unit :=
  match lockRequestMutation s userId refusal with
  | .error e => (s, .error e)
  | .ok user =>
    match (s.trustedDevice? deviceId).filter fun d => d.userId = user.id with
    | none => (s, .error ⟨404, "Không tìm thấy thiết bị."⟩)
    | some device =>
      if (s.devices.rows.countP fun d => d.userId = user.id && d.trusted) ≤ 1 then
        (s, .error ⟨409, "Không thể thu hồi thiết bị E2EE tin cậy cuối cùng."⟩)
      else
        let devices := s.devices.modify
          (fun d => if d.id = device.id then { d with trusted := false } else d)
          fun d => by split <;> rfl
        let revoked := consumeWhere { s with devices := devices } fun p =>
          p.deviceId = device.id && p.consumedAt = none
        (advanceActiveEpochs revoked user.id, .ok ())

/-! ## Envelopes -/

def epochNotCurrent : HttpError := ⟨409, "Epoch E2EE không còn hiện hành."⟩
def quotaReached : HttpError := ⟨409, "Phiên đã đạt giới hạn bản mã."⟩
def replayed : HttpError := ⟨409, "Bản mã trùng hoặc đã được phát lại."⟩
def recipientNotFound : HttpError := ⟨404, "Không tìm thấy thiết bị nhận."⟩

/-- The recipient an upload must name, by its protocol and kind. -/
def expectedRecipient (row : ChatSession) (p : EnvelopeSend) : Reply String :=
  let device := p.recipientDeviceId.filter (· ≠ "")
  if p.protocol = protocolDoubleRatchet then
    match device with
    | some d =>
      if p.messageKind = .application then .ok d
      else .error ⟨422, "Double Ratchet cần recipient_device_id và message_kind=application."⟩
    | none => .error ⟨422, "Double Ratchet cần recipient_device_id và message_kind=application."⟩
  else if p.protocol = protocolMls then
    if p.messageKind = .welcome then
      match device with
      | some d => .ok d
      | none => .error ⟨422, "MLS welcome cần recipient_device_id."⟩
    else if p.recipientDeviceId ≠ none then
      .error ⟨422, "MLS application/commit phải định tuyến tới session."⟩
    else .ok row.id
  else .error ⟨422, "Giao thức E2EE không được hỗ trợ."⟩

/-- Whether an addressed device is a trusted device of an active member. -/
def recipientAllowed (s : Relay) (row : ChatSession) (p : EnvelopeSend) : Bool :=
  (p.recipientDeviceId.filter (· ≠ "")).all fun d =>
    (s.trustedDevice? d).any fun device => (s.activeMember? row.id device.userId).isSome

/-- The checks of `send_e2ee_envelope` before the insertion, in its order. -/
def checkEnvelope (s : Relay) (userId : String) (row : ChatSession) (member : ConversationMember)
    (p : EnvelopeSend) : Reply OpaqueEnvelope :=
  match (s.trustedDevice? p.senderDeviceId).filter fun d => d.userId = userId with
  | none => .error ⟨403, "Thiết bị gửi chưa được tin cậy."⟩
  | some _ =>
    if p.epoch < member.joinedEpoch ∨ p.epoch ≠ row.currentCryptoEpoch then .error epochNotCurrent
    else match expectedRecipient row p with
      | .error e => .error e
      | .ok expected =>
        if recipientAllowed s row p = false then .error recipientNotFound
        else match validateOpaqueEnvelope p expected with
          | .error text => .error ⟨422, text⟩
          | .ok envelope =>
            if cfg.maxMessagesPerSession ≤
                s.envelopes.rows.countP (fun e => e.sessionId = row.id) then .error quotaReached
            else .ok envelope

/-- The row of an accepted upload. -/
def envelopeRow (s : Relay) (userId : String) (row : ChatSession) (p : EnvelopeSend)
    (envelope : OpaqueEnvelope) (id : String) : E2eeEnvelope where
  id := id
  sessionId := row.id
  senderUserId := userId
  senderDeviceId := p.senderDeviceId
  recipientDeviceId := p.recipientDeviceId.filter (· ≠ "")
  protocol := envelope.protocol
  messageKind := p.messageKind
  clientMessageId := envelope.clientMessageId
  replayKey := digest ⟨envelope.clientMessageId, envelope.recipient, envelope.senderDeviceId⟩
  headerB64 := envelope.headerB64
  ciphertextB64 := envelope.ciphertextB64
  groupEpoch := envelope.epoch
  createdAt := s.clock

/-- The insertion, with the ghost record of it. -/
def storeEnvelope (s : Relay) (e : E2eeEnvelope) : Relay :=
  { s with
    envelopes := s.envelopes.insertNew e
    drawn := e.id :: s.drawn
    stored := s.stored ++ [e] }

/-- `send_e2ee_envelope`. The row's id is drawn by the server; `uq_e2ee_replay_guard` turns a
second row with one replay key into the conflict. -/
def sendE2eeEnvelope (s : Relay) (userId sessionId : String) (p : EnvelopeSend)
    (refusal : Option HttpError) (id : String) : Relay × Reply E2eeEnvelope :=
  match requirePrivateMemberSession cfg s userId sessionId refusal with
  | (s, .error e) => (s, .error e)
  | (s, .ok (row, member)) =>
    match checkEnvelope cfg s userId row member p with
    | .error e => (s, .error e)
    | .ok envelope =>
      let e := envelopeRow digest s userId row p envelope id
      if s.envelopes.rows.any fun x => x.replayKey = e.replayKey then (s, .error replayed)
      else (storeEnvelope s e, .ok e)

/-- Whether a device is served an envelope. -/
def servedTo (member : ConversationMember) (deviceId : String) (e : E2eeEnvelope) : Bool :=
  e.sessionId = member.sessionId && member.joinedEpoch ≤ e.groupEpoch &&
    (e.recipientDeviceId = some deviceId ||
      (e.recipientDeviceId = none && e.protocol = protocolMls))

def isHexDigit (c : Char) : Bool := ('0' ≤ c && c ≤ '9') || ('a' ≤ c && c ≤ 'f')

/-- `str(uuid.UUID(value)) == value`. -/
def isCanonicalUuid (value : String) : Bool :=
  let chars := value.toList
  chars.length = 36 &&
    (chars.zipIdx.all fun (c, i) => if i ∈ [8, 13, 18, 23] then c = '-' else isHexDigit c)

/-- `receive_e2ee_envelopes`. -/
def receiveE2eeEnvelopes (s : Relay) (userId sessionId deviceId : String) (after : Option Int)
    (afterId : Option String) (limit : Nat) (refusal : Option HttpError) :
    Relay × Reply (List E2eeEnvelope) :=
  match requirePrivateMemberSession cfg s userId sessionId refusal with
  | (s, .error e) => (s, .error e)
  | (s, .ok (_, member)) =>
    match (s.trustedDevice? deviceId).filter fun d => d.userId = userId with
    | none => (s, .error recipientNotFound)
    | some device =>
      let served := s.envelopes.rows.filter (servedTo member device.id)
      match after, afterId with
      | none, none => (s, .ok (served.take limit))
      | none, some _ => (s, .error ⟨422, "after_id cần đi cùng timestamp after."⟩)
      | some time, some id =>
        if isCanonicalUuid id = false then
          (s, .error ⟨422, "after_id phải là UUID canonical."⟩)
        else (s, .ok ((served.filter fun e => toLex (time, id) < e.cursor).take limit))
      | some time, none =>
        if 1 < (served.filter fun e => e.createdAt = time).length then
          (s, .error ⟨409, "Timestamp có nhiều bản mã; hãy gửi thêm after_id."⟩)
        else (s, .ok ((served.filter fun e => time < e.createdAt).take limit))

/-! ## The system -/

/-- The prekey sweep of `enforce_retention`: a batch of the consumed rows. -/
def sweepPrekeys (s : Relay) (prekeyIds : List Nat) : Relay :=
  let due (p : E2eePreKey) : Bool := p.consumedAt.isSome && p.id ∈ prekeyIds
  { s with
    prekeys := s.prekeys.filter fun p => !due p
    sweptKeys := s.sweptKeys ++ (s.prekeys.filter due).map fun p => (p.deviceId, p.publicKey) }

/-- `enforce_retention` on conversations and prekeys; a batch is some of the rows due. -/
def enforceRetention (s : Relay) (sessionIds : List String) (prekeyIds : List Nat) : Relay :=
  let expired := (s.sessions.rows.filter fun c =>
    c.id ∈ sessionIds && c.retentionExpiresAt ≤ s.clock).map (·.id)
  sweepPrekeys (expired.foldl dropSession s) prekeyIds

/-- What can happen next. The UUIDs of conversations and envelopes are drawn by the server. -/
inductive Action where
  | tick (microseconds : Nat)
  | register (id username : String) (mfaEnabled : Bool)
  | setMfa (userId : String) (mfaEnabled : Bool)
  | updateStatus (targetId : String) (isActive : Bool) (refusal : Option HttpError)
  | createSession (userId : String) (mode : SecurityMode) (classification : String)
      (refusal : Option HttpError) (id : String)
  | updateSecurity (userId sessionId : String) (mode : SecurityMode) (classification : String)
      (hasMessages : Bool) (refusal : Option HttpError)
  | deleteSession (userId sessionId : String) (refusal : Option HttpError)
  | addMember (ownerId sessionId username : String) (refusal : Option HttpError)
  | removeMember (ownerId sessionId username : String) (refusal : Option HttpError)
  | registerDevice (userId deviceId : String) (keys : List String) (refusal : Option HttpError)
  | updatePrekeys (userId deviceId : String) (keys : List String) (refusal : Option HttpError)
  | bundle (requesterId username : String) (deviceId : Option String)
      (refusal : Option HttpError) (tieDevice tieKey : Nat)
  | revokeDevice (userId deviceId : String) (refusal : Option HttpError)
  | send (userId sessionId : String) (p : EnvelopeSend) (refusal : Option HttpError) (id : String)
  | receive (userId sessionId deviceId : String) (after : Option Int) (afterId : Option String)
      (limit : Nat) (refusal : Option HttpError)
  | state (userId sessionId : String) (refusal : Option HttpError)
  | retention (sessionIds : List String) (prekeyIds : List Nat)
  deriving DecidableEq, Repr

/-- The store after an action; `none` where it draws a UUID that was drawn before. -/
def stepRelay (s : Relay) : Action → Option Relay
  | .tick d => some { s with clock := s.clock + d }
  | .register id username mfaEnabled =>
      if id ∈ s.drawn ∨ (s.userByName? username).isSome then none
      else some { s with
        users := s.users.insertNew ⟨id, username, true, mfaEnabled⟩
        drawn := id :: s.drawn }
  | .setMfa userId mfaEnabled =>
      let users := s.users.modify
        (fun u => if u.id = userId then { u with mfaEnabled := mfaEnabled } else u)
        fun u => by split <;> rfl
      some { s with users := users }
  | .updateStatus targetId isActive refusal => some (updateUserStatus s targetId isActive refusal).1
  | .createSession userId mode classification refusal id =>
      if id ∈ s.drawn then none
      else some (createSession cfg s userId mode classification refusal id).1
  | .updateSecurity userId sessionId mode classification hasMessages refusal =>
      some (updateSessionSecurity cfg s userId sessionId mode classification hasMessages refusal).1
  | .deleteSession userId sessionId refusal => some (deleteSession cfg s userId sessionId refusal).1
  | .addMember ownerId sessionId username refusal =>
      some (addE2eeMember cfg s ownerId sessionId username refusal).1
  | .removeMember ownerId sessionId username refusal =>
      some (removeE2eeMember cfg s ownerId sessionId username refusal).1
  | .registerDevice userId deviceId keys refusal =>
      some (registerE2eeDevice s userId deviceId keys refusal).1
  | .updatePrekeys userId deviceId keys refusal =>
      some (updateE2eePrekeys s userId deviceId keys refusal).1
  | .bundle requesterId username deviceId refusal tieDevice tieKey =>
      some (consumePrekeyBundle s requesterId username deviceId refusal tieDevice tieKey).1
  | .revokeDevice userId deviceId refusal => some (revokeE2eeDevice s userId deviceId refusal).1
  | .send userId sessionId p refusal id =>
      if id ∈ s.drawn ∨ isCanonicalUuid id = false then none
      else some (sendE2eeEnvelope cfg digest s userId sessionId p refusal id).1
  | .receive userId sessionId deviceId after afterId limit refusal =>
      some (receiveE2eeEnvelopes cfg s userId sessionId deviceId after afterId limit refusal).1
  | .state userId sessionId refusal => some (e2eeSessionState cfg s userId sessionId refusal).1
  | .retention sessionIds prekeyIds => some (enforceRetention s sessionIds prekeyIds)

/-- The relay from an empty database on. -/
def relaySystem : System Relay Action :=
  System.ofFun (fun s => ∃ clock, s = Relay.initial clock) (stepRelay cfg digest)

end Scap.E2ee
