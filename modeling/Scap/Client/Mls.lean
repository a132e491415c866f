import Mathlib
import Scap.Client.Private

/-!
# `MlsClient`

The operations of the group client. The native helper is a pure function of the state it is given;
what it returns takes effect when it is assigned.
-/

namespace Scap.Client

open Scap.Lib Scap.Py Proc

variable {L : Lib}

def maxReceivePages : Nat := 100

/-- `PROTOCOL_MLS`. -/
def protocolMls : Str := "mls-rfc9420"

/-! ## The data of the client -/

/-- `self.data`, of a client that is there. -/
def mlsData : M L (MlsData L) := do
  let m ← memory
  match m.state.mls with
  | some data => if m.ready && data.native.isSome then pure data else raise .other
  | none => raise .other

def setMls (f : MlsData L → MlsData L) : M L Unit := setState fun s => { s with mls := s.mls.map f }

/-- `result[key]`. -/
def field {α : Type} : Option α → M L α
  | some x => pure x
  | none => raise .value

/-- `_native`. -/
def callNative (op : NativeOp) (seed : L.Seed) : M L (NativeResult L.Native) := do
  requireHealthy
  let data ← mlsData
  ofExcept (L.native (← memory).deviceId data.native op seed)

def MlsData.blank : MlsData L := ⟨none, [], [], .empty, .empty, .empty, none, .empty⟩

/-- `MlsClient.__init__`. -/
def openMls (seed : L.Seed) : M L Out := do
  raiseIf ((← memory).ready = false) .other
  setState fun s => { s with mls := some (s.mls.getD MlsData.blank) }
  let m ← memory
  match m.state.mls.bind (·.native) with
  | some _ => pure .nothing
  | none => do
      requireHealthy
      let result ← ofExcept (L.native m.deviceId none .keyPackage seed)
      let native ← field result.state
      setMls fun d => { d with native := some native }
      let keyPackage ← field result.keyPackage
      setMls fun d => { d with keyPackage }
      let signingKey ← field result.signingKey
      setMls fun d => { d with signingKey }
      save
      pure .nothing

/-- `offer`; `server` is `self.client.server`. -/
def keyPackageOffer (server : Str) : M L Json := do
  requireHealthy
  let data ← mlsData
  let account ← theAccount
  let m ← memory
  let fields : List (String × Json) := [("server", .str server), ("username", .str m.username),
    ("account_id", .str m.accountId), ("device_id", .str m.deviceId),
    ("key_package", .str data.keyPackage), ("signing_key", .str data.signingKey)]
  let bytes ← ofExcept (L.canonical (Json.obj fields) "scap.mls.key-package.v1")
  pure (Json.obj (fields ++ [("signature", .str (L.sign account bytes))]))

/-- `_idle`. -/
def idle : M L Unit := do
  requireHealthy
  raiseIf ((← mlsData).outbox.isSome)
    (.client "Retry the pending MLS operation before preparing another.")

def refreshOffer (server : Str) (seed : L.Seed) : M L Json := do
  idle
  let result ← callNative .keyPackage seed
  let native ← field result.state
  let keyPackage ← field result.keyPackage
  setMls fun d => { d with native := some native, keyPackage }
  save
  keyPackageOffer server

/-- The fields of an offer. -/
def readOffer (j : Json) : Option Offer :=
  match j.getStr? "server", j.getStr? "username", j.getStr? "account_id", j.getStr? "device_id",
      j.getStr? "key_package", j.getStr? "signing_key", j.getStr? "signature" with
  | some server, some username, some account, some device, some keyPackage, some signingKey,
      some signature =>
      if j.keys.length = 7 then
        some ⟨server, username, account, device, keyPackage, signingKey, signature⟩
      else none
  | _, _, _, _, _, _, _ => none

/-- `isinstance(peer, dict)` and the pinned owner of an offer. -/
def ownsOffer (server : Str) (offer : Offer) (peer : Peer) : Except Err Bool :=
  if offer.server ≠ server ∨ peer.username ≠ offer.username then .ok false
  else match peer.userId with
    | some id => .ok (id.eqStr offer.accountId)
    | none => .error .value

def pinOffer (server : Str) (j : Json) : M L Out := do
  requireHealthy
  match readOffer j with
  | none => raise (.client "Invalid MLS KeyPackage offer.")
  | some offer => do
      match (← memory).state.peers.get offer.deviceId with
      | none => raise (.client "Pin the device fingerprint before accepting its MLS offer.")
      | some peer => do
          raiseIf ((← ofExcept (ownsOffer server offer peer)) = false)
            (.client "Pin the device fingerprint before accepting its MLS offer.")
          let bytes ← ofExcept (L.canonical (Json.obj [("server", .str offer.server),
            ("username", .str offer.username), ("account_id", .str offer.accountId),
            ("device_id", .str offer.deviceId), ("key_package", .str offer.keyPackage),
            ("signing_key", .str offer.signingKey)]) "scap.mls.key-package.v1")
          raiseIf (L.verifyEd25519 peer.identityKey offer.signature bytes = false)
            (.client "Invalid MLS device signature.")
          let inspected ← ofExcept (L.inspect offer.keyPackage)
          raiseIf (inspected ≠ (offer.deviceId, offer.signingKey))
            (.client "MLS KeyPackage credential does not match its signed offer.")
          let data ← mlsData
          raiseIf ((data.pins.get offer.deviceId).any fun old => old.signingKey ≠ offer.signingKey)
            (.client "MLS identity changed; review in a new client profile.")
          setMls fun d => { d with pins := d.pins.set offer.deviceId offer }
          save
          pure .nothing

/-! ## Groups -/

def create (title : Str) (seed : L.Seed) : M L Out := do
  idle
  let row ← request (.createSession title)
  match row.getStr? "id" with
  | none => raise .value
  | some id => do
      let result ← callNative (.create id) seed
      let native ← field result.state
      let m ← memory
      setMls fun d => { d with
        native := some native
        groups := d.groups.set id ⟨1, .str m.accountId, m.deviceId⟩ }
      save
      pure (.conversation id)

/-- `_context`. -/
def mlsContext (conversation : Str) (epoch : Int) (messageId kind sender : Str) : Json :=
  .obj [("session_id", .str conversation), ("epoch", .int epoch),
    ("client_message_id", .str messageId), ("message_kind", .str kind),
    ("sender_device_id", .str sender)]

/-- The canonical bytes of a context, which are the associated data and the header. -/
def contextBytes (conversation : Str) (epoch : Int) (messageId kind sender : Str) :
    Except Err ByteArray :=
  L.canonical (mlsContext conversation epoch messageId kind sender) "scap.mls.context.v1"

/-- `_envelope`. -/
def mlsEnvelope (device conversation : Str) (epoch : Int) (kind message messageId : Str)
    (recipient : Option Str) : Except Err Envelope := do
  let header ← contextBytes (L := L) conversation epoch messageId kind device
  .ok ⟨protocolMls, recipient.getD conversation, recipient, .int epoch, messageId, device, kind,
    L.encodeBase64url header, message⟩

/-- The signing key that a device of a group must have. -/
def expectedKey (data : MlsData L) (device member : Str) : Option Str :=
  match data.pins.get member with
  | some pin => some pin.signingKey
  | none => if member = device then some data.signingKey else none

/-- `_roster`. -/
def checkRoster (data : MlsData L) (device : Str) (members : Option (List (Str × Str))) :
    Except Err Unit :=
  match members with
  | some (first :: rest) =>
      if (first :: rest).all fun p => expectedKey data device p.1 = some p.2 then .ok ()
      else .error (.client "MLS roster contains an unverified device or changed credential.")
  | _ => .error (.client "MLS roster contains an unverified device or changed credential.")

/-- `any(member["user_id"] == account and member["active"] for member in memberships)`. -/
def isActiveMember (account : Str) : List Json → Except Err Bool
  | [] => .ok false
  | member :: rest => do
      let user ← member.sub "user_id"
      if user.eqStr account then
        let active ← member.sub "active"
        if active.truthy then .ok true else isActiveMember account rest
      else isActiveMember account rest

/-- The digest of a ciphertext that the relay will hand back. -/
def recordOwn (conversation : Str) (envelope : Envelope) : M L Unit := do
  let m ← memory
  if envelope.recipientDeviceId = none ∨ envelope.recipientDeviceId = some m.deviceId then do
    let bytes ← ofExcept (L.encodeUtf8 envelope.ciphertext)
    setMls fun d =>
      let own := ((d.own.get conversation).getD .empty).set envelope.clientMessageId
        (L.sha256 bytes)
      { d with own := d.own.set conversation own }
  else pure ()

/-- Whether the relay says that it has the ciphertext. -/
def isDuplicate (status : Nat) : Body → Bool
  | .json j => status = 409 && hasDetail j replayVerdict
  | _ => false

/-- The upload of the envelopes that are left, each acknowledged in a save of its own. -/
def postEnvelopes (conversation : Str) (use : Use L) : List Envelope → M L Unit
  | [] => pure ()
  | envelope :: rest => do
      let (status, body) ← requestResponse (.envelope conversation envelope use)
      raiseIf (status ≠ 201 ∧ isDuplicate status body = false)
        (.client s!"MLS ciphertext remains pending (HTTP {status}).")
      recordOwn conversation envelope
      setMls fun d => { d with outbox := d.outbox.map fun p => { p with envelopes := rest } }
      save
      postEnvelopes conversation use rest

/-- Whether the row of the relay shows the membership change of a pending commit. -/
def settled (pending : MlsPending L) (change : Membership) (members : Json) : Except Err Unit := do
  let refused : Err := .client "Membership acknowledgement does not match the pending MLS commit."
  let items ← members.items
  match ← findItem "user_id" change.accountId items with
  | none => .error refused
  | some row => do
      let epoch ← row.sub (if change.remove then "removed_epoch" else "joined_epoch")
      if epoch.eqInt pending.epoch = false then .error refused
      else do
        let active ← row.sub "active"
        if active.eqInt (if change.remove then 1 else 0) then .error refused else .ok ()

/-- The membership change of a pending commit, and its acknowledgement. -/
def settleMembership (pending : MlsPending L) (change : Membership) (routingEpoch : Json) :
    M L Unit := do
  let _ ← (if routingEpoch.eqInt (pending.epoch - 1) then
      request (if change.remove then .removeMember pending.conversation change.username
        else .addMember pending.conversation change.username)
    else if routingEpoch.eqInt pending.epoch then pure .null
    else raise (.client "Membership changed concurrently; keep this profile for recovery."))
  let members ← request (.members pending.conversation)
  ofExcept (settled pending change members)

/-- `MlsClient.flush`. -/
def flushMls : M L Out := do
  requireHealthy
  match (← mlsData).outbox with
  | none => pure (.delivered false)
  | some pending => do
      let routing ← request (.state pending.conversation)
      let epoch ← ofExcept (routing.sub "epoch")
      (match pending.membership with
        | some change => settleMembership pending change epoch
        | none => raiseIf (epoch.eqInt pending.epoch = false)
            (.client <| "MLS epoch changed before ciphertext delivery; " ++
              "keep the pending outbox."))
      postEnvelopes pending.conversation pending.use pending.envelopes
      setMls fun d => { d with outbox := none }
      save
      pure (.delivered false)

/-- `change_member`, with the identifiers that its envelopes draw. -/
def changeMember (conversation device : Str) (remove : Bool) (messageId welcomeId : Str)
    (seed : L.Seed) : M L Out := do
  idle
  let data ← mlsData
  let own := (← memory).deviceId
  match data.groups.get conversation, data.pins.get device, data.native with
  | some group, some pin, some before => do
      raiseIf (group.ownerDevice ≠ own)
        (.client "Only the group owner can change a fingerprint-pinned member.")
      let routing ← request (.state conversation)
      let current ← ofExcept (routing.sub "epoch")
      raiseIf (current.eqInt group.epoch = false)
        (.client "MLS membership epoch changed; receive pending commits before sending.")
      let memberships ← request (.members conversation)
      let items ← ofExcept memberships.items
      let active ← ofExcept (isActiveMember pin.accountId items)
      raiseIf (active ≠ remove) (.client <| "This MLS client supports one device per account; " ++
          "membership does not match the requested action.")
      let epoch := group.epoch + 1
      let context ← ofExcept (contextBytes (L := L) conversation epoch messageId "commit" own)
      let aad := L.encodeBase64url context
      let result ← callNative (if remove then .remove conversation aad device
        else .add conversation aad pin.keyPackage) seed
      ofExcept (checkRoster data own result.members)
      let reached ← field result.epoch
      raiseIf (reached + 1 ≠ epoch) (.client "MLS group and relay epoch disagree.")
      let commit ← field result.commit
      let first ← ofExcept
        (mlsEnvelope (L := L) own conversation epoch "commit" commit messageId none)
      let others ← (if remove then pure []
        else do
          let welcome ← field result.welcome
          let envelope ← ofExcept (mlsEnvelope (L := L) own conversation epoch "welcome" welcome
            welcomeId (some device))
          pure [envelope])
      let native ← field result.state
      setMls fun d => { d with
        native := some native
        groups := d.groups.set conversation { group with epoch }
        outbox := some ⟨conversation, epoch, some ⟨pin.username, pin.accountId, remove⟩,
          first :: others, ⟨.native, .native before, .native native, context⟩⟩ }
      save
      flushMls
  | _, _, _ => raise (.client "Only the group owner can change a fingerprint-pinned member.")

/-- `MlsClient.send`. -/
def sendMls (conversation text messageId : Str) (seed : L.Seed) : M L Out := do
  idle
  raiseIf (text = [] ∨ 8000 < text.length) (.client "Message must contain 1–8000 characters.")
  let data ← mlsData
  let own := (← memory).deviceId
  match data.groups.get conversation, data.native with
  | some group, some before => do
      let routing ← request (.state conversation)
      let current ← ofExcept (routing.sub "epoch")
      raiseIf (current.eqInt group.epoch = false)
        (.client "Receive the current MLS epoch before sending.")
      let epoch := group.epoch
      let plaintext ← ofExcept (L.encodeUtf8 text)
      let context ← ofExcept
        (contextBytes (L := L) conversation epoch messageId "application" own)
      let result ← callNative (.send conversation (L.encodeBase64url context)
        (L.encodeBase64url plaintext)) seed
      let reached ← field result.epoch
      raiseIf (reached + 1 ≠ epoch) (.client "MLS group and relay epoch disagree.")
      let native ← field result.state
      setMls fun d => { d with native := some native }
      let message ← field result.message
      let envelope ← ofExcept
        (mlsEnvelope (L := L) own conversation epoch "application" message messageId none)
      setMls fun d => { d with
        outbox := some ⟨conversation, epoch, none, [envelope],
          ⟨.native, .native before, .native native, plaintext⟩⟩ }
      save
      flushMls
  | _, _ => raise (.client "Receive the current MLS epoch before sending.")

/-! ## Receiving -/

/-- The fields of an MLS row that are checked first. -/
structure MlsRow where
  id : Str
  createdAt : Str
  sender : Str
  kind : Str
  messageId : Str
  header : Str
  ciphertext : Str
  epoch : Int
  recipient : Option Json

def messageKinds : List Str := ["application", "commit", "welcome"]

def readMlsRow (row : Json) : Except Err MlsRow :=
  if !(row.get? "protocol").any (·.eqStr protocolMls) then
    .error (.client "Unexpected protocol in an MLS group.")
  else match row.getStr? "id", row.getStr? "created_at", row.getStr? "sender_device_id",
      row.getStr? "message_kind", row.getStr? "client_message_id", row.getStr? "header",
      row.getStr? "ciphertext", row.get? "group_epoch" with
  | some id, some created, some sender, some kind, some messageId, some header, some ciphertext,
      some (.int epoch) =>
      if messageKinds.contains kind = false ∨ epoch < 1 then
        .error (.client "Invalid MLS envelope or cursor.")
      else .ok ⟨id, created, sender, kind, messageId, header, ciphertext, epoch,
        row.get? "recipient_device_id"⟩
  | _, _, _, _, _, _, _, _ => .error (.client "Invalid MLS envelope or cursor.")

/-- Whether the row comes after the cursor. -/
def afterCursor (previous : Option (Str × Str)) (row : MlsRow) : Except Err Unit :=
  let refused : Err := .client "Invalid or replayed MLS envelope cursor."
  if isUuid row.id = false then .error refused
  else match L.fromIsoFormat row.createdAt with
    | .error _ => .error refused
    | .ok time =>
      match previous with
      | none => .ok ()
      | some (created, id) =>
        match L.fromIsoFormat created with
        | .error _ => .error refused
        | .ok prior => if time < prior ∨ (time = prior ∧ row.id ≤ id) then .error refused else .ok ()

/-- What a row comes to: an acknowledgement of one's own, nothing, or a new native state. -/
inductive Opened (L : Lib) where
  | own
  | skipped
  | processed (native : L.Native) (received : Option Received)

/-- The checks on what the native helper returns. -/
def acceptResult (data : MlsData L) (device : Str) (row : MlsRow)
    (result : NativeResult L.Native) : Except Err (Opened L) := do
  checkRoster data device result.members
  match result.epoch, result.state with
  | some epoch, some native =>
      if epoch + 1 ≠ row.epoch ∨ result.active = false then
        .error (.client "MLS epoch is inconsistent or this device was removed.")
      else if result.kind = some (Str.ofString "application") then
        match result.plaintext with
        | none => .error .value
        | some plaintext => do
            let bytes ← L.decodeBase64Strict (.str plaintext) false 32768
            let text ← L.decodeUtf8 bytes
            .ok (.processed native (some ⟨row.sender, text⟩))
      else .ok (.processed native none)
  | _, _ => .error .value

/-- Bytes are compared as lists, which the kernel does faster. -/
local instance decideBytes : DecidableEq ByteArray := fun a b =>
  decidable_of_iff (a.data.toList = b.data.toList) (by rw [Array.toList_inj, ByteArray.ext_iff])

/-- A row of another device. -/
def openForeign (m : Mem L) (data : MlsData L) (conversation : Str) (row : MlsRow)
    (ownerDevice : Str) (seed : L.Seed) : Except Err (Opened L) := do
  let aad ← contextBytes (L := L) conversation row.epoch row.messageId row.kind row.sender
  let header ← L.decodeBase64Strict (.str row.header) false 16384
  if header ≠ aad then .error (.client "MLS routing context mismatch.")
  else if row.kind ≠ Str.ofString "application" ∧ row.sender ≠ ownerDevice then
    .error (.client "Only the pinned owner may commit this MLS group's membership.")
  else if row.kind = Str.ofString "welcome" then
    if (data.groups.get conversation).isSome ∨
        row.recipient.any (·.eqStr m.deviceId) = false then
      .error (.client "Unexpected or replayed MLS Welcome.")
    else do
      let result ← L.native m.deviceId data.native (.join conversation row.ciphertext) seed
      if result.welcomeSender ≠ some ownerDevice then
        .error (.client "MLS Welcome was not signed by the pinned group owner.")
      else acceptResult data m.deviceId row result
  else if data.groups.get conversation = none ∧ row.kind = Str.ofString "commit" then .ok .skipped
  else do
    let result ← L.native m.deviceId data.native (.receive conversation row.ciphertext) seed
    if result.kind ≠ some row.kind ∨ result.senderDevice ≠ some row.sender ∨
        result.aad ≠ some (L.encodeBase64url aad) then
      .error (.client "Authenticated MLS sender/context does not match relay metadata.")
    else acceptResult data m.deviceId row result

/-- Everything that `_receive_one` does before it changes anything. -/
def openMlsRow (m : Mem L) (data : MlsData L) (conversation : Str) (j : Json) (ownerDevice : Str)
    (draw : Str → L.Seed) : Except Err (MlsRow × Opened L) := do
  let row ← readMlsRow j
  afterCursor (L := L) (data.cursors.get conversation) row
  if row.sender = m.deviceId then
    let bytes ← L.encodeUtf8 row.ciphertext
    if ((data.own.get conversation).bind (·.get row.messageId)) ≠ some (L.sha256 bytes) then
      .error (.client "Unrecognized self-sent MLS ciphertext.")
    else .ok (row, .own)
  else do
    let opened ← openForeign m data conversation row ownerDevice (draw row.id)
    .ok (row, opened)

/-- `del own[conversation][message_id]`, and the conversation if it was the last. -/
def forgetOwn (own : Dict Str (Dict Str Str)) (conversation messageId : Str) :
    Dict Str (Dict Str Str) :=
  let rest := ((own.get conversation).getD .empty).pop messageId
  if rest.rows = [] then own.pop conversation else own.set conversation rest

/-- What a row that has been opened changes. The native state is assigned before the answer of the
relay is asked for the owner of the conversation. -/
def applyOpened (conversation : Str) (row : MlsRow) (ownerDevice : Str) (routing : Json) :
    Opened L → M L (Option Received)
  | .own => do
      setMls fun d => { d with own := forgetOwn d.own conversation row.messageId }
      pure none
  | .skipped => pure none
  | .processed native received => do
      setMls fun d => { d with native := some native }
      let ownerId ← ofExcept (routing.sub "owner_id")
      setMls fun d => { d with
        groups := d.groups.set conversation ⟨row.epoch, ownerId, ownerDevice⟩ }
      pure received

/-- `_receive_one`. -/
def receiveMlsRow (conversation ownerDevice : Str) (routing : Json) (draw : Str → L.Seed)
    (j : Json) : M L (Option Received) := do
  requireHealthy
  let data ← mlsData
  let (row, opened) ← ofExcept (openMlsRow (← memory) data conversation j ownerDevice draw)
  let received ← applyOpened conversation row ownerDevice routing opened
  setMls fun d => { d with cursors := d.cursors.set conversation (row.createdAt, row.id) }
  save
  pure received

/-- The rows of a page, up to the first that raises. -/
def receiveMlsRows (conversation ownerDevice : Str) (routing : Json) (draw : Str → L.Seed) :
    List Json → M L (List Received × Option Err)
  | [] => pure ([], none)
  | j :: rest => do
      match ← attempt (receiveMlsRow conversation ownerDevice routing draw j) with
      | .error e => pure ([], some e)
      | .ok received => do
          let (more, stop) ← receiveMlsRows conversation ownerDevice routing draw rest
          pure (received.toList ++ more, stop)

def readMlsPage (page : Json) : Except Err (List Json) :=
  match page with
  | .list rows =>
      if receivePageSize < rows.length then .error (.client "Invalid MLS envelope list.")
      else .ok rows
  | _ => .error (.client "Invalid MLS envelope list.")

def nextMlsPage (conversation : Str) : M L (List Json) := do
  let data ← mlsData
  let page ← request (.envelopes conversation (← memory).deviceId (data.cursors.get conversation))
  ofExcept (readMlsPage page)

/-- How the pages of a `receive` end. -/
inductive Stop where
  | complete
  | budget
  | raised (e : Err)

/-- The pages, up to the first that raises; `fuel` of them. -/
def receiveMlsPages (conversation ownerDevice : Str) (routing : Json) (draw : Str → L.Seed) :
    Nat → M L (List Received × Stop)
  | 0 => pure ([], .budget)
  | fuel + 1 => do
      match ← attempt (nextMlsPage conversation) with
      | .error e => pure ([], .raised e)
      | .ok rows => do
          let (received, stop) ← receiveMlsRows conversation ownerDevice routing draw rows
          match stop with
          | some e => pure (received, .raised e)
          | none =>
            if rows.length < receivePageSize then pure (received, .complete)
            else do
              let (more, stop) ← receiveMlsPages conversation ownerDevice routing draw fuel
              pure (received ++ more, stop)

/-- The device whose commits are accepted. -/
def ownerOf (data : MlsData L) (conversation : Str) (ownerDevice : Option Str) (routing : Json) :
    Except Err Str :=
  match data.groups.get conversation with
  | some group => .ok group.ownerDevice
  | none =>
    match ownerDevice with
    | none => .error (.client "Provide the pinned group owner device before joining.")
    | some device =>
      match data.pins.get device with
      | none => .error (.client "Provide the pinned group owner device before joining.")
      | some pin => do
          let owner ← routing.sub "owner_id"
          if owner.eqStr pin.accountId then .ok device
          else .error (.client "Provide the pinned group owner device before joining.")

def mlsReceiveMessage : String :=
  "Receiving stopped; earlier messages are returned. Check the next ciphertext and retry."

def budgetMessage : String := "Receive batch budget reached; run receive again to continue."

/-- `MlsClient.receive`. -/
def receiveMls (conversation : Str) (ownerDevice : Option Str) (draw : Str → L.Seed) :
    M L (List Received) := do
  idle
  let routing ← request (.state conversation)
  let owner ← ofExcept (ownerOf (← mlsData) conversation ownerDevice routing)
  modify fun m => { m with mlsLastReceiveError := none }
  let (messages, stop) ← receiveMlsPages conversation owner routing draw maxReceivePages
  match stop with
  | .complete => pure messages
  | .budget => do
      modify fun m => { m with mlsLastReceiveError := some budgetMessage }
      pure messages
  | .raised e =>
    if e.caught = false ∨ messages = [] then raise e
    else do
      modify fun m => { m with mlsLastReceiveError := some mlsReceiveMessage }
      pure messages

/-! ## Operations -/

/-- The operations of both clients, with what they draw; `server` is the configuration's. -/
inductive Op (L : Lib) where
  | openPrivate (server : Str) (seed : L.Seed) (newDevice : Str)
  | registrationOffer (displayName : Str) (seed : L.Seed)
  | approve (offer : Json)
  | registerDevice (approval : Option Json) (seed : L.Seed)
  | refill (count : Nat) (seed : L.Seed)
  | pinPeer (username expected : Str) (device : Option Str)
  | newConversation (peerUsername title : Str)
  | stepUp (body : Json)
  | prepare (conversation peerDevice text messageId : Str) (session encryption : L.Seed)
  | flush
  | send (conversation peerDevice text messageId : Str) (session encryption : L.Seed)
  | decrypt (conversation : Str) (envelope : Json)
  | receive (conversation : Str)
  | openMls (seed : L.Seed)
  | offer (server : Str)
  | refreshOffer (server : Str) (seed : L.Seed)
  | pinOffer (server : Str) (offer : Json)
  | create (title : Str) (seed : L.Seed)
  | changeMember (conversation device : Str) (remove : Bool) (messageId welcomeId : Str)
      (seed : L.Seed)
  | sendMls (conversation text messageId : Str) (seed : L.Seed)
  | flushMls
  | receiveMls (conversation : Str) (ownerDevice : Option Str) (draw : Str → L.Seed)

/-- What an operation answers with, as the caller sees it. -/
def Op.run : Op L → M L Out
  | .openPrivate server seed newDevice => Client.openPrivate server seed newDevice
  | .registrationOffer displayName seed => do
      return .json (← Client.registrationOffer displayName seed)
  | .approve j => do return .json (← Client.approve j)
  | .registerDevice approval seed => do return .json (← Client.registerDevice approval seed)
  | .refill count seed => do return .json (← Client.refill count seed)
  | .pinPeer username expected device => do
      let _ ← Client.pinPeer username expected device
      return .nothing
  | .newConversation peerUsername title => do
      return .conversation (← Client.newConversation peerUsername title)
  | .stepUp body => do return .json (← request (.stepUp body))
  | .prepare conversation peerDevice text messageId session encryption => do
      let _ ← Client.prepare conversation peerDevice text messageId session encryption
      return .nothing
  | .flush => Client.flush
  | .send conversation peerDevice text messageId session encryption => do
      let _ ← Client.prepare conversation peerDevice text messageId session encryption
      Client.flush
  | .decrypt conversation envelope => do
      return .messages [← Client.decrypt conversation envelope true]
  | .receive conversation => do return .messages (← Client.receive conversation)
  | .openMls seed => Client.openMls seed
  | .offer server => do return .json (← keyPackageOffer server)
  | .refreshOffer server seed => do return .json (← Client.refreshOffer server seed)
  | .pinOffer server j => Client.pinOffer server j
  | .create title seed => Client.create title seed
  | .changeMember conversation device remove messageId welcomeId seed =>
      Client.changeMember conversation device remove messageId welcomeId seed
  | .sendMls conversation text messageId seed => Client.sendMls conversation text messageId seed
  | .flushMls => Client.flushMls
  | .receiveMls conversation ownerDevice draw => do
      return .messages (← Client.receiveMls conversation ownerDevice draw)

/-- A new Olm session has a name that the vault does not have. -/
def FreshSession (m : Mem L) (conversation peerDevice : Str) (session : L.Seed) : Prop :=
  ∀ account signed oneTime, m.state.sessions.get (ratchetName (ratchetKey conversation peerDevice)
    (L.sessionId (L.createOutbound account signed oneTime session))) = none

def Op.draws (m : Mem L) : Op L → Prop
  | .prepare conversation peerDevice _ _ session _ => FreshSession m conversation peerDevice session
  | .send conversation peerDevice _ _ session _ => FreshSession m conversation peerDevice session
  | _ => True

/-- The two clients of a device over one vault. -/
def software (L : Lib) :
    Software (Mem L) (Vault L) (Request L) Answer Err Out (Op L) where
  ops := Op.run
  snap m := m.state
  load := Mem.load L
  draws := Op.draws

end Scap.Client
