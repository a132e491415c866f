import Scap.Client.Vault

/-!
# `PrivateClient`

The operations of the Olm client, each with what it draws at random.
-/

namespace Scap.Client

open Scap.Lib Scap.Py Proc

variable {L : Lib}

def maxClientSessions : Nat := 256
def receivePageSize : Nat := 100

/-- The verdict of the relay on a ciphertext that it has already. -/
def replayVerdict : Str := "Bản mã trùng hoặc đã được phát lại."

/-- `detail == verdict` of an answer that may be no object. -/
def hasDetail (j : Json) (verdict : Str) : Bool := (j.get? "detail").any fun d => d.eqStr verdict

def isDict : Json → Bool
  | .dict _ => true
  | _ => false

/-! ## The account -/

/-- `PrivateClient.__init__`; `server` has passed `checked_server`. -/
def openPrivate (server : Str) (seed : L.Seed) (newDevice : Str) : M L Out := do
  raiseIf ((← memory).ready) .other
  let me ← request .me
  match me.getStr? "id", me.getStr? "username" with
  | some id, some username => do
      let state := (← memory).state
      raiseIf (state.binding.getD (server, id) ≠ (server, id))
        (.client "This profile belongs to a different server or account.")
      let account := state.account.getD (L.newAccount seed)
      let device := state.deviceId.getD newDevice
      modify fun m => { m with
        state := { m.state with binding := some (server, id), deviceId := some device }
        account := some account
        deviceId := device
        accountId := id
        username }
      save
      modify fun m => { m with ready := true }
      pure .nothing
  | _, _ => raise .value

def setAccount (account : L.Account) : M L Unit := modify fun m => { m with account := some account }

/-- `generate_one_time_keys`, if there are none. -/
def ensureOneTimeKeys (count : Nat) (seed : L.Seed) : M L L.Account := do
  let account ← theAccount
  if L.oneTimeKeys account = [] then
    let account := L.generateOneTimeKeys account count seed
    setAccount account
    pure account
  else pure account

def registrationOffer (displayName : Str) (seed : L.Seed) : M L Json := do
  requireHealthy
  let challenge ← request .challenge
  let account ← ensureOneTimeKeys 20 seed
  let m ← memory
  let challengeId ← ofExcept (challenge.sub "id")
  let value ← ofExcept (challenge.sub "challenge")
  let statement ← ofExcept (L.possessionMessage m.accountId m.deviceId (L.identity account) value)
  let offer := Json.obj [
    ("challenge_id", challengeId), ("challenge", value), ("device_id", .str m.deviceId),
    ("display_name", .str displayName), ("identity_key", .str (L.identity account)),
    ("possession_signature", .str (L.sign account statement)),
    ("signed_prekey", .str (L.encodeBase64url (L.curve account))),
    ("signed_prekey_signature", .str (L.sign account (L.curve account))),
    ("one_time_prekeys", .list ((L.oneTimeKeys account).map .str))]
  setState fun s => { s with registrationOffer := some offer }
  save
  pure offer

def approve (offer : Json) : M L Json := do
  requireHealthy
  match offer.getStr? "device_id", offer.getStr? "identity_key", offer.getStr? "challenge" with
  | some device, some identity, some challenge => do
      let account ← theAccount
      let m ← memory
      let statement ← ofExcept
        (L.approvalMessage m.accountId m.deviceId device identity challenge)
      pure (Json.obj [("approver_device_id", .str m.deviceId),
        ("approval_signature", .str (L.sign account statement))])
  | _, _, _ => raise (.client "Invalid device approval offer.")

/-- `next(item for item in items if item[key] == value)`. -/
def findItem (key : String) (value : Str) : List Json → Except Err (Option Json)
  | [] => .ok none
  | item :: rest =>
      match item.sub key with
      | .error e => .error e
      | .ok x => if x.eqStr value then .ok (some item) else findItem key value rest

/-- `mark_keys_as_published`, and the offer is done with. -/
def finishRegistration : M L Unit := do
  let account ← theAccount
  setAccount (L.markKeysAsPublished account)
  setState fun s => { s with registrationOffer := none }
  save

/-- `{**offer, **(approval or {})}`. -/
def merged : Json → Json → Json
  | .dict fs, .dict gs => .dict (gs ++ fs.filter fun f => f.1 ∉ gs.map Prod.fst)
  | offer, _ => offer

def registerDevice (approval : Option Json) (seed : L.Seed) : M L Json := do
  requireHealthy
  raiseIf (approval.any fun a => !isDict a) (.client "Invalid device approval.")
  let devices ← request .devices
  let account ← theAccount
  let m ← memory
  let items ← ofExcept devices.items
  let existing ← ofExcept (findItem "id" m.deviceId items)
  let fingerprint ← ofExcept (L.fingerprint (L.identity account))
  match existing with
  | some device => do
      let trust ← ofExcept (device.sub "trust_state")
      let shown ← ofExcept (device.sub "fingerprint")
      raiseIf (!trust.eqStr "trusted" || !shown.eqStr fingerprint)
        (.client <| "This device was revoked or its identity changed; " ++
          "review before registering a new profile.")
      finishRegistration
      pure device
  | none => do
      let offer ← (match m.state.registrationOffer with
        | some offer => pure offer
        | none => registrationOffer "Private client" seed)
      let result ← request (.registerDevice (merged offer (approval.getD (.dict []))))
      let shown ← ofExcept (result.sub "fingerprint")
      raiseIf (!shown.eqStr fingerprint)
        (.client "Server device identity does not match the local key.")
      finishRegistration
      pure result

/-- The batch that is to be uploaded: the pending one or a new one. -/
def prekeyBatch (count : Nat) (seed : L.Seed) : M L (List Str) := do
  match (← memory).state.prekeyUpload with
  | some prekeys => pure prekeys
  | none => do
      let account ← ensureOneTimeKeys count seed
      setState fun s => { s with prekeyUpload := some (L.oneTimeKeys account) }
      pure (L.oneTimeKeys account)

/-- Whether the relay says that it has the batch of a retry. -/
def alreadyUploaded (retrying : Bool) (status : Nat) : Body → Bool
  | .json j => retrying && status = 422 && hasDetail j "Không được sử dụng lại one-time prekey."
  | _ => false

/-- What the answer to an upload means. -/
def uploadResult (device : Str) (retrying : Bool) (status : Nat) (body : Body) : Except Err Json :=
  if status < 400 then body.parse
  else if alreadyUploaded retrying status body then
    .ok (Json.obj [("device_id", .str device), ("added", .int 0), ("already_uploaded", .bool true)])
  else .error (.client
    s!"Prekey upload remains pending (HTTP {status}); authenticate/step up or retry.")

/-- `refill`; a batch is there before the call exactly if it has been attempted. -/
def refill (count : Nat) (seed : L.Seed) : M L Json := do
  requireHealthy
  raiseIf (count = 0 ∨ 100 < count) (.client "Prekey count must be between 1 and 100.")
  let challenge ← request .challenge
  let retrying := (← memory).state.prekeyUpload.isSome
  let prekeys ← prekeyBatch count seed
  let m ← memory
  let value ← ofExcept (challenge.sub "challenge")
  let listed := Json.list (prekeys.map .str)
  let signed := Json.obj [("account_id", .str m.accountId), ("device_id", .str m.deviceId),
    ("challenge", value), ("one_time_prekeys", listed), ("signed_prekey", .null),
    ("signed_prekey_signature", .null)]
  save
  let challengeId ← ofExcept (challenge.sub "id")
  let account ← theAccount
  let bytes ← ofExcept (L.canonical signed "scap.e2ee.prekey-update")
  let (status, body) ← requestResponse (.prekeys m.deviceId (Json.obj [
    ("challenge_id", challengeId), ("challenge", value), ("one_time_prekeys", listed),
    ("update_signature", .str (L.sign account bytes))]))
  let result ← ofExcept (uploadResult m.deviceId retrying status body)
  setAccount (L.markKeysAsPublished account)
  setState fun s => { s with prekeyUpload := none }
  save
  pure result

/-! ## Peers -/

/-- The checks of `pin_peer` on the bundle of the relay. -/
def readBundle (username expected : Str) (device : Option Str) (bundle : Json) :
    Except Err Peer := do
  match bundle.getStr? "device_id", bundle.getStr? "identity_key", bundle.getStr? "signed_prekey",
      bundle.getStr? "signed_prekey_signature" with
  | some deviceId, some identity, some signed, some signature =>
      if device.any fun d => deviceId ≠ d then
        .error (.client "Peer bundle does not match the requested device.")
      else if isUuid deviceId = false then .error (.client "Invalid peer device identity.")
      else do
        let actual ← L.fingerprint identity
        if actual.filter (· ≠ 32) ≠ expected then
          .error (.client "Fingerprint mismatch; do not trust this device.")
        else do
          let raw ← L.decodeBase64Strict (.str signed) true 32
          if L.verifyEd25519 identity signature raw = false then
            .error (.client "Invalid signed prekey.")
          else .ok ⟨deviceId, identity, signed, bundle.get? "one_time_prekey",
            bundle.get? "user_id", username, actual⟩
  | _, _, _, _ => .error (.client "Invalid peer prekey bundle.")

/-- `pin_peer`; `expected` is the fingerprint without whitespace, in upper case. -/
def pinPeer (username expected : Str) (device : Option Str) : M L Peer := do
  requireHealthy
  raiseIf (L.isFullFingerprint expected = false)
    (.client "Verify the full 64-hex fingerprint through another channel first.")
  let bundle ← request (.bundle username device)
  let peer ← ofExcept (readBundle (L := L) username expected device bundle)
  let peers := (← memory).state.peers
  raiseIf ((peers.get peer.deviceId).any fun p =>
      p.identityKey ≠ peer.identityKey || p.signedPrekey ≠ peer.signedPrekey)
    (.client "Peer identity changed; review it in a new client profile.")
  raiseIf (maxClientSessions ≤ peers.len ∧ peers.get peer.deviceId = none)
    (.client "Client peer budget exhausted.")
  setState fun s => { s with peers := s.peers.set peer.deviceId peer }
  save
  pure peer

def newConversation (peerUsername title : Str) : M L Str := do
  requireHealthy
  let row ← request (.createSession title)
  match row.getStr? "id" with
  | some id => do
      let _ ← request (.addMember id peerUsername)
      pure id
  | none => raise .value

/-! ## Sending -/

/-- The ratchets are named by conversation, peer and session. -/
def ratchetKey (conversation device : Str) : Str := conversation ++ Str.ofString ":" ++ device

def ratchetName (key session : Str) : Str := key ++ Str.ofString ":" ++ session

def offersPrekey (peer : Peer) : Bool := peer.oneTimePrekey.any Json.truthy

/-- A new session with a pinned peer. -/
def newRatchet (key peerDevice : Str) (peer : Peer) (seed : L.Seed) : M L (Str × L.Ratchet) := do
  let peer ← (if offersPrekey peer then pure peer
    else do
      let fingerprint ← ofExcept (L.fingerprint peer.identityKey)
      pinPeer peer.username (fingerprint.filter (· ≠ 32)) (some peerDevice))
  raiseIf (offersPrekey peer = false)
    (.client "Peer prekeys are exhausted; ask the peer to refill.")
  let account ← theAccount
  let signed ← ofExcept (L.nativeKey (.str peer.signedPrekey))
  let oneTime ← ofExcept (L.nativeKey (peer.oneTimePrekey.getD .null))
  let ratchet := L.createOutbound account signed oneTime seed
  setState fun s => { s with peers := s.peers.set peerDevice { peer with oneTimePrekey := some .null } }
  pure (ratchetName key (L.sessionId ratchet), ratchet)

def openRatchet (key peerDevice : Str) (peer : Peer) (seed : L.Seed) :
    M L (Str × L.Ratchet) := do
  let state := (← memory).state
  match state.active.get key with
  | some id =>
      match state.sessions.get id with
      | some ratchet => pure (id, ratchet)
      | none => raise .value
  | none => newRatchet key peerDevice peer seed

/-- What is encrypted for a message. -/
def boundMessage (conversation sender recipient : Str) (epoch : Json) (messageId text : Str) :
    Json :=
  .obj [("session_id", .str conversation), ("sender_device_id", .str sender),
    ("recipient_device_id", .str recipient), ("epoch", epoch),
    ("client_message_id", .str messageId), ("text", .str text)]

/-- The ciphertext and the ratchet that is past it go to the vault in one save. -/
def prepare (conversation peerDevice text messageId : Str) (session encryption : L.Seed) :
    M L Envelope := do
  requireHealthy
  raiseIf (text = [] ∨ 8000 < text.length) (.client "Message must contain 1–8000 characters.")
  let state := (← memory).state
  raiseIf (state.outbox.isSome)
    (.client "Retry the pending ciphertext before preparing another message.")
  match state.peers.get peerDevice with
  | none => raise (.client "Pin the peer fingerprint before sending.")
  | some peer => do
      let routing ← request (.state conversation)
      let key := ratchetKey conversation peerDevice
      let (id, ratchet) ← openRatchet key peerDevice peer session
      let m ← memory
      raiseIf (maxClientSessions ≤ m.state.sessions.len ∧ (m.state.sessions.get id).isNone)
        (.client "Client ratchet budget exhausted.")
      let account ← theAccount
      let epoch ← ofExcept (routing.sub "epoch")
      let bytes ← ofExcept (L.canonical
        (boundMessage conversation m.deviceId peerDevice epoch messageId text) "scap.e2ee.message")
      let (advanced, type, ciphertext) := L.encrypt ratchet bytes encryption
      let header := Json.obj [("schema", .str "scap.olm.v1"), ("type", .int type),
        ("curve_key", .str (L.encodeBase64url (L.curve account))), ("ratchet_id", .str (L.sessionId advanced))]
      let envelope : Envelope := ⟨"double-ratchet", peerDevice, some peerDevice, epoch, messageId,
        m.deviceId, "application", L.encodeBase64url (L.dumps header),
        L.encodeBase64url ciphertext⟩
      setState fun s => { s with
        sessions := s.sessions.set id advanced
        active := s.active.set key id
        outbox := some ⟨conversation, envelope,
          ⟨.ratchet id, .ratchet ratchet, .ratchet advanced, bytes⟩⟩ }
      save
      pure envelope

def flush : M L Out := do
  requireHealthy
  match (← memory).state.outbox with
  | none => pure .nothing
  | some pending => do
      match ← ask (.envelope pending.conversation pending.envelope pending.use) with
      | .failed => raise .value
      | .response status body => do
          let acknowledgement ← ofExcept (if status = 409 then body.parse else .ok .null)
          let duplicate := hasDetail acknowledgement replayVerdict
          raiseIf (status ≠ 201 ∧ duplicate = false) (.client
              s!"Ciphertext remains in the local outbox (HTTP {status}); use retry.")
          setState fun s => { s with outbox := none }
          save
          pure (.delivered duplicate)

/-! ## Receiving -/

/-- The fields of an Olm row that are checked first. -/
structure OlmRow where
  sender : Str
  recipient : Str
  protocol : Str
  header : Str
  ciphertext : Str
  messageId : Str
  epoch : Int

def readOlmRow (envelope : Json) : Except Err OlmRow :=
  match envelope.getStr? "sender_device_id", envelope.getStr? "recipient_device_id",
      envelope.getStr? "protocol", envelope.getStr? "header", envelope.getStr? "ciphertext",
      envelope.getStr? "client_message_id", envelope.get? "group_epoch" with
  | some sender, some recipient, some protocol, some header, some ciphertext, some messageId,
      some (.int epoch) =>
      if epoch < 0 then .error (.client "Invalid ciphertext envelope.")
      else .ok ⟨sender, recipient, protocol, header, ciphertext, messageId, epoch⟩
  | _, _, _, _, _, _, _ => .error (.client "Invalid ciphertext envelope.")

/-- The header names the ratchet and the type of the message. -/
def readHeader (peer : Peer) (header : Str) : Except Err (Str × Json) :=
  match (do let bytes ← L.decodeBase64Strict (.str header) false 1024; L.loads bytes : Except Err Json) with
  | .error e => .error (if e.caught then .client "Invalid ciphertext header." else e)
  | .ok j =>
    match j.getStr? "ratchet_id" with
    | none => .error (.client "Invalid ciphertext header.")
    | some ratchetId =>
      if ratchetId = [] ∨ 256 < ratchetId.length then .error (.client "Invalid ciphertext header.")
      else if !(j.get? "schema").any (·.eqStr "scap.olm.v1") ||
          !(j.get? "curve_key").any (·.eqStr peer.signedPrekey) then
        .error (.client "Sender key does not match the verified peer.")
      else .ok (ratchetId, (j.get? "type").getD .null)

/-- The fields that the authenticated payload has to repeat. -/
def repeatsRow (conversation device : Str) (row : OlmRow) (body : Json) : Bool :=
  (body.get? "session_id").any (·.eqStr conversation) &&
    (body.get? "sender_device_id").any (·.eqStr row.sender) &&
    (body.get? "recipient_device_id").any (·.eqStr device) &&
    (body.get? "epoch").any (·.eqInt row.epoch) &&
    (body.get? "client_message_id").any (·.eqStr row.messageId)

/-- The names of the fields of a payload. -/
def payloadKeys : List Str :=
  ["session_id", "sender_device_id", "recipient_device_id", "epoch", "client_message_id", "text"]

/-- The text of a payload that belongs to the row. -/
def payloadText (conversation device : Str) (row : OlmRow) (bound : Json) : Except Err Str :=
  match bound.get? "payload" with
  | some body =>
    if isDict body = false then .error (.client "Invalid authenticated message.")
    else match body.getStr? "text" with
      | some text =>
        if (bound.get? "schema").any (·.eqStr "scap.e2ee.message") &&
            (bound.get? "version").any (·.eqInt 1) && repeatsRow conversation device row body &&
            body.keys.all (payloadKeys.contains ·) && payloadKeys.all (body.keys.contains ·) &&
            text.length ≤ 8000 then .ok text
        else .error (.client "Authenticated message does not match its routing context.")
      | none => .error (.client "Authenticated message does not match its routing context.")
  | none => .error (.client "Invalid authenticated message.")

/-- What a ratchet of the vault, or a new one, makes of a message. -/
def decryptWith (state : Vault L) (account : L.Account) (peer : Peer) (name : Str)
    (message : L.Message) : Except Err (L.Account × L.Ratchet × ByteArray) :=
  match state.sessions.get name with
  | some ratchet => do
      let (advanced, plaintext) ← L.decrypt ratchet message
      .ok (account, advanced, plaintext)
  | none =>
      match L.toPreKey message with
      | none => .error (.client "Unknown ratchet; a verified prekey message is required.")
      | some prekey =>
        if maxClientSessions ≤ state.sessions.len then
          .error (.client "Unknown ratchet; a verified prekey message is required.")
        else do
          let key ← L.nativeKey (.str peer.signedPrekey)
          L.createInbound account key prekey

/-- Everything that `decrypt` does before it changes anything. -/
def openRow (m : Mem L) (account : L.Account) (conversation : Str) (envelope : Json) :
    Except Err (OlmRow × Str × L.Account × L.Ratchet × Str) := do
  let row ← readOlmRow envelope
  match m.state.peers.get row.sender with
  | none => .error (.client "Unverified sender; pin this device before receiving.")
  | some peer =>
    if row.recipient ≠ m.deviceId ∨ row.protocol ≠ Str.ofString "double-ratchet" then
      .error (.client "Ciphertext is addressed to a different client/protocol.")
    else do
      let (ratchetId, type) ← readHeader (L := L) peer row.header
      let ciphertext ← L.decodeBase64Strict (.str row.ciphertext) false 65536
      match type with
      | .int type =>
        if type ≠ 0 ∧ type ≠ 1 then .error (.client "Invalid Olm message type.")
        else do
          let message ← L.fromParts type ciphertext
          let name := ratchetName (ratchetKey conversation row.sender) ratchetId
          let (account, ratchet, plaintext) ← decryptWith m.state account peer name message
          if L.sessionId ratchet ≠ ratchetId then .error (.client "Ratchet identity mismatch.")
          else match L.loads plaintext with
            | .error e => .error (if e.caught then .client "Invalid authenticated message." else e)
            | .ok bound => do
              let text ← payloadText conversation m.deviceId row bound
              .ok (row, name, account, ratchet, text)
      | _ => .error (.client "Invalid Olm message type.")

def decrypt (conversation : Str) (envelope : Json) (persist : Bool) : M L Received := do
  requireHealthy
  let account ← theAccount
  let (row, name, account, ratchet, text) ← ofExcept
    (openRow (← memory) account conversation envelope)
  modify fun m => { m with
    account := some account
    state := { m.state with
      sessions := m.state.sessions.set name ratchet
      active := m.state.active.set (ratchetKey conversation row.sender) name } }
  (if persist then save else pure ())
  pure ⟨row.sender, text⟩

/-- The cursor that a row stands for. -/
def readCursor (envelope : Json) : Except Err (Str × Str) :=
  match envelope.getStr? "created_at", envelope.getStr? "id" with
  | some created, some id =>
      if created = [] ∨ id = [] then .error (.client "Invalid ciphertext cursor.")
      else .ok (created, id)
  | _, _ => .error (.client "Invalid ciphertext cursor.")

/-- One row of a page: its effect and the cursor go to the vault in one save. -/
def receiveRow (conversation : Str) (envelope : Json) : M L Received := do
  let cursor ← ofExcept (readCursor envelope)
  let received ← decrypt conversation envelope false
  setState fun s => { s with cursors := s.cursors.set conversation cursor }
  save
  pure received

/-- The rows of a page, up to the first that raises. -/
def receiveRows (conversation : Str) : List Json → M L (List Received × Option Err)
  | [] => pure ([], none)
  | envelope :: rest => do
      match ← attempt (receiveRow conversation envelope) with
      | .error e => pure ([], some e)
      | .ok received => do
          let (more, stop) ← receiveRows conversation rest
          pure (received :: more, stop)

def readPage (page : Json) : Except Err (List Json) :=
  match page with
  | .list rows =>
      if receivePageSize < rows.length then .error (.client "Invalid ciphertext page.")
      else .ok rows
  | _ => .error (.client "Invalid ciphertext page.")

def nextPage (conversation : Str) : M L (List Json) := do
  let m ← memory
  let page ← request (.envelopes conversation m.deviceId (m.state.cursors.get conversation))
  ofExcept (readPage page)

/-- The pages, up to the first that raises; `fuel` of them. -/
def receivePages (conversation : Str) : Nat → M L (List Received × Option Err)
  | 0 => pure ([], none)
  | fuel + 1 => do
      match ← attempt (nextPage conversation) with
      | .error e => pure ([], some e)
      | .ok rows => do
          let (received, stop) ← receiveRows conversation rows
          if stop.isSome ∨ rows.length < receivePageSize then pure (received, stop)
          else do
            let (more, stop) ← receivePages conversation fuel
            pure (received ++ more, stop)

def restartMessage : String :=
  "Client state could not be saved; close and reopen this profile before continuing."

def receiveMessage : String :=
  "Receiving stopped; earlier messages are returned. " ++
    "Retry after checking the next ciphertext or connection."

def receive (conversation : Str) : M L (List Received) := do
  requireHealthy
  modify fun m => { m with lastReceiveError := none }
  let (received, stop) ← receivePages conversation 100
  match stop with
  | none => pure received
  | some e =>
    if e.caught then do
      modify fun m => { m with
        lastReceiveError := some (if m.failed then restartMessage else receiveMessage) }
      if received = [] then raise e else pure received
    else raise e

end Scap.Client
