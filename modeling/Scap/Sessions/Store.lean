import Scap.E2ee.Routes
import Scap.Sessions.Policy

/-!
# Conversations with their server-side content

`Store` is the relay together with what the server itself can read: the messages of the plaintext
modes, the key epochs they are encrypted under and the active wrapped key of a conversation. The
routes of the relay that leave the policy alone are those of `Scap.E2ee`; `cascade` deletes the
server-side rows of the conversations that they delete.

The key provider and the seal are arguments: `generated` is what `generate_wrapped_dek` returns, or
`none` if it fails, and `sealed` a ciphertext, or `none` if the key cannot be unwrapped. `answer` is
what the AI service answers, or its refusal.
-/

namespace Scap.Sessions

open Scap.Lib Scap.E2ee

/-! ## Rows -/

inductive Role where
  | user
  | assistant
  deriving DecidableEq, Repr

/-- `encryption_scheme`. -/
inductive Scheme where
  | envelopeV1
  | legacyV1
  deriving DecidableEq, Repr

structure SecureMessage where
  sessionId : String
  role : Role
  messageIndex : Nat
  ciphertext : String
  cryptoEpoch : Nat
  encryptionScheme : Scheme
  deriving DecidableEq, Repr

/-- `uq_secure_message_index`. -/
def SecureMessage.key (m : SecureMessage) : String ×ₗ Nat := toLex (m.sessionId, m.messageIndex)

/-- What the provider returns of a new key that is stored. -/
structure WrappedDek where
  wrappedDek : String
  kekUri : String
  kekVersion : String
  deriving DecidableEq, Repr

structure SessionKeyEpoch where
  sessionId : String
  epoch : Nat
  wrapped : WrappedDek
  deriving DecidableEq, Repr

/-- `uq_session_key_epoch`. -/
def SessionKeyEpoch.key (k : SessionKeyEpoch) : String ×ₗ Nat := toLex (k.sessionId, k.epoch)

/-- The columns `wrapped_dek`, `kek_uri` and `kek_version` of a conversation that has them. -/
structure ActiveKey where
  sessionId : String
  wrapped : WrappedDek
  deriving DecidableEq, Repr

structure Store where
  relay : Relay
  messages : KeyedTable SecureMessage.key
  keyEpochs : KeyedTable SessionKeyEpoch.key
  activeKeys : KeyedTable ActiveKey.sessionId

/-- The relay's tables after `relay`, and the server-side rows of the conversations left. -/
def cascade (s : Store) (relay : Relay) : Store where
  relay := relay
  messages := s.messages.filter fun m => (relay.sessions.find? m.sessionId).isSome
  keyEpochs := s.keyEpochs.filter fun k => (relay.sessions.find? k.sessionId).isSome
  activeKeys := s.activeKeys.filter fun k => (relay.sessions.find? k.sessionId).isSome

/-! ## Keys -/

/-- `session.current_crypto_epoch = epoch`. -/
def setEpoch (relay : Relay) (sessionId : String) (epoch : Nat) : Relay :=
  { relay with
    sessions := relay.sessions.modify
      (fun c => if c.id = sessionId then { c with currentCryptoEpoch := epoch } else c)
      fun c => by split <;> rfl }

/-- The columns of the active key of a conversation. -/
def setActiveKey (s : Store) (sessionId : String) (wrapped : WrappedDek) : Store :=
  { s with
    activeKeys := (s.activeKeys.filter fun k => k.sessionId ≠ sessionId).insertNew
      ⟨sessionId, wrapped⟩ }

def keyRefused : HttpError := ⟨500, "Private E2EE sessions cannot have server-side DEKs."⟩
def keyNotCreated : HttpError := ⟨500, "Unable to create a protected conversation key."⟩
def keyConflict : HttpError := ⟨500, "UNIQUE(session_id, epoch)"⟩
def keyUnavailable : HttpError := ⟨500, "Unable to unwrap the conversation key."⟩

/-- `ensure_session_key`: the store and the conversation with its current epoch. -/
def ensureSessionKey (s : Store) (row : ChatSession) (generated : Option WrappedDek) :
    Reply (Store × ChatSession) :=
  if row.securityMode = .privateE2ee then .error keyRefused
  else if 0 < row.currentCryptoEpoch ∧
      s.keyEpochs.hasKey (toLex (row.id, row.currentCryptoEpoch)) = true then .ok (s, row)
  else
    match generated with
    | none => .error keyNotCreated
    | some wrapped =>
      let epoch := row.currentCryptoEpoch + 1
      match s.keyEpochs.insert? ⟨row.id, epoch, wrapped⟩ with
      | none => .error keyConflict
      | some keyEpochs =>
        let s := { s with relay := setEpoch s.relay row.id epoch, keyEpochs := keyEpochs }
        .ok (setActiveKey s row.id wrapped, { row with currentCryptoEpoch := epoch })

/-- What `encrypt_message` stores and returns: the epoch is that of the conversation. -/
def encryptMessage (s : Store) (row : ChatSession) (generated : Option WrappedDek)
    (sealed : Option String) : Reply (Store × ChatSession × String) :=
  match ensureSessionKey s row generated with
  | .error e => .error e
  | .ok (s, row) =>
    match sealed with
    | none => .error keyUnavailable
    | some ciphertext => .ok (s, row, ciphertext)

/-! ## Conversations -/

variable (cfg : Settings) (digest : ReplayPayload → String)

/-- `create_session_endpoint`. The relay's row has the epoch that `ensure_session_key` reaches from
a new conversation's 0. -/
def createSession (s : Store) (userId : String) (payload : PolicyPayload)
    (refusal : Option HttpError) (generated : Option WrappedDek) (id : String) :
    Store × Reply ChatSession :=
  match payload.validate with
  | .error text => (s, .error ⟨422, text⟩)
  | .ok (mode, d) =>
    match E2ee.createSession cfg s.relay userId mode d.value refusal id with
    | (_, .error e) => (s, .error e)
    | (relay, .ok row) =>
      let created := { s with relay := relay }
      if row.securityMode = .privateE2ee then (created, .ok row)
      else
        match ensureSessionKey created { row with currentCryptoEpoch := 0 } generated with
        | .error _ => (s, .error ⟨503, "Không thể khởi tạo khóa hội thoại an toàn."⟩)
        | .ok (created, row) => (created, .ok row)

/-- The key epochs and the active key go when a conversation turns private. -/
def dropKeys (s : Store) (sessionId : String) : Store :=
  { s with
    keyEpochs := s.keyEpochs.filter fun k => k.sessionId ≠ sessionId
    activeKeys := s.activeKeys.filter fun k => k.sessionId ≠ sessionId }

def Store.hasMessages (s : Store) (sessionId : String) : Bool :=
  s.messages.rows.any fun m => m.sessionId = sessionId

/-- `update_session_security`. -/
def updateSessionSecurity (s : Store) (userId sessionId : String) (payload : PolicyPayload)
    (refusal : Option HttpError) (generated : Option WrappedDek) : Store × Reply Unit :=
  match payload.validate with
  | .error text => (s, .error ⟨422, text⟩)
  | .ok (mode, d) =>
    match s.relay.sessions.find? sessionId, E2ee.updateSessionSecurity cfg s.relay userId sessionId
        mode d.value (s.hasMessages sessionId) refusal with
    | none, _ => (s, .error sessionNotFound)
    | some _, (relay, .error e) => (cascade s relay, .error e)
    | some row, (relay, .ok ()) =>
      let updated := { s with relay := relay }
      if row.securityMode = mode then (updated, .ok ())
      else if mode = .privateE2ee then (dropKeys updated row.id, .ok ())
      else if row.securityMode = .privateE2ee then
        -- the conversation is at epoch 0 here; the members went with the relay's rows
        match ensureSessionKey updated { row with securityMode := mode, currentCryptoEpoch := 0 }
            generated with
        | .error e => (s, .error e)
        | .ok (updated, _) => (updated, .ok ())
      else (updated, .ok ())

/-! ## Messages -/

/-- `next_message_index`. -/
def nextMessageIndex (s : Store) (sessionId : String) : Nat :=
  ((s.messages.rows.filter fun m => m.sessionId = sessionId).map (·.messageIndex)).foldl max 0 + 1

/-- `ChatService.chat`: the two rows of an exchange. -/
def chat (s : Store) (row : ChatSession) (answer : Reply Unit) (generated : Option WrappedDek)
    (sealedUser sealedAssistant : Option String) : Reply Store :=
  if row.securityMode = .privateE2ee then
    .error ⟨403, "Private E2EE không cho phép máy chủ nhận plaintext hoặc gọi AI tự động."⟩
  else
    match answer with
    | .error e => .error e
    | .ok () =>
      let firstIndex := nextMessageIndex s row.id
      match encryptMessage s row generated sealedUser with
      | .error e => .error e
      | .ok (s, row, userCiphertext) =>
        match encryptMessage s row generated sealedAssistant with
        | .error e => .error e
        | .ok (s, row', assistantCiphertext) =>
          .ok { s with
            messages := (s.messages.insertNew ⟨row.id, .user, firstIndex, userCiphertext,
              row.currentCryptoEpoch, .envelopeV1⟩).insertNew ⟨row.id, .assistant, firstIndex + 1,
              assistantCiphertext, row'.currentCryptoEpoch, .envelopeV1⟩ }

/-- `send_message_endpoint`. An error of `chat` closes the transaction without a commit. -/
def sendMessage (s : Store) (userId sessionId : String) (refusal : Option HttpError)
    (answer : Reply Unit) (generated : Option WrappedDek)
    (sealedUser sealedAssistant : Option String) : Store × Reply Unit :=
  match requireOwnedSession cfg s.relay userId sessionId refusal with
  | (relay, .error e) => (cascade s relay, .error e)
  | (_, .ok row) =>
    let existing := s.messages.rows.countP fun m => m.sessionId = row.id
    if cfg.maxMessagesPerSession < existing + 2 then
      (s, .error ⟨409, "Phiên đã đạt giới hạn tin nhắn."⟩)
    else
      match chat s row answer generated sealedUser sealedAssistant with
      | .error e => (s, .error e)
      | .ok s => (s, .ok ())

/-- One row of an export. -/
inductive ExportItem where
  | opaqueE2ee (e : E2eeEnvelope)
  | message (m : SecureMessage)
  deriving DecidableEq, Repr

/-- `stream_session_export`. -/
def streamSessionExport (s : Store) (row : ChatSession) : List ExportItem :=
  if row.securityMode = .privateE2ee then
    (s.relay.envelopes.rows.filter fun e => e.sessionId = row.id).map .opaqueE2ee
  else (s.messages.rows.filter fun m => m.sessionId = row.id).map .message

/-- `export_session_endpoint`; a download with a ticket streams the same. -/
def exportSession (s : Store) (userId sessionId : String) (refusal : Option HttpError) :
    Store × Reply (List ExportItem) :=
  match requireOwnedSession cfg s.relay userId sessionId refusal with
  | (relay, .error e) => (cascade s relay, .error e)
  | (_, .ok row) => (s, .ok (streamSessionExport s row))

/-! ## Maintenance -/

/-- `migrate_legacy_message`, which the migration script skips for private conversations. -/
def migrateLegacyMessage (s : Store) (m : SecureMessage) (generated : Option WrappedDek)
    (sealed : Option String) : Store :=
  match s.messages.find? m.key, s.relay.sessions.find? m.sessionId with
  | some m, some row =>
    if row.securityMode = .privateE2ee ∨ m.encryptionScheme = .envelopeV1 then s
    else
      match encryptMessage s row generated sealed with
      | .error _ => s
      | .ok (s, row, ciphertext) =>
        { s with
          messages := s.messages.modify
            (fun x => if x.key = m.key then
              { x with
                ciphertext := ciphertext
                cryptoEpoch := row.currentCryptoEpoch
                encryptionScheme := .envelopeV1 } else x)
            fun x => by split <;> rfl }
  | _, _ => s

/-- `rewrap_session_keys`, for a conversation whose active key is set. -/
def rewrapSessionKeys (s : Store) (sessionId : String) (rewrap : WrappedDek → WrappedDek) : Store :=
  let keyEpochs := s.keyEpochs.modify
    (fun k => if k.sessionId = sessionId then { k with wrapped := rewrap k.wrapped } else k)
    fun k => by split <;> rfl
  match s.relay.sessions.find? sessionId, s.activeKeys.find? sessionId with
  | some row, some _ =>
    match keyEpochs.find? (toLex (sessionId, row.currentCryptoEpoch)) with
    | some k => setActiveKey { s with keyEpochs := keyEpochs } sessionId k.wrapped
    | none => { s with keyEpochs := keyEpochs }
  | _, _ => s

/-! ## The system -/

/-- What can happen next. `relay` is any step of the relay but for the two that set a policy, which
are steps of their own. -/
inductive Action where
  | relay (a : E2ee.Action)
  | createSession (userId : String) (payload : PolicyPayload) (refusal : Option HttpError)
      (generated : Option WrappedDek) (id : String)
  | updateSecurity (userId sessionId : String) (payload : PolicyPayload)
      (refusal : Option HttpError) (generated : Option WrappedDek)
  | sendMessage (userId sessionId : String) (refusal : Option HttpError) (answer : Reply Unit)
      (generated : Option WrappedDek) (sealedUser sealedAssistant : Option String)
  | exportSession (userId sessionId : String) (refusal : Option HttpError)
  | migrateMessage (m : SecureMessage) (generated : Option WrappedDek) (sealed : Option String)
  | rewrapKeys (sessionId : String) (rewrap : WrappedDek → WrappedDek)

/-- The relay's actions that set the policy of a conversation. -/
def setsPolicy : E2ee.Action → Bool
  | .createSession .. => true
  | .updateSecurity .. => true
  | _ => false

/-- The store after an action. -/
def stepStore (s : Store) : Action → Option Store
  | .relay a => if setsPolicy a then none else (stepRelay cfg digest s.relay a).map (cascade s)
  | .createSession userId payload refusal generated id =>
      if id ∈ s.relay.drawn then none
      else some (createSession cfg s userId payload refusal generated id).1
  | .updateSecurity userId sessionId payload refusal generated =>
      some (updateSessionSecurity cfg s userId sessionId payload refusal generated).1
  | .sendMessage userId sessionId refusal answer generated sealedUser sealedAssistant =>
      some (sendMessage cfg s userId sessionId refusal answer generated sealedUser
        sealedAssistant).1
  | .exportSession userId sessionId refusal =>
      some (exportSession cfg s userId sessionId refusal).1
  | .migrateMessage m generated sealed => some (migrateLegacyMessage s m generated sealed)
  | .rewrapKeys sessionId rewrap => some (rewrapSessionKeys s sessionId rewrap)

/-- A database as an upgrade leaves it: accounts, and conversations from before the security modes,
with the defaults of the new columns and messages under the legacy key. -/
structure Upgraded (s : Store) : Prop where
  users : ∀ u ∈ s.relay.users.rows, u.id ∈ s.relay.drawn
  sessions : ∀ c ∈ s.relay.sessions.rows, c.id ∈ s.relay.drawn ∧ c.securityMode = .secure ∧
    c.dataClassification = DataClass.internal.value ∧ c.currentCryptoEpoch = 0
  members : s.relay.members.rows = []
  envelopes : s.relay.envelopes.rows = []
  messages : ∀ m ∈ s.messages.rows, m.encryptionScheme = .legacyV1 ∧
    ∃ c ∈ s.relay.sessions.rows, c.id = m.sessionId
  keyEpochs : s.keyEpochs.rows = []
  activeKeys : s.activeKeys.rows = []

/-- The store from an upgraded database on; an empty one is one. -/
def storeSystem : System Store Action := System.ofFun Upgraded (stepStore cfg digest)

end Scap.Sessions
