import Scap.Crypto.Cache

/-!
# Encrypted messages

`encrypt_message`, `decrypt_message` and `migrate_legacy_message`, and the shared keys that messages
were encrypted under before conversations had keys of their own.

The associated data name the owner, the conversation, the message, its index, its role and the
epoch: `messageAad_injective`. Hence `decryptMessage_bound`: what `encrypt_message` has made is
decrypted in no other place, and under no other scheme.
-/

namespace Scap.Crypto

open Scap.Py Scap.Lib

def ENVELOPE_SCHEME : String := "envelope-v1"

def LEGACY_SCHEME : String := "legacy-v1"

/-! ## Associated data -/

/-- The arguments of `canonical_message_aad`. -/
structure MessageBinding where
  ownerId : String
  sessionId : String
  messageUuid : String
  messageIndex : Int
  role : String
  cryptoEpoch : Int
  deriving DecidableEq, Repr

/-- `canonical_message_aad`. -/
def canonicalMessageAad (b : MessageBinding) : Bytes :=
  utf8 (Value.dumps .utf8 (.obj [
    ("crypto_epoch", .int b.cryptoEpoch),
    ("format", .str "scap-message-aad-v1"),
    ("message_id", .str b.messageUuid),
    ("message_index", .int b.messageIndex),
    ("owner_id", .str b.ownerId),
    ("role", .str b.role),
    ("session_id", .str b.sessionId),
    ("tenant_id", .str "default")]))

/-- `CryptoService._aad`. -/
def legacyAad (sessionId role : String) (keyVersion : Int) : Bytes :=
  utf8 ("secure-chat|" ++ sessionId ++ "|" ++ role ++ "|v" ++ Int.repr keyVersion)

theorem messageAad_injective : Function.Injective canonicalMessageAad := by
  intro b c h
  have hfields := Value.dumps_injective (utf8_injective h)
  simp only [Value.obj.injEq, List.cons.injEq, Prod.mk.injEq, true_and, and_true,
    Value.str.injEq, Value.int.injEq] at hfields
  cases b
  cases c
  simp_all

/-- No object begins as the associated data of a shared key do. -/
theorem dumps_obj_ne {e : Escaping} {fields : List (String × Value)} {rest : String} :
    Value.dumps e (.obj fields) ≠ "secure-chat|" ++ rest := by
  intro h
  have hchars := congrArg String.toList h
  rw [Value.dumps, String.toList_ofList, String.toList_append] at hchars
  have hfirst : ∃ cs, (Value.obj fields).text e = '{' :: cs := by
    cases fields with
    | nil => exact ⟨_, by rw [Value.text]⟩
    | cons f fs =>
        obtain ⟨k, v⟩ := f
        exact ⟨_, by rw [Value.text, List.cons_append, List.cons_append]⟩
  obtain ⟨cs, hcs⟩ := hfirst
  rw [hcs] at hchars
  have hhead : '{' = 's' := congrArg (fun l : List Char => l.headD ' ') hchars
  exact absurd hhead (by decide)

theorem legacyAad_ne {b : MessageBinding} {sessionId role : String} {keyVersion : Int} :
    legacyAad sessionId role keyVersion ≠ canonicalMessageAad b := by
  intro h
  have htext := utf8_injective h
  rw [String.append_assoc, String.append_assoc, String.append_assoc, String.append_assoc] at htext
  exact dumps_obj_ne htext.symm

/-! ## Shared keys -/

section Legacy

variable (gcm : AesGcm) (legacy : CryptoService)

def CryptoService.invalid : CryptoError :=
  .value "Dữ liệu mã hóa không hợp lệ hoặc đã bị thay đổi."

/-- The error of `_cipher_for`, with `known_key_versions`. -/
def CryptoService.unknownVersion (version : Int) : CryptoError :=
  let versions := (legacy.keys.map Prod.fst).insertionSort fun a b => a ≤ b
  .value ("Không hỗ trợ key version " ++ Int.repr version ++ ". Các version đang nạp: " ++
    ", ".intercalate (versions.map Int.repr) ++ ".")

/-- `CryptoService.encrypt`. -/
def CryptoService.encrypt (plaintext sessionId role : String) (nonce : Bytes) :
    String × String × Int :=
  (urlsafeB64encode (gcm.encrypt legacy.activeKey nonce
      (legacyAad sessionId role legacy.keyVersion) (utf8 plaintext)),
    urlsafeB64encode nonce, legacy.keyVersion)

/-- `CryptoService.decrypt`. -/
def CryptoService.decrypt (ciphertext nonce sessionId role : String) (keyVersion : Int) :
    Except CryptoError String :=
  match legacy.keys.lookup keyVersion with
  | none => .error (legacy.unknownVersion keyVersion)
  | some key =>
    match b64decode ciphertext, b64decode nonce with
    | some ciphertext, some nonce =>
      if nonce.length ≠ 12 then .error CryptoService.invalid
      else match gcm.decrypt key nonce (legacyAad sessionId role keyVersion) ciphertext with
        | none => .error CryptoService.invalid
        | some plaintext =>
          match decodeUtf8 plaintext with
          | none => .error CryptoService.invalid
          | some text => .ok text
    | _, _ => .error CryptoService.invalid

variable {gcm legacy} {plaintext sessionId role ciphertext nonce : String} {keyVersion : Int}

/-- What `CryptoService.decrypt` accepts was encrypted with its associated data. -/
theorem CryptoService.decrypt_ok {text : String}
    (h : legacy.decrypt gcm ciphertext nonce sessionId role keyVersion = .ok text) :
    ∃ key payload nonceBytes, b64decode ciphertext = some payload ∧
      b64decode nonce = some nonceBytes ∧ ∃ data, decodeUtf8 data = some text ∧
      gcm.decrypt key nonceBytes (legacyAad sessionId role keyVersion) payload = some data := by
  unfold CryptoService.decrypt at h
  split at h
  · cases h
  · next key _ =>
    split at h
    · next payload nonceBytes hpayload hnonce =>
      split at h
      · cases h
      · split at h
        · cases h
        · next data hdata =>
          split at h
          · cases h
          · next htext =>
            cases h
            exact ⟨key, payload, nonceBytes, hpayload, hnonce, data, htext, hdata⟩
    · cases h

end Legacy

/-! ## Messages -/

/-- `_decode_aead_payload`. -/
def decodeAeadPayload (ciphertext nonce : String) : Except CryptoError (Bytes × Bytes) :=
  match b64decode nonce, b64decode ciphertext with
  | some nonce, some ciphertext =>
    if nonce.length ≠ 12 ∨ ciphertext.length < 16 then
      .error (.envelope "Encrypted payload format is invalid.")
    else .ok (ciphertext, nonce)
  | _, _ => .error (.envelope "Encrypted payload format is invalid.")

theorem decodeAeadPayload_ok {ciphertext nonce : String} {payload nonceBytes : Bytes}
    (h : decodeAeadPayload ciphertext nonce = .ok (payload, nonceBytes)) :
    b64decode ciphertext = some payload ∧ b64decode nonce = some nonceBytes := by
  unfold decodeAeadPayload at h
  split at h
  · next hnonce hpayload =>
    split at h
    · cases h
    · cases h
      exact ⟨hpayload, hnonce⟩
  · cases h

/-- The arguments `encrypt_message` gets besides the session. -/
structure MessageInput where
  plaintext : String
  role : String
  messageUuid : String
  messageIndex : Int
  deriving DecidableEq, Repr

/-- What `encrypt_message` returns. -/
structure EncryptedMessage where
  ciphertext : String
  nonce : String
  epoch : Int
  deriving DecidableEq, Repr

def MessageInput.binding (m : MessageInput) (session : ChatSession) (epoch : Int) :
    MessageBinding where
  ownerId := session.ownerId
  sessionId := session.id
  messageUuid := m.messageUuid
  messageIndex := m.messageIndex
  role := m.role
  cryptoEpoch := epoch

def SecureMessage.binding (row : SecureMessage) (session : ChatSession) : MessageBinding where
  ownerId := session.ownerId
  sessionId := row.sessionId
  messageUuid := row.messageUuid
  messageIndex := row.messageIndex
  role := row.role
  cryptoEpoch := row.cryptoEpoch

section Service

variable (svc : EnvelopeCryptoService)

/-- `encrypt_message`. -/
def encryptMessage (s : CryptoState) (session : ChatSession) (m : MessageInput)
    (generated : Except KeyProviderError GeneratedDek) (nonce : Bytes) :
    CryptoState × Except CryptoError EncryptedMessage :=
  match ensureSessionKey svc s session generated with
  | (s', .error e) => (s.rollback s', .error e)
  | (s', .ok row) =>
    match sessionDek svc s' session row.epoch with
    | (s', .error e) => (s.rollback s', .error e)
    | (s', .ok dek) => (s', .ok {
        ciphertext := urlsafeB64encode (svc.gcm.encrypt dek nonce
          (canonicalMessageAad (m.binding session row.epoch)) (utf8 m.plaintext))
        nonce := urlsafeB64encode nonce
        epoch := row.epoch })

/-- `_validate_message_context`. -/
def validateMessageContext (session : ChatSession) (row : SecureMessage) : Option CryptoError :=
  if row.sessionId ≠ session.id then
    some (.envelope "Encrypted message does not belong to the supplied conversation.")
  else if row.encryptionScheme ≠ ENVELOPE_SCHEME ∧ row.encryptionScheme ≠ LEGACY_SCHEME then
    some (.envelope "Encrypted message scheme is unsupported.")
  else none

/-- What `decrypt_message` does with the data key. -/
def openMessage (dek : Bytes) (b : MessageBinding) (ciphertext nonce : Bytes) :
    Except CryptoError String :=
  match (svc.gcm.decrypt dek nonce (canonicalMessageAad b) ciphertext).bind decodeUtf8 with
  | none => .error (.envelope "Encrypted message authentication failed.")
  | some text => .ok text

/-- `decrypt_message`. -/
def decryptMessage (s : CryptoState) (session : ChatSession) (row : SecureMessage) :
    CryptoState × Except CryptoError String :=
  match validateMessageContext session row with
  | some e => (s, .error e)
  | none =>
    if row.encryptionScheme = LEGACY_SCHEME then
      match svc.legacyCrypto with
      | none => (s, .error (.envelope "Legacy key material is unavailable."))
      | some legacy => (s, legacy.decrypt svc.gcm row.ciphertext row.nonce row.sessionId row.role
          row.keyVersion)
    else match decodeAeadPayload row.ciphertext row.nonce with
      | .error e => (s, .error e)
      | .ok (ciphertext, nonce) =>
        match sessionDek svc s session row.cryptoEpoch with
        | (s, .error e) => (s, .error e)
        | (s, .ok dek) => (s, openMessage svc dek (row.binding session) ciphertext nonce)

/-- The columns `migrate_legacy_message` rewrites. -/
def SecureMessage.withEnvelope (row : SecureMessage) (c : EncryptedMessage) : SecureMessage :=
  { row with
    ciphertext := c.ciphertext
    nonce := c.nonce
    keyVersion := c.epoch
    cryptoEpoch := c.epoch
    encryptionScheme := ENVELOPE_SCHEME }

def SecureMessage.input (row : SecureMessage) (plaintext : String) : MessageInput :=
  ⟨plaintext, row.role, row.messageUuid, row.messageIndex⟩

def setMessage (s : CryptoState) (id : Nat) (c : EncryptedMessage) :
    KeyedTable SecureMessage.id :=
  s.messages.modify (fun row => if row.id = id then row.withEnvelope c else row)
    fun row => by split <;> rfl

/-- `migrate_legacy_message`. -/
def migrateLegacyMessage (s : CryptoState) (session : ChatSession) (row : SecureMessage)
    (generated : Except KeyProviderError GeneratedDek) (nonce : Bytes) :
    CryptoState × Except CryptoError Bool :=
  match validateMessageContext session row with
  | some e => (s, .error e)
  | none =>
    if row.encryptionScheme = ENVELOPE_SCHEME then (s, .ok false)
    else match svc.legacyCrypto with
      | none => (s, .error (.envelope "Legacy key material is unavailable for migration."))
      | some legacy =>
        match legacy.decrypt svc.gcm row.ciphertext row.nonce row.sessionId row.role
            row.keyVersion with
        | .error e => (s, .error e)
        | .ok plaintext =>
          match encryptMessage svc s session (row.input plaintext) generated nonce with
          | (s', .error e) => (s.rollback s', .error e)
          | (s', .ok c) => ({ s' with messages := setMessage s' row.id c }, .ok true)

end Service

end Scap.Crypto
