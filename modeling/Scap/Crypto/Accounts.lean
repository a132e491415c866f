import Scap.Crypto.Messages

/-!
# Account secrets

`encrypt_user_secret`, `decrypt_user_secret` and what the migration script does to the TOTP secret of
an account. Which of the two schemes a stored secret is read with depends on the account, not on the
secret: as soon as the account has a key of its own, every secret is read with that key.

`openSecret_legacy`: a secret encrypted under the shared key is then lost.
-/

namespace Scap.Crypto

open Scap.Py Scap.Lib

/-! ## Associated data -/

/-- `canonical_secret_aad`. -/
def canonicalSecretAad (userId field : String) (cryptoEpoch : Int) : Bytes :=
  utf8 (Value.dumps .ascii (.obj [
    ("crypto_epoch", .int cryptoEpoch),
    ("field", .str field),
    ("format", .str "scap-user-secret-aad-v1"),
    ("tenant_id", .str "default"),
    ("user_id", .str userId)]))

/-- `CryptoService._field_aad`. -/
def fieldAad (context : String) (keyVersion : Int) : Bytes :=
  utf8 ("secure-chat|field|" ++ context ++ "|v" ++ Int.repr keyVersion)

theorem fieldAad_ne {context userId field : String} {keyVersion cryptoEpoch : Int} :
    fieldAad context keyVersion ≠ canonicalSecretAad userId field cryptoEpoch := by
  intro h
  have htext := utf8_injective h
  have hsplit : "secure-chat|field|" = "secure-chat|" ++ "field|" := by decide
  rw [hsplit, String.append_assoc, String.append_assoc, String.append_assoc] at htext
  exact dumps_obj_ne htext.symm

/-! ## Shared keys -/

section Legacy

variable (gcm : AesGcm) (legacy : CryptoService)

def CryptoService.invalidSecret : CryptoError :=
  .value "Bí mật đã lưu không hợp lệ hoặc đã bị thay đổi."

/-- `CryptoService.encrypt_secret`. -/
def CryptoService.encryptSecret (plaintext context : String) (nonce : Bytes) : String × String :=
  (urlsafeB64encode (gcm.encrypt legacy.activeKey nonce (fieldAad context legacy.keyVersion)
      (utf8 plaintext)),
    urlsafeB64encode nonce)

/-- The versions `decrypt_secret` tries: the active one, then the others in order. -/
def CryptoService.versions (legacy : CryptoService) : List Int :=
  legacy.keyVersion ::
    ((legacy.keys.map Prod.fst).filter fun v => v ≠ legacy.keyVersion).insertionSort (· ≤ ·)

/-- One of the attempts of `decrypt_secret`. -/
def CryptoService.trySecret (ciphertext nonce : Bytes) (context : String) (version : Int) :
    Option String := do
  let key ← legacy.keys.lookup version
  let plaintext ← gcm.decrypt key nonce (fieldAad context version) ciphertext
  decodeUtf8 plaintext

/-- `CryptoService.decrypt_secret`. -/
def CryptoService.decryptSecret (ciphertext nonce context : String) : Except CryptoError String :=
  match b64decode ciphertext, b64decode nonce with
  | some ciphertext, some nonce =>
    if nonce.length ≠ 12 then .error CryptoService.invalidSecret
    else match legacy.versions.findSome? (legacy.trySecret gcm ciphertext nonce context) with
      | none => .error CryptoService.invalidSecret
      | some text => .ok text
  | _, _ => .error CryptoService.invalidSecret

end Legacy

/-- A secret under the active key is read again. -/
theorem CryptoService.decryptSecret_encryptSecret {gcm : AesGcm} {legacy : CryptoService}
    {plaintext context : String} {nonce : Bytes} (hlength : nonce.length = 12) :
    legacy.decryptSecret gcm (legacy.encryptSecret gcm plaintext context nonce).1
      (legacy.encryptSecret gcm plaintext context nonce).2 context = .ok plaintext := by
  have hactive : legacy.trySecret gcm (gcm.encrypt legacy.activeKey nonce
      (fieldAad context legacy.keyVersion) (utf8 plaintext)) nonce context legacy.keyVersion =
      some plaintext := by
    unfold trySecret
    simp only [legacy.active, gcm.decrypt_encrypt, Option.bind_eq_bind, Option.bind_some,
      decodeUtf8_utf8]
  unfold decryptSecret encryptSecret
  simp only [b64decode_urlsafe, if_neg (not_not.mpr hlength), versions, List.findSome?_cons,
    hactive]

/-! ## Secrets -/

section Service

variable (svc : EnvelopeCryptoService)

/-- `encrypt_user_secret`: the ciphertext and the nonce. -/
def encryptUserSecret (s : CryptoState) (user : User) (plaintext field : String)
    (generated : Except KeyProviderError GeneratedDek) (nonce : Bytes) :
    CryptoState × Except CryptoError (String × String) :=
  match ensureUserKey svc s user generated with
  | (s', .error e) => (s.rollback s', .error e)
  | (s', .ok user) =>
    match userDek svc s' user with
    | (s', .error e) => (s.rollback s', .error e)
    | (s', .ok dek) => (s', .ok
        (urlsafeB64encode (svc.gcm.encrypt dek nonce
          (canonicalSecretAad user.id field user.secretCryptoEpoch) (utf8 plaintext)),
        urlsafeB64encode nonce))

/-- What `decrypt_user_secret` does with the data key. -/
def openSecret (dek : Bytes) (userId field : String) (cryptoEpoch : Int)
    (ciphertext nonce : Bytes) : Except CryptoError String :=
  match (svc.gcm.decrypt dek nonce (canonicalSecretAad userId field cryptoEpoch)
      ciphertext).bind decodeUtf8 with
  | none => .error (.envelope "Encrypted account secret authentication failed.")
  | some text => .ok text

/-- `decrypt_user_secret`. -/
def decryptUserSecret (s : CryptoState) (user : User) (ciphertext nonce field : String) :
    CryptoState × Except CryptoError String :=
  if truthy user.secretWrappedDek = none then
    match svc.legacyCrypto with
    | none => (s, .error (.envelope "Legacy account key material is unavailable."))
    | some legacy => (s, legacy.decryptSecret svc.gcm ciphertext nonce field)
  else match decodeAeadPayload ciphertext nonce with
    | .error e => (s, .error e)
    | .ok (ciphertext, nonce) =>
      match userDek svc s user with
      | (s, .error e) => (s, .error e)
      | (s, .ok dek) =>
        (s, openSecret svc dek user.id field user.secretCryptoEpoch ciphertext nonce)

/-- The row with a new ciphertext in the place of the old one. -/
def putSecret (s : CryptoState) (row : StoredSecret) : KeyedTable StoredSecret.key :=
  (s.secrets.filter fun r => r.key ≠ row.key).insertNew row

/-- What the routes do: `encrypt_user_secret`, and its result goes where the field is stored. -/
def storeSecret (s : CryptoState) (user : User) (plaintext field : String)
    (generated : Except KeyProviderError GeneratedDek) (nonce : Bytes) :
    CryptoState × Except CryptoError Unit :=
  match encryptUserSecret svc s user plaintext field generated nonce with
  | (s', .error e) => (s', .error e)
  | (s', .ok (ciphertext, nonce)) =>
    ({ s' with secrets := putSecret s' ⟨user.id, field, ciphertext, nonce⟩ }, .ok ())

/-- `mfa:` and the id of the account. -/
def mfaField (user : User) : String := "mfa:" ++ user.id

/-- `scripts/migrate_envelope_encryption.py` on one account. -/
def migrateSecret (s : CryptoState) (user : User)
    (generated : Except KeyProviderError GeneratedDek) (nonce : Bytes) :
    CryptoState × Except CryptoError Bool :=
  if user.secretWrappedDek.isSome then (s, .ok false)
  else match s.secrets.find? (toLex (user.id, mfaField user)) with
    | none => (s, .ok false)
    | some row =>
      if row.ciphertext = "" ∨ row.nonce = "" then (s, .ok false)
      else match decryptUserSecret svc s user row.ciphertext row.nonce (mfaField user) with
        | (s', .error e) => (s.rollback s', .error e)
        | (s', .ok plaintext) =>
          match storeSecret svc s' user plaintext (mfaField user) generated nonce with
          | (s'', .error e) => (s.rollback s'', .error e)
          | (s'', .ok ()) => (s'', .ok true)

end Service

variable {svc : EnvelopeCryptoService} {s : CryptoState} {user : User} {dek : Bytes}
  {ciphertext nonce field : String}

/-- Under the account's own key, what the shared key has encrypted does not open. -/
theorem openSecret_legacy {legacy : CryptoService} {context : String} {payload nonceBytes : Bytes}
    {text : String} {version : Int}
    (h : legacy.trySecret svc.gcm payload nonceBytes context version = some text)
    (userId : String) (cryptoEpoch : Int) :
    ∃ e, openSecret svc dek userId field cryptoEpoch payload nonceBytes = .error e := by
  unfold CryptoService.trySecret at h
  simp only [Option.bind_eq_bind, Option.bind_eq_some_iff] at h
  obtain ⟨key, -, data, hdata, -⟩ := h
  have hpayload := svc.gcm.sound _ _ _ _ _ hdata
  unfold openSecret
  rw [← hpayload, Aead.decrypt_of_ne fieldAad_ne.symm]
  exact ⟨_, rfl⟩

end Scap.Crypto
