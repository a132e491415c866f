import Mathlib.Data.List.MinMax
import Scap.Crypto.Provider
import Scap.E2ee.Model

/-!
# The envelope service and its cache of data keys

`EnvelopeCryptoService` without what it does to messages and account secrets: how it creates,
rotates and rewraps the keys of conversations and accounts, and how it gets at a key that is stored.

The random numbers and the answers of the provider are arguments of the operations that ask for
them. An operation that raises leaves the tables as they were, as its transaction is rolled back; its
effect on the cache stays.
-/

namespace Scap.Crypto

open Scap.Py Scap.Lib

/-! ## Tables -/

/-- What the service reads of a row of `chat_sessions`. -/
structure ChatSession where
  id : String
  ownerId : String
  securityMode : E2ee.SecurityMode
  currentCryptoEpoch : Int
  wrappedDek : Option String
  kekUri : Option String
  kekVersion : Option String
  deriving DecidableEq, Repr

/-- A row of `session_key_epochs`. -/
structure SessionKeyEpoch where
  sessionId : String
  epoch : Int
  wrapped : WrappedDek
  deriving DecidableEq, Repr

/-- The unique pair of columns. -/
def SessionKeyEpoch.key (row : SessionKeyEpoch) : String ×ₗ Int := toLex (row.sessionId, row.epoch)

/-- A row of `secure_messages`. -/
structure SecureMessage where
  id : Nat
  sessionId : String
  role : String
  messageUuid : String
  messageIndex : Int
  ciphertext : String
  nonce : String
  keyVersion : Int
  cryptoEpoch : Int
  encryptionScheme : String
  deriving DecidableEq, Repr

/-- What the service reads of a row of `users`. -/
structure User where
  id : String
  secretWrappedDek : Option String
  secretKekUri : Option String
  secretKekVersion : Option String
  secretCryptoEpoch : Int
  deriving DecidableEq, Repr

/-- An encrypted account secret: the columns of `users` for the TOTP secret, or a row of
`security_phones`, `security_phone_challenges` or `security_push_subscriptions`. -/
structure StoredSecret where
  userId : String
  field : String
  ciphertext : String
  nonce : String
  deriving DecidableEq, Repr

def StoredSecret.key (row : StoredSecret) : String ×ₗ String := toLex (row.userId, row.field)

/-! ## The cache -/

/-- `_CachedDek`. -/
structure CachedDek where
  value : Bytes
  expiresAt : Nat
  deriving DecidableEq

/-- `_cache`, a dictionary in the order of insertion. -/
structure DekCache where
  entries : List (String × CachedDek)
  nodup : (entries.map Prod.fst).Nodup

namespace DekCache

def empty : DekCache := ⟨[], List.nodup_nil⟩

/-- `pop(key, None)`. -/
def pop (cache : DekCache) (key : String) : DekCache where
  entries := cache.entries.filter fun e => e.1 ≠ key
  nodup := (List.filter_sublist.map Prod.fst).nodup cache.nodup

/-- `_cache_get`: the cache afterwards and the key that was found. -/
def get (cache : DekCache) (now : Nat) (key : String) : DekCache × Option Bytes :=
  match cache.entries.find? fun e => e.1 = key with
  | none => (cache, none)
  | some e => if e.2.expiresAt ≤ now then (cache.pop key, none) else (cache, some e.2.value)

/-- Drop the entry that expires first. -/
def evict (cache : DekCache) : DekCache :=
  match cache.entries.argmin fun e => e.2.expiresAt with
  | none => cache
  | some victim => cache.pop victim.1

/-- A new entry at the end. -/
def insert (cache : DekCache) (key : String) (entry : CachedDek) : DekCache where
  entries := (cache.pop key).entries ++ [(key, entry)]
  nodup := by
    rw [List.map_append]
    refine List.Nodup.append (cache.pop key).nodup (List.nodup_singleton _) ?_
    intro k hk hk'
    rw [List.map_singleton, List.mem_singleton] at hk'
    obtain ⟨e, he, rfl⟩ := List.mem_map.mp hk
    exact absurd hk' (of_decide_eq_true (List.mem_filter.mp he).2)

/-- `_cache_put` of a key of the right length. -/
def put (cache : DekCache) (ttl maxEntries now : Nat) (key : String) (dek : Bytes) : DekCache :=
  if ttl = 0 then cache
  else
    let kept := if maxEntries ≤ cache.entries.length then cache.evict else cache
    kept.insert key ⟨dek, now + ttl⟩

end DekCache

/-! ## The service -/

/-- The shared keys of `CryptoService`. -/
structure CryptoService where
  keys : List (Int × Bytes)
  keyVersion : Int
  activeKey : Bytes
  active : keys.lookup keyVersion = some activeKey

structure EnvelopeCryptoService where
  provider : KeyProvider
  gcm : AesGcm
  /-- `hashlib.sha256(data).hexdigest()`. -/
  sha256 : Bytes → String
  legacyCrypto : Option CryptoService
  cacheTtlSeconds : Nat
  maxCacheEntries : Nat
  cacheEntries : 0 < maxCacheEntries

structure CryptoState where
  sessions : KeyedTable ChatSession.id
  epochs : KeyedTable SessionKeyEpoch.key
  messages : KeyedTable SecureMessage.id
  users : KeyedTable User.id
  secrets : KeyedTable StoredSecret.key
  cache : DekCache
  clock : Nat

/-- What is left of `t` when its transaction, begun in `s`, is rolled back. -/
def CryptoState.rollback (s t : CryptoState) : CryptoState := { s with cache := t.cache }

/-- An `EnvelopeEncryptionError`, or what is raised beneath it. -/
inductive CryptoError where
  | envelope (message : String)
  | value (message : String)
  | integrity
  deriving DecidableEq, Repr

/-- `session_key_context`. -/
def sessionKeyContext (session : ChatSession) (epoch : Int) : Context := [
  ("crypto_epoch", Int.repr epoch),
  ("owner_id", session.ownerId),
  ("session_id", session.id),
  ("tenant_id", "default")]

/-- `user_key_context`. -/
def userKeyContext (user : User) (epoch : Int) : Context := [
  ("crypto_epoch", Int.repr epoch),
  ("purpose", "account-secrets"),
  ("tenant_id", "default"),
  ("user_id", user.id)]

section Service

variable (svc : EnvelopeCryptoService)

/-- The document `_dek_cache_key` hashes. -/
def cacheDocument (w : WrappedDek) (text : String) : String :=
  Value.dumps .ascii (.obj [
    ("context", .str text),
    ("kek_uri", .str w.kekUri),
    ("kek_version", .str w.kekVersion),
    ("wrapped_digest", .str (svc.sha256 (utf8 w.wrappedDek)))])

/-- `_dek_cache_key`. -/
def dekCacheKey (w : WrappedDek) (context : Context) : Option String :=
  (canonicalContext context).map fun text => svc.sha256 (utf8 (cacheDocument svc w text))

/-- `_cache_put`. -/
def cachePut (s : CryptoState) (key : String) (dek : Bytes) : CryptoState :=
  { s with cache := s.cache.put svc.cacheTtlSeconds svc.maxCacheEntries s.clock key dek }

/-- What a stored key unwraps to without the cache. -/
def plainUnwrap (w : WrappedDek) (context : Context) (failed invalid : String) :
    Except CryptoError Bytes :=
  if canonicalContext context = none then
    .error (.value "Encryption context must contain non-empty bounded keys.")
  else match svc.provider.unwrapDek w context with
    | .error _ => .error (.envelope failed)
    | .ok dek => if dek.length ≠ 32 then .error (.envelope invalid) else .ok dek

/-- The common part of `_session_dek` and `_user_dek`. -/
def cachedUnwrap (s : CryptoState) (w : WrappedDek) (context : Context)
    (failed invalid : String) : CryptoState × Except CryptoError Bytes :=
  match dekCacheKey svc w context with
  | none => (s, .error (.value "Encryption context must contain non-empty bounded keys."))
  | some key =>
    match s.cache.get s.clock key with
    | (cache, some dek) => ({ s with cache := cache }, .ok dek)
    | (cache, none) =>
      let s := { s with cache := cache }
      match svc.provider.unwrapDek w context with
      | .error _ => (s, .error (.envelope failed))
      | .ok dek =>
        if dek.length ≠ 32 then (s, .error (.envelope invalid))
        else (cachePut svc s key dek, .ok dek)

/-! ### Keys of conversations -/

/-- `_session_dek`. -/
def sessionDek (s : CryptoState) (session : ChatSession) (epoch : Int) :
    CryptoState × Except CryptoError Bytes :=
  match s.epochs.find? (toLex (session.id, epoch)) with
  | none => (s, .error (.envelope "Conversation key epoch is unavailable."))
  | some row => cachedUnwrap svc s row.wrapped (sessionKeyContext session epoch)
      "Unable to unwrap the conversation key."
      "Key provider returned an invalid conversation key."

/-- `_session_dek` of a service without a cache. -/
def plainSessionDek (s : CryptoState) (session : ChatSession) (epoch : Int) :
    Except CryptoError Bytes :=
  match s.epochs.find? (toLex (session.id, epoch)) with
  | none => .error (.envelope "Conversation key epoch is unavailable.")
  | some row => plainUnwrap svc row.wrapped (sessionKeyContext session epoch)
      "Unable to unwrap the conversation key."
      "Key provider returned an invalid conversation key."

/-- The columns of the session that repeat the current key. -/
def ChatSession.withKey (session : ChatSession) (epoch : Int) (w : WrappedDek) : ChatSession :=
  { session with
    currentCryptoEpoch := epoch
    wrappedDek := some w.wrappedDek
    kekUri := some w.kekUri
    kekVersion := some w.kekVersion }

def setSession (s : CryptoState) (id : String) (epoch : Int) (w : WrappedDek) :
    KeyedTable ChatSession.id :=
  s.sessions.modify (fun session => if session.id = id then session.withKey epoch w else session)
    fun session => by split <;> rfl

/-- The new epoch of `ensure_session_key` and of `rotate_session_dek`; `generated` is the answer of
the provider. -/
def addEpoch (s : CryptoState) (session : ChatSession) (epoch : Int)
    (generated : Except KeyProviderError GeneratedDek) (failed : String) :
    CryptoState × Except CryptoError SessionKeyEpoch :=
  match generated with
  | .error _ => (s, .error (.envelope failed))
  | .ok g =>
    match dekCacheKey svc g.toWrappedDek (sessionKeyContext session epoch) with
    | none => (s, .error (.value "Encryption context must contain non-empty bounded keys."))
    | some key =>
      if g.plaintextDek.length ≠ 32 then
        (s, .error (.envelope "Key provider returned an invalid DEK length."))
      else
        let row : SessionKeyEpoch := ⟨session.id, epoch, g.toWrappedDek⟩
        let s := cachePut svc s key g.plaintextDek
        match if 0 < epoch then s.epochs.insert? row else none with
        | none => (s, .error .integrity)
        | some epochs =>
          ({ s with
              epochs := epochs
              sessions := setSession s session.id epoch g.toWrappedDek }, .ok row)

/-- `ensure_session_key`. -/
def ensureSessionKey (s : CryptoState) (session : ChatSession)
    (generated : Except KeyProviderError GeneratedDek) :
    CryptoState × Except CryptoError SessionKeyEpoch :=
  if session.securityMode = .privateE2ee then
    (s, .error (.envelope "Private E2EE sessions cannot have server-side DEKs."))
  else
    let existing := if 0 < session.currentCryptoEpoch then
      s.epochs.find? (toLex (session.id, session.currentCryptoEpoch)) else none
    match existing with
    | some row => (s, .ok row)
    | none => addEpoch svc s session (max session.currentCryptoEpoch 0 + 1) generated
        "Unable to create a protected conversation key."

/-- `rotate_session_dek`. -/
def rotateSessionDek (s : CryptoState) (session : ChatSession)
    (generated : Except KeyProviderError GeneratedDek) :
    CryptoState × Except CryptoError SessionKeyEpoch :=
  if 0 < session.currentCryptoEpoch ∧
      s.epochs.find? (toLex (session.id, session.currentCryptoEpoch)) = none then
    (s, .error (.envelope "Conversation key epoch is unavailable."))
  else addEpoch svc s session (session.currentCryptoEpoch + 1) generated
    "Unable to rotate the conversation key."

/-- The row with the key that the provider has returned for it. -/
def SessionKeyEpoch.rewrap (id : String) (rewrapped : Int → Except KeyProviderError WrappedDek)
    (row : SessionKeyEpoch) : SessionKeyEpoch :=
  if row.sessionId = id then
    match rewrapped row.epoch with
    | .ok w => { row with wrapped := w }
    | .error _ => row
  else row

theorem SessionKeyEpoch.key_rewrap (id : String)
    (rewrapped : Int → Except KeyProviderError WrappedDek) (row : SessionKeyEpoch) :
    (row.rewrap id rewrapped).key = row.key := by
  unfold SessionKeyEpoch.rewrap
  split
  · split <;> rfl
  · rfl

/-- `rewrap_session_keys`; `rewrapped` are the answers of the provider, by epoch. -/
def rewrapSessionKeys (s : CryptoState) (session : ChatSession)
    (rewrapped : Int → Except KeyProviderError WrappedDek) :
    CryptoState × Except CryptoError Nat :=
  let rows := s.epochs.rows.filter fun row => row.sessionId = session.id
  if rows.all fun row => (rewrapped row.epoch).isOk then
    let epochs := s.epochs.modify (SessionKeyEpoch.rewrap session.id rewrapped)
      (SessionKeyEpoch.key_rewrap session.id rewrapped)
    let current := epochs.find? (toLex (session.id, session.currentCryptoEpoch))
    let sessions := current.elim s.sessions fun row =>
      setSession s session.id session.currentCryptoEpoch row.wrapped
    ({ s with epochs := epochs, sessions := sessions, cache := .empty }, .ok rows.length)
  else (s, .error (.envelope "Unable to rewrap a conversation key."))

/-! ### Keys of accounts -/

/-- A column that is set and not empty. -/
def truthy (column : Option String) : Option String := column.filter fun value => value ≠ ""

/-- The key columns of a user, when they are complete. -/
def User.wrapped (user : User) : Option WrappedDek :=
  match truthy user.secretWrappedDek, truthy user.secretKekUri, truthy user.secretKekVersion with
  | some wrappedDek, some kekUri, some kekVersion =>
    if 0 < user.secretCryptoEpoch then some ⟨wrappedDek, kekUri, kekVersion⟩ else none
  | _, _, _ => none

/-- `_user_dek`. -/
def userDek (s : CryptoState) (user : User) : CryptoState × Except CryptoError Bytes :=
  match user.wrapped with
  | none => (s, .error (.envelope "Protected account key metadata is unavailable."))
  | some w => cachedUnwrap svc s w (userKeyContext user user.secretCryptoEpoch)
      "Unable to unwrap the account secret key."
      "Key provider returned an invalid DEK length."

/-- `_user_dek` of a service without a cache. -/
def plainUserDek (user : User) : Except CryptoError Bytes :=
  match user.wrapped with
  | none => .error (.envelope "Protected account key metadata is unavailable.")
  | some w => plainUnwrap svc w (userKeyContext user user.secretCryptoEpoch)
      "Unable to unwrap the account secret key."
      "Key provider returned an invalid DEK length."

/-- The user with a key of a new or of the same epoch. -/
def User.withKey (user : User) (epoch : Int) (w : WrappedDek) : User :=
  { user with
    secretWrappedDek := some w.wrappedDek
    secretKekUri := some w.kekUri
    secretKekVersion := some w.kekVersion
    secretCryptoEpoch := epoch }

def setUser (s : CryptoState) (id : String) (epoch : Int) (w : WrappedDek) :
    KeyedTable User.id :=
  s.users.modify (fun user => if user.id = id then user.withKey epoch w else user)
    fun user => by split <;> rfl

/-- `ensure_user_key`, with the user it leaves. -/
def ensureUserKey (s : CryptoState) (user : User)
    (generated : Except KeyProviderError GeneratedDek) : CryptoState × Except CryptoError User :=
  if (truthy user.secretWrappedDek).isSome then (s, .ok user)
  else match generated with
    | .error _ => (s, .error (.envelope "Unable to create a protected account key."))
    | .ok g =>
      match dekCacheKey svc g.toWrappedDek (userKeyContext user 1) with
      | none => (s, .error (.value "Encryption context must contain non-empty bounded keys."))
      | some key =>
        if g.plaintextDek.length ≠ 32 then
          (s, .error (.envelope "Key provider returned an invalid DEK length."))
        else
          let s := cachePut svc s key g.plaintextDek
          ({ s with users := setUser s user.id 1 g.toWrappedDek },
            .ok (user.withKey 1 g.toWrappedDek))

/-- `rewrap_user_key`. -/
def rewrapUserKey (s : CryptoState) (user : User)
    (rewrapped : Except KeyProviderError WrappedDek) : CryptoState × Except CryptoError Bool :=
  match user.wrapped with
  | none => (s, .ok false)
  | some _ =>
    match rewrapped with
    | .error _ => (s, .error (.envelope "Unable to rewrap an account key."))
    | .ok w =>
      ({ s with users := setUser s user.id user.secretCryptoEpoch w, cache := .empty }, .ok true)

end Service

end Scap.Crypto
