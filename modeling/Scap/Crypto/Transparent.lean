import Scap.Crypto.System

/-!
# The cache along runs

Every operation keeps the cache right, and nothing that happens behind the back of the service can
spoil it, as an entry depends on no row.

* `cacheOk_of_perform` — one operation;
* `dek_cache_transparent` — in any run the cache changes no answer and does not grow.
-/

namespace Scap.Crypto

open Scap.Py Scap.Lib

variable {svc : EnvelopeCryptoService} {s : CryptoState} {session : ChatSession}
  {row : SecureMessage} {m : MessageInput} {user : User} {plaintext field : String}
  {generated : Except KeyProviderError GeneratedDek} {nonce : Bytes}

/-! ## One operation -/

theorem cacheOk_storeMessage {id : Nat} (hsha : Function.Injective svc.sha256)
    (hcache : CacheOk svc s.cache)
    (hgenerated : Generated svc (ensureContext session) generated) :
    CacheOk svc (storeMessage svc s session id m generated nonce).1.cache := by
  have hencrypt := (encryptMessage_spec hsha hcache hgenerated m nonce).1
  unfold storeMessage
  split
  · next s' e heq =>
    rw [heq] at hencrypt
    exact hencrypt.cache
  · next s' c heq =>
    rw [heq] at hencrypt
    dsimp only
    split
    · exact hencrypt.cache
    · exact hencrypt.cache

theorem cacheOk_migrateLegacyMessage (hsha : Function.Injective svc.sha256)
    (hcache : CacheOk svc s.cache)
    (hgenerated : Generated svc (ensureContext session) generated) (row : SecureMessage)
    (nonce : Bytes) :
    CacheOk svc (migrateLegacyMessage svc s session row generated nonce).1.cache := by
  unfold migrateLegacyMessage
  split
  · exact hcache
  · split
    · exact hcache
    · split
      · exact hcache
      · split
        · exact hcache
        · next plaintext _ =>
          have hencrypt := (encryptMessage_spec hsha hcache hgenerated (row.input plaintext)
            nonce).1
          split
          · next s' e heq =>
            rw [heq] at hencrypt
            exact hencrypt.cache
          · next s' c heq =>
            rw [heq] at hencrypt
            exact hencrypt.cache

theorem cacheOk_storeSecret (hsha : Function.Injective svc.sha256) (hcache : CacheOk svc s.cache)
    (hgenerated : Generated svc (userKeyContext user 1) generated) (plaintext field : String)
    (nonce : Bytes) :
    CacheOk svc (storeSecret svc s user plaintext field generated nonce).1.cache := by
  have hencrypt := (encryptUserSecret_spec hsha hcache hgenerated plaintext field nonce).1
  unfold storeSecret
  split
  · next s' e heq =>
    rw [heq] at hencrypt
    exact hencrypt
  · next s' c n heq =>
    rw [heq] at hencrypt
    exact hencrypt

theorem cacheOk_migrateSecret (hsha : Function.Injective svc.sha256)
    (hcache : CacheOk svc s.cache)
    (hgenerated : Generated svc (userKeyContext user 1) generated) :
    CacheOk svc (migrateSecret svc s user generated nonce).1.cache := by
  unfold migrateSecret
  split
  · exact hcache
  · split
    · exact hcache
    · next row _ =>
      split
      · exact hcache
      · have hdecrypt := (decryptUserSecret_spec hsha hcache user row.ciphertext row.nonce
          (mfaField user)).cache
        split
        · next s' e heq =>
          rw [heq] at hdecrypt
          exact hdecrypt
        · next s' plaintext heq =>
          rw [heq] at hdecrypt
          have hstore := cacheOk_storeSecret hsha hdecrypt hgenerated plaintext (mfaField user) nonce
          split
          · next s'' e heq' =>
            rw [heq'] at hstore
            exact hstore
          · next s'' heq' =>
            rw [heq'] at hstore
            exact hstore

/-- An operation on something that may not be there. -/
theorem elim_spec {α : Type} {P : CryptoState → Prop} {found : Option α} {f : α → CryptoState}
    (hnone : P s) (hsome : ∀ x, found = some x → P (f x)) : P (found.elim s f) := by
  cases found with
  | none => exact hnone
  | some x => exact hsome x rfl

/-- Every operation keeps the cache an image of the tables. -/
theorem cacheOk_of_perform {a : Action} (hsha : Function.Injective svc.sha256)
    (hcache : CacheOk svc s.cache) (ha : Admissible svc s a) :
    CacheOk svc (perform svc s a).cache := by
  have helim : ∀ {α : Type} {found : Option α} {f : α → CryptoState},
      (∀ x, found = some x → CacheOk svc (f x).cache) → CacheOk svc (found.elim s f).cache :=
    fun hsome => elim_spec (P := fun t => CacheOk svc t.cache) hcache hsome
  cases a with
  | ensureSessionKey sessionId generated =>
      apply helim
      intro session hfind
      exact (ensureSessionKey_spec hcache (ha session hfind)).cache
  | rotateSessionDek sessionId generated =>
      apply helim
      intro session hfind
      exact (rotateSessionDek_spec hcache (ha session hfind)).cache
  | rewrapSessionKeys sessionId rewrapped =>
      apply helim
      intro session hfind
      have hid : session.id = sessionId := (KeyedTable.find?_eq_some hfind).2
      have hself : s.sessions.find? session.id = some session := by rw [hid]; exact hfind
      exact (rewrapSessionKeys_spec hcache hself (ha session hfind)).cache
  | storeMessage sessionId id m generated nonce =>
      apply helim
      intro session hfind
      exact cacheOk_storeMessage hsha hcache (ha.2 session hfind)
  | decryptMessage id =>
      apply helim
      intro row hrow
      apply helim
      intro session hfind
      exact (decryptMessage_spec hsha hcache).2.cache
  | migrateLegacyMessage id generated nonce =>
      apply helim
      intro row hrow
      apply helim
      intro session hfind
      exact cacheOk_migrateLegacyMessage hsha hcache (ha.2 row hrow session hfind) row nonce
  | ensureUserKey userId generated =>
      apply helim
      intro user hfind
      exact (ensureUserKey_spec hcache (ha user hfind)).1
  | rewrapUserKey userId rewrapped =>
      apply helim
      intro user hfind
      unfold rewrapUserKey
      split
      · exact hcache
      · split
        · exact hcache
        · exact cacheOk_empty
  | storeSecret userId plaintext field generated nonce =>
      apply helim
      intro user hfind
      exact cacheOk_storeSecret hsha hcache (ha.2 user hfind) plaintext field nonce
  | decryptSecret userId field =>
      apply helim
      intro user hfind
      apply helim
      intro row hrow
      exact (decryptUserSecret_spec hsha hcache user row.ciphertext row.nonce field).cache
  | migrateSecret userId generated nonce =>
      apply helim
      intro user hfind
      exact cacheOk_migrateSecret hsha hcache (ha.2 user hfind)
  | clearCache => exact cacheOk_empty
  | tick seconds => exact hcache
  -- the end of the lookup of another thread: what it puts in is what its key unwraps to
  | finishLookup w context =>
      unfold perform
      dsimp only
      split
      · next key dek hkey hunwrap =>
        split
        · exact hcache
        · next hlength => exact hcache.put hkey hunwrap (not_not.mp hlength)
      · exact hcache
  | outOfBand sessions epochs messages users secrets => exact hcache

/-! ## Runs -/

theorem cacheOk_of_reachable (hsha : Function.Injective svc.sha256)
    (h : (cryptoSystem svc).Reachable s) : CacheOk svc s.cache := by
  refine System.Reachable.induct (I := fun s => CacheOk svc s.cache) ?_ ?_ h
  · intro s hempty
    rw [show s.cache = .empty from hempty]
    exact cacheOk_empty
  · rintro s a t _ hs ⟨ha, rfl⟩
    exact cacheOk_of_perform hsha hs ha

/-- **The cache is transparent.** After any operations, any lapse of time and any change of the
tables, a key of a conversation or of an account is what the row that is stored now unwraps to, or
the same failure, and the cache holds at most `max_cache_entries` keys. -/
theorem dek_cache_transparent (svc : EnvelopeCryptoService)
    (hsha : Function.Injective svc.sha256) {s : CryptoState}
    (h : (cryptoSystem svc).Reachable s) :
    (∀ session epoch, (sessionDek svc s session epoch).2 = plainSessionDek svc s session epoch) ∧
      (∀ user, (userDek svc s user).2 = plainUserDek svc user) ∧
      s.cache.entries.length ≤ svc.maxCacheEntries := by
  have hcache := cacheOk_of_reachable hsha h
  refine ⟨fun session epoch => ?_, fun user => ?_, hcache.bounded⟩
  · exact (sessionDek_spec hsha hcache session epoch).1
  · exact (userDek_spec hsha hcache user).1

/-! ### A first key

The ciphertexts and digests of `sampleGcm` and `sampleSha` are those of AES-256-GCM and SHA-256 at
these arguments. -/

def sampleSession : ChatSession := ⟨"s1", "alice", .secure, 0, none, none, none⟩

def sampleKek : Bytes := List.replicate 32 1

def sampleWrapNonce : Bytes := List.replicate 12 2

def sampleDek : Bytes := List.replicate 32 3

def sampleNonce : Bytes := List.replicate 12 4

def sampleText : String := (canonicalContext (sessionKeyContext sampleSession 1)).getD ""

def sampleBinding : MessageBinding := ⟨"alice", "s1", "m1", 1, "user", 1⟩

def sampleWrapped : Bytes := [
  4, 213, 202, 74, 73, 84, 194, 254, 208, 207, 191, 203, 95, 164, 193, 177,
  161, 182, 210, 236, 232, 178, 142, 114, 222, 132, 227, 248, 123, 248, 119, 124,
  152, 45, 116, 167, 29, 218, 204, 45, 103, 74, 127, 246, 227, 81, 237, 151]

def sampleCiphertext : Bytes :=
  [40, 78, 59, 69, 187, 57, 126, 6, 195, 184, 92, 246, 232, 218, 23, 53, 39, 159]

/-- What the other ciphertexts begin with. -/
def sampleCode (k n a : Bytes) : Bytes :=
  List.replicate 16 0 ++ delimit 1 0 k ++ delimit 1 0 n ++ delimit 1 0 a

theorem sampleCode_append_inj (k n a k' n' a' r q : Bytes)
    (h : sampleCode k n a ++ r = sampleCode k' n' a' ++ q) : k = k' ∧ n = n' ∧ a = a' := by
  have hne : (1 : UInt8) ≠ 0 := by decide
  simp only [sampleCode, List.append_assoc, List.append_cancel_left_eq] at h
  obtain ⟨rfl, hnonce⟩ := (delimit_append_inj hne).mp h
  obtain ⟨rfl, hdata⟩ := (delimit_append_inj hne).mp hnonce
  obtain ⟨rfl, -⟩ := (delimit_append_inj hne).mp hdata
  exact ⟨rfl, rfl, rfl⟩

/-- Ciphertexts that begin with a zero. -/
def sampleBase : AesGcm where
  toAead := .ofPrefixCode sampleCode sampleCode_append_inj
  tag k n a p := by
    show 16 ≤ (sampleCode k n a ++ p).length
    simp only [sampleCode, List.length_append, List.length_replicate]
    omega

theorem sampleBase_fresh {c : Bytes} (hc : c.head? ≠ some 0) (k n a p : Bytes) :
    sampleBase.encrypt k n a p ≠ c := by
  rintro rfl
  exact hc rfl

/-- The wrapped data key has its real ciphertext. -/
def sampleWrapGcm : AesGcm :=
  sampleBase.override sampleKek sampleWrapNonce (utf8 sampleText) sampleDek sampleWrapped
    (by decide) (sampleBase_fresh (by decide))

/-- And so has the message. -/
def sampleGcm : AesGcm :=
  sampleWrapGcm.override sampleDek sampleNonce (canonicalMessageAad sampleBinding) (utf8 "hi")
    sampleCiphertext (by decide) fun k n a p =>
      AesGcm.encrypt_override_ne (by decide) (sampleBase_fresh (by decide) k n a p)

def sampleRing : LocalKeyring where
  keys := [("1", sampleKek)]
  activeVersion := "1"
  keyUri := "local://scap/development-kek"
  activeKey := sampleKek
  active := by decide

def sampleGenerated : GeneratedDek where
  wrappedDek := urlsafeB64encode (sampleWrapNonce ++ sampleWrapped)
  kekUri := sampleRing.keyUri
  kekVersion := sampleRing.activeVersion
  plaintextDek := sampleDek

def sampleDigest : String := "3bb2ae6f2aaa41d110041a290a00b47a9b659a2f3aba036b58874dcf58d62cd3"

/-- A hash with these values, and with others that begin with a dash. -/
def tableSha (table : List (Bytes × String)) (data : Bytes) : String :=
  (table.lookup data).getD ("-" ++ urlsafeB64encode data)

theorem tableSha_injective {table : List (Bytes × String)} (hnodup : (table.map Prod.snd).Nodup)
    (hdash : ∀ e ∈ table, e.2.toList.head? ≠ some '-') : Function.Injective (tableSha table) := by
  have hmem : ∀ {data hex}, table.lookup data = some hex → (data, hex) ∈ table := by
    intro data hex h
    obtain ⟨before, after, rfl, -⟩ := List.lookup_eq_some_iff.mp h
    exact List.mem_append_right _ List.mem_cons_self
  have hother : ∀ {data hex text}, table.lookup data = some hex → hex ≠ "-" ++ text := by
    rintro data hex text h rfl
    apply hdash _ (hmem h)
    rw [String.toList_append]
    rfl
  intro x y h
  unfold tableSha at h
  cases hx : table.lookup x with
  | some hex =>
      rw [hx, Option.getD_some] at h
      cases hy : table.lookup y with
      | some hex' =>
          rw [hy, Option.getD_some] at h
          have hsame := List.inj_on_of_nodup_map hnodup (hmem hx) (hmem hy) h
          exact congrArg Prod.fst hsame
      | none =>
          rw [hy, Option.getD_none] at h
          exact absurd h (hother hx)
  | none =>
      rw [hx, Option.getD_none] at h
      cases hy : table.lookup y with
      | some hex =>
          rw [hy, Option.getD_some] at h
          exact absurd h.symm (hother hy)
      | none =>
          rw [hy, Option.getD_none] at h
          have hbytes := congrArg b64decode ((String.append_right_inj _).mp h)
          rw [b64decode_urlsafe, b64decode_urlsafe] at hbytes
          exact Option.some.inj hbytes

/-- SHA-256 of the wrapped key and of the document with it, and elsewhere something else. -/
def sampleSha : Bytes → String := tableSha [
  (utf8 sampleGenerated.wrappedDek, sampleDigest),
  (utf8 (Value.dumps .ascii (.obj [
      ("context", .str sampleText),
      ("kek_uri", .str sampleGenerated.kekUri),
      ("kek_version", .str sampleGenerated.kekVersion),
      ("wrapped_digest", .str sampleDigest)])),
    "8d7a90ac80a09cb61abe1abb2de5009258c5ca7b40f73bd6cfdd5d2e55c7d9fb")]

theorem sampleSha_injective : Function.Injective sampleSha := by
  apply tableSha_injective
  · simp only [List.map_cons, List.map_nil]
    decide
  · intro e he
    simp only [List.mem_cons, List.not_mem_nil, or_false] at he
    rcases he with rfl | rfl
    · show sampleDigest.toList.head? ≠ _
      decide
    · dsimp only
      decide

def sampleService : EnvelopeCryptoService where
  provider := localAesKeyProvider sampleGcm sampleRing
  gcm := sampleGcm
  sha256 := sampleSha
  legacyCrypto := none
  cacheTtlSeconds := 300
  maxCacheEntries := 2
  cacheEntries := Nat.two_pos

def sampleState : CryptoState where
  sessions := KeyedTable.empty.insertNew sampleSession
  epochs := .empty
  messages := .empty
  users := .empty
  secrets := .empty
  cache := .empty
  clock := 0

/-- `alice` asks for the first key of her conversation. -/
def sampleKeyed : CryptoState :=
  perform sampleService sampleState (.ensureSessionKey "s1" (.ok sampleGenerated))

theorem sampleGenerated_generates :
    sampleService.provider.generates (sessionKeyContext sampleSession 1) sampleGenerated := by
  obtain ⟨text, htext⟩ := canonicalContext_session sampleSession 1
  have hsample : sampleText = text := by rw [sampleText, htext, Option.getD_some]
  refine ⟨rfl, sampleWrapNonce, rfl, ?_⟩
  unfold LocalKeyring.wrap
  rw [htext, Option.map_some, ← hsample]
  have hencrypt : sampleGcm.encrypt sampleKek sampleWrapNonce (utf8 sampleText) sampleDek =
      sampleWrapped := by
    have hkey : sampleKek ≠ sampleDek := by decide
    have hwrap : sampleGcm.encrypt sampleKek sampleWrapNonce (utf8 sampleText) sampleDek =
        sampleWrapGcm.encrypt sampleKek sampleWrapNonce (utf8 sampleText) sampleDek :=
      AesGcm.encrypt_override_of_ne (.inl hkey)
    rw [hwrap]
    exact AesGcm.encrypt_override_self
  show some (WrappedDek.mk (urlsafeB64encode (sampleWrapNonce ++ sampleGcm.encrypt sampleKek
    sampleWrapNonce (utf8 sampleText) sampleDek)) _ _) = _
  rw [hencrypt]
  rfl

theorem sampleGenerated_generated :
    Generated sampleService (ensureContext sampleSession) (.ok sampleGenerated) := by
  intro g hg
  cases hg
  have hcontext : ensureContext sampleSession = sessionKeyContext sampleSession 1 :=
    congrArg (sessionKeyContext sampleSession) (by decide)
  rw [hcontext]
  exact sampleGenerated_generates

theorem find?_sampleSession : sampleState.sessions.find? "s1" = some sampleSession :=
  KeyedTable.find?_iff.mpr ⟨(KeyedTable.mem_insertNew fun _ h =>
    absurd h List.not_mem_nil).mpr (.inl rfl), rfl⟩

theorem sampleState_reachable : (cryptoSystem sampleService).Reachable sampleState :=
  System.Reachable.of_init rfl

theorem sampleKeyed_reachable : (cryptoSystem sampleService).Reachable sampleKeyed := by
  refine sampleState_reachable.step (a := .ensureSessionKey "s1" (.ok sampleGenerated)) ⟨?_, rfl⟩
  intro session hsession
  cases find?_sampleSession.symm.trans hsession
  exact sampleGenerated_generated

theorem sampleSession_keyed : ∃ t,
    ensureSessionKey sampleService sampleState sampleSession (.ok sampleGenerated) =
      (t, .ok ⟨"s1", 1, sampleGenerated.toWrappedDek⟩) ∧
    plainSessionDek sampleService t sampleSession 1 = .ok sampleDek :=
  ensureSessionKey_first (by decide) rfl sampleGenerated_generates rfl rfl

theorem dek_cache_transparent_sample :
    (sessionDek sampleService sampleKeyed sampleSession 1).2 = .ok sampleDek ∧
      sampleKeyed.cache.entries.length ≤ 2 := by
  obtain ⟨hsession, -, hbounded⟩ :=
    dek_cache_transparent sampleService sampleSha_injective sampleKeyed_reachable
  obtain ⟨t, hkeyed, hdek⟩ := sampleSession_keyed
  have hstate : sampleKeyed = t := by
    show ((sampleState.sessions.find? "s1").elim sampleState fun session =>
      (ensureSessionKey sampleService sampleState session (.ok sampleGenerated)).1) = t
    rw [find?_sampleSession, Option.elim_some, hkeyed]
  refine ⟨?_, hbounded⟩
  rw [hsession, hstate]
  exact hdek

end Scap.Crypto
