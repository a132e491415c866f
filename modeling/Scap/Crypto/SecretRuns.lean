import Scap.Crypto.Secrets

/-!
# Account secrets along runs

In any run of the service the secrets of an account stay readable if and only if its first key is
made while no secret of it is stored but the one that is written (`secrets_readable_iff`). The
routes do not see to that: who has a TOTP secret from the time of the shared keys and then asks for
a code to a telephone loses it (`totp_lost`).

`perform_readable` and `perform_unreadable` are the two halves of one step.
-/

namespace Scap.Crypto

open Scap.Py Scap.Lib

variable {svc : EnvelopeCryptoService} {s t : CryptoState} {user user' : User}
  {row : StoredSecret} {g : GeneratedDek} {id : String} {plaintexts plaintexts' : Plaintexts}
  {generated : Except KeyProviderError GeneratedDek} {nonce : Bytes} {w : WrappedDek}

/-! ## One operation -/

/-- The service, and the plaintexts its secrets were stored with. -/
structure SecretsState where
  crypto : CryptoState
  plaintexts : Plaintexts

/-- The plaintexts after an operation. -/
def record (svc : EnvelopeCryptoService) (x : SecretsState) : Action → Plaintexts
  | .storeSecret userId plaintext field generated nonce =>
    match x.crypto.users.find? userId with
    | none => x.plaintexts
    | some user =>
      match (storeSecret svc x.crypto user plaintext field generated nonce).2 with
      | .error _ => x.plaintexts
      | .ok () => x.plaintexts.set userId field plaintext
  | _ => x.plaintexts

/-- The provider has generated a key that can be stored. -/
def Answered (generated : Except KeyProviderError GeneratedDek) : Prop :=
  ∃ g, generated = .ok g ∧ g.plaintextDek.length = 32 ∧ g.Usable

/-- The provider is available to the operations on account secrets. -/
def Available : Action → Prop
  | .ensureUserKey _ generated => Answered generated
  | .storeSecret _ _ _ generated _ => Answered generated
  | .migrateSecret _ generated _ => Answered generated
  | .rewrapUserKey _ rewrapped => ∀ w, rewrapped = .ok w → w.Usable
  | _ => True

/-- The first key of the account `id` is made while no secret of it is stored but the one that is
written. -/
def FirstKeysAlone (id : String) (x : SecretsState) : Action → Prop
  | .ensureUserKey userId _ => userId = id → ∀ user, x.crypto.users.find? id = some user →
    truthy user.secretWrappedDek = none → ∀ row ∈ x.crypto.secrets.rows, row.userId ≠ id
  | .storeSecret userId _ field _ _ => userId = id → ∀ user, x.crypto.users.find? id = some user →
    FirstKeyAlone x.crypto user field
  | .migrateSecret userId _ _ => userId = id → ∀ user, x.crypto.users.find? id = some user →
    MigratedAlone x.crypto user
  | _ => True

theorem storeMessage_sameAccounts {session : ChatSession} {m : MessageInput} {id : Nat}
    (hsha : Function.Injective svc.sha256) (hcache : CacheOk svc s.cache)
    (hgenerated : Generated svc (ensureContext session) generated) :
    SameAccounts s (storeMessage svc s session id m generated nonce).1 := by
  have hstep := (encryptMessage_spec hsha hcache hgenerated m nonce).1
  unfold storeMessage
  split
  · exact ⟨rfl, rfl⟩
  · next s' c heq =>
    rw [heq] at hstep
    dsimp only
    split
    · exact ⟨rfl, rfl⟩
    · exact ⟨hstep.users, hstep.secrets⟩

theorem migrateLegacyMessage_sameAccounts {session : ChatSession}
    (hsha : Function.Injective svc.sha256) (hcache : CacheOk svc s.cache)
    (hgenerated : Generated svc (ensureContext session) generated) (row : SecureMessage) :
    SameAccounts s (migrateLegacyMessage svc s session row generated nonce).1 := by
  unfold migrateLegacyMessage
  split
  · exact ⟨rfl, rfl⟩
  · split
    · exact ⟨rfl, rfl⟩
    · split
      · exact ⟨rfl, rfl⟩
      · split
        · exact ⟨rfl, rfl⟩
        · next plaintext _ =>
          have hstep := (encryptMessage_spec hsha hcache hgenerated (row.input plaintext) nonce).1
          split
          · exact ⟨rfl, rfl⟩
          · next s' c heq =>
            rw [heq] at hstep
            exact ⟨hstep.users, hstep.secrets⟩

theorem rewrapUserKey_readable {rewrapped : Except KeyProviderError WrappedDek}
    (hfind : s.users.find? user.id = some user)
    (hrewrapped : ∀ w, user.wrapped = some w → ∀ w', rewrapped = .ok w' →
      svc.provider.rewraps w (userKeyContext user user.secretCryptoEpoch) w')
    (husable : ∀ w', rewrapped = .ok w' → w'.Usable) (hs : PlainReadable svc s plaintexts id) :
    PlainReadable svc (rewrapUserKey s user rewrapped).1 plaintexts id := by
  unfold rewrapUserKey
  split
  · exact hs
  · next w hw =>
    split
    · exact hs
    · next w' =>
      intro row hrow howner
      obtain ⟨other, p, hfind', hplaintext, hdecrypt⟩ := hs row hrow howner
      refine ⟨_, p, find?_setUser hfind', hplaintext, ?_⟩
      by_cases hid : other.id = user.id
      · have hsame : other = user := by
          have hother := (KeyedTable.find?_eq_some hfind').2
          rw [← hother, hid, hfind] at hfind'
          exact (Option.some.inj hfind').symm
        subst hsame
        rw [if_pos rfl, plainDecrypt_rewrapped hw (hrewrapped w hw w' rfl) (husable w' rfl)]
        exact hdecrypt
      · rw [if_neg hid]
        exact hdecrypt

theorem ensureUserKey_readable (hcache : CacheOk svc s.cache)
    (hgenerated : Generated svc (userKeyContext user 1) generated)
    (halone : user.id = id → truthy user.secretWrappedDek = none →
      ∀ row ∈ s.secrets.rows, row.userId ≠ id)
    (hs : PlainReadable svc s plaintexts id) :
    PlainReadable svc (ensureUserKey svc s user generated).1 plaintexts id := by
  obtain ⟨-, herror, hok⟩ := ensureUserKey_spec hcache hgenerated
  cases hensure : ensureUserKey svc s user generated with
  | mk t answer =>
      rw [hensure] at herror hok
      cases answer with
      | error e =>
          obtain rfl : t = s := herror e rfl
          exact hs
      | ok user' =>
          have hkey : UserKeyStep svc s user t user' := hok user' rfl
          intro row hrow howner
          rw [show t.secrets = s.secrets from hkey.secrets] at hrow
          obtain ⟨other, p, hfind, hplaintext, hdecrypt⟩ := hs row hrow howner
          cases hkey with
          | kept => exact ⟨other, p, hfind, hplaintext, hdecrypt⟩
          | created g cache hnone hg hlength =>
              have hne : id ≠ user.id := fun hid => halone hid.symm hnone row hrow howner
              have hkept := (UserKeyStep.created g cache hnone hg hlength).find?_of_ne hfind hne
              exact ⟨other, p, hkept, hplaintext, hdecrypt⟩

theorem ensureUserKey_unreadable (hlength : g.plaintextDek.length = 32) (husable : g.Usable)
    (hfind : s.users.find? user.id = some user) (hnone : truthy user.secretWrappedDek = none)
    (hrow : row ∈ s.secrets.rows) (hid : row.userId = user.id)
    (hs : PlainReadable svc s plaintexts user.id) :
    ¬ PlainReadable svc (ensureUserKey svc s user (.ok g)).1 plaintexts' user.id := by
  obtain ⟨cache, hensure⟩ :=
    (ensureUserKey_new hnone hlength : ∃ cache, ensureUserKey svc s user (.ok g) = _)
  rw [hensure]
  have hfind' : (setUser s user.id 1 g.toWrappedDek).find? user.id =
      some (user.withKey 1 g.toWrappedDek) := by
    rw [find?_setUser hfind, if_pos rfl]
  have hsome : truthy (user.withKey 1 g.toWrappedDek).secretWrappedDek ≠ none := by
    show truthy (some g.wrappedDek) ≠ none
    rw [truthy_some husable.wrappedDek]
    exact Option.some_ne_none _
  exact not_readable_of_key hs hfind hnone hrow hid hfind' hsome hrow

theorem find?_account {userId : String} (h : s.users.find? userId = some user) :
    s.users.find? user.id = some user := by
  rw [(KeyedTable.find?_eq_some h).2]
  exact h

/-- **An operation under its condition keeps the secrets of an account readable.** -/
theorem perform_readable {a : Action} (hsha : Function.Injective svc.sha256)
    (hcache : CacheOk svc s.cache) (ha : Admissible svc s a) (hservice : a.inService)
    (havailable : Available a) (halone : FirstKeysAlone id ⟨s, plaintexts⟩ a)
    (hs : PlainReadable svc s plaintexts id) :
    PlainReadable svc (perform svc s a) (record svc ⟨s, plaintexts⟩ a) id := by
  have hsame : ∀ {t : CryptoState}, SameAccounts s t → PlainReadable svc t plaintexts id :=
    fun h => h.readable.mpr hs
  have helim : ∀ {α : Type} {found : Option α} {f : α → CryptoState},
      (∀ x, found = some x → PlainReadable svc (f x) plaintexts id) →
        PlainReadable svc (found.elim s f) plaintexts id :=
    fun hsome => elim_spec (P := fun t => PlainReadable svc t plaintexts id) hs hsome
  -- Only the four operations on accounts can touch a secret; the rest keep accounts and secrets.
  cases a with
  | ensureSessionKey sessionId generated =>
      apply helim
      intro session hfind
      have hstep := ensureSessionKey_spec hcache (ha session hfind)
      exact hsame ⟨hstep.users, hstep.secrets⟩
  | rotateSessionDek sessionId generated =>
      apply helim
      intro session hfind
      have hstep := rotateSessionDek_spec hcache (ha session hfind)
      exact hsame ⟨hstep.users, hstep.secrets⟩
  | rewrapSessionKeys sessionId rewrapped =>
      apply helim
      intro session hfind
      have hid : session.id = sessionId := (KeyedTable.find?_eq_some hfind).2
      have hself : s.sessions.find? session.id = some session := by rw [hid]; exact hfind
      have hstep := rewrapSessionKeys_spec hcache hself (ha session hfind)
      exact hsame ⟨hstep.users, hstep.secrets⟩
  | storeMessage sessionId id m generated nonce =>
      apply helim
      intro session hfind
      exact hsame (storeMessage_sameAccounts hsha hcache (ha.2 session hfind))
  | decryptMessage id =>
      apply helim
      intro row hrow
      apply helim
      intro session hfind
      obtain ⟨⟨cache, hstate⟩, -⟩ : CacheStep svc s (decryptMessage svc s session row).1 :=
        (decryptMessage_spec hsha hcache).2
      rw [hstate]
      exact hs.of_cache cache
  | migrateLegacyMessage id generated nonce =>
      apply helim
      intro row hrow
      apply helim
      intro session hfind
      exact hsame (migrateLegacyMessage_sameAccounts hsha hcache (ha.2 row hrow session hfind) row)
  -- a first key for this account makes its legacy secrets unreadable: the condition rules it out
  | ensureUserKey userId generated =>
      apply helim
      intro user hfind
      have hid : user.id = userId := (KeyedTable.find?_eq_some hfind).2
      apply ensureUserKey_readable hcache (ha user hfind) _ hs
      intro hself hnone
      obtain rfl : userId = id := hid.symm.trans hself
      exact halone rfl user hfind hnone
  | rewrapUserKey userId rewrapped =>
      apply helim
      intro user hfind
      exact rewrapUserKey_readable (find?_account hfind) (ha user hfind) havailable hs
  | storeSecret userId plaintext field generated nonce =>
      cases hfind : s.users.find? userId with
      | none =>
          simp only [perform, record, hfind]
          exact hs
      | some user =>
          have hid : user.id = userId := (KeyedTable.find?_eq_some hfind).2
          have hfirst : user.id = id → FirstKeyAlone s user field := by
            intro hself
            obtain rfl : userId = id := hid.symm.trans hself
            exact halone rfl user hfind
          obtain ⟨herror, hok⟩ := storeSecret_readable hsha hcache (ha.2 user hfind) ha.1
            (find?_account hfind) hfirst hs plaintext
          simp only [perform, record, hfind, Option.elim_some]
          cases hstore : (storeSecret svc s user plaintext field generated nonce).2 with
          | error e => exact herror e hstore
          | ok _ =>
              rw [← hid]
              exact hok hstore
  | decryptSecret userId field =>
      apply helim
      intro user hfind
      apply helim
      intro row hrow
      obtain ⟨⟨cache, hstate⟩, -⟩ :=
        decryptUserSecret_spec hsha hcache user row.ciphertext row.nonce field
      rw [hstate]
      exact hs.of_cache cache
  | migrateSecret userId generated nonce =>
      apply helim
      intro user hfind
      have hid : user.id = userId := (KeyedTable.find?_eq_some hfind).2
      apply migrateSecret_readable hsha hcache (ha.2 user hfind) ha.1 (find?_account hfind) _ hs
      intro hself
      obtain rfl : userId = id := hid.symm.trans hself
      exact halone rfl user hfind
  | clearCache => exact hs
  | tick seconds => exact hs
  | finishLookup w context =>
      unfold perform
      dsimp only
      split
      · split
        · exact hs
        · exact hs
      · exact hs
  | outOfBand sessions epochs messages users secrets => exact absurd hservice not_false

/-- **An operation without its condition loses a secret.** -/
theorem perform_unreadable {a : Action} (hsha : Function.Injective svc.sha256)
    (hcache : CacheOk svc s.cache) (ha : Admissible svc s a) (havailable : Available a)
    (halone : ¬ FirstKeysAlone id ⟨s, plaintexts⟩ a) (hs : PlainReadable svc s plaintexts id) :
    ¬ PlainReadable svc (perform svc s a) plaintexts' id := by
  cases a with
  | ensureUserKey userId generated =>
      unfold FirstKeysAlone at halone
      push Not at halone
      obtain ⟨rfl, user, hfind, hnone, row, hrow, howner⟩ := halone
      obtain ⟨g, rfl, hlength, husable⟩ := havailable
      obtain rfl : user.id = userId := (KeyedTable.find?_eq_some hfind).2
      simp only [perform, hfind, Option.elim_some]
      exact ensureUserKey_unreadable hlength husable hfind hnone hrow howner hs
  | storeSecret userId plaintext field generated nonce =>
      unfold FirstKeysAlone at halone
      push Not at halone
      obtain ⟨rfl, user, hfind, halone⟩ := halone
      obtain ⟨g, rfl, hlength, husable⟩ := havailable
      obtain rfl : user.id = userId := (KeyedTable.find?_eq_some hfind).2
      simp only [perform, hfind, Option.elim_some]
      exact (storeSecret_unreadable hsha hcache (ha.2 user hfind g rfl) hlength husable hfind
        halone hs plaintext nonce).2 plaintexts'
  | migrateSecret userId generated nonce =>
      unfold FirstKeysAlone at halone
      push Not at halone
      obtain ⟨rfl, user, hfind, halone⟩ := halone
      obtain ⟨g, rfl, hlength, husable⟩ := havailable
      obtain rfl : user.id = userId := (KeyedTable.find?_eq_some hfind).2
      simp only [perform, hfind, Option.elim_some]
      exact migrateSecret_unreadable hsha hcache (ha.2 user hfind g rfl) hlength husable hfind
        halone hs
  | _ => exact absurd trivial halone

/-! ## Runs -/

/-- The service while nobody changes its tables and the key provider is available. -/
def secretsSystem (svc : EnvelopeCryptoService) : System SecretsState Action where
  init x := x.crypto.cache = .empty
  step x a y := Admissible svc x.crypto a ∧ a.inService ∧ Available a ∧
    y = ⟨perform svc x.crypto a, record svc x a⟩

/-- The cache is right and the account can be read. -/
def Kept (svc : EnvelopeCryptoService) (id : String) (x : SecretsState) : Prop :=
  CacheOk svc x.crypto.cache ∧ AllReadable svc x.crypto x.plaintexts id

theorem kept_of_step {x y : SecretsState} {a : Action} (hsha : Function.Injective svc.sha256)
    (hx : Kept svc id x) (hstep : (secretsSystem svc).step x a y) :
    Kept svc id y ↔ FirstKeysAlone id x a := by
  obtain ⟨hcache, hreadable⟩ := hx
  obtain ⟨ha, hservice, havailable, rfl⟩ := hstep
  obtain ⟨crypto, plaintexts⟩ := x
  rw [allReadable_iff hsha hcache] at hreadable
  have hcache' := cacheOk_of_perform hsha hcache ha
  unfold Kept
  dsimp only at ha hcache hreadable ⊢
  rw [allReadable_iff hsha hcache']
  constructor
  · rintro ⟨-, hafter⟩
    by_contra halone
    exact perform_unreadable hsha hcache ha havailable halone hreadable hafter
  · intro halone
    exact ⟨hcache', perform_readable hsha hcache ha hservice havailable halone hreadable⟩

/-- The cache is right along every run. -/
theorem cacheOk_of_secretsRun {x y : SecretsState} {as : List Action}
    (hsha : Function.Injective svc.sha256) (hcache : CacheOk svc x.crypto.cache)
    (hrun : (secretsSystem svc).Run x as y) : CacheOk svc y.crypto.cache := by
  refine hrun.preserves (I := fun x => CacheOk svc x.crypto.cache) ?_ hcache
  rintro x a y hx ⟨ha, -, -, rfl⟩
  exact cacheOk_of_perform hsha hx ha

/-- **Account secrets.** While an account can be read at the start, it can be read in every state of
a run if and only if in each of its steps the first key of the account is made while no secret of it
is stored but the one that is written. -/
theorem secrets_readable_iff (svc : EnvelopeCryptoService) (hsha : Function.Injective svc.sha256)
    (id : String) {x y : SecretsState} {as : List Action} (hinit : (secretsSystem svc).init x)
    (hreadable : AllReadable svc x.crypto x.plaintexts id)
    (hrun : (secretsSystem svc).Run x as y) :
    (∀ bs z, bs <+: as → (secretsSystem svc).Run x bs z →
      AllReadable svc z.crypto z.plaintexts id) ↔
      ((secretsSystem svc).restrict (FirstKeysAlone id)).Run x as y := by
  have hcache : CacheOk svc x.crypto.cache := by
    rw [show x.crypto.cache = .empty from hinit]
    exact cacheOk_empty
  have hdet : ∀ (s : SecretsState) a t u, (secretsSystem svc).step s a t →
      (secretsSystem svc).step s a u → t = u := by
    rintro s a t u ⟨-, -, -, rfl⟩ ⟨-, -, -, rfl⟩
    rfl
  have hkept := hrun.restrict_iff (P := Kept svc id) hdet ⟨hcache, hreadable⟩
    fun s a t hs hstep => kept_of_step hsha hs hstep
  rw [← hkept]
  constructor
  · intro hall bs z hbs hz
    exact ⟨cacheOk_of_secretsRun hsha hcache hz, hall bs z hbs hz⟩
  · intro hall bs z hbs hz
    exact (hall bs z hbs hz).2

/-! ### A legacy secret

The ciphertexts and digests are those of AES-256-GCM and SHA-256 at these arguments. -/

/-- `alice` has a TOTP secret from the time of the shared keys. -/
def legacyAlice : User := ⟨"alice", none, none, none, 0⟩

def legacyNonce : Bytes := List.replicate 12 5

def legacyText : String := (canonicalContext (userKeyContext legacyAlice 1)).getD ""

def legacyWrapped : Bytes := [
  4, 213, 202, 74, 73, 84, 194, 254, 208, 207, 191, 203, 95, 164, 193, 177,
  161, 182, 210, 236, 232, 178, 142, 114, 222, 132, 227, 248, 123, 248, 119, 124,
  174, 130, 253, 106, 43, 242, 28, 211, 222, 123, 238, 175, 184, 164, 241, 222]

/-- The TOTP secret under the shared key. -/
def legacyTotp : Bytes := [
  75, 224, 178, 98, 59, 129, 119, 215, 48, 82, 40, 215, 242, 195, 173, 218,
  10, 195, 123, 119, 9, 51, 95, 226, 48, 203, 208, 102, 23, 143, 28, 182]

/-- The same under the key of the account. -/
def migratedTotp : Bytes := [
  10, 101, 64, 154, 244, 173, 67, 78, 220, 92, 208, 21, 66, 4, 97, 32,
  43, 162, 2, 114, 22, 248, 153, 61, 67, 168, 100, 212, 193, 155, 54, 9]

/-- A telephone number under the key of the account. -/
def challengePhone : Bytes := [
  107, 31, 39, 244, 156, 172, 52, 42, 172, 34, 183, 102, 227, 21, 3, 187,
  132, 40, 123, 149, 124, 240, 70, 143, 56, 185, 246, 208]

def legacyWrapGcm : AesGcm :=
  sampleBase.override sampleKek sampleWrapNonce (utf8 legacyText) sampleDek legacyWrapped
    (by decide) (sampleBase_fresh (by decide))

def legacyTotpGcm : AesGcm :=
  legacyWrapGcm.override sampleKek legacyNonce (fieldAad "mfa:alice" 1)
    (utf8 "JBSWY3DPEHPK3PXP") legacyTotp (by decide) fun k n a p =>
      AesGcm.encrypt_override_ne (by decide) (sampleBase_fresh (by decide) k n a p)

def legacyMigratedGcm : AesGcm :=
  legacyTotpGcm.override sampleDek sampleNonce (canonicalSecretAad "alice" "mfa:alice" 1)
    (utf8 "JBSWY3DPEHPK3PXP") migratedTotp (by decide) fun k n a p =>
      AesGcm.encrypt_override_ne (by decide)
        (AesGcm.encrypt_override_ne (by decide) (sampleBase_fresh (by decide) k n a p))

def legacyGcm : AesGcm :=
  legacyMigratedGcm.override sampleDek sampleNonce
    (canonicalSecretAad "alice" "security-phone-challenge:c1" 1) (utf8 "+84912345678")
    challengePhone (by decide) fun k n a p =>
      AesGcm.encrypt_override_ne (by decide) (AesGcm.encrypt_override_ne (by decide)
        (AesGcm.encrypt_override_ne (by decide) (sampleBase_fresh (by decide) k n a p)))

def legacyGenerated : GeneratedDek where
  wrappedDek := urlsafeB64encode (sampleWrapNonce ++ legacyWrapped)
  kekUri := sampleRing.keyUri
  kekVersion := sampleRing.activeVersion
  plaintextDek := sampleDek

def legacyDigest : String := "39f67a4710d891442e839c7dfb9bd323f219a8d1db1294096a4dfa92a8ffaf15"

def legacySha : Bytes → String := tableSha [
  (utf8 legacyGenerated.wrappedDek, legacyDigest),
  (utf8 (Value.dumps .ascii (.obj [
      ("context", .str legacyText),
      ("kek_uri", .str legacyGenerated.kekUri),
      ("kek_version", .str legacyGenerated.kekVersion),
      ("wrapped_digest", .str legacyDigest)])),
    "cb8542ee556e129f6e50411bb1c1ec03d6120f159af2ea0c98e8fb655115ed46")]

theorem legacySha_injective : Function.Injective legacySha := by
  apply tableSha_injective
  · simp only [List.map_cons, List.map_nil]
    decide
  · intro e he
    simp only [List.mem_cons, List.not_mem_nil, or_false] at he
    rcases he with rfl | rfl
    · show legacyDigest.toList.head? ≠ _
      decide
    · dsimp only
      decide

/-- The shared key is the one that wraps the keys of the accounts. -/
def legacyKeys : CryptoService where
  keys := [(1, sampleKek)]
  keyVersion := 1
  activeKey := sampleKek
  active := by decide

def legacyService : EnvelopeCryptoService where
  provider := localAesKeyProvider legacyGcm sampleRing
  gcm := legacyGcm
  sha256 := legacySha
  legacyCrypto := some legacyKeys
  cacheTtlSeconds := 300
  maxCacheEntries := 2
  cacheEntries := Nat.two_pos

def legacyRow : StoredSecret where
  userId := "alice"
  field := "mfa:alice"
  ciphertext := urlsafeB64encode legacyTotp
  nonce := urlsafeB64encode legacyNonce

def legacyState : SecretsState where
  crypto := {
    sessions := .empty
    epochs := .empty
    messages := .empty
    users := KeyedTable.empty.insertNew legacyAlice
    secrets := KeyedTable.empty.insertNew legacyRow
    cache := .empty
    clock := 0 }
  plaintexts := fun userId field =>
    if userId = "alice" ∧ field = "mfa:alice" then some "JBSWY3DPEHPK3PXP" else none

theorem find?_legacyAlice : legacyState.crypto.users.find? "alice" = some legacyAlice :=
  KeyedTable.find?_iff.mpr ⟨(KeyedTable.mem_insertNew fun _ h =>
    absurd h List.not_mem_nil).mpr (.inl rfl), rfl⟩

theorem mem_legacySecrets {row : StoredSecret} :
    row ∈ legacyState.crypto.secrets.rows ↔ row = legacyRow := by
  show row ∈ (KeyedTable.empty.insertNew legacyRow).rows ↔ _
  rw [KeyedTable.mem_insertNew fun _ h => absurd h List.not_mem_nil]
  simp

theorem legacyState_readable : AllReadable legacyService legacyState.crypto
    legacyState.plaintexts "alice" := by
  have hencrypt : legacyGcm.encrypt sampleKek legacyNonce (fieldAad "mfa:alice" 1)
      (utf8 "JBSWY3DPEHPK3PXP") = legacyTotp := by
    have hkey : sampleKek ≠ sampleDek := by decide
    have hphone : legacyGcm.encrypt sampleKek legacyNonce (fieldAad "mfa:alice" 1)
        (utf8 "JBSWY3DPEHPK3PXP") = legacyMigratedGcm.encrypt sampleKek legacyNonce
        (fieldAad "mfa:alice" 1) (utf8 "JBSWY3DPEHPK3PXP") :=
      AesGcm.encrypt_override_of_ne (.inl hkey)
    have hmigrated : legacyMigratedGcm.encrypt sampleKek legacyNonce (fieldAad "mfa:alice" 1)
        (utf8 "JBSWY3DPEHPK3PXP") = legacyTotpGcm.encrypt sampleKek legacyNonce
        (fieldAad "mfa:alice" 1) (utf8 "JBSWY3DPEHPK3PXP") :=
      AesGcm.encrypt_override_of_ne (.inl hkey)
    rw [hphone, hmigrated]
    exact AesGcm.encrypt_override_self
  have hsecret : (legacyRow.ciphertext, legacyRow.nonce) =
      legacyKeys.encryptSecret legacyGcm "JBSWY3DPEHPK3PXP" "mfa:alice" legacyNonce := by
    show _ = (urlsafeB64encode (legacyGcm.encrypt sampleKek legacyNonce (fieldAad "mfa:alice" 1)
      (utf8 "JBSWY3DPEHPK3PXP")), urlsafeB64encode legacyNonce)
    rw [hencrypt]
    rfl
  have hopen : legacyKeys.decryptSecret legacyGcm legacyRow.ciphertext legacyRow.nonce
      "mfa:alice" = .ok "JBSWY3DPEHPK3PXP" := by
    rw [(Prod.mk.inj hsecret).1, (Prod.mk.inj hsecret).2]
    exact CryptoService.decryptSecret_encryptSecret rfl
  intro row hrow _
  obtain rfl := mem_legacySecrets.mp hrow
  have hplaintext : legacyState.plaintexts "alice" legacyRow.field = some "JBSWY3DPEHPK3PXP" := by
    decide
  exact ⟨legacyAlice, _, find?_legacyAlice, hplaintext, hopen⟩

theorem legacyGenerated_generated :
    Generated legacyService (userKeyContext legacyAlice 1) (.ok legacyGenerated) := by
  intro g hg
  cases hg
  obtain ⟨text, htext⟩ := canonicalContext_user legacyAlice 1
  have hsample : legacyText = text := by rw [legacyText, htext, Option.getD_some]
  refine ⟨rfl, sampleWrapNonce, rfl, ?_⟩
  unfold LocalKeyring.wrap
  rw [htext, Option.map_some, ← hsample]
  have hencrypt : legacyGcm.encrypt sampleKek sampleWrapNonce (utf8 legacyText) sampleDek =
      legacyWrapped := by
    have hkey : sampleKek ≠ sampleDek := by decide
    have hnonce : sampleWrapNonce ≠ legacyNonce := by decide
    have hphone : legacyGcm.encrypt sampleKek sampleWrapNonce (utf8 legacyText) sampleDek =
        legacyMigratedGcm.encrypt sampleKek sampleWrapNonce (utf8 legacyText) sampleDek :=
      AesGcm.encrypt_override_of_ne (.inl hkey)
    have hmigrated : legacyMigratedGcm.encrypt sampleKek sampleWrapNonce (utf8 legacyText)
        sampleDek = legacyTotpGcm.encrypt sampleKek sampleWrapNonce (utf8 legacyText) sampleDek :=
      AesGcm.encrypt_override_of_ne (.inl hkey)
    have htotp : legacyTotpGcm.encrypt sampleKek sampleWrapNonce (utf8 legacyText) sampleDek =
        legacyWrapGcm.encrypt sampleKek sampleWrapNonce (utf8 legacyText) sampleDek :=
      AesGcm.encrypt_override_of_ne (.inr hnonce)
    rw [hphone, hmigrated, htotp]
    exact AesGcm.encrypt_override_self
  show some (WrappedDek.mk (urlsafeB64encode (sampleWrapNonce ++ legacyGcm.encrypt sampleKek
    sampleWrapNonce (utf8 legacyText) sampleDek)) _ _) = _
  rw [hencrypt]
  rfl

theorem legacyGenerated_answered : Answered (.ok legacyGenerated) :=
  ⟨legacyGenerated, rfl, rfl, by decide, by decide, by decide⟩

theorem legacyState_generated {user : User}
    (h : legacyState.crypto.users.find? "alice" = some user) :
    Generated legacyService (userKeyContext user 1) (.ok legacyGenerated) := by
  obtain rfl : legacyAlice = user := Option.some.inj (find?_legacyAlice.symm.trans h)
  exact legacyGenerated_generated

/-- The script migrates the account. -/
def migrateAlice : Action := .migrateSecret "alice" (.ok legacyGenerated) sampleNonce

/-- `alice` asks for a code to confirm her telephone number. -/
def challengeAlice : Action :=
  .storeSecret "alice" "+84912345678" "security-phone-challenge:c1" (.ok legacyGenerated)
    sampleNonce

/-- The state after one operation. -/
def SecretsState.after (x : SecretsState) (a : Action) : SecretsState :=
  ⟨perform legacyService x.crypto a, record legacyService x a⟩

/-- If the script comes first, the secret is kept. -/
theorem secrets_readable_sample :
    AllReadable legacyService (legacyState.after migrateAlice).crypto
      (legacyState.after migrateAlice).plaintexts "alice" := by
  have hstep : (secretsSystem legacyService).step legacyState migrateAlice
      (legacyState.after migrateAlice) :=
    ⟨⟨rfl, fun _ => legacyState_generated⟩, trivial, legacyGenerated_answered, rfl⟩
  have halone : FirstKeysAlone "alice" legacyState migrateAlice := by
    intro _ user hfind _ mfa _ _ _ _ row hrow _
    obtain rfl : legacyAlice = user := Option.some.inj (find?_legacyAlice.symm.trans hfind)
    obtain rfl := mem_legacySecrets.mp hrow
    rfl
  have hinit : (secretsSystem legacyService).init legacyState := rfl
  have hkept := (secrets_readable_iff legacyService legacySha_injective "alice" hinit
    legacyState_readable (.single hstep)).mpr (.single ⟨hstep, halone⟩)
  exact hkept [migrateAlice] _ (List.prefix_refl _) (.single hstep)

/-- **If the telephone number comes first, the TOTP secret is lost.** -/
theorem totp_lost : AllReadable legacyService legacyState.crypto legacyState.plaintexts "alice" ∧
    (secretsSystem legacyService).Run legacyState [challengeAlice]
      (legacyState.after challengeAlice) ∧
    ¬ AllReadable legacyService (legacyState.after challengeAlice).crypto
      (legacyState.after challengeAlice).plaintexts "alice" := by
  have hstep : (secretsSystem legacyService).step legacyState challengeAlice
      (legacyState.after challengeAlice) :=
    ⟨⟨rfl, fun _ => legacyState_generated⟩, trivial, legacyGenerated_answered, rfl⟩
  have halone : ¬ FirstKeysAlone "alice" legacyState challengeAlice := by
    intro h
    have hfield := h rfl legacyAlice find?_legacyAlice rfl legacyRow (mem_legacySecrets.mpr rfl) rfl
    exact absurd hfield (by decide)
  refine ⟨legacyState_readable, .single hstep, fun hafter => halone ?_⟩
  have hkept : Kept legacyService "alice" legacyState := ⟨cacheOk_empty, legacyState_readable⟩
  have hcache := cacheOk_of_secretsRun legacySha_injective hkept.1 (.single hstep)
  exact (kept_of_step legacySha_injective hkept hstep).mp ⟨hcache, hafter⟩

end Scap.Crypto
