import Scap.Crypto.RoundTrip

/-!
# What a stored account secret decrypts to

The first key of an account changes how all of its secrets are read, and only the secret that is
written in the same operation is encrypted with it.

* `storeSecret_readable`, `migrateSecret_readable` — the secrets of an account stay readable when
  its first key is made while no other secret of it is stored;
* `storeSecret_unreadable`, `migrateSecret_unreadable` — and only then.
-/

namespace Scap.Crypto

open Scap.Py Scap.Lib

variable {svc : EnvelopeCryptoService} {s t u : CryptoState} {user user' : User}
  {row : StoredSecret} {dek : Bytes} {p field plaintext ciphertext nonceText : String}
  {generated : Except KeyProviderError GeneratedDek} {nonce : Bytes} {g : GeneratedDek}
  {w w' : WrappedDek} {id : String}

/-! ## One secret -/

/-- `decrypt_user_secret` of a service without a cache. -/
def plainDecryptUserSecret (svc : EnvelopeCryptoService) (user : User)
    (ciphertext nonce field : String) : Except CryptoError String :=
  if truthy user.secretWrappedDek = none then
    match svc.legacyCrypto with
    | none => .error (.envelope "Legacy account key material is unavailable.")
    | some legacy => legacy.decryptSecret svc.gcm ciphertext nonce field
  else match decodeAeadPayload ciphertext nonce with
    | .error e => .error e
    | .ok (ciphertext, nonce) =>
      match plainUserDek svc user with
      | .error e => .error e
      | .ok dek => openSecret svc dek user.id field user.secretCryptoEpoch ciphertext nonce

theorem decryptUserSecret_plain (hsha : Function.Injective svc.sha256)
    (hcache : CacheOk svc s.cache) :
    (decryptUserSecret svc s user ciphertext nonceText field).2 =
      plainDecryptUserSecret svc user ciphertext nonceText field := by
  obtain ⟨hdek, -⟩ := userDek_spec hsha hcache user
  unfold decryptUserSecret plainDecryptUserSecret
  split
  · cases svc.legacyCrypto with
    | none => rfl
    | some legacy => rfl
  · cases decodeAeadPayload ciphertext nonceText with
    | error e => rfl
    | ok payload =>
        dsimp only
        rw [← hdek]
        cases hlookup : userDek svc s user with
        | mk s' answer => cases answer <;> rfl

theorem wrapped_of_dek (h : plainUserDek svc user = .ok dek) :
    ∃ w, user.wrapped = some w ∧ truthy user.secretWrappedDek = some w.wrappedDek := by
  unfold plainUserDek at h
  cases hw : user.wrapped with
  | none =>
      rw [hw] at h
      cases h
  | some w =>
      refine ⟨w, rfl, ?_⟩
      unfold User.wrapped at hw
      split at hw
      · split at hw
        · next htruthy _ _ _ =>
          cases hw
          exact htruthy
        · cases hw
      · cases hw

/-- What `encrypt_user_secret` has returned is read again. -/
theorem plainDecrypt_encryptedSecret (hdek : plainUserDek svc user = .ok dek)
    (hlength : nonce.length = 12) :
    plainDecryptUserSecret svc user
      (urlsafeB64encode (svc.gcm.encrypt dek nonce
        (canonicalSecretAad user.id field user.secretCryptoEpoch) (utf8 plaintext)))
      (urlsafeB64encode nonce) field = .ok plaintext := by
  obtain ⟨w, -, htruthy⟩ := wrapped_of_dek hdek
  have hkey : truthy user.secretWrappedDek ≠ none := by
    rw [htruthy]
    exact Option.some_ne_none _
  unfold plainDecryptUserSecret
  simp only [if_neg hkey, decodeAeadPayload_encrypted hlength, hdek]
  unfold openSecret
  rw [svc.gcm.decrypt_encrypt, Option.bind_some, decodeUtf8_utf8]

/-- A secret that an account without a key can read is lost to the account with one. -/
theorem lost_with_key (hnone : truthy user.secretWrappedDek = none)
    (hsome : truthy user'.secretWrappedDek ≠ none)
    (h : plainDecryptUserSecret svc user ciphertext nonceText field = .ok p) :
    ∃ e, plainDecryptUserSecret svc user' ciphertext nonceText field = .error e := by
  unfold plainDecryptUserSecret at h ⊢
  rw [if_pos hnone] at h
  rw [if_neg hsome]
  split at h
  · cases h
  · next legacy _ =>
    unfold CryptoService.decryptSecret at h
    split at h
    · next payload nonceBytes hpayload hnonce =>
      split at h
      · cases h
      · split at h
        · cases h
        · next text hfound =>
          obtain ⟨version, -, htry⟩ := List.exists_of_findSome?_eq_some hfound
          cases hdecoded : decodeAeadPayload ciphertext nonceText with
          | error e => exact ⟨e, rfl⟩
          | ok pair =>
              obtain ⟨payload', nonceBytes'⟩ := pair
              obtain ⟨hpayload', hnonce'⟩ := decodeAeadPayload_ok hdecoded
              rw [hpayload] at hpayload'
              rw [hnonce] at hnonce'
              cases hpayload'
              cases hnonce'
              dsimp only
              cases plainUserDek svc user' with
              | error e => exact ⟨e, rfl⟩
              | ok dek => exact openSecret_legacy htry _ _
    · cases h

/-! ## Keys of accounts -/

/-- The columns of a key can be told from those of no key. -/
structure WrappedDek.Usable (w : WrappedDek) : Prop where
  wrappedDek : w.wrappedDek ≠ ""
  kekUri : w.kekUri ≠ ""
  kekVersion : w.kekVersion ≠ ""

theorem truthy_some {value : String} (h : value ≠ "") : truthy (some value) = some value := by
  unfold truthy
  rw [Option.filter_some, if_pos (decide_eq_true h)]

theorem wrapped_withKey {epoch : Int} (hw : w.Usable) (hpos : 0 < epoch) :
    (user.withKey epoch w).wrapped = some w := by
  unfold User.wrapped User.withKey
  simp only [truthy_some hw.wrappedDek, truthy_some hw.kekUri, truthy_some hw.kekVersion,
    if_pos hpos]

theorem canonicalContext_user (user : User) (epoch : Int) :
    ∃ text, canonicalContext (userKeyContext user epoch) = some text := by
  have hkeys : (userKeyContext user epoch).any (fun f => f.1 = "" || 80 < f.1.length) = false := by
    show ["crypto_epoch", "purpose", "tenant_id", "user_id"].any
      (fun k => k = "" || 80 < k.length) = false
    decide
  have hne : userKeyContext user epoch ≠ [] := List.cons_ne_nil _ _
  unfold canonicalContext
  rw [hkeys, if_neg (by simp [hne])]
  exact ⟨_, rfl⟩

/-- The first key of an account unwraps to what was generated. -/
theorem plainUserDek_withKey (hg : svc.provider.generates (userKeyContext user 1) g)
    (hlength : g.plaintextDek.length = 32) (husable : g.Usable) :
    plainUserDek svc (user.withKey 1 g.toWrappedDek) = .ok g.plaintextDek := by
  obtain ⟨text, htext⟩ := canonicalContext_user user 1
  have hcontext : canonicalContext (userKeyContext user 1) ≠ none := by
    rw [htext]
    exact Option.some_ne_none _
  unfold plainUserDek
  rw [wrapped_withKey husable Int.one_pos]
  show plainUnwrap svc g.toWrappedDek (userKeyContext user 1) _ _ = _
  unfold plainUnwrap
  rw [if_neg hcontext, svc.provider.unwrap_generated hg]
  exact if_neg (not_not.mpr hlength)

/-- Rewrapping changes no secret. -/
theorem plainDecrypt_rewrapped (hw : user.wrapped = some w)
    (h : svc.provider.rewraps w (userKeyContext user user.secretCryptoEpoch) w')
    (husable : w'.Usable) :
    plainDecryptUserSecret svc (user.withKey user.secretCryptoEpoch w') ciphertext nonceText field =
      plainDecryptUserSecret svc user ciphertext nonceText field := by
  have hkeyed : 0 < user.secretCryptoEpoch ∧ truthy user.secretWrappedDek ≠ none := by
    unfold User.wrapped at hw
    split at hw
    · split at hw
      · next htruthy _ _ hpos =>
        rw [htruthy]
        exact ⟨hpos, Option.some_ne_none _⟩
      · cases hw
    · cases hw
  have htruthy : truthy (some w'.wrappedDek) ≠ none := by
    rw [truthy_some husable.wrappedDek]
    exact Option.some_ne_none _
  have hdek : plainUserDek svc (user.withKey user.secretCryptoEpoch w') =
      plainUserDek svc user := by
    unfold plainUserDek
    rw [wrapped_withKey husable hkeyed.1, hw]
    exact plainUnwrap_rewrapped h
  unfold plainDecryptUserSecret
  rw [hdek, if_neg hkeyed.2]
  exact if_neg htruthy

/-- If the provider answers, an account without a key gets one. -/
theorem ensureUserKey_new (hnone : truthy user.secretWrappedDek = none)
    (hlength : g.plaintextDek.length = 32) :
    ∃ cache, ensureUserKey svc s user (.ok g) =
      ({ s with users := setUser s user.id 1 g.toWrappedDek, cache := cache },
        .ok (user.withKey 1 g.toWrappedDek)) := by
  obtain ⟨text, htext⟩ := canonicalContext_user user 1
  obtain ⟨key, hkey⟩ : ∃ key, dekCacheKey svc g.toWrappedDek (userKeyContext user 1) = some key :=
    ⟨_, by rw [dekCacheKey, htext, Option.map_some]⟩
  unfold ensureUserKey
  rw [hnone]
  simp only [Option.isSome_none, Bool.false_eq_true, if_false, hkey, if_neg (not_not.mpr hlength)]
  exact ⟨_, rfl⟩

theorem find?_setUser {id' : String} {epoch : Int} (h : s.users.find? id' = some user) :
    (setUser s id epoch w).find? id' = some (if user.id = id then user.withKey epoch w else user) := by
  unfold setUser
  rw [KeyedTable.find?_modify, h, Option.map_some]

theorem mem_putSecret {row r : StoredSecret} :
    r ∈ (putSecret s row).rows ↔ r = row ∨ (r ∈ s.secrets.rows ∧ r.key ≠ row.key) := by
  have hfresh : ∀ y ∈ (s.secrets.filter fun r => r.key ≠ row.key).rows, y.key ≠ row.key := by
    intro y hy
    exact of_decide_eq_true (KeyedTable.mem_filter.mp hy).2
  unfold putSecret
  rw [KeyedTable.mem_insertNew hfresh, KeyedTable.mem_filter, decide_eq_true_iff]

/-! ## All secrets of an account -/

/-- Plaintexts by account and field. -/
abbrev Plaintexts := String → String → Option String

def Plaintexts.set (plaintexts : Plaintexts) (userId field plaintext : String) : Plaintexts :=
  fun u f => if u = userId ∧ f = field then some plaintext else plaintexts u f

/-- **Every stored secret of the account is read as what it was stored with.** -/
def AllReadable (svc : EnvelopeCryptoService) (s : CryptoState) (plaintexts : Plaintexts)
    (id : String) : Prop :=
  ∀ row ∈ s.secrets.rows, row.userId = id → ∃ user p, s.users.find? id = some user ∧
    plaintexts id row.field = some p ∧
    (decryptUserSecret svc s user row.ciphertext row.nonce row.field).2 = .ok p

/-- The same without the cache. -/
def PlainReadable (svc : EnvelopeCryptoService) (s : CryptoState) (plaintexts : Plaintexts)
    (id : String) : Prop :=
  ∀ row ∈ s.secrets.rows, row.userId = id → ∃ user p, s.users.find? id = some user ∧
    plaintexts id row.field = some p ∧
    plainDecryptUserSecret svc user row.ciphertext row.nonce row.field = .ok p

variable {plaintexts plaintexts' : Plaintexts}

theorem allReadable_iff (hsha : Function.Injective svc.sha256) (hcache : CacheOk svc s.cache) :
    AllReadable svc s plaintexts id ↔ PlainReadable svc s plaintexts id := by
  unfold AllReadable PlainReadable
  simp only [decryptUserSecret_plain hsha hcache]

/-- What the operations on conversations leave alone. -/
structure SameAccounts (s t : CryptoState) : Prop where
  users : t.users = s.users
  secrets : t.secrets = s.secrets

theorem SameAccounts.readable (h : SameAccounts s t) :
    PlainReadable svc t plaintexts id ↔ PlainReadable svc s plaintexts id := by
  unfold PlainReadable
  rw [h.users, h.secrets]

/-- With the first key of an account all of its older secrets are lost. -/
theorem not_readable_of_key (hs : PlainReadable svc s plaintexts user.id)
    (hfind : s.users.find? user.id = some user) (hnone : truthy user.secretWrappedDek = none)
    (hrow : row ∈ s.secrets.rows) (hid : row.userId = user.id)
    (hfind' : t.users.find? user.id = some user') (hsome : truthy user'.secretWrappedDek ≠ none)
    (hrow' : row ∈ t.secrets.rows) : ¬ PlainReadable svc t plaintexts' user.id := by
  intro ht
  obtain ⟨user₀, p, hfind₀, -, hdecrypt⟩ := hs row hrow hid
  obtain ⟨user₁, p', hfind₁, -, hdecrypt'⟩ := ht row hrow' hid
  obtain rfl : user = user₀ := Option.some.inj (hfind.symm.trans hfind₀)
  obtain rfl : user' = user₁ := Option.some.inj (hfind'.symm.trans hfind₁)
  obtain ⟨e, herror⟩ := lost_with_key hnone hsome hdecrypt
  rw [herror] at hdecrypt'
  cases hdecrypt'

theorem UserKeyStep.find? (h : UserKeyStep svc s user t user')
    (hfind : s.users.find? user.id = some user) : t.users.find? user.id = some user' := by
  cases h with
  | kept => exact hfind
  | created g cache hnone hg hlength =>
      show (setUser s user.id 1 g.toWrappedDek).find? user.id = _
      rw [find?_setUser hfind, if_pos rfl]

theorem UserKeyStep.find?_of_ne (h : UserKeyStep svc s user t user') {other : User}
    (hfind : s.users.find? id = some other) (hne : id ≠ user.id) :
    t.users.find? id = some other := by
  cases h with
  | kept => exact hfind
  | created g cache hnone hg hlength =>
      have hid : other.id ≠ user.id := by
        rw [(KeyedTable.find?_eq_some hfind).2]
        exact hne
      show (setUser s user.id 1 g.toWrappedDek).find? id = _
      rw [find?_setUser hfind, if_neg hid]

theorem UserKeyStep.secrets (h : UserKeyStep svc s user t user') : t.secrets = s.secrets := by
  cases h with
  | kept => rfl
  | created => rfl

/-! ### `encrypt_user_secret` -/

/-- No secret of the account but this one is stored when its first key is made. -/
def FirstKeyAlone (s : CryptoState) (user : User) (field : String) : Prop :=
  truthy user.secretWrappedDek = none →
    ∀ row ∈ s.secrets.rows, row.userId = user.id → row.field = field

/-- A secret that is stored under its condition is readable, and so are the others. -/
theorem storeSecret_readable (hsha : Function.Injective svc.sha256) (hcache : CacheOk svc s.cache)
    (hgenerated : Generated svc (userKeyContext user 1) generated) (hlength : nonce.length = 12)
    (hfind : s.users.find? user.id = some user) (halone : user.id = id → FirstKeyAlone s user field)
    (hs : PlainReadable svc s plaintexts id) (plaintext : String) :
    (∀ e, (storeSecret svc s user plaintext field generated nonce).2 = .error e →
        PlainReadable svc (storeSecret svc s user plaintext field generated nonce).1 plaintexts id) ∧
      ((storeSecret svc s user plaintext field generated nonce).2 = .ok () →
        PlainReadable svc (storeSecret svc s user plaintext field generated nonce).1
          (plaintexts.set user.id field plaintext) id) := by
  obtain ⟨-, herror, hok⟩ := encryptUserSecret_spec hsha hcache hgenerated plaintext field nonce
  unfold storeSecret
  cases hencrypt : encryptUserSecret svc s user plaintext field generated nonce with
  | mk s₁ answer =>
      rw [hencrypt] at herror hok
      cases answer with
      | error e =>
          obtain ⟨⟨cache, hstate⟩, -⟩ := herror e rfl
          refine ⟨fun _ _ => ?_, fun h => nomatch h⟩
          show PlainReadable svc s₁ plaintexts id
          rw [show s₁ = { s with cache := cache } from hstate]
          exact hs
      | ok c =>
          obtain ⟨t, user', dek, cache, hkey, hstate, hdek, hciphertext, hnonce⟩ := hok c rfl
          obtain ⟨ciphertext, nonceText⟩ := c
          refine ⟨fun _ h => (nomatch h), fun _ row hrow howner => ?_⟩
          rw [show s₁ = { t with cache := cache } from hstate] at hrow ⊢
          rcases mem_putSecret.mp hrow with rfl | ⟨hold, hother⟩
          · -- the new secret
            obtain rfl : user.id = id := howner
            refine ⟨user', plaintext, hkey.find? hfind, if_pos ⟨rfl, rfl⟩, ?_⟩
            rw [show ciphertext = _ from hciphertext, show nonceText = _ from hnonce]
            exact plainDecrypt_encryptedSecret hdek hlength
          · rw [show ({ t with cache := cache } : CryptoState).secrets = t.secrets from rfl,
              hkey.secrets] at hold
            obtain ⟨other, p, hfind', hplaintext, hdecrypt⟩ := hs row hold howner
            have hset : plaintexts.set user.id field plaintext id row.field = some p := by
              have hne : ¬ (id = user.id ∧ row.field = field) := by
                rintro ⟨hid, hfield⟩
                exact hother (congrArg toLex (Prod.ext (howner.trans hid) hfield))
              unfold Plaintexts.set
              rw [if_neg hne, hplaintext]
            by_cases hid : id = user.id
            · -- an older secret of the account, so that the account has had its key before
              cases hkey with
              | kept => exact ⟨other, p, hfind', hset, hdecrypt⟩
              | created g cache' hnone hg hlength' =>
                  have hfield := halone hid.symm hnone row hold (howner.trans hid)
                  exact absurd (congrArg toLex (Prod.ext (howner.trans hid) hfield)) hother
            · exact ⟨other, p, hkey.find?_of_ne hfind' hid, hset, hdecrypt⟩

/-- Without its condition the older secrets are lost. -/
theorem storeSecret_unreadable (hsha : Function.Injective svc.sha256)
    (hcache : CacheOk svc s.cache) (hg : svc.provider.generates (userKeyContext user 1) g)
    (hlength : g.plaintextDek.length = 32) (husable : g.Usable)
    (hfind : s.users.find? user.id = some user) (halone : ¬ FirstKeyAlone s user field)
    (hs : PlainReadable svc s plaintexts user.id) (plaintext : String) (nonce : Bytes) :
    (storeSecret svc s user plaintext field (.ok g) nonce).2 = .ok () ∧
      ∀ plaintexts', ¬ PlainReadable svc
        (storeSecret svc s user plaintext field (.ok g) nonce).1 plaintexts' user.id := by
  unfold FirstKeyAlone at halone
  push Not at halone
  obtain ⟨hnone, row, hrow, hid, hfield⟩ := halone
  obtain ⟨cache, hensure⟩ := (ensureUserKey_new hnone hlength : ∃ cache, ensureUserKey svc s user (.ok g) = _)
  have hdek : plainUserDek svc (user.withKey 1 g.toWrappedDek) = .ok g.plaintextDek :=
    plainUserDek_withKey hg hlength husable
  have hkeyed : CacheOk svc (ensureUserKey svc s user (.ok g)).1.cache :=
    (ensureUserKey_spec hcache fun _ h => by cases h; exact hg).1
  rw [hensure] at hkeyed
  obtain ⟨hlookup, ⟨cache', hstate⟩, -⟩ := userDek_spec hsha hkeyed (user.withKey 1 g.toWrappedDek)
  unfold storeSecret encryptUserSecret
  rw [hensure]
  dsimp only at hlookup hstate ⊢
  generalize hfound : userDek svc _ (user.withKey 1 g.toWrappedDek) = found at hlookup hstate ⊢
  obtain ⟨s₂, answer⟩ := found
  obtain rfl : answer = .ok g.plaintextDek := hlookup.trans hdek
  dsimp only at hstate ⊢
  rw [hstate]
  refine ⟨rfl, fun plaintexts' => ?_⟩
  apply not_readable_of_key hs hfind hnone hrow hid
  · show (setUser s user.id 1 g.toWrappedDek).find? user.id = _
    rw [find?_setUser hfind, if_pos rfl]
  · show truthy (some g.wrappedDek) ≠ none
    rw [truthy_some husable.wrappedDek]
    exact Option.some_ne_none _
  · refine mem_putSecret.mpr (.inr ⟨hrow, fun hkey => hfield ?_⟩)
    exact congrArg (fun k : String ×ₗ String => (ofLex k).2) hkey

/-! ### The migration -/

/-- No secret of the account but the TOTP secret is stored when the script migrates that. -/
def MigratedAlone (s : CryptoState) (user : User) : Prop :=
  user.secretWrappedDek = none → ∀ mfa, s.secrets.find? (toLex (user.id, mfaField user)) = some mfa →
    mfa.ciphertext ≠ "" → mfa.nonce ≠ "" → FirstKeyAlone s user (mfaField user)

theorem Plaintexts.set_self (h : plaintexts id field = some p) :
    plaintexts.set id field p = plaintexts := by
  funext u f
  unfold Plaintexts.set
  split
  · next hsame => rw [hsame.1, hsame.2, h]
  · rfl

/-- What the secrets decrypt to depends on no cache. -/
theorem PlainReadable.of_cache (hs : PlainReadable svc s plaintexts id) (cache : DekCache) :
    PlainReadable svc { s with cache := cache } plaintexts id := hs

/-- The plaintexts of other accounts do not matter. -/
theorem PlainReadable.of_set (hs : PlainReadable svc s (plaintexts.set user.id field p) id)
    (hne : user.id ≠ id) : PlainReadable svc s plaintexts id := by
  intro row hrow howner
  obtain ⟨other, p', hfind, hplaintext, hdecrypt⟩ := hs row hrow howner
  unfold Plaintexts.set at hplaintext
  rw [if_neg fun h => hne h.1.symm] at hplaintext
  exact ⟨other, p', hfind, hplaintext, hdecrypt⟩

/-- The script reads the TOTP secret as it was stored, if it comes to it. -/
theorem decrypt_mfa (hsha : Function.Injective svc.sha256) (hcache : CacheOk svc s.cache)
    (hfind : s.users.find? user.id = some user)
    (hmfa : s.secrets.find? (toLex (user.id, mfaField user)) = some row)
    (hs : PlainReadable svc s plaintexts user.id) :
    ∃ p, plaintexts user.id (mfaField user) = some p ∧
      (decryptUserSecret svc s user row.ciphertext row.nonce (mfaField user)).2 = .ok p := by
  obtain ⟨hrow, hkey⟩ := KeyedTable.find?_eq_some hmfa
  obtain ⟨hid, hfield⟩ := Prod.mk.inj (toLex.injective hkey)
  obtain ⟨user₀, p, hfind₀, hplaintext, hdecrypt⟩ := hs row hrow hid
  rw [hfield] at hplaintext hdecrypt
  obtain rfl : user = user₀ := Option.some.inj (hfind.symm.trans hfind₀)
  exact ⟨p, hplaintext, (decryptUserSecret_plain hsha hcache).trans hdecrypt⟩

theorem migrateSecret_readable (hsha : Function.Injective svc.sha256)
    (hcache : CacheOk svc s.cache)
    (hgenerated : Generated svc (userKeyContext user 1) generated) (hlength : nonce.length = 12)
    (hfind : s.users.find? user.id = some user) (halone : user.id = id → MigratedAlone s user)
    (hs : PlainReadable svc s plaintexts id) :
    PlainReadable svc (migrateSecret svc s user generated nonce).1 plaintexts id := by
  unfold migrateSecret
  split
  · exact hs
  · next hkey =>
    have hnone : user.secretWrappedDek = none := by simpa using hkey
    cases hmfa : s.secrets.find? (toLex (user.id, mfaField user)) with
    | none => exact hs
    | some row =>
        dsimp only
        split
        · exact hs
        · next hstored =>
          rw [not_or] at hstored
          have hmigrated : user.id = id → ∃ p, plaintexts user.id (mfaField user) = some p ∧
              (decryptUserSecret svc s user row.ciphertext row.nonce (mfaField user)).2 = .ok p := by
            rintro rfl
            exact decrypt_mfa hsha hcache hfind hmfa hs
          obtain ⟨⟨cache, hstate⟩, hcache'⟩ := decryptUserSecret_spec hsha hcache user
            row.ciphertext row.nonce (mfaField user)
          generalize decryptUserSecret svc s user row.ciphertext row.nonce (mfaField user) = found
            at hmigrated hstate hcache' ⊢
          obtain ⟨s₁, answer⟩ := found
          obtain rfl : s₁ = { s with cache := cache } := hstate
          cases answer with
          | error e => exact hs.of_cache _
          | ok p =>
              obtain ⟨-, hstore⟩ := storeSecret_readable hsha hcache' hgenerated hlength hfind
                (fun hid => halone hid hnone row hmfa hstored.1 hstored.2) (hs.of_cache cache) p
              dsimp only
              generalize storeSecret svc _ user p (mfaField user) generated nonce = result
                at hstore ⊢
              obtain ⟨s₂, answer⟩ := result
              cases answer with
              | error e => exact hs.of_cache _
              | ok _ =>
                  have hset := hstore rfl
                  by_cases hid : user.id = id
                  · -- what is encrypted again is what was stored
                    obtain ⟨p', hplaintext, hdecrypt⟩ := hmigrated hid
                    obtain rfl : p = p' := Except.ok.inj hdecrypt
                    rwa [Plaintexts.set_self hplaintext] at hset
                  · exact hset.of_set hid

theorem migrateSecret_unreadable (hsha : Function.Injective svc.sha256)
    (hcache : CacheOk svc s.cache) (hg : svc.provider.generates (userKeyContext user 1) g)
    (hlength : g.plaintextDek.length = 32) (husable : g.Usable)
    (hfind : s.users.find? user.id = some user) (halone : ¬ MigratedAlone s user)
    (hs : PlainReadable svc s plaintexts user.id) :
    ¬ PlainReadable svc (migrateSecret svc s user (.ok g) nonce).1 plaintexts' user.id := by
  unfold MigratedAlone at halone
  push Not at halone
  obtain ⟨hnone, row, hmfa, hciphertext, hnonce, halone⟩ := halone
  obtain ⟨p, -, hdecrypt⟩ := decrypt_mfa hsha hcache hfind hmfa hs
  obtain ⟨⟨cache, hstate⟩, hcache'⟩ := decryptUserSecret_spec hsha hcache user
    row.ciphertext row.nonce (mfaField user)
  have hstored : ¬ (row.ciphertext = "" ∨ row.nonce = "") := not_or.mpr ⟨hciphertext, hnonce⟩
  unfold migrateSecret
  rw [hnone]
  simp only [Option.isSome_none, Bool.false_eq_true, if_false, hmfa, if_neg hstored]
  generalize decryptUserSecret svc s user row.ciphertext row.nonce (mfaField user) = found
    at hdecrypt hstate hcache' ⊢
  obtain ⟨s₁, answer⟩ := found
  obtain rfl : answer = .ok p := hdecrypt
  obtain rfl : s₁ = { s with cache := cache } := hstate
  obtain ⟨hok, hlost⟩ := storeSecret_unreadable hsha hcache' hg hlength husable hfind halone
    (hs.of_cache cache) p nonce
  dsimp only
  generalize storeSecret svc _ user p (mfaField user) (.ok g) nonce = result at hok hlost ⊢
  obtain ⟨s₂, answer⟩ := result
  obtain rfl : answer = .ok () := hok
  exact hlost plaintexts'

end Scap.Crypto
