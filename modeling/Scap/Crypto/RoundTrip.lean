import Scap.Crypto.Transparent

/-!
# What a stored message decrypts to

Nothing the service does changes what a stored message decrypts to: new epochs leave the old ones
alone, rewrapping does not change a data key, and migration encrypts what it has decrypted. And the
associated data keep a ciphertext in its place.

* `readable_of_perform` — one operation;
* `message_round_trip` — any run, together with the binding and the migration.
-/

namespace Scap.Crypto

open Scap.Py Scap.Lib

variable {svc : EnvelopeCryptoService} {s t u : CryptoState} {session session' : ChatSession}
  {row : SecureMessage} {m : MessageInput} {epoch : Int} {dek : Bytes} {p : String} {id : Nat}
  {generated : Except KeyProviderError GeneratedDek} {nonce : Bytes} {c : EncryptedMessage}

/-! ## One message -/

theorem openMessage_encrypted {b : MessageBinding} {plaintext : String} :
    openMessage svc dek b (svc.gcm.encrypt dek nonce (canonicalMessageAad b) (utf8 plaintext))
      nonce = .ok plaintext := by
  unfold openMessage
  rw [svc.gcm.decrypt_encrypt, Option.bind_some, decodeUtf8_utf8]

theorem decodeAeadPayload_encrypted {k a q : Bytes} (hnonce : nonce.length = 12) :
    decodeAeadPayload (urlsafeB64encode (svc.gcm.encrypt k nonce a q)) (urlsafeB64encode nonce) =
      .ok (svc.gcm.encrypt k nonce a q, nonce) := by
  have htag := svc.gcm.tag k nonce a q
  have hvalid : ¬ (nonce.length ≠ 12 ∨ (svc.gcm.encrypt k nonce a q).length < 16) := by
    rw [not_or]
    exact ⟨not_not.mpr hnonce, not_lt.mpr htag⟩
  unfold decodeAeadPayload
  simp only [b64decode_urlsafe, if_neg hvalid]

/-- The row of what `encrypt_message` has returned decrypts to what it was given. -/
theorem plainDecrypt_encrypted (row : SecureMessage)
    (hdek : plainSessionDek svc s session c.epoch = .ok dek)
    (hciphertext : c.ciphertext = urlsafeB64encode (svc.gcm.encrypt dek nonce
      (canonicalMessageAad (m.binding session c.epoch)) (utf8 m.plaintext)))
    (hnonce : c.nonce = urlsafeB64encode nonce) (hlength : nonce.length = 12)
    (hsession : row.sessionId = session.id) (hrole : row.role = m.role)
    (huuid : row.messageUuid = m.messageUuid) (hindex : row.messageIndex = m.messageIndex) :
    plainDecryptMessage svc s session (row.withEnvelope c) = .ok m.plaintext := by
  have hvalid : validateMessageContext session (row.withEnvelope c) = none := by
    have hhere : (row.withEnvelope c).sessionId = session.id := hsession
    have hknown : (row.withEnvelope c).encryptionScheme = ENVELOPE_SCHEME := rfl
    unfold validateMessageContext
    rw [if_neg (not_not.mpr hhere), if_neg (fun h => h.1 hknown)]
  have hscheme : (row.withEnvelope c).encryptionScheme ≠ LEGACY_SCHEME := by
    show ENVELOPE_SCHEME ≠ LEGACY_SCHEME
    decide
  have hbinding : (row.withEnvelope c).binding session = m.binding session c.epoch := by
    show MessageBinding.mk _ row.sessionId row.messageUuid row.messageIndex row.role c.epoch =
      MessageBinding.mk _ _ _ _ _ _
    rw [hsession, hrole, huuid, hindex]
  have hpayload : decodeAeadPayload (row.withEnvelope c).ciphertext (row.withEnvelope c).nonce =
      .ok (svc.gcm.encrypt dek nonce (canonicalMessageAad (m.binding session c.epoch))
        (utf8 m.plaintext), nonce) := by
    show decodeAeadPayload c.ciphertext c.nonce = _
    rw [hciphertext, hnonce]
    exact decodeAeadPayload_encrypted hlength
  have hkey : plainSessionDek svc s session (row.withEnvelope c).cryptoEpoch = .ok dek := hdek
  unfold plainDecryptMessage
  simp only [hvalid, if_neg hscheme, hpayload, hkey, hbinding]
  exact openMessage_encrypted

/-- A change of the keys that respects them does not change what a row decrypts to. -/
theorem plainDecrypt_of_step (hstep : SessionStep svc s t)
    (hfind : s.sessions.find? session.id = some session) (hsame : SameOwner session session')
    (h : plainDecryptMessage svc s session row = .ok p) :
    plainDecryptMessage svc t session' row = .ok p := by
  unfold plainDecryptMessage validateMessageContext at h ⊢
  rw [hsame.id]
  split at h
  · cases h
  · split at h
    · next hlegacy =>
      rw [if_pos hlegacy]
      exact h
    · next hlegacy =>
      rw [if_neg hlegacy]
      split at h
      · cases h
      · next ciphertext nonce _ =>
        split at h
        · cases h
        · next dek hdek =>
          have hdek' := hstep.deks session hfind _ _ hdek
          rw [← plainSessionDek_congr hsame] at hdek'
          have hbinding : row.binding session' = row.binding session := by
            unfold SecureMessage.binding
            rw [hsame.owner]
          simp only [hdek', hbinding]
          exact h

/-! ## One operation -/

/-- The message `id` is stored with its conversation and decrypts to `p`. -/
def Readable (svc : EnvelopeCryptoService) (s : CryptoState) (id : Nat) (p : String) : Prop :=
  ∃ row session, s.messages.find? id = some row ∧
    s.sessions.find? row.sessionId = some session ∧
    plainDecryptMessage svc s session row = .ok p

/-- The tables that `decrypt_message` reads. -/
structure SameConversations (s t : CryptoState) : Prop where
  sessions : t.sessions = s.sessions
  epochs : t.epochs = s.epochs
  messages : t.messages = s.messages

theorem SameConversations.refl : SameConversations s s := ⟨rfl, rfl, rfl⟩

theorem SameConversations.readable (h : SameConversations s t) (hs : Readable svc s id p) :
    Readable svc t id p := by
  obtain ⟨row, session, hrow, hsession, hdecrypt⟩ := hs
  refine ⟨row, session, by rw [h.messages, hrow], by rw [h.sessions, hsession], ?_⟩
  unfold plainDecryptMessage plainSessionDek at hdecrypt ⊢
  rw [h.epochs]
  exact hdecrypt

theorem find?_self {id : String} (h : s.sessions.find? id = some session) :
    s.sessions.find? session.id = some session := by
  rw [(KeyedTable.find?_eq_some h).2]
  exact h

theorem SessionStep.readable (h : SessionStep svc s t)
    (hmessages : ∀ row, s.messages.find? id = some row → t.messages.find? id = some row)
    (hs : Readable svc s id p) : Readable svc t id p := by
  obtain ⟨row, session, hrow, hsession, hdecrypt⟩ := hs
  obtain ⟨session', hsession', hsame⟩ := h.sessions _ session hsession
  exact ⟨row, session', hmessages row hrow, hsession',
    plainDecrypt_of_step h (find?_self hsession) hsame hdecrypt⟩

/-- What an operation on messages leaves readable. -/
theorem CacheStep.readable (h : CacheStep svc s t) (hs : Readable svc s id p) :
    Readable svc t id p := by
  obtain ⟨⟨cache, rfl⟩, -⟩ := h
  exact SameConversations.readable ⟨rfl, rfl, rfl⟩ hs

/-- `storeMessage` adds a row that decrypts to what was given, and leaves the others. -/
theorem storeMessage_spec (hsha : Function.Injective svc.sha256) (hcache : CacheOk svc s.cache)
    (hfind : s.sessions.find? session.id = some session)
    (hgenerated : Generated svc (ensureContext session) generated) (hlength : nonce.length = 12) :
    (∀ id' p, Readable svc s id' p →
        Readable svc (storeMessage svc s session id m generated nonce).1 id' p) ∧
      ((storeMessage svc s session id m generated nonce).2 = .ok () →
        Readable svc (storeMessage svc s session id m generated nonce).1 id m.plaintext) := by
  obtain ⟨hstep, hresult⟩ := encryptMessage_spec hsha hcache hgenerated m nonce
  unfold storeMessage
  split
  · next s' e heq =>
    rw [heq] at hstep
    exact ⟨fun _ _ hs => (cacheStep_rollback hstep.cache).readable hs, fun h => nomatch h⟩
  · next s' c heq =>
    rw [heq] at hstep hresult
    obtain ⟨dek, hdek, hciphertext, hnonce⟩ := hresult c rfl
    dsimp only
    split
    · exact ⟨fun _ _ hs => (cacheStep_rollback hstep.cache).readable hs, fun h => nomatch h⟩
    · next messages hinsert =>
      split at hinsert
      · cases hinsert
      · constructor
        · intro id' p hs
          obtain ⟨row, session₁, hrow, hsession₁, hdecrypt⟩ :=
            hstep.readable (fun row hrow => by rw [hstep.messages]; exact hrow) hs
          obtain ⟨hmem, hid⟩ := KeyedTable.find?_eq_some hrow
          refine ⟨row, session₁, ?_, hsession₁, hdecrypt⟩
          exact KeyedTable.find?_iff.mpr ⟨(KeyedTable.mem_insert? hinsert).mpr (.inr hmem), hid⟩
        · intro _
          obtain ⟨session₁, hsession₁, hsame⟩ := hstep.sessions _ session hfind
          refine ⟨_, session₁, KeyedTable.find?_iff.mpr
            ⟨(KeyedTable.mem_insert? hinsert).mpr (.inl rfl), rfl⟩, hsession₁, ?_⟩
          have hdek₁ : plainSessionDek svc s' session₁ c.epoch = .ok dek := by
            rw [plainSessionDek_congr hsame]
            exact hdek
          have hbinding : m.binding session₁ c.epoch = m.binding session c.epoch := by
            unfold MessageInput.binding
            rw [hsame.id, hsame.owner]
          rw [← hbinding] at hciphertext
          have hdecrypt := plainDecrypt_encrypted ⟨id, session.id, m.role, m.messageUuid,
            m.messageIndex, c.ciphertext, c.nonce, c.epoch, c.epoch, ENVELOPE_SCHEME⟩
            hdek₁ hciphertext hnonce hlength hsame.id.symm rfl rfl rfl
          exact hdecrypt

/-- If there is a key that unwraps, a first message is stored. -/
theorem storeMessage_first {epochRow : SessionKeyEpoch} (hsha : Function.Injective svc.sha256)
    (hensure : ensureSessionKey svc s session generated = (t, .ok epochRow))
    (hcache : CacheOk svc t.cache)
    (hdek : plainSessionDek svc t session epochRow.epoch = .ok dek) (hempty : t.messages = .empty) :
    (storeMessage svc s session id m generated nonce).2 = .ok () := by
  obtain ⟨u, c, hencrypt, hmessages⟩ := encryptMessage_ok hsha hensure hcache hdek m nonce
  unfold storeMessage
  rw [hencrypt]
  dsimp only
  rw [hmessages, hempty, KeyedTable.rows_empty, List.any_nil, if_neg Bool.false_ne_true]
  obtain ⟨messages, hinsert⟩ := KeyedTable.exists_insert?
    (t := (KeyedTable.empty : KeyedTable SecureMessage.id)) fun _ h => absurd h List.not_mem_nil
  rw [hinsert]

theorem validate_spec (h : validateMessageContext session row = none) :
    row.sessionId = session.id ∧
      (row.encryptionScheme = ENVELOPE_SCHEME ∨ row.encryptionScheme = LEGACY_SCHEME) := by
  unfold validateMessageContext at h
  split at h
  · cases h
  · next hsession =>
    split at h
    · cases h
    · next hscheme =>
      refine ⟨not_not.mp hsession, ?_⟩
      by_cases henvelope : row.encryptionScheme = ENVELOPE_SCHEME
      · exact .inl henvelope
      · exact .inr (not_not.mp fun hlegacy => hscheme ⟨henvelope, hlegacy⟩)

/-- A row of the shared keys decrypts as `migrate_legacy_message` decrypts it. -/
theorem plainDecrypt_legacy {legacy : CryptoService} {plaintext : String}
    (hvalid : validateMessageContext session row = none)
    (hscheme : row.encryptionScheme ≠ ENVELOPE_SCHEME) (hlegacy : svc.legacyCrypto = some legacy)
    (hdecrypt : legacy.decrypt svc.gcm row.ciphertext row.nonce row.sessionId row.role
      row.keyVersion = .ok plaintext) :
    plainDecryptMessage svc s session row = .ok plaintext := by
  have hold : row.encryptionScheme = LEGACY_SCHEME := (validate_spec hvalid).2.resolve_left hscheme
  unfold plainDecryptMessage
  simp only [hvalid, if_pos hold, hlegacy, hdecrypt]

/-- A row of the conversation's own keys is not migrated again. -/
theorem migrate_envelope (hvalid : row.sessionId = session.id)
    (hscheme : row.encryptionScheme = ENVELOPE_SCHEME) :
    migrateLegacyMessage svc s session row generated nonce = (s, .ok false) := by
  have hnone : validateMessageContext session row = none := by
    unfold validateMessageContext
    rw [if_neg (not_not.mpr hvalid), if_neg (fun h => h.1 hscheme)]
  unfold migrateLegacyMessage
  simp only [hnone, if_pos hscheme]

theorem find?_setMessage {id' : Nat} (h : s.messages.find? id' = some row) :
    (setMessage s id c).find? id' = some (if row.id = id then row.withEnvelope c else row) := by
  unfold setMessage
  rw [KeyedTable.find?_modify, h, Option.map_some]

/-- Migration leaves what every message decrypts to, and a second one does nothing. -/
theorem migrateLegacyMessage_spec (hsha : Function.Injective svc.sha256)
    (hcache : CacheOk svc s.cache) (hrow : s.messages.find? id = some row)
    (hfind : s.sessions.find? row.sessionId = some session)
    (hgenerated : Generated svc (ensureContext session) generated) (hlength : nonce.length = 12) :
    (∀ id' p, Readable svc s id' p →
        Readable svc (migrateLegacyMessage svc s session row generated nonce).1 id' p) ∧
      ∀ b, (migrateLegacyMessage svc s session row generated nonce).2 = .ok b →
        ∃ row' session',
          (migrateLegacyMessage svc s session row generated nonce).1.messages.find? id =
            some row' ∧
          (migrateLegacyMessage svc s session row generated nonce).1.sessions.find?
            row'.sessionId = some session' ∧
          row'.encryptionScheme = ENVELOPE_SCHEME := by
  obtain ⟨-, hid⟩ := KeyedTable.find?_eq_some hrow
  obtain ⟨-, hsession⟩ := KeyedTable.find?_eq_some hfind
  unfold migrateLegacyMessage
  split
  · exact ⟨fun _ _ hs => hs, fun _ h => nomatch h⟩
  · next hvalid =>
    split
    · next hscheme =>
      exact ⟨fun _ _ hs => hs, fun _ _ => ⟨row, session, hrow, hfind, hscheme⟩⟩
    · next hscheme =>
      split
      · exact ⟨fun _ _ hs => hs, fun _ h => nomatch h⟩
      · next legacy hlegacy =>
        split
        · exact ⟨fun _ _ hs => hs, fun _ h => nomatch h⟩
        · next plaintext hdecrypt =>
          obtain ⟨hstep, hresult⟩ := encryptMessage_spec hsha hcache hgenerated
            (row.input plaintext) nonce
          split
          · next s' e heq =>
            rw [heq] at hstep
            exact ⟨fun _ _ hs => (cacheStep_rollback hstep.cache).readable hs, fun _ h => nomatch h⟩
          · next s' c heq =>
            rw [heq] at hstep hresult
            obtain ⟨dek, hdek, hciphertext, hnonce⟩ := hresult c rfl
            have hrow' : s'.messages.find? id = some row := by rw [hstep.messages, hrow]
            have hnew : (setMessage s' row.id c).find? id = some (row.withEnvelope c) := by
              rw [find?_setMessage hrow', if_pos rfl]
            obtain ⟨session₁, hsession₁, hsame⟩ := hstep.sessions _ session (find?_self hfind)
            rw [hsession] at hsession₁
            constructor
            · intro id' p hs
              by_cases hmigrated : id' = id
              · -- the migrated row: what was decrypted has been encrypted again
                subst hmigrated
                obtain ⟨row₀, session₀, hrow₀, hsession₀, hdecrypt₀⟩ := hs
                obtain rfl : row₀ = row := Option.some.inj (hrow₀.symm.trans hrow)
                obtain rfl : session₀ = session := Option.some.inj (hsession₀.symm.trans hfind)
                rw [plainDecrypt_legacy hvalid hscheme hlegacy hdecrypt] at hdecrypt₀
                obtain rfl : plaintext = p := Except.ok.inj hdecrypt₀
                refine ⟨_, session₁, hnew, hsession₁, ?_⟩
                have hdek₁ : plainSessionDek svc s' session₁ c.epoch = .ok dek := by
                  rw [plainSessionDek_congr hsame]
                  exact hdek
                have hbinding : (row₀.input plaintext).binding session₁ c.epoch =
                    (row₀.input plaintext).binding session₀ c.epoch := by
                  unfold MessageInput.binding
                  rw [hsame.id, hsame.owner]
                rw [← hbinding] at hciphertext
                exact plainDecrypt_encrypted (m := row₀.input plaintext) row₀ hdek₁ hciphertext hnonce
                  hlength (hsession.symm.trans hsame.id.symm) rfl rfl rfl
              · obtain ⟨row₀, session₀, hrow₀, hsession₀, hdecrypt₀⟩ :=
                  hstep.readable (fun row hrow => by rw [hstep.messages]; exact hrow) hs
                refine ⟨row₀, session₀, ?_, hsession₀, hdecrypt₀⟩
                have hid₀ : row₀.id = id' := (KeyedTable.find?_eq_some hrow₀).2
                have hother : row₀.id ≠ row.id := by
                  rw [hid₀, hid]
                  exact hmigrated
                show (setMessage s' row.id c).find? id' = some row₀
                rw [find?_setMessage hrow₀, if_neg hother]
            · intro _ _
              exact ⟨row.withEnvelope c, session₁, hnew, hsession₁, rfl⟩

/-! ### Account operations -/

variable {user user' : User} {plaintext field : String}

theorem SameConversations.trans (h : SameConversations s t) (h' : SameConversations t u) :
    SameConversations s u :=
  ⟨h'.sessions.trans h.sessions, h'.epochs.trans h.epochs, h'.messages.trans h.messages⟩

theorem CacheStep.sameConversations (h : CacheStep svc s t) : SameConversations s t := by
  obtain ⟨⟨cache, rfl⟩, -⟩ := h
  exact ⟨rfl, rfl, rfl⟩

theorem UserKeyStep.sameConversations (h : UserKeyStep svc s user t user') :
    SameConversations s t := by
  cases h with
  | kept => exact .refl
  | created => exact ⟨rfl, rfl, rfl⟩

theorem ensureUserKey_sameConversations (hcache : CacheOk svc s.cache)
    (hgenerated : Generated svc (userKeyContext user 1) generated) :
    SameConversations s (ensureUserKey svc s user generated).1 := by
  obtain ⟨-, herror, hok⟩ := ensureUserKey_spec hcache hgenerated
  cases hresult : (ensureUserKey svc s user generated).2 with
  | error e =>
      rw [herror e hresult]
      exact .refl
  | ok user' => exact (hok user' hresult).sameConversations

theorem encryptUserSecret_sameConversations (hsha : Function.Injective svc.sha256)
    (hcache : CacheOk svc s.cache)
    (hgenerated : Generated svc (userKeyContext user 1) generated) (plaintext field : String)
    (nonce : Bytes) :
    SameConversations s (encryptUserSecret svc s user plaintext field generated nonce).1 := by
  obtain ⟨-, herror, hok⟩ := encryptUserSecret_spec hsha hcache hgenerated plaintext field nonce
  cases hresult : (encryptUserSecret svc s user plaintext field generated nonce).2 with
  | error e => exact (herror e hresult).sameConversations
  | ok c =>
      obtain ⟨t, user', dek, cache, hkey, hstate, -⟩ := hok c hresult
      rw [hstate]
      exact hkey.sameConversations.trans ⟨rfl, rfl, rfl⟩

theorem storeSecret_sameConversations (hsha : Function.Injective svc.sha256)
    (hcache : CacheOk svc s.cache)
    (hgenerated : Generated svc (userKeyContext user 1) generated) (plaintext field : String)
    (nonce : Bytes) :
    SameConversations s (storeSecret svc s user plaintext field generated nonce).1 := by
  have hencrypt := encryptUserSecret_sameConversations hsha hcache hgenerated plaintext field nonce
  unfold storeSecret
  split
  · next s' e heq =>
    rw [heq] at hencrypt
    exact hencrypt
  · next s' c n heq =>
    rw [heq] at hencrypt
    exact hencrypt.trans ⟨rfl, rfl, rfl⟩

theorem migrateSecret_sameConversations (hsha : Function.Injective svc.sha256)
    (hcache : CacheOk svc s.cache)
    (hgenerated : Generated svc (userKeyContext user 1) generated) :
    SameConversations s (migrateSecret svc s user generated nonce).1 := by
  unfold migrateSecret
  split
  · exact .refl
  · split
    · exact .refl
    · next row _ =>
      split
      · exact .refl
      · have hdecrypt := decryptUserSecret_spec hsha hcache user row.ciphertext row.nonce
          (mfaField user)
        split
        · exact ⟨rfl, rfl, rfl⟩
        · next s' plaintext heq =>
          rw [heq] at hdecrypt
          have hstore := storeSecret_sameConversations hsha hdecrypt.cache hgenerated plaintext
            (mfaField user) nonce
          split
          · exact ⟨rfl, rfl, rfl⟩
          · next s'' heq' =>
            rw [heq'] at hstore
            exact hdecrypt.sameConversations.trans hstore

/-! ### Every operation -/

/-- Nobody changes the tables behind the back of the service. -/
def Action.inService : Action → Prop
  | .outOfBand _ _ _ _ _ => False
  | _ => True

/-- **An operation of the service leaves what every message decrypts to.** -/
theorem readable_of_perform {a : Action} (hsha : Function.Injective svc.sha256)
    (hcache : CacheOk svc s.cache) (ha : Admissible svc s a) (hservice : a.inService)
    (hs : Readable svc s id p) : Readable svc (perform svc s a) id p := by
  have helim : ∀ {α : Type} {found : Option α} {f : α → CryptoState},
      (∀ x, found = some x → Readable svc (f x) id p) → Readable svc (found.elim s f) id p :=
    fun hsome => elim_spec (P := fun t => Readable svc t id p) hs hsome
  have hkeys : ∀ {t : CryptoState}, SessionStep svc s t → Readable svc t id p :=
    fun hstep => hstep.readable (fun row hrow => by rw [hstep.messages]; exact hrow) hs
  -- The operations on accounts leave the conversations alone; each of the others has its lemma.
  cases a with
  | ensureSessionKey sessionId generated =>
      apply helim
      intro session hfind
      exact hkeys (ensureSessionKey_spec hcache (ha session hfind))
  | rotateSessionDek sessionId generated =>
      apply helim
      intro session hfind
      exact hkeys (rotateSessionDek_spec hcache (ha session hfind))
  | rewrapSessionKeys sessionId rewrapped =>
      apply helim
      intro session hfind
      exact hkeys (rewrapSessionKeys_spec hcache (find?_self hfind) (ha session hfind))
  | storeMessage sessionId id' m generated nonce =>
      apply helim
      intro session hfind
      exact (storeMessage_spec hsha hcache (find?_self hfind) (ha.2 session hfind) ha.1).1 id p hs
  | decryptMessage id' =>
      apply helim
      intro row hrow
      apply helim
      intro session hfind
      exact (decryptMessage_spec hsha hcache).2.readable hs
  | migrateLegacyMessage id' generated nonce =>
      apply helim
      intro row hrow
      apply helim
      intro session hfind
      exact (migrateLegacyMessage_spec hsha hcache hrow hfind (ha.2 row hrow session hfind)
        ha.1).1 id p hs
  | ensureUserKey userId generated =>
      apply helim
      intro user hfind
      exact (ensureUserKey_sameConversations hcache (ha user hfind)).readable hs
  | rewrapUserKey userId rewrapped =>
      apply helim
      intro user hfind
      unfold rewrapUserKey
      split
      · exact hs
      · split
        · exact hs
        · exact SameConversations.readable ⟨rfl, rfl, rfl⟩ hs
  | storeSecret userId plaintext field generated nonce =>
      apply helim
      intro user hfind
      exact (storeSecret_sameConversations hsha hcache (ha.2 user hfind) plaintext field
        nonce).readable hs
  | decryptSecret userId field =>
      apply helim
      intro user hfind
      apply helim
      intro row hrow
      exact (decryptUserSecret_spec hsha hcache user row.ciphertext row.nonce field).readable hs
  | migrateSecret userId generated nonce =>
      apply helim
      intro user hfind
      exact (migrateSecret_sameConversations hsha hcache (ha.2 user hfind)).readable hs
  | clearCache => exact SameConversations.readable ⟨rfl, rfl, rfl⟩ hs
  | tick seconds => exact SameConversations.readable ⟨rfl, rfl, rfl⟩ hs
  | finishLookup w context =>
      unfold perform
      dsimp only
      split
      · split
        · exact hs
        · exact SameConversations.readable ⟨rfl, rfl, rfl⟩ hs
      · exact hs
  | outOfBand sessions epochs messages users secrets => exact hservice.elim

/-! ## Binding -/

/-- What `encrypt_message` has made decrypts in no other place, and under no other scheme. -/
theorem encrypted_bound {session₀ : ChatSession}
    (hencrypt : ∃ s generated nonce, (encryptMessage svc s session₀ m generated nonce).2 = .ok c)
    (hciphertext : row.ciphertext = c.ciphertext)
    (h : (decryptMessage svc t session row).2 = .ok p) :
    row.binding session = m.binding session₀ c.epoch ∧ row.encryptionScheme = ENVELOPE_SCHEME ∧
      p = m.plaintext := by
  obtain ⟨dek, nonce, hmade⟩ : ∃ dek nonce, c.ciphertext = urlsafeB64encode (svc.gcm.encrypt dek
      nonce (canonicalMessageAad (m.binding session₀ c.epoch)) (utf8 m.plaintext)) := by
    obtain ⟨s, generated, nonce, hencrypt⟩ := hencrypt
    unfold encryptMessage at hencrypt
    split at hencrypt
    · cases hencrypt
    · split at hencrypt
      · cases hencrypt
      · cases hencrypt
        exact ⟨_, nonce, rfl⟩
  rw [hmade] at hciphertext
  have hpayload : b64decode row.ciphertext = some (svc.gcm.encrypt dek nonce
      (canonicalMessageAad (m.binding session₀ c.epoch)) (utf8 m.plaintext)) := by
    rw [hciphertext, b64decode_urlsafe]
  unfold decryptMessage at h
  split at h
  · cases h
  · next hvalid =>
    split at h
    · -- a shared key has other associated data
      split at h
      · cases h
      · obtain ⟨key, payload, nonceBytes, hdecoded, -, data, -, hopen⟩ :=
          CryptoService.decrypt_ok h
        rw [hpayload] at hdecoded
        cases hdecoded
        rw [Aead.decrypt_of_ne legacyAad_ne] at hopen
        cases hopen
    · next hscheme =>
      split at h
      · cases h
      · next ciphertext nonceBytes hdecoded =>
        have hsame := (decodeAeadPayload_ok hdecoded).1
        rw [hpayload] at hsame
        cases hsame
        split at h
        · cases h
        · next key _ =>
          unfold openMessage at h
          split at h
          · cases h
          · next text hopen =>
            cases h
            obtain ⟨data, hdata, htext⟩ := Option.bind_eq_some_iff.mp hopen
            obtain ⟨-, -, haad, rfl⟩ := Aead.decrypt_eq_some_iff.mp hdata
            rw [decodeUtf8_utf8] at htext
            exact ⟨messageAad_injective haad, (validate_spec hvalid).2.resolve_right hscheme,
              (Option.some.inj htext).symm⟩

/-- A ciphertext of the shared keys decrypts under their scheme and their associated data only. -/
theorem legacy_bound {legacy : CryptoService} {role sessionId : String}
    (hciphertext : row.ciphertext =
      (legacy.encrypt svc.gcm plaintext sessionId role nonce).1)
    (h : (decryptMessage svc t session row).2 = .ok p) :
    row.encryptionScheme = LEGACY_SCHEME ∧
      legacyAad row.sessionId row.role row.keyVersion =
        legacyAad sessionId role legacy.keyVersion := by
  have hpayload : b64decode row.ciphertext = some (svc.gcm.encrypt legacy.activeKey nonce
      (legacyAad sessionId role legacy.keyVersion) (utf8 plaintext)) := by
    rw [hciphertext, CryptoService.encrypt, b64decode_urlsafe]
  unfold decryptMessage at h
  split at h
  · cases h
  · split at h
    · next hscheme =>
      split at h
      · cases h
      · obtain ⟨key, payload, nonceBytes, hdecoded, -, data, -, hopen⟩ :=
          CryptoService.decrypt_ok h
        rw [hpayload] at hdecoded
        cases hdecoded
        exact ⟨hscheme, (Aead.decrypt_eq_some_iff.mp hopen).2.2.1⟩
    · split at h
      · cases h
      · next ciphertext nonceBytes hdecoded =>
        have hsame := (decodeAeadPayload_ok hdecoded).1
        rw [hpayload] at hsame
        cases hsame
        split at h
        · cases h
        · unfold openMessage at h
          rw [Aead.decrypt_of_ne legacyAad_ne.symm] at h
          cases h

/-! ## Runs -/

/-- The service while nobody changes its tables. -/
def servedSystem (svc : EnvelopeCryptoService) : System CryptoState Action :=
  (cryptoSystem svc).restrict fun _ a => a.inService

theorem readable_of_run {as : List Action} (hsha : Function.Injective svc.sha256)
    (h : (cryptoSystem svc).Reachable s) (hrun : (servedSystem svc).Run s as t)
    (hs : Readable svc s id p) : Readable svc t id p := by
  have hkept : (cryptoSystem svc).Reachable t ∧ Readable svc t id p := by
    refine hrun.preserves (I := fun t => (cryptoSystem svc).Reachable t ∧ Readable svc t id p)
      ?_ ⟨h, hs⟩
    rintro s a t ⟨hreach, hs⟩ ⟨⟨ha, rfl⟩, hservice⟩
    exact ⟨hreach.step ⟨ha, rfl⟩,
      readable_of_perform hsha (cacheOk_of_reachable hsha hreach) ha hservice hs⟩
  exact hkept.2

/-- A readable message is decrypted, with the cache as without. -/
theorem Readable.decrypt (hsha : Function.Injective svc.sha256)
    (h : (cryptoSystem svc).Reachable s) (hs : Readable svc s id p) :
    ∃ row session, s.messages.find? id = some row ∧
      s.sessions.find? row.sessionId = some session ∧
      (decryptMessage svc s session row).2 = .ok p := by
  obtain ⟨row, session, hrow, hsession, hdecrypt⟩ := hs
  refine ⟨row, session, hrow, hsession, ?_⟩
  rw [(decryptMessage_spec hsha (cacheOk_of_reachable hsha h)).1, hdecrypt]

/-- A migration that does not raise has decrypted the row, unless there was nothing to do. -/
theorem migrateLegacyMessage_ok {b : Bool}
    (h : (migrateLegacyMessage svc s session row generated nonce).2 = .ok b) :
    (migrateLegacyMessage svc s session row generated nonce).1 = s ∨
      ∃ p, plainDecryptMessage svc s session row = .ok p := by
  unfold migrateLegacyMessage at h ⊢
  split at h
  · cases h
  · next hvalid =>
    split at h
    · next hscheme =>
      rw [if_pos hscheme]
      exact .inl rfl
    · next hscheme =>
      split at h
      · cases h
      · next legacy hlegacy =>
        split at h
        · cases h
        · next plaintext hdecrypt =>
          exact .inr ⟨plaintext, plainDecrypt_legacy hvalid hscheme hlegacy hdecrypt⟩

/-- Migration does not change what a row decrypts to, and a second one does nothing. -/
theorem migrate_spec (hsha : Function.Injective svc.sha256)
    (h : (cryptoSystem svc).Reachable s) (hrow : s.messages.find? id = some row)
    (hsession : s.sessions.find? row.sessionId = some session)
    (ha : Admissible svc s (.migrateLegacyMessage id generated nonce)) {b : Bool}
    (hok : (migrateLegacyMessage svc s session row generated nonce).2 = .ok b) :
    ∃ row' session',
      (migrateLegacyMessage svc s session row generated nonce).1.messages.find? id = some row' ∧
      (migrateLegacyMessage svc s session row generated nonce).1.sessions.find? row'.sessionId =
        some session' ∧
      (decryptMessage svc (migrateLegacyMessage svc s session row generated nonce).1 session'
        row').2 = (decryptMessage svc s session row).2 ∧
      ∀ generated' nonce',
        migrateLegacyMessage svc (migrateLegacyMessage svc s session row generated nonce).1
          session' row' generated' nonce' =
        ((migrateLegacyMessage svc s session row generated nonce).1, .ok false) := by
  have hcache := cacheOk_of_reachable hsha h
  have hgenerated := ha.2 row hrow session hsession
  obtain ⟨hreadable, hmigrated⟩ := migrateLegacyMessage_spec hsha hcache hrow hsession hgenerated
    ha.1
  obtain ⟨row', session', hrow', hsession', hscheme⟩ := hmigrated b hok
  refine ⟨row', session', hrow', hsession', ?_, fun _ _ =>
    migrate_envelope (KeyedTable.find?_eq_some hsession').2.symm hscheme⟩
  have hcache' := cacheOk_migrateLegacyMessage hsha hcache hgenerated row nonce
  rw [(decryptMessage_spec hsha hcache').1, (decryptMessage_spec hsha hcache).1]
  rcases migrateLegacyMessage_ok hok with hsame | ⟨p, hdecrypt⟩
  · rw [hsame] at hrow' hsession' ⊢
    obtain rfl : row = row' := Option.some.inj (hrow.symm.trans hrow')
    obtain rfl : session = session' := Option.some.inj (hsession.symm.trans hsession')
    rfl
  · obtain ⟨row₁, session₁, hrow₁, hsession₁, hdecrypt₁⟩ :=
      hreadable id p ⟨row, session, hrow, hsession, hdecrypt⟩
    obtain rfl : row₁ = row' := Option.some.inj (hrow₁.symm.trans hrow')
    obtain rfl : session₁ = session' := Option.some.inj (hsession₁.symm.trans hsession')
    rw [hdecrypt₁, hdecrypt]

/-- **A message comes back, in its own place only.** What `encrypt_message` was given is what
`decrypt_message` returns for the stored row, after whatever the service has done since; the
ciphertext decrypts in no row with other associated data; and migration changes no text. -/
theorem message_round_trip (svc : EnvelopeCryptoService) (hsha : Function.Injective svc.sha256)
    {s : CryptoState} (h : (cryptoSystem svc).Reachable s) :
    (∀ sessionId session id m generated nonce, s.sessions.find? sessionId = some session →
      Admissible svc s (.storeMessage sessionId id m generated nonce) →
      (storeMessage svc s session id m generated nonce).2 = .ok () →
      ∀ as u, (servedSystem svc).Run (storeMessage svc s session id m generated nonce).1 as u →
        ∃ row session', u.messages.find? id = some row ∧
          u.sessions.find? row.sessionId = some session' ∧
          (decryptMessage svc u session' row).2 = .ok m.plaintext) ∧
    (∀ session m generated nonce c,
      (encryptMessage svc s session m generated nonce).2 = .ok c →
      ∀ u session' row, row.ciphertext = c.ciphertext →
        row.binding session' ≠ m.binding session c.epoch →
        ∃ e, (decryptMessage svc u session' row).2 = .error e) ∧
    (∀ id row session generated nonce b, s.messages.find? id = some row →
      s.sessions.find? row.sessionId = some session →
      Admissible svc s (.migrateLegacyMessage id generated nonce) →
      (migrateLegacyMessage svc s session row generated nonce).2 = .ok b →
      ∃ row' session',
        (migrateLegacyMessage svc s session row generated nonce).1.messages.find? id = some row' ∧
        (migrateLegacyMessage svc s session row generated nonce).1.sessions.find?
          row'.sessionId = some session' ∧
        (decryptMessage svc (migrateLegacyMessage svc s session row generated nonce).1 session'
          row').2 = (decryptMessage svc s session row).2 ∧
        ∀ generated' nonce',
          migrateLegacyMessage svc (migrateLegacyMessage svc s session row generated nonce).1
            session' row' generated' nonce' =
          ((migrateLegacyMessage svc s session row generated nonce).1, .ok false)) := by
  refine ⟨?_, ?_, ?_⟩
  · intro sessionId session id m generated nonce hfind ha hok as u hrun
    have hstored := (storeMessage_spec hsha (cacheOk_of_reachable hsha h) (find?_self hfind)
      (ha.2 session hfind) ha.1).2 hok
    have hreach : (cryptoSystem svc).Reachable
        (storeMessage svc s session id m generated nonce).1 := by
      refine h.step (a := .storeMessage sessionId id m generated nonce) ⟨ha, ?_⟩
      show _ = (s.sessions.find? sessionId).elim s fun session =>
        (storeMessage svc s session id m generated nonce).1
      rw [hfind, Option.elim_some]
    exact (readable_of_run hsha hreach hrun hstored).decrypt hsha (hreach.run hrun.of_restrict)
  · intro session m generated nonce c hencrypt u session' row hciphertext hplace
    cases hdecrypt : (decryptMessage svc u session' row).2 with
    | error e => exact ⟨e, rfl⟩
    | ok p =>
        have hbound := encrypted_bound ⟨s, generated, nonce, hencrypt⟩ hciphertext hdecrypt
        exact absurd hbound.1 hplace
  · intro id row session generated nonce b hrow hsession ha hok
    exact migrate_spec hsha h hrow hsession ha hok

def sampleMessage : MessageInput := ⟨"hi", "user", "m1", 1⟩

/-- `alice` stores the first message of her conversation. -/
def sampleStored : CryptoState × Except CryptoError Unit :=
  storeMessage sampleService sampleState sampleSession 1 sampleMessage (.ok sampleGenerated)
    sampleNonce

theorem sampleStored_ok : sampleStored.2 = .ok () := by
  obtain ⟨t, hensure, hdek⟩ := sampleSession_keyed
  have hstep : SessionStep sampleService sampleState t := by
    have hspec := ensureSessionKey_spec (s := sampleState) cacheOk_empty sampleGenerated_generated
    rw [hensure] at hspec
    exact hspec
  have hempty : t.messages = .empty := hstep.messages
  exact storeMessage_first sampleSha_injective hensure hstep.cache hdek hempty

theorem message_round_trip_sample : ∃ row session,
    { sampleStored.1 with cache := .empty }.messages.find? 1 = some row ∧
    { sampleStored.1 with cache := .empty }.sessions.find? row.sessionId = some session ∧
    (decryptMessage sampleService { sampleStored.1 with cache := .empty } session row).2 =
      .ok "hi" := by
  have ha : Admissible sampleService sampleState
      (.storeMessage "s1" 1 sampleMessage (.ok sampleGenerated) sampleNonce) := by
    refine ⟨rfl, fun session hsession => ?_⟩
    cases find?_sampleSession.symm.trans hsession
    exact sampleGenerated_generated
  have hclear : (servedSystem sampleService).Run sampleStored.1 [.clearCache]
      { sampleStored.1 with cache := .empty } := .single ⟨⟨trivial, rfl⟩, trivial⟩
  obtain ⟨hround, -, -⟩ :=
    message_round_trip sampleService sampleSha_injective sampleState_reachable
  have hstored := hround "s1" sampleSession 1 sampleMessage (.ok sampleGenerated) sampleNonce
    find?_sampleSession ha
  -- by rewriting: the kernel would evaluate the operation to compare its components
  rw [← sampleStored.eq_1] at hstored
  exact hstored sampleStored_ok _ _ hclear

end Scap.Crypto
