import Scap.Crypto.Accounts
import Scap.Lib.Run

/-!
# Runs of the envelope service

`cryptoSystem` performs the operations of the service in any order, lets time pass and lets anybody
change the tables behind its back. What an operation is told about random numbers and answers of the
provider is part of its label; `Admissible` says that the provider has really given these answers.

* `SessionStep` — what the operations on the keys of conversations respect;
* `UserKeyStep` — how `ensure_user_key` ends.
-/

namespace Scap.Crypto

open Scap.Py Scap.Lib

inductive Action where
  | ensureSessionKey (sessionId : String) (generated : Except KeyProviderError GeneratedDek)
  | rotateSessionDek (sessionId : String) (generated : Except KeyProviderError GeneratedDek)
  | rewrapSessionKeys (sessionId : String)
      (rewrapped : Int → Except KeyProviderError WrappedDek)
  | storeMessage (sessionId : String) (id : Nat) (m : MessageInput)
      (generated : Except KeyProviderError GeneratedDek) (nonce : Bytes)
  | decryptMessage (id : Nat)
  | migrateLegacyMessage (id : Nat) (generated : Except KeyProviderError GeneratedDek)
      (nonce : Bytes)
  | ensureUserKey (userId : String) (generated : Except KeyProviderError GeneratedDek)
  | rewrapUserKey (userId : String) (rewrapped : Except KeyProviderError WrappedDek)
  | storeSecret (userId plaintext field : String)
      (generated : Except KeyProviderError GeneratedDek) (nonce : Bytes)
  | decryptSecret (userId field : String)
  | migrateSecret (userId : String) (generated : Except KeyProviderError GeneratedDek)
      (nonce : Bytes)
  | clearCache
  | tick (seconds : Nat)
  /-- The end of a lookup that another thread began when `w` was still stored. -/
  | finishLookup (w : WrappedDek) (context : Context)
  /-- The tables are changed behind the back of the service. -/
  | outOfBand (sessions : KeyedTable ChatSession.id) (epochs : KeyedTable SessionKeyEpoch.key)
      (messages : KeyedTable SecureMessage.id) (users : KeyedTable User.id)
      (secrets : KeyedTable StoredSecret.key)

section System

variable (svc : EnvelopeCryptoService)

/-- `encrypt_message` and the `INSERT` of the row. -/
def storeMessage (s : CryptoState) (session : ChatSession) (id : Nat) (m : MessageInput)
    (generated : Except KeyProviderError GeneratedDek) (nonce : Bytes) :
    CryptoState × Except CryptoError Unit :=
  match encryptMessage svc s session m generated nonce with
  | (s', .error e) => (s.rollback s', .error e)
  | (s', .ok c) =>
    let row : SecureMessage := {
      id := id
      sessionId := session.id
      role := m.role
      messageUuid := m.messageUuid
      messageIndex := m.messageIndex
      ciphertext := c.ciphertext
      nonce := c.nonce
      keyVersion := c.epoch
      cryptoEpoch := c.epoch
      encryptionScheme := ENVELOPE_SCHEME }
    let taken := s'.messages.rows.any fun r =>
      r.sessionId = session.id && r.messageIndex = m.messageIndex
    match if taken then none else s'.messages.insert? row with
    | none => (s.rollback s', .error .integrity)
    | some messages => ({ s' with messages := messages }, .ok ())

/-- One operation; on a session, message or account that is not there it does nothing. -/
def perform (s : CryptoState) : Action → CryptoState
  | .ensureSessionKey sessionId generated =>
    (s.sessions.find? sessionId).elim s fun session => (ensureSessionKey svc s session generated).1
  | .rotateSessionDek sessionId generated =>
    (s.sessions.find? sessionId).elim s fun session => (rotateSessionDek svc s session generated).1
  | .rewrapSessionKeys sessionId rewrapped =>
    (s.sessions.find? sessionId).elim s fun session => (rewrapSessionKeys s session rewrapped).1
  | .storeMessage sessionId id m generated nonce =>
    (s.sessions.find? sessionId).elim s fun session =>
      (storeMessage svc s session id m generated nonce).1
  | .decryptMessage id =>
    (s.messages.find? id).elim s fun row =>
      (s.sessions.find? row.sessionId).elim s fun session => (decryptMessage svc s session row).1
  | .migrateLegacyMessage id generated nonce =>
    (s.messages.find? id).elim s fun row =>
      (s.sessions.find? row.sessionId).elim s fun session =>
        (migrateLegacyMessage svc s session row generated nonce).1
  | .ensureUserKey userId generated =>
    (s.users.find? userId).elim s fun user => (ensureUserKey svc s user generated).1
  | .rewrapUserKey userId rewrapped =>
    (s.users.find? userId).elim s fun user => (rewrapUserKey s user rewrapped).1
  | .storeSecret userId plaintext field generated nonce =>
    (s.users.find? userId).elim s fun user =>
      (storeSecret svc s user plaintext field generated nonce).1
  | .decryptSecret userId field =>
    (s.users.find? userId).elim s fun user =>
      (s.secrets.find? (toLex (userId, field))).elim s fun row =>
        (decryptUserSecret svc s user row.ciphertext row.nonce field).1
  | .migrateSecret userId generated nonce =>
    (s.users.find? userId).elim s fun user => (migrateSecret svc s user generated nonce).1
  | .clearCache => { s with cache := .empty }
  | .tick seconds => { s with clock := s.clock + seconds }
  | .finishLookup w context =>
    match dekCacheKey svc w context, svc.provider.unwrapDek w context with
    | some key, .ok dek => if dek.length ≠ 32 then s else cachePut svc s key dek
    | _, _ => s
  | .outOfBand sessions epochs messages users secrets =>
    { s with
      sessions := sessions
      epochs := epochs
      messages := messages
      users := users
      secrets := secrets }

/-- The provider has generated this key for this context. -/
def Generated (context : Context) (generated : Except KeyProviderError GeneratedDek) : Prop :=
  ∀ g, generated = .ok g → svc.provider.generates context g

/-- The context of the key that `ensure_session_key` asks for. -/
def ensureContext (session : ChatSession) : Context :=
  sessionKeyContext session (max session.currentCryptoEpoch 0 + 1)

/-- The answers of the provider are its own, and a nonce has twelve bytes. -/
def Admissible (s : CryptoState) : Action → Prop
  | .ensureSessionKey sessionId generated =>
    ∀ session, s.sessions.find? sessionId = some session →
      Generated svc (ensureContext session) generated
  | .rotateSessionDek sessionId generated =>
    ∀ session, s.sessions.find? sessionId = some session →
      Generated svc (sessionKeyContext session (session.currentCryptoEpoch + 1)) generated
  | .rewrapSessionKeys sessionId rewrapped =>
    ∀ session, s.sessions.find? sessionId = some session → ∀ row ∈ s.epochs.rows,
      row.sessionId = session.id → ∀ w, rewrapped row.epoch = .ok w →
        svc.provider.rewraps row.wrapped (sessionKeyContext session row.epoch) w
  | .storeMessage sessionId _ _ generated nonce => nonce.length = 12 ∧
    ∀ session, s.sessions.find? sessionId = some session →
      Generated svc (ensureContext session) generated
  | .migrateLegacyMessage id generated nonce => nonce.length = 12 ∧
    ∀ row, s.messages.find? id = some row →
      ∀ session, s.sessions.find? row.sessionId = some session →
        Generated svc (ensureContext session) generated
  | .ensureUserKey userId generated =>
    ∀ user, s.users.find? userId = some user → Generated svc (userKeyContext user 1) generated
  | .rewrapUserKey userId rewrapped =>
    ∀ user, s.users.find? userId = some user → ∀ w, user.wrapped = some w →
      ∀ w', rewrapped = .ok w' →
        svc.provider.rewraps w (userKeyContext user user.secretCryptoEpoch) w'
  | .storeSecret userId _ _ generated nonce => nonce.length = 12 ∧
    ∀ user, s.users.find? userId = some user → Generated svc (userKeyContext user 1) generated
  | .migrateSecret userId generated nonce => nonce.length = 12 ∧
    ∀ user, s.users.find? userId = some user → Generated svc (userKeyContext user 1) generated
  | _ => True

/-- The service from its start, whatever the tables hold. -/
def cryptoSystem : System CryptoState Action where
  init s := s.cache = .empty
  step s a t := Admissible svc s a ∧ t = perform svc s a

end System

variable {svc : EnvelopeCryptoService} {s t u : CryptoState} {session session' : ChatSession}
  {epoch : Int} {dek : Bytes} {generated : Except KeyProviderError GeneratedDek} {nonce : Bytes}

/-! ## Operations on the keys of conversations -/

/-- The two sessions have the same keys. -/
structure SameOwner (session session' : ChatSession) : Prop where
  id : session'.id = session.id
  owner : session'.ownerId = session.ownerId

theorem plainSessionDek_congr (h : SameOwner session session') :
    plainSessionDek svc s session' epoch = plainSessionDek svc s session epoch := by
  unfold plainSessionDek sessionKeyContext
  rw [h.id, h.owner]

/-- What the operations on the keys of conversations respect: everything but these keys, and what
the keys unwrap to. -/
structure SessionStep (svc : EnvelopeCryptoService) (s t : CryptoState) : Prop where
  cache : CacheOk svc t.cache
  messages : t.messages = s.messages
  users : t.users = s.users
  secrets : t.secrets = s.secrets
  sessions : ∀ id session, s.sessions.find? id = some session →
    ∃ session', t.sessions.find? id = some session' ∧ SameOwner session session'
  deks : ∀ session, s.sessions.find? session.id = some session → ∀ epoch dek,
    plainSessionDek svc s session epoch = .ok dek → plainSessionDek svc t session epoch = .ok dek

theorem SessionStep.trans (h : SessionStep svc s t) (h' : SessionStep svc t u) :
    SessionStep svc s u := by
  refine ⟨h'.cache, h'.messages.trans h.messages, h'.users.trans h.users,
    h'.secrets.trans h.secrets, fun id session hfind => ?_, fun session hfind epoch dek hdek => ?_⟩
  · obtain ⟨session₁, hfind₁, hsame₁⟩ := h.sessions id session hfind
    obtain ⟨session₂, hfind₂, hsame₂⟩ := h'.sessions id session₁ hfind₁
    exact ⟨session₂, hfind₂, hsame₂.id.trans hsame₁.id, hsame₂.owner.trans hsame₁.owner⟩
  · obtain ⟨session₁, hfind₁, hsame₁⟩ := h.sessions _ session hfind
    have hdek₁ := h.deks session hfind epoch dek hdek
    rw [← plainSessionDek_congr hsame₁] at hdek₁ ⊢
    exact h'.deks session₁ (by rw [hsame₁.id]; exact hfind₁) epoch dek hdek₁

theorem CacheStep.sessionStep (h : CacheStep svc s t) : SessionStep svc s t := by
  obtain ⟨⟨cache, rfl⟩, hcache⟩ := h
  exact ⟨hcache, rfl, rfl, rfl, fun _ session hfind => ⟨session, hfind, rfl, rfl⟩,
    fun _ _ _ _ hdek => hdek⟩

/-- A rollback undoes everything but the cache. -/
theorem cacheStep_rollback (h : CacheOk svc t.cache) : CacheStep svc s (s.rollback t) :=
  ⟨⟨_, rfl⟩, h⟩

theorem find?_setSession {id id' : String} {w : WrappedDek}
    (h : s.sessions.find? id' = some session) :
    ∃ session', (setSession s id epoch w).find? id' = some session' ∧ SameOwner session session' := by
  unfold setSession
  rw [KeyedTable.find?_modify, h, Option.map_some]
  refine ⟨_, rfl, ?_⟩
  split
  · exact ⟨rfl, rfl⟩
  · exact ⟨rfl, rfl⟩

theorem plainSessionDek_of_kept
    (h : ∀ row ∈ s.epochs.rows, row ∈ t.epochs.rows)
    (hdek : plainSessionDek svc s session epoch = .ok dek) :
    plainSessionDek svc t session epoch = .ok dek := by
  unfold plainSessionDek at hdek ⊢
  split at hdek
  · cases hdek
  · next row hfind =>
    obtain ⟨hrow, hkey⟩ := KeyedTable.find?_eq_some hfind
    have hfind' : t.epochs.find? (toLex (session.id, epoch)) = some row :=
      KeyedTable.find?_iff.mpr ⟨h row hrow, hkey⟩
    rw [hfind']
    exact hdek

theorem addEpoch_spec (hcache : CacheOk svc s.cache)
    (hgenerated : Generated svc (sessionKeyContext session epoch) generated) (failed : String) :
    SessionStep svc s (addEpoch svc s session epoch generated failed).1 ∧
      ∀ row, (addEpoch svc s session epoch generated failed).2 = .ok row → row.epoch = epoch := by
  have hself : SessionStep svc s s := (CacheStep.refl hcache).sessionStep
  unfold addEpoch
  split
  · exact ⟨hself, fun _ h => nomatch h⟩
  · next g =>
    have hunwrap := svc.provider.unwrap_generated (hgenerated g rfl)
    split
    · exact ⟨hself, fun _ h => nomatch h⟩
    · next key hkey =>
      split
      · exact ⟨hself, fun _ h => nomatch h⟩
      · next hlength =>
        have hput := cachePut_spec hcache hkey hunwrap (not_not.mp hlength)
        dsimp only
        split
        · exact ⟨hput.sessionStep, fun _ h => nomatch h⟩
        · next epochs hinsert =>
          have hinsert : s.epochs.insert? ⟨session.id, epoch, g.toWrappedDek⟩ = some epochs := by
            split at hinsert
            · exact hinsert
            · cases hinsert
          refine ⟨⟨hput.cache, rfl, rfl, rfl, fun id session hfind => find?_setSession hfind, ?_⟩,
            fun row h => by cases h; rfl⟩
          intro session _ epoch dek hdek
          apply plainSessionDek_of_kept (s := s) _ hdek
          intro row hrow
          exact (KeyedTable.mem_insert? hinsert).mpr (.inr hrow)

/-- Every epoch of every conversation has a usable context. -/
theorem canonicalContext_session (session : ChatSession) (epoch : Int) :
    ∃ text, canonicalContext (sessionKeyContext session epoch) = some text := by
  have hkeys : (sessionKeyContext session epoch).any (fun f => f.1 = "" || 80 < f.1.length) =
      false := by
    show ["crypto_epoch", "owner_id", "session_id", "tenant_id"].any
      (fun k => k = "" || 80 < k.length) = false
    decide
  have hne : sessionKeyContext session epoch ≠ [] := List.cons_ne_nil _ _
  unfold canonicalContext
  rw [hkeys, if_neg (by simp [hne])]
  exact ⟨_, rfl⟩

/-- If the provider answers, a new epoch is stored and its key is the one that was generated. -/
theorem addEpoch_ok {g : GeneratedDek}
    (hg : svc.provider.generates (sessionKeyContext session epoch) g)
    (hlength : g.plaintextDek.length = 32) (hpos : 0 < epoch)
    (hnew : s.epochs.find? (toLex (session.id, epoch)) = none) (failed : String) :
    ∃ t, addEpoch svc s session epoch (.ok g) failed =
        (t, .ok ⟨session.id, epoch, g.toWrappedDek⟩) ∧
      plainSessionDek svc t session epoch = .ok g.plaintextDek := by
  obtain ⟨text, htext⟩ := canonicalContext_session session epoch
  obtain ⟨epochs, hepochs⟩ := KeyedTable.exists_insert?
    (r := (⟨session.id, epoch, g.toWrappedDek⟩ : SessionKeyEpoch)) (KeyedTable.find?_eq_none.mp hnew)
  obtain ⟨key, hkey⟩ : ∃ key, dekCacheKey svc g.toWrappedDek (sessionKeyContext session epoch) =
      some key := ⟨_, by rw [dekCacheKey, htext, Option.map_some]⟩
  refine ⟨{ cachePut svc s key g.plaintextDek with
    epochs := epochs
    sessions := setSession s session.id epoch g.toWrappedDek }, ?_, ?_⟩
  · unfold addEpoch
    have hadded : (cachePut svc s key g.plaintextDek).epochs.insert?
        ⟨session.id, epoch, g.toWrappedDek⟩ = some epochs := hepochs
    simp only [hkey, if_neg (not_not.mpr hlength), if_pos hpos, hadded]
    rfl
  · have hrow : epochs.find? (toLex (session.id, epoch)) =
        some ⟨session.id, epoch, g.toWrappedDek⟩ :=
      KeyedTable.find?_iff.mpr ⟨(KeyedTable.mem_insert? hepochs).mpr (.inl rfl), rfl⟩
    have hcontext : canonicalContext (sessionKeyContext session epoch) ≠ none := by
      rw [htext]
      exact Option.some_ne_none _
    unfold plainSessionDek
    simp only [hrow]
    unfold plainUnwrap
    rw [if_neg hcontext, svc.provider.unwrap_generated hg]
    exact if_neg (not_not.mpr hlength)

/-- If the provider answers, a first key is made. -/
theorem ensureSessionKey_first {g : GeneratedDek}
    (hmode : session.securityMode ≠ .privateE2ee) (hepoch : session.currentCryptoEpoch = 0)
    (hg : svc.provider.generates (sessionKeyContext session 1) g)
    (hlength : g.plaintextDek.length = 32)
    (hnew : s.epochs.find? (toLex (session.id, 1)) = none) :
    ∃ t, ensureSessionKey svc s session (.ok g) = (t, .ok ⟨session.id, 1, g.toWrappedDek⟩) ∧
      plainSessionDek svc t session 1 = .ok g.plaintextDek := by
  have hcurrent : ¬ 0 < session.currentCryptoEpoch := by omega
  have hnext : max session.currentCryptoEpoch 0 + 1 = 1 := by omega
  unfold ensureSessionKey
  simp only [if_neg hmode, if_neg hcurrent, hnext]
  exact addEpoch_ok hg hlength Int.one_pos hnew _

theorem ensureSessionKey_spec (hcache : CacheOk svc s.cache)
    (hgenerated : Generated svc (ensureContext session) generated) :
    SessionStep svc s (ensureSessionKey svc s session generated).1 := by
  have hself : SessionStep svc s s := (CacheStep.refl hcache).sessionStep
  unfold ensureSessionKey
  split
  · exact hself
  · dsimp only
    split
    · exact hself
    · exact (addEpoch_spec hcache hgenerated _).1

theorem rotateSessionDek_spec (hcache : CacheOk svc s.cache)
    (hgenerated : Generated svc (sessionKeyContext session (session.currentCryptoEpoch + 1))
      generated) :
    SessionStep svc s (rotateSessionDek svc s session generated).1 := by
  unfold rotateSessionDek
  split
  · exact (CacheStep.refl hcache).sessionStep
  · exact (addEpoch_spec hcache hgenerated _).1

theorem plainUnwrap_rewrapped {w w' : WrappedDek} {context : Context} {failed invalid : String}
    (h : svc.provider.rewraps w context w') :
    plainUnwrap svc w' context failed invalid = plainUnwrap svc w context failed invalid := by
  obtain ⟨dek, hold, hnew⟩ := svc.provider.unwrap_rewrapped h
  unfold plainUnwrap
  rw [hold, hnew]

/-- Rewrapping changes no data key. -/
theorem rewrapSessionKeys_spec {rewrapped : Int → Except KeyProviderError WrappedDek}
    (hcache : CacheOk svc s.cache) (hfind : s.sessions.find? session.id = some session)
    (hrewrapped : ∀ row ∈ s.epochs.rows, row.sessionId = session.id →
      ∀ w, rewrapped row.epoch = .ok w →
        svc.provider.rewraps row.wrapped (sessionKeyContext session row.epoch) w) :
    SessionStep svc s (rewrapSessionKeys s session rewrapped).1 := by
  unfold rewrapSessionKeys
  dsimp only
  split
  -- all epochs are rewrapped, or none
  · next hall =>
    refine ⟨cacheOk_empty, rfl, rfl, rfl, fun id session₁ hfind₁ => ?_, ?_⟩
    · dsimp only
      cases hcurrent : (s.epochs.modify (SessionKeyEpoch.rewrap session.id rewrapped)
          (SessionKeyEpoch.key_rewrap session.id rewrapped)).find?
          (toLex (session.id, session.currentCryptoEpoch)) with
      | none => exact ⟨session₁, hfind₁, rfl, rfl⟩
      | some row => exact find?_setSession hfind₁
    · intro session₁ hfind₁ epoch dek hdek
      unfold plainSessionDek at hdek ⊢
      split at hdek
      · cases hdek
      · next row hrow =>
        obtain ⟨hmem, hkey⟩ := KeyedTable.find?_eq_some hrow
        obtain ⟨hid, hepoch⟩ := Prod.mk.inj (toLex.injective hkey)
        dsimp only
        rw [KeyedTable.find?_modify, hrow, Option.map_some]
        by_cases hsession : row.sessionId = session.id
        · have hok := List.all_eq_true.mp hall row
            (List.mem_filter.mpr ⟨hmem, by simpa using hsession⟩)
          obtain rfl : session₁ = session := by
            have hsame : session₁.id = session.id := hid.symm.trans hsession
            rw [hsame, hfind] at hfind₁
            exact (Option.some.inj hfind₁).symm
          cases hw : rewrapped row.epoch with
          | error e =>
              rw [hw] at hok
              cases hok
          | ok w =>
              have hrewrap : row.rewrap session₁.id rewrapped = { row with wrapped := w } := by
                unfold SessionKeyEpoch.rewrap
                rw [if_pos hsession, hw]
              have hrewraps := hrewrapped row hmem hsession w hw
              rw [hepoch] at hrewraps
              rw [hrewrap]
              show plainUnwrap svc w (sessionKeyContext session₁ epoch) _ _ = _
              rw [plainUnwrap_rewrapped hrewraps]
              exact hdek
        · have hsame : row.rewrap session.id rewrapped = row := by
            unfold SessionKeyEpoch.rewrap
            rw [if_neg hsession]
          rw [hsame]
          exact hdek
  · exact (CacheStep.refl hcache).sessionStep

/-! ## Operations on messages -/

/-- `decrypt_message` of a service without a cache. -/
def plainDecryptMessage (svc : EnvelopeCryptoService) (s : CryptoState) (session : ChatSession)
    (row : SecureMessage) : Except CryptoError String :=
  match validateMessageContext session row with
  | some e => .error e
  | none =>
    if row.encryptionScheme = LEGACY_SCHEME then
      match svc.legacyCrypto with
      | none => .error (.envelope "Legacy key material is unavailable.")
      | some legacy => legacy.decrypt svc.gcm row.ciphertext row.nonce row.sessionId row.role
          row.keyVersion
    else match decodeAeadPayload row.ciphertext row.nonce with
      | .error e => .error e
      | .ok (ciphertext, nonce) =>
        match plainSessionDek svc s session row.cryptoEpoch with
        | .error e => .error e
        | .ok dek => openMessage svc dek (row.binding session) ciphertext nonce

variable {row : SecureMessage} {m : MessageInput}

theorem decryptMessage_spec (hsha : Function.Injective svc.sha256) (hcache : CacheOk svc s.cache) :
    (decryptMessage svc s session row).2 = plainDecryptMessage svc s session row ∧
      CacheStep svc s (decryptMessage svc s session row).1 := by
  have hself : CacheStep svc s s := .refl hcache
  unfold decryptMessage plainDecryptMessage
  cases validateMessageContext session row with
  | some e => exact ⟨rfl, hself⟩
  | none =>
      dsimp only
      by_cases hlegacy : row.encryptionScheme = LEGACY_SCHEME
      · rw [if_pos hlegacy, if_pos hlegacy]
        cases svc.legacyCrypto with
        | none => exact ⟨rfl, hself⟩
        | some legacy => exact ⟨rfl, hself⟩
      · rw [if_neg hlegacy, if_neg hlegacy]
        cases decodeAeadPayload row.ciphertext row.nonce with
        | error e => exact ⟨rfl, hself⟩
        | ok payload =>
            obtain ⟨hdek, hstep⟩ := sessionDek_spec hsha hcache session row.cryptoEpoch
            rw [← hdek]
            cases hlookup : sessionDek svc s session row.cryptoEpoch with
            | mk s' answer =>
                rw [hlookup] at hstep
                dsimp only
                cases answer with
                | error e => exact ⟨rfl, hstep⟩
                | ok dek => exact ⟨rfl, hstep⟩

/-- What `encrypt_message` does to the keys, and what it returns. -/
theorem encryptMessage_spec (hsha : Function.Injective svc.sha256) (hcache : CacheOk svc s.cache)
    (hgenerated : Generated svc (ensureContext session) generated) (m : MessageInput)
    (nonce : Bytes) :
    SessionStep svc s (encryptMessage svc s session m generated nonce).1 ∧
      ∀ c, (encryptMessage svc s session m generated nonce).2 = .ok c → ∃ dek,
        plainSessionDek svc (encryptMessage svc s session m generated nonce).1 session c.epoch =
          .ok dek ∧
        c.ciphertext = urlsafeB64encode (svc.gcm.encrypt dek nonce
          (canonicalMessageAad (m.binding session c.epoch)) (utf8 m.plaintext)) ∧
        c.nonce = urlsafeB64encode nonce := by
  have hensure := ensureSessionKey_spec hcache hgenerated
  unfold encryptMessage
  cases hkey : ensureSessionKey svc s session generated with
  | mk s₁ answer =>
      rw [hkey] at hensure
      cases answer with
      | error e => exact ⟨(cacheStep_rollback hensure.cache).sessionStep, fun _ h => nomatch h⟩
      | ok row =>
          obtain ⟨hdek, hstep⟩ := sessionDek_spec hsha hensure.cache session row.epoch
          cases hlookup : sessionDek svc s₁ session row.epoch with
          | mk s₂ answer =>
              rw [hlookup] at hdek hstep
              simp only [hlookup]
              cases answer with
              | error e =>
                  exact ⟨(cacheStep_rollback hstep.cache).sessionStep, fun _ h => nomatch h⟩
              | ok dek =>
                  refine ⟨hensure.trans hstep.sessionStep, fun c h => ?_⟩
                  cases h
                  refine ⟨dek, ?_, rfl, rfl⟩
                  obtain ⟨⟨cache, rfl⟩, -⟩ := hstep
                  exact hdek.symm

/-- If there is a key that unwraps, the message is encrypted. -/
theorem encryptMessage_ok {epochRow : SessionKeyEpoch} (hsha : Function.Injective svc.sha256)
    (hensure : ensureSessionKey svc s session generated = (t, .ok epochRow))
    (hcache : CacheOk svc t.cache)
    (hdek : plainSessionDek svc t session epochRow.epoch = .ok dek) (m : MessageInput)
    (nonce : Bytes) :
    ∃ u c, encryptMessage svc s session m generated nonce = (u, .ok c) ∧
      u.messages = t.messages := by
  obtain ⟨hlookup, ⟨cache, hstate⟩, -⟩ := sessionDek_spec hsha hcache session
    epochRow.epoch
  cases hfound : sessionDek svc t session epochRow.epoch with
  | mk u answer =>
      rw [hfound] at hlookup hstate
      obtain rfl : answer = .ok dek := hlookup.trans hdek
      unfold encryptMessage
      simp only [hensure, hfound]
      refine ⟨_, _, rfl, ?_⟩
      rw [show u = { t with cache := cache } from hstate]

/-! ## Operations on account secrets -/

variable {user user' : User} {plaintext field : String}

/-- How `ensure_user_key` ends, if it does not raise. -/
inductive UserKeyStep (svc : EnvelopeCryptoService) (s : CryptoState) (user : User) :
    CryptoState → User → Prop
  | kept (h : (truthy user.secretWrappedDek).isSome = true) : UserKeyStep svc s user s user
  | created (g : GeneratedDek) (cache : DekCache) (h : truthy user.secretWrappedDek = none)
      (hg : svc.provider.generates (userKeyContext user 1) g)
      (hlength : g.plaintextDek.length = 32) :
      UserKeyStep svc s user
        { s with users := setUser s user.id 1 g.toWrappedDek, cache := cache }
        (user.withKey 1 g.toWrappedDek)

theorem ensureUserKey_spec (hcache : CacheOk svc s.cache)
    (hgenerated : Generated svc (userKeyContext user 1) generated) :
    CacheOk svc (ensureUserKey svc s user generated).1.cache ∧
      (∀ e, (ensureUserKey svc s user generated).2 = .error e →
        (ensureUserKey svc s user generated).1 = s) ∧
      ∀ user', (ensureUserKey svc s user generated).2 = .ok user' →
        UserKeyStep svc s user (ensureUserKey svc s user generated).1 user' := by
  unfold ensureUserKey
  split
  · next hkey =>
    refine ⟨hcache, fun _ _ => rfl, fun user' h => ?_⟩
    cases h
    exact .kept hkey
  · next hkey =>
    split
    · exact ⟨hcache, fun _ _ => rfl, fun _ h => nomatch h⟩
    · next g =>
      have hunwrap := svc.provider.unwrap_generated (hgenerated g rfl)
      split
      · exact ⟨hcache, fun _ _ => rfl, fun _ h => nomatch h⟩
      · next key hname =>
        split
        · exact ⟨hcache, fun _ _ => rfl, fun _ h => nomatch h⟩
        · next hlength =>
          have hput := cachePut_spec hcache hname hunwrap (not_not.mp hlength)
          refine ⟨hput.cache, fun _ h => (nomatch h), fun user' h => ?_⟩
          cases h
          have hnone : truthy user.secretWrappedDek = none := by simpa using hkey
          exact .created g _ hnone (hgenerated g rfl) (not_not.mp hlength)

/-- What `encrypt_user_secret` does, and what it returns. -/
theorem encryptUserSecret_spec (hsha : Function.Injective svc.sha256)
    (hcache : CacheOk svc s.cache)
    (hgenerated : Generated svc (userKeyContext user 1) generated) (plaintext field : String)
    (nonce : Bytes) :
    CacheOk svc (encryptUserSecret svc s user plaintext field generated nonce).1.cache ∧
      (∀ e, (encryptUserSecret svc s user plaintext field generated nonce).2 = .error e →
        CacheStep svc s (encryptUserSecret svc s user plaintext field generated nonce).1) ∧
      ∀ c, (encryptUserSecret svc s user plaintext field generated nonce).2 = .ok c →
        ∃ t user' dek cache, UserKeyStep svc s user t user' ∧
          (encryptUserSecret svc s user plaintext field generated nonce).1 =
            { t with cache := cache } ∧
          plainUserDek svc user' = .ok dek ∧
          c.1 = urlsafeB64encode (svc.gcm.encrypt dek nonce
            (canonicalSecretAad user'.id field user'.secretCryptoEpoch) (utf8 plaintext)) ∧
          c.2 = urlsafeB64encode nonce := by
  obtain ⟨hensured, -, hkey⟩ := ensureUserKey_spec hcache hgenerated
  unfold encryptUserSecret
  cases hensure : ensureUserKey svc s user generated with
  | mk s₁ answer =>
      rw [hensure] at hensured hkey
      cases answer with
      | error e =>
          have hback := cacheStep_rollback (s := s) hensured
          exact ⟨hback.cache, fun _ _ => hback, fun _ h => nomatch h⟩
      | ok user' =>
          obtain ⟨hdek, hstep⟩ := userDek_spec hsha hensured user'
          cases hlookup : userDek svc s₁ user' with
          | mk s₂ answer =>
              rw [hlookup] at hdek hstep
              simp only [hlookup]
              cases answer with
              | error e =>
                  have hback := cacheStep_rollback (s := s) hstep.cache
                  exact ⟨hback.cache, fun _ _ => hback, fun _ h => nomatch h⟩
              | ok dek =>
                  refine ⟨hstep.cache, fun _ h => (nomatch h), fun c h => ?_⟩
                  cases h
                  obtain ⟨⟨cache, rfl⟩, -⟩ := hstep
                  exact ⟨s₁, user', dek, cache, hkey user' rfl, rfl, hdek.symm, rfl, rfl⟩

theorem decryptUserSecret_spec (hsha : Function.Injective svc.sha256)
    (hcache : CacheOk svc s.cache) (user : User) (ciphertext nonce field : String) :
    CacheStep svc s (decryptUserSecret svc s user ciphertext nonce field).1 := by
  have hself : CacheStep svc s s := .refl hcache
  unfold decryptUserSecret
  split
  · split
    · exact hself
    · exact hself
  · split
    · exact hself
    · obtain ⟨-, hstep⟩ := userDek_spec hsha hcache user
      cases hlookup : userDek svc s user with
      | mk s' answer =>
          rw [hlookup] at hstep
          cases answer with
          | error e => exact hstep
          | ok dek => exact hstep

end Scap.Crypto
