import Scap.Crypto.SecretRuns
import Scap.Lib.Rewriting

/-!
# Rotation of the shared keys

`scripts/rotate_encryption_key.py`: the messages and the TOTP secrets under the shared keys are
decrypted and encrypted again under the target version, which is the active one of the keyring the
script builds. A run may be stopped anywhere, and the database returns its rows in any order.

* `rewritten_main` — what a run does to the tables, wherever it is stopped;
* `rotation_keeps_plaintexts` — what the application reads stays the same along every run;
* `rotation_exit` — what the exit status of a finished run says, and that the target key alone is
  enough after the status `0`;
* `legacy_rotation` — both, with what is counted; `rotation_misses` — what no run selects.
-/

namespace Scap.Crypto

open Scap.Py Scap.Lib

/-! ## The application -/

def developmentKek : String := "local://scap/development-kek"

theorem lookup_repr (keys : List (Int × Bytes)) (version : Int) :
    (keys.map fun e => (Int.repr e.1, e.2)).lookup (Int.repr version) = keys.lookup version := by
  induction keys with
  | nil => rfl
  | cons e keys ih =>
      rw [List.map_cons, List.lookup_cons, List.lookup_cons, ih]
      have hsame : (Int.repr version == Int.repr e.1) = (version == e.1) := by
        rw [Bool.eq_iff_iff, beq_iff_eq, beq_iff_eq]
        exact ⟨fun h => Int.repr_injective h, congrArg _⟩
      rw [hsame]

/-- The keyring with the target key and no other. -/
def CryptoService.alone (crypto : CryptoService) : CryptoService where
  keys := [(crypto.keyVersion, crypto.activeKey)]
  keyVersion := crypto.keyVersion
  activeKey := crypto.activeKey
  active := List.lookup_cons_self

/-- `LocalAesKeyProvider.from_base64_keyring`. -/
def CryptoService.ring (crypto : CryptoService) : LocalKeyring where
  keys := crypto.keys.map fun e => (Int.repr e.1, e.2)
  activeVersion := Int.repr crypto.keyVersion
  keyUri := developmentKek
  activeKey := crypto.activeKey
  active := by rw [lookup_repr, crypto.active]

/-- The service with a keyring for the shared keys and the local provider. -/
def EnvelopeCryptoService.withKeys (svc : EnvelopeCryptoService) (crypto : CryptoService) :
    EnvelopeCryptoService :=
  { svc with
    provider := localAesKeyProvider svc.gcm crypto.ring
    legacyCrypto := some crypto }

/-- The account `id` has a TOTP secret that is read as `p`. -/
def TotpReadable (svc : EnvelopeCryptoService) (s : CryptoState) (id p : String) : Prop :=
  ∃ user row, s.users.find? id = some user ∧
    s.secrets.find? (toLex (id, mfaField user)) = some row ∧
    plainDecryptUserSecret svc user row.ciphertext row.nonce (mfaField user) = .ok p

/-! ## The script -/

section Script

variable (gcm : AesGcm) (crypto : CryptoService)

/-- `crypto.decrypt` on a row. -/
def SecureMessage.legacyText (row : SecureMessage) : Except CryptoError String :=
  crypto.decrypt gcm row.ciphertext row.nonce row.sessionId row.role row.keyVersion

/-- `crypto.decrypt_secret` on the TOTP secret of an account. -/
def StoredSecret.legacyText (row : StoredSecret) : Except CryptoError String :=
  crypto.decryptSecret gcm row.ciphertext row.nonce ("mfa:" ++ row.userId)

/-- The loop body of `rotate_messages`. -/
def rotateMessage (nonces : Nat → Bytes) : Rewrite SecureMessage.id where
  apply row := match row.legacyText gcm crypto with
    | .error _ => none
    | .ok plaintext =>
      let (ciphertext, nonce, version) :=
        crypto.encrypt gcm plaintext row.sessionId row.role (nonces row.id)
      some { row with ciphertext := ciphertext, nonce := nonce, keyVersion := version }
  key_apply h := by
    split at h
    · cases h
    · obtain rfl := Option.some.inj h
      rfl

/-- The loop body of `rotate_mfa_secrets`. -/
def rotateSecret (nonces : String → Bytes) : Rewrite StoredSecret.key where
  apply row := match row.legacyText gcm crypto with
    | .error _ => none
    | .ok secret =>
      let (ciphertext, nonce) :=
        crypto.encryptSecret gcm secret ("mfa:" ++ row.userId) (nonces row.userId)
      some { row with ciphertext := ciphertext, nonce := nonce }
  key_apply h := by
    split at h
    · cases h
    · obtain rfl := Option.some.inj h
      rfl

end Script

/-- The rows that `rotate_messages` selects. -/
def legacyRows (target : Int) (s : CryptoState) : List SecureMessage :=
  s.messages.rows.filter fun row =>
    row.encryptionScheme = LEGACY_SCHEME ∧ row.keyVersion ≠ target

/-- The TOTP secrets of the users that `rotate_mfa_secrets` selects. -/
def mfaRows (s : CryptoState) : List StoredSecret :=
  s.secrets.rows.filter fun row => row.field = "mfa:" ++ row.userId ∧
    (s.users.find? row.userId).any fun user => user.secretWrappedDek.isNone

/-- A wrapped key with other metadata than those of the target. -/
def dependsOnOther (target : Int) (uri version : Option String) : Bool :=
  uri ≠ some developmentKek || version ≠ some (Int.repr target)

/-- `unrotated_envelope_dependencies`. -/
def unrotatedEnvelopeDependencies (target : Int) (s : CryptoState) : Nat :=
  (s.sessions.rows.countP fun row =>
    row.wrappedDek.isSome && dependsOnOther target row.kekUri row.kekVersion) +
  (s.epochs.rows.countP fun row =>
    dependsOnOther target (some row.wrapped.kekUri) (some row.wrapped.kekVersion)) +
  s.users.rows.countP fun user =>
    user.secretWrappedDek.isSome && dependsOnOther target user.secretKekUri user.secretKekVersion

/-- Where a run is stopped: after so many rows of one of the loops. -/
inductive Stop where
  | messages (n : Nat)
  | secrets (n : Nat)

/-- A run: its options, the rows in the order of the database, random numbers, and where it is
stopped, if it is. -/
structure ToolRun where
  batch : Nat
  dryRun : Bool
  rows : List SecureMessage
  secrets : List StoredSecret
  nonces : Nat → Bytes
  secretNonces : String → Bytes
  stop : Option Stop

section Script

variable (gcm : AesGcm) (crypto : CryptoService)

/-- `rotate_messages` on the first `n` rows. -/
def messageLoop (s : CryptoState) (r : ToolRun) (n : Nat) : Rewrite.Progress SecureMessage.id :=
  (rotateMessage gcm crypto r.nonces).loop (fun index => index % r.batch = 0) s.messages
    (r.rows.take n)

/-- `rotate_mfa_secrets` on the first `n` users, which commits at its end only. -/
def secretLoop (s : CryptoState) (r : ToolRun) (n : Nat) : Rewrite.Progress StoredSecret.key :=
  (rotateSecret gcm crypto r.secretNonces).loop (fun _ => false) s.secrets (r.secrets.take n)

/-- `rotate_messages`: how many rows were rotated, and how many have failed. -/
def rotateMessages (s : CryptoState) (r : ToolRun) : CryptoState × Nat × Nat :=
  let p := messageLoop gcm crypto s r r.rows.length
  (if r.dryRun then s else { s with messages := p.current }, p.done, p.failed)

/-- `rotate_mfa_secrets`. -/
def rotateMfaSecrets (s : CryptoState) (r : ToolRun) : CryptoState × Nat × Nat :=
  let p := secretLoop gcm crypto s r r.secrets.length
  (if r.dryRun then s else { s with secrets := p.current }, p.done, p.failed)

/-- `main`, and its exit status if it is not stopped. -/
def rotationMain (s : CryptoState) (r : ToolRun) : CryptoState × Option Nat :=
  if unrotatedEnvelopeDependencies crypto.keyVersion s ≠ 0 then (s, some 1)
  else match r.stop with
    | some (.messages n) =>
      let messages := (messageLoop gcm crypto s r n).committed
      (if r.dryRun then s else { s with messages := messages }, none)
    | some (.secrets n) =>
      let (s, _) := rotateMessages gcm crypto s r
      let secrets := (secretLoop gcm crypto s r n).committed
      (if r.dryRun then s else { s with secrets := secrets }, none)
    | none =>
      let (s, _, messagesFailed) := rotateMessages gcm crypto s r
      let (s, _, secretsFailed) := rotateMfaSecrets gcm crypto s r
      (s, some (if messagesFailed ≠ 0 ∨ secretsFailed ≠ 0 then 1 else 0))

/-- The rows are those that the queries select, and a nonce has twelve bytes. -/
structure ToolRun.Admissible (s : CryptoState) (r : ToolRun) : Prop where
  rows : r.rows.Perm (legacyRows crypto.keyVersion s)
  secrets : r.secrets.Perm (mfaRows s)
  nonces : ∀ id, (r.nonces id).length = 12
  secretNonces : ∀ id, (r.secretNonces id).length = 12

/-- Runs of the script with one keyring and one target, one after the other. -/
def rotationSystem : System CryptoState ToolRun where
  init _ := True
  step s r t := r.Admissible crypto s ∧ t = (rotationMain gcm crypto s r).1

end Script

variable {svc : EnvelopeCryptoService} {gcm : AesGcm} {crypto : CryptoService}
  {s t u : CryptoState} {r : ToolRun} {rs : List ToolRun} {row row' : SecureMessage}
  {secret secret' : StoredSecret} {session : ChatSession} {user : User} {id p : String}
  {e : CryptoError} {nonces : Nat → Bytes} {secretNonces : String → Bytes} {nonce : Bytes}

/-! ## One row -/

/-- What the active key has encrypted is decrypted again. -/
theorem CryptoService.decrypt_encrypt {sessionId role : String} (hlength : nonce.length = 12) :
    crypto.decrypt gcm (crypto.encrypt gcm p sessionId role nonce).1
      (crypto.encrypt gcm p sessionId role nonce).2.1 sessionId role crypto.keyVersion = .ok p := by
  unfold decrypt encrypt
  simp only [crypto.active, b64decode_urlsafe, if_neg (not_not.mpr hlength), gcm.decrypt_encrypt,
    decodeUtf8_utf8]

/-- A message before and after it is rotated. -/
structure Rotated (gcm : AesGcm) (crypto : CryptoService) (row row' : SecureMessage) : Prop where
  sessionId : row'.sessionId = row.sessionId
  scheme : row'.encryptionScheme = row.encryptionScheme
  text : row'.legacyText gcm crypto = row.legacyText gcm crypto
  refused : ∀ e, row.legacyText gcm crypto = .error e → row' = row
  rotated : ∀ p, row.legacyText gcm crypto = .ok p → row'.keyVersion = crypto.keyVersion

theorem rotated_total (hnonces : ∀ id, (nonces id).length = 12) (row : SecureMessage) :
    Rotated gcm crypto row ((rotateMessage gcm crypto nonces).total row) := by
  cases htext : row.legacyText gcm crypto with
  | error e =>
      have hkept : (rotateMessage gcm crypto nonces).total row = row := by
        simp only [Rewrite.total, rotateMessage, htext, Option.getD_none]
      rw [hkept]
      refine ⟨rfl, rfl, rfl, fun _ _ => rfl, ?_⟩
      intro p hp
      rw [htext] at hp
      cases hp
  | ok p =>
      have hnew : (rotateMessage gcm crypto nonces).total row = { row with
          ciphertext := (crypto.encrypt gcm p row.sessionId row.role (nonces row.id)).1
          nonce := (crypto.encrypt gcm p row.sessionId row.role (nonces row.id)).2.1
          keyVersion := crypto.keyVersion } := by
        simp only [Rewrite.total, rotateMessage, htext, Option.getD_some]
        rfl
      rw [hnew]
      refine ⟨rfl, rfl, ?_, ?_, fun _ _ => rfl⟩
      · rw [htext]
        exact CryptoService.decrypt_encrypt (hnonces row.id)
      · intro e he
        rw [htext] at he
        cases he

/-- A TOTP secret before and after. -/
structure RotatedSecret (gcm : AesGcm) (crypto : CryptoService) (row row' : StoredSecret) :
    Prop where
  userId : row'.userId = row.userId
  text : row'.legacyText gcm crypto = row.legacyText gcm crypto
  refused : ∀ e, row.legacyText gcm crypto = .error e → row' = row
  rotated : ∀ p, row.legacyText gcm crypto = .ok p → row'.legacyText gcm crypto.alone = .ok p

theorem rotatedSecret_total (hnonces : ∀ id, (secretNonces id).length = 12) (row : StoredSecret) :
    RotatedSecret gcm crypto row ((rotateSecret gcm crypto secretNonces).total row) := by
  cases htext : row.legacyText gcm crypto with
  | error e =>
      have hkept : (rotateSecret gcm crypto secretNonces).total row = row := by
        simp only [Rewrite.total, rotateSecret, htext, Option.getD_none]
      rw [hkept]
      refine ⟨rfl, rfl, fun _ _ => rfl, ?_⟩
      intro p hp
      rw [htext] at hp
      cases hp
  | ok p =>
      have hnew : (rotateSecret gcm crypto secretNonces).total row = { row with
          ciphertext := (crypto.encryptSecret gcm p ("mfa:" ++ row.userId)
            (secretNonces row.userId)).1
          nonce := (crypto.encryptSecret gcm p ("mfa:" ++ row.userId)
            (secretNonces row.userId)).2 } := by
        simp only [Rewrite.total, rotateSecret, htext, Option.getD_some]
      rw [hnew]
      refine ⟨rfl, ?_, ?_, ?_⟩
      · rw [htext]
        exact CryptoService.decryptSecret_encryptSecret (hnonces row.userId)
      · intro e he
        rw [htext] at he
        cases he
      · intro p' hp'
        rw [htext] at hp'
        obtain rfl := Except.ok.inj hp'
        -- the target key alone encrypts as the keyring does
        show crypto.alone.decryptSecret gcm (crypto.alone.encryptSecret gcm p
          ("mfa:" ++ row.userId) (secretNonces row.userId)).1 _ _ = _
        exact CryptoService.decryptSecret_encryptSecret (hnonces row.userId)

/-! ## What a run does to the tables -/

/-- The rows of a query, in any order. -/
theorem rows_of_perm {ρ κ : Type} [LinearOrder κ] {key : ρ → κ} {table : KeyedTable key}
    {rows : List ρ} {q : ρ → Bool} (h : rows.Perm (table.rows.filter q)) (n : Nat) :
    ((rows.take n).map key).Nodup ∧ rows.take n ⊆ table.rows := by
  have hsorted : (table.rows.map key).Nodup := by
    rw [List.Nodup, List.pairwise_map]
    exact table.sorted.imp fun hlt => ne_of_lt hlt
  have hnodup : (rows.map key).Nodup :=
    (h.map key).nodup_iff.mpr ((List.filter_sublist.map key).nodup hsorted)
  refine ⟨((List.take_sublist n rows).map key).nodup hnodup, fun x hx => ?_⟩
  exact List.mem_of_mem_filter (h.mem_iff.mp (List.mem_of_mem_take hx))

/-- Some of the messages that the query selects are rotated. -/
def MessagesRotated (gcm : AesGcm) (crypto : CryptoService) (s : CryptoState)
    (messages : KeyedTable SecureMessage.id) : Prop :=
  ∃ nonces rows, (∀ id, (nonces id).length = 12) ∧ rows ⊆ legacyRows crypto.keyVersion s ∧
    messages = (rotateMessage gcm crypto nonces).rows s.messages rows

/-- Some of the TOTP secrets that the query selects are rotated. -/
def SecretsRotated (gcm : AesGcm) (crypto : CryptoService) (s : CryptoState)
    (secrets : KeyedTable StoredSecret.key) : Prop :=
  ∃ nonces rows, (∀ id, (nonces id).length = 12) ∧ rows ⊆ mfaRows s ∧
    secrets = (rotateSecret gcm crypto nonces).rows s.secrets rows

/-- **What a run does**, wherever it is stopped. -/
structure Rewritten (gcm : AesGcm) (crypto : CryptoService) (s t : CryptoState) : Prop where
  sessions : t.sessions = s.sessions
  epochs : t.epochs = s.epochs
  users : t.users = s.users
  messages : MessagesRotated gcm crypto s t.messages
  secrets : SecretsRotated gcm crypto s t.secrets

theorem secrets_rotateMessages : (rotateMessages gcm crypto s r).1.secrets = s.secrets := by
  unfold rotateMessages
  dsimp only
  split <;> rfl

/-- `rotate_mfa_secrets` after `rotate_messages`. -/
theorem secretLoop_rotateMessages (n : Nat) :
    secretLoop gcm crypto (rotateMessages gcm crypto s r).1 r n = secretLoop gcm crypto s r n := by
  unfold secretLoop
  rw [secrets_rotateMessages]

section Loops

variable (ha : r.Admissible crypto s)
include ha

theorem messagesRotated_self : MessagesRotated gcm crypto s s.messages :=
  ⟨r.nonces, [], ha.nonces, List.nil_subset _, Rewrite.rows_nil.symm⟩

theorem secretsRotated_self : SecretsRotated gcm crypto s s.secrets :=
  ⟨r.secretNonces, [], ha.secretNonces, List.nil_subset _, Rewrite.rows_nil.symm⟩

theorem rewritten_self : Rewritten gcm crypto s s :=
  ⟨rfl, rfl, rfl, messagesRotated_self ha, secretsRotated_self ha⟩

/-- `rotate_messages`, stopped after `n` rows. -/
theorem committed_messages (n : Nat) :
    MessagesRotated gcm crypto s (messageLoop gcm crypto s r n).committed := by
  obtain ⟨hnodup, hrows⟩ := rows_of_perm ha.rows n
  obtain ⟨m, hm⟩ : ∃ m, (messageLoop gcm crypto s r n).committed =
      (rotateMessage gcm crypto r.nonces).rows s.messages ((r.rows.take n).take m) :=
    Rewrite.committed_loop hnodup hrows
  refine ⟨r.nonces, (r.rows.take n).take m, ha.nonces, fun row hrow => ?_, hm⟩
  exact ha.rows.mem_iff.mp (List.mem_of_mem_take (List.mem_of_mem_take hrow))

theorem current_messages : (messageLoop gcm crypto s r r.rows.length).current =
    (rotateMessage gcm crypto r.nonces).rows s.messages r.rows := by
  obtain ⟨hnodup, hrows⟩ := rows_of_perm ha.rows r.rows.length
  unfold messageLoop
  rw [Rewrite.current_loop hnodup hrows, List.take_length]

/-- `rotate_mfa_secrets`, stopped after `n` users. -/
theorem committed_secrets (n : Nat) :
    SecretsRotated gcm crypto s (secretLoop gcm crypto s r n).committed := by
  obtain ⟨hnodup, hrows⟩ := rows_of_perm ha.secrets n
  obtain ⟨m, hm⟩ : ∃ m, (secretLoop gcm crypto s r n).committed =
      (rotateSecret gcm crypto r.secretNonces).rows s.secrets ((r.secrets.take n).take m) :=
    Rewrite.committed_loop hnodup hrows
  refine ⟨r.secretNonces, (r.secrets.take n).take m, ha.secretNonces, fun row hrow => ?_, hm⟩
  exact ha.secrets.mem_iff.mp (List.mem_of_mem_take (List.mem_of_mem_take hrow))

theorem current_secrets : (secretLoop gcm crypto s r r.secrets.length).current =
    (rotateSecret gcm crypto r.secretNonces).rows s.secrets r.secrets := by
  obtain ⟨hnodup, hrows⟩ := rows_of_perm ha.secrets r.secrets.length
  unfold secretLoop
  rw [Rewrite.current_loop hnodup hrows, List.take_length]

/-- A finished `rotate_messages`. -/
theorem rewritten_messages : Rewritten gcm crypto s (rotateMessages gcm crypto s r).1 := by
  unfold rotateMessages
  dsimp only
  split
  · exact rewritten_self ha
  · refine ⟨rfl, rfl, rfl, ?_, secretsRotated_self ha⟩
    rw [current_messages ha]
    exact ⟨r.nonces, r.rows, ha.nonces, fun row hrow => ha.rows.mem_iff.mp hrow, rfl⟩

theorem rewritten_main : Rewritten gcm crypto s (rotationMain gcm crypto s r).1 := by
  have hmessages : Rewritten gcm crypto s (rotateMessages gcm crypto s r).1 :=
    rewritten_messages ha
  unfold rotationMain
  split
  · exact rewritten_self ha
  · split
    · dsimp only
      split
      · exact rewritten_self ha
      · exact ⟨rfl, rfl, rfl, committed_messages ha _, secretsRotated_self ha⟩
    · dsimp only
      split
      · exact hmessages
      · refine ⟨hmessages.sessions, hmessages.epochs, hmessages.users, hmessages.messages, ?_⟩
        rw [secretLoop_rotateMessages]
        exact committed_secrets ha _
    · unfold rotateMfaSecrets
      dsimp only
      split
      · exact hmessages
      · refine ⟨hmessages.sessions, hmessages.epochs, hmessages.users, hmessages.messages, ?_⟩
        rw [secretLoop_rotateMessages, current_secrets ha]
        exact ⟨r.secretNonces, r.secrets, ha.secretNonces,
          fun row hrow => ha.secrets.mem_iff.mp hrow, rfl⟩

end Loops

/-! ## What stays -/

/-- A message of the table is as it was, or it was selected and rotated. -/
theorem MessagesRotated.find? {messages : KeyedTable SecureMessage.id}
    (h : MessagesRotated gcm crypto s messages) : ∃ f : SecureMessage → SecureMessage,
      (∀ id, messages.find? id = (s.messages.find? id).map f) ∧
      ∀ row, f row = row ∨
        row ∈ legacyRows crypto.keyVersion s ∧ Rotated gcm crypto row (f row) := by
  obtain ⟨nonces, rows, hnonces, hrows, rfl⟩ := h
  refine ⟨_, fun id => Rewrite.find?_rows, fun row => ?_⟩
  split
  · next hrow => exact .inr ⟨hrows hrow, rotated_total hnonces row⟩
  · exact .inl rfl

/-- A secret of the table is as it was, or it was selected and rotated. -/
theorem SecretsRotated.find? {secrets : KeyedTable StoredSecret.key}
    (h : SecretsRotated gcm crypto s secrets) : ∃ f : StoredSecret → StoredSecret,
      (∀ key, secrets.find? key = (s.secrets.find? key).map f) ∧
      ∀ row, f row = row ∨ row ∈ mfaRows s ∧ RotatedSecret gcm crypto row (f row) := by
  obtain ⟨nonces, rows, hnonces, hrows, rfl⟩ := h
  refine ⟨_, fun id => Rewrite.find?_rows, fun row => ?_⟩
  split
  · next hrow => exact .inr ⟨hrows hrow, rotatedSecret_total hnonces row⟩
  · exact .inl rfl

theorem mem_legacyRows {target : Int} : row ∈ legacyRows target s ↔ row ∈ s.messages.rows ∧
    row.encryptionScheme = LEGACY_SCHEME ∧ row.keyVersion ≠ target := by
  unfold legacyRows
  rw [List.mem_filter, decide_eq_true_iff]

theorem mem_mfaRows : secret ∈ mfaRows s ↔ secret ∈ s.secrets.rows ∧
    secret.field = "mfa:" ++ secret.userId ∧
    ∃ user, s.users.find? secret.userId = some user ∧ user.secretWrappedDek = none := by
  unfold mfaRows
  rw [List.mem_filter, decide_eq_true_iff, Option.any_eq_true_iff_get]
  cases s.users.find? secret.userId <;> simp

/-- A conversation is read as before. -/
theorem plainDecrypt_rotated (hepochs : t.epochs = s.epochs)
    (h : row' = row ∨ row.encryptionScheme = LEGACY_SCHEME ∧ Rotated svc.gcm crypto row row') :
    plainDecryptMessage (svc.withKeys crypto) t session row' =
      plainDecryptMessage (svc.withKeys crypto) s session row := by
  unfold plainDecryptMessage
  obtain rfl | ⟨hscheme, hrow⟩ := h
  · unfold plainSessionDek
    rw [hepochs]
  · have hvalid : validateMessageContext session row' = validateMessageContext session row := by
      unfold validateMessageContext
      rw [hrow.sessionId, hrow.scheme]
    rw [hvalid, hrow.scheme, if_pos hscheme, if_pos hscheme]
    cases validateMessageContext session row with
    | some e => rfl
    | none => exact hrow.text

/-- A TOTP secret is read as before. -/
theorem plainDecryptUserSecret_rotated (hfind : s.users.find? id = some user)
    (hkey : secret.key = toLex (id, mfaField user))
    (h : secret' = secret ∨ secret ∈ mfaRows s ∧ RotatedSecret svc.gcm crypto secret secret') :
    plainDecryptUserSecret (svc.withKeys crypto) user secret'.ciphertext secret'.nonce
        (mfaField user) =
      plainDecryptUserSecret (svc.withKeys crypto) user secret.ciphertext secret.nonce
        (mfaField user) := by
  obtain rfl | ⟨hselected, hsecret⟩ := h
  · rfl
  · obtain ⟨-, -, user', hfind', hnone⟩ := mem_mfaRows.mp hselected
    have hid : secret.userId = id := (Prod.mk.inj (toLex.injective hkey)).1
    rw [hid, hfind] at hfind'
    obtain rfl := Option.some.inj hfind'
    have hlegacy : truthy user.secretWrappedDek = none := by
      rw [hnone]
      rfl
    have hfield : mfaField user = "mfa:" ++ secret.userId := by
      rw [hid, ← (KeyedTable.find?_eq_some hfind).2]
      rfl
    have htext := hsecret.text
    unfold StoredSecret.legacyText at htext
    rw [hsecret.userId, ← hfield] at htext
    unfold plainDecryptUserSecret
    rw [if_pos hlegacy, if_pos hlegacy]
    exact htext

/-- **The two states hold the same plaintexts**, and what cannot be decrypted is as it was. -/
structure PlaintextsKept (svc : EnvelopeCryptoService) (crypto : CryptoService)
    (s t : CryptoState) : Prop where
  readable : ∀ id p,
    Readable (svc.withKeys crypto) t id p ↔ Readable (svc.withKeys crypto) s id p
  totpReadable : ∀ id p,
    TotpReadable (svc.withKeys crypto) t id p ↔ TotpReadable (svc.withKeys crypto) s id p
  refused : ∀ row ∈ s.messages.rows, (∀ p, row.legacyText svc.gcm crypto ≠ .ok p) →
    row ∈ t.messages.rows
  refusedSecrets : ∀ row ∈ s.secrets.rows, (∀ p, row.legacyText svc.gcm crypto ≠ .ok p) →
    row ∈ t.secrets.rows

theorem PlaintextsKept.refl : PlaintextsKept svc crypto s s :=
  ⟨fun _ _ => .rfl, fun _ _ => .rfl, fun _ h _ => h, fun _ h _ => h⟩

theorem PlaintextsKept.trans (h : PlaintextsKept svc crypto s t)
    (h' : PlaintextsKept svc crypto t u) : PlaintextsKept svc crypto s u where
  readable id p := (h'.readable id p).trans (h.readable id p)
  totpReadable id p := (h'.totpReadable id p).trans (h.totpReadable id p)
  refused row hrow hno := h'.refused row (h.refused row hrow hno) hno
  refusedSecrets row hrow hno := h'.refusedSecrets row (h.refusedSecrets row hrow hno) hno

/-- A text is decrypted or it is not. -/
theorem exists_error {answer : Except CryptoError String} (h : ∀ p, answer ≠ .ok p) :
    ∃ e, answer = .error e := by
  cases answer with
  | error e => exact ⟨e, rfl⟩
  | ok p => exact absurd rfl (h p)

/-- Rewriting rows under the target key keeps what each of them decrypts to. -/
theorem plaintextsKept_of_rewritten (h : Rewritten svc.gcm crypto s t) :
    PlaintextsKept svc crypto s t := by
  obtain ⟨f, hfind, hf⟩ := h.messages.find?
  obtain ⟨g, hfindSecret, hg⟩ := h.secrets.find?
  have hsessionId : ∀ row, (f row).sessionId = row.sessionId := by
    intro row
    obtain hsame | ⟨-, hrow⟩ := hf row
    · rw [hsame]
    · exact hrow.sessionId
  have htext : ∀ session row, plainDecryptMessage (svc.withKeys crypto) t session (f row) =
      plainDecryptMessage (svc.withKeys crypto) s session row := by
    intro session row
    apply plainDecrypt_rotated h.epochs
    exact (hf row).imp_right fun hrow => ⟨(mem_legacyRows.mp hrow.1).2.1, hrow.2⟩
  constructor
  · intro id p
    unfold Readable
    rw [hfind, h.sessions]
    constructor
    · rintro ⟨row', session, hrow', hsession, hp⟩
      obtain ⟨row, hrow, rfl⟩ := Option.map_eq_some_iff.mp hrow'
      exact ⟨row, session, hrow, hsessionId row ▸ hsession, htext session row ▸ hp⟩
    · rintro ⟨row, session, hrow, hsession, hp⟩
      refine ⟨f row, session, ?_, ?_, ?_⟩
      · rw [hrow, Option.map_some]
      · rw [hsessionId, hsession]
      · rw [htext, hp]
  · intro id p
    unfold TotpReadable
    rw [h.users]
    constructor
    · rintro ⟨user, secret', huser, hsecret', hp⟩
      rw [hfindSecret] at hsecret'
      obtain ⟨secret, hsecret, rfl⟩ := Option.map_eq_some_iff.mp hsecret'
      have hkey := (KeyedTable.find?_eq_some hsecret).2
      exact ⟨user, secret, huser, hsecret,
        plainDecryptUserSecret_rotated huser hkey (hg secret) ▸ hp⟩
    · rintro ⟨user, secret, huser, hsecret, hp⟩
      have hkey := (KeyedTable.find?_eq_some hsecret).2
      refine ⟨user, g secret, huser, ?_, ?_⟩
      · rw [hfindSecret, hsecret, Option.map_some]
      · rw [plainDecryptUserSecret_rotated huser hkey (hg secret), hp]
  -- a row that cannot be decrypted is not rewritten
  · intro row hrow hno
    obtain ⟨e, he⟩ := exists_error hno
    have hsame : f row = row := (hf row).elim id fun hrow => hrow.2.refused e he
    have hkept := hfind row.id
    rw [KeyedTable.find?_of_mem hrow, Option.map_some, hsame] at hkept
    exact (KeyedTable.find?_eq_some hkept).1
  · intro row hrow hno
    obtain ⟨e, he⟩ := exists_error hno
    have hsame : g row = row := (hg row).elim id fun hrow => hrow.2.refused e he
    have hkept := hfindSecret row.key
    rw [KeyedTable.find?_of_mem hrow, Option.map_some, hsame] at hkept
    exact (KeyedTable.find?_eq_some hkept).1

theorem plaintextsKept_of_run (hrun : (rotationSystem svc.gcm crypto).Run s rs t) :
    PlaintextsKept svc crypto s t := by
  refine hrun.mono (fun _ => .refl) (fun _ _ _ => .trans) ?_
  rintro s r t ⟨ha, rfl⟩
  exact plaintextsKept_of_rewritten (rewritten_main ha)

/-! ## The target key alone -/

theorem legacyText_alone (h : row.keyVersion = crypto.keyVersion) :
    row.legacyText gcm crypto.alone = row.legacyText gcm crypto := by
  have hall : crypto.keys.lookup row.keyVersion = some crypto.activeKey := h ▸ crypto.active
  have hone : crypto.alone.keys.lookup row.keyVersion = some crypto.activeKey :=
    h ▸ crypto.alone.active
  -- the texts of the errors of an unknown version differ, but this version is known to both
  unfold SecureMessage.legacyText CryptoService.decrypt
  rw [hone, hall]

theorem unwrapDek_alone {w : WrappedDek} {context : Context}
    (h : w.kekVersion = Int.repr crypto.keyVersion) :
    crypto.alone.ring.unwrapDek gcm w context = crypto.ring.unwrapDek gcm w context := by
  have hlookup : crypto.alone.ring.keys.lookup w.kekVersion =
      crypto.ring.keys.lookup w.kekVersion := by
    rw [h]
    exact crypto.alone.ring.active.trans crypto.ring.active.symm
  unfold LocalKeyring.unwrapDek
  rw [hlookup]
  rfl

theorem plainUnwrap_alone {w : WrappedDek} {context : Context} {failed invalid : String}
    (h : w.kekVersion = Int.repr crypto.keyVersion) :
    plainUnwrap (svc.withKeys crypto.alone) w context failed invalid =
      plainUnwrap (svc.withKeys crypto) w context failed invalid := by
  have hprovider : (svc.withKeys crypto.alone).provider.unwrapDek w context =
      (svc.withKeys crypto).provider.unwrapDek w context := unwrapDek_alone h
  unfold plainUnwrap
  rw [hprovider]

/-- Every wrapped key is wrapped by the target key. -/
structure TargetOnly (target : Int) (s : CryptoState) : Prop where
  epochs : ∀ row ∈ s.epochs.rows, row.wrapped.kekVersion = Int.repr target
  users : ∀ user ∈ s.users.rows, user.secretWrappedDek ≠ none →
    user.secretKekVersion = some (Int.repr target)

theorem version_of_not_dependsOnOther {target : Int} {uri version : Option String}
    (h : ¬ dependsOnOther target uri version = true) : version = some (Int.repr target) := by
  unfold dependsOnOther at h
  rw [Bool.or_eq_true, decide_eq_true_iff, decide_eq_true_iff] at h
  by_contra hother
  exact h (.inr hother)

theorem targetOnly_of_dependencies {target : Int}
    (h : unrotatedEnvelopeDependencies target s = 0) : TargetOnly target s := by
  unfold unrotatedEnvelopeDependencies at h
  rw [Nat.add_eq_zero_iff, Nat.add_eq_zero_iff] at h
  obtain ⟨⟨-, hepochs⟩, husers⟩ := h
  rw [List.countP_eq_zero] at hepochs husers
  constructor
  · intro row hrow
    exact Option.some.inj (version_of_not_dependsOnOther (hepochs row hrow))
  · intro user huser hkey
    apply version_of_not_dependsOnOther
    intro hother
    apply husers user huser
    rw [Bool.and_eq_true, Option.isSome_iff_ne_none]
    exact ⟨hkey, hother⟩

/-- A conversation whose keys are wrapped by the target key is read by it alone. -/
theorem plainDecrypt_alone (htarget : TargetOnly crypto.keyVersion s)
    (hversion : row.encryptionScheme = LEGACY_SCHEME → row.keyVersion = crypto.keyVersion) :
    plainDecryptMessage (svc.withKeys crypto.alone) s session row =
      plainDecryptMessage (svc.withKeys crypto) s session row := by
  have hdek : ∀ epoch, plainSessionDek (svc.withKeys crypto.alone) s session epoch =
      plainSessionDek (svc.withKeys crypto) s session epoch := by
    intro epoch
    unfold plainSessionDek
    cases hfind : s.epochs.find? (toLex (session.id, epoch)) with
    | none => rfl
    | some epochRow =>
        exact plainUnwrap_alone (htarget.epochs epochRow (KeyedTable.find?_eq_some hfind).1)
  unfold plainDecryptMessage
  cases validateMessageContext session row with
  | some e => rfl
  | none =>
      dsimp only
      split
      · next hscheme => exact legacyText_alone (hversion hscheme)
      · rw [hdek]
        rfl

/-- So is an account. -/
theorem plainUserDek_alone (htarget : TargetOnly crypto.keyVersion s)
    (huser : user ∈ s.users.rows) :
    plainUserDek (svc.withKeys crypto.alone) user = plainUserDek (svc.withKeys crypto) user := by
  unfold plainUserDek
  cases hw : user.wrapped with
  | none => rfl
  | some w =>
      apply plainUnwrap_alone
      unfold User.wrapped at hw
      split at hw
      · next hdek huri hversion =>
        split at hw
        · obtain rfl := Option.some.inj hw
          have hkey : user.secretWrappedDek ≠ none := by
            intro hnone
            rw [hnone] at hdek
            cases hdek
          have hversion' := (Option.filter_eq_some_iff.mp hversion).1
          rw [htarget.users user huser hkey] at hversion'
          exact (Option.some.inj hversion').symm
        · cases hw
      · cases hw

theorem plainDecryptUserSecret_alone (htarget : TargetOnly crypto.keyVersion s)
    (huser : user ∈ s.users.rows) {ciphertext nonceText field : String}
    (hlegacy : truthy user.secretWrappedDek = none →
      crypto.alone.decryptSecret svc.gcm ciphertext nonceText field =
        crypto.decryptSecret svc.gcm ciphertext nonceText field) :
    plainDecryptUserSecret (svc.withKeys crypto.alone) user ciphertext nonceText field =
      plainDecryptUserSecret (svc.withKeys crypto) user ciphertext nonceText field := by
  have hdek : plainUserDek (svc.withKeys crypto.alone) user =
      plainUserDek (svc.withKeys crypto) user := plainUserDek_alone htarget huser
  unfold plainDecryptUserSecret
  split
  · next hnone => exact hlegacy hnone
  · rw [hdek]
    rfl

/-! ## A finished run -/

theorem isNone_rotateMessage : ((rotateMessage gcm crypto nonces).apply row).isNone =
    !(row.legacyText gcm crypto).isOk := by
  cases htext : row.legacyText gcm crypto <;>
    simp [rotateMessage, htext, Except.isOk, Except.toBool]

theorem isNone_rotateSecret : ((rotateSecret gcm crypto secretNonces).apply secret).isNone =
    !(secret.legacyText gcm crypto).isOk := by
  cases htext : secret.legacyText gcm crypto <;>
    simp [rotateSecret, htext, Except.isOk, Except.toBool]

/-- No row is refused if and only if all of them can be decrypted. -/
theorem countP_refused {ρ : Type} {rows : List ρ} {text : ρ → Except CryptoError String} :
    (rows.countP fun row => !(text row).isOk) = 0 ↔ ∀ row ∈ rows, ∃ p, text row = .ok p := by
  rw [List.countP_eq_zero]
  refine forall₂_congr fun row _ => ?_
  cases text row <;> simp [Except.isOk, Except.toBool]

section Finished

variable (ha : r.Admissible crypto s)
include ha

/-- The messages that have failed are the selected ones that cannot be decrypted. -/
theorem failed_rotateMessages : (rotateMessages gcm crypto s r).2.2 =
    (legacyRows crypto.keyVersion s).countP fun row => !(row.legacyText gcm crypto).isOk := by
  show (messageLoop gcm crypto s r r.rows.length).failed = _
  unfold messageLoop
  rw [Rewrite.failed_loop, List.take_length, ha.rows.countP_eq]
  simp only [isNone_rotateMessage]

theorem failed_secretLoop : (secretLoop gcm crypto s r r.secrets.length).failed =
    (mfaRows s).countP fun secret => !(secret.legacyText gcm crypto).isOk := by
  unfold secretLoop
  rw [Rewrite.failed_loop, List.take_length, ha.secrets.countP_eq]
  simp only [isNone_rotateSecret]

/-- The exit status of a run that is not stopped. -/
theorem status_main (hstop : r.stop = none) : (rotationMain gcm crypto s r).2 = some 0 ↔
    unrotatedEnvelopeDependencies crypto.keyVersion s = 0 ∧
    (∀ row ∈ legacyRows crypto.keyVersion s, ∃ p, row.legacyText gcm crypto = .ok p) ∧
    ∀ secret ∈ mfaRows s, ∃ p, secret.legacyText gcm crypto = .ok p := by
  rw [← countP_refused, ← countP_refused, ← failed_rotateMessages ha, ← failed_secretLoop ha]
  unfold rotationMain
  rw [hstop]
  split
  · next hdeps => simp [hdeps]
  · next hdeps =>
    unfold rotateMfaSecrets
    dsimp only
    rw [secretLoop_rotateMessages]
    have hdeps' := not_not.mp hdeps
    rw [Option.some.injEq]
    split
    · next hfailed =>
      constructor
      · intro h
        cases h
      · rintro ⟨-, hmessages, hsecrets⟩
        exact absurd hfailed (by simp [hmessages, hsecrets])
    · next hfailed =>
      push Not at hfailed
      exact ⟨fun _ => ⟨hdeps', hfailed⟩, fun _ => rfl⟩

/-- A finished `rotate_messages` that is not a dry run. -/
theorem rotateMessages_real (hreal : r.dryRun = false) : (rotateMessages gcm crypto s r).1 =
    { s with messages := (rotateMessage gcm crypto r.nonces).rows s.messages r.rows } := by
  rw [← current_messages ha]
  unfold rotateMessages
  rw [hreal]
  rfl

/-- What a finished run leaves that is not a dry one. -/
theorem finished_main (hstop : r.stop = none) (hreal : r.dryRun = false)
    (hdeps : unrotatedEnvelopeDependencies crypto.keyVersion s = 0) :
    (rotationMain gcm crypto s r).1 = { s with
      messages := (rotateMessage gcm crypto r.nonces).rows s.messages r.rows
      secrets := (rotateSecret gcm crypto r.secretNonces).rows s.secrets r.secrets } := by
  have hmessages : (rotateMessages gcm crypto s r).1 =
      { s with messages := (rotateMessage gcm crypto r.nonces).rows s.messages r.rows } :=
    rotateMessages_real ha hreal
  unfold rotationMain rotateMfaSecrets
  rw [hstop, if_neg (not_not.mpr hdeps)]
  dsimp only
  rw [secretLoop_rotateMessages, current_secrets ha, hmessages, hreal]
  rfl

/-- The rows that are selected afterwards are those that cannot be decrypted. -/
theorem legacyRows_finished (h : t.messages =
      (rotateMessage gcm crypto r.nonces).rows s.messages r.rows) :
    legacyRows crypto.keyVersion t = (legacyRows crypto.keyVersion s).filter fun row =>
      !(row.legacyText gcm crypto).isOk := by
  unfold legacyRows
  rw [h, Rewrite.filter_rows]
  · apply List.filter_congr
    intro row _
    cases htext : row.legacyText gcm crypto <;>
      simp [rotateMessage, htext, Except.isOk, Except.toBool]
  · intro row hrow
    rw [ha.rows.mem_iff, legacyRows, List.mem_filter]
    simp only [hrow, true_and]
  · intro row row' happly
    have htotal : Rotated gcm crypto row ((rotateMessage gcm crypto r.nonces).total row) :=
      rotated_total ha.nonces row
    have hrotated := htotal.rotated
    cases htext : row.legacyText gcm crypto with
    | error e => simp [rotateMessage, htext] at happly
    | ok p =>
        rw [Rewrite.total, happly, Option.getD_some] at hrotated
        rw [decide_eq_false_iff_not]
        exact fun hselected => hselected.2 (hrotated p htext)

end Finished

theorem targetOnly_congr {target : Int} (hepochs : t.epochs = s.epochs) (husers : t.users = s.users)
    (h : TargetOnly target s) : TargetOnly target t := by
  constructor
  · rw [hepochs]
    exact h.epochs
  · rw [husers]
    exact h.users

/-- Messages are read by the target key alone when none is selected again. -/
theorem readable_alone {id : Nat} (htarget : TargetOnly crypto.keyVersion t)
    (hnone : legacyRows crypto.keyVersion t = []) :
    Readable (svc.withKeys crypto.alone) t id p ↔ Readable (svc.withKeys crypto) t id p := by
  have hsame : ∀ row session, t.messages.find? id = some row →
      plainDecryptMessage (svc.withKeys crypto.alone) t session row =
        plainDecryptMessage (svc.withKeys crypto) t session row := by
    intro row session hrow
    apply plainDecrypt_alone htarget
    intro hscheme
    by_contra hversion
    have hselected := mem_legacyRows.mpr ⟨(KeyedTable.find?_eq_some hrow).1, hscheme, hversion⟩
    rw [hnone] at hselected
    exact absurd hselected List.not_mem_nil
  unfold Readable
  constructor
  · rintro ⟨row, session, hrow, hsession, hp⟩
    exact ⟨row, session, hrow, hsession, hsame row session hrow ▸ hp⟩
  · rintro ⟨row, session, hrow, hsession, hp⟩
    exact ⟨row, session, hrow, hsession, hsame row session hrow ▸ hp⟩

/-- TOTP secrets are read by the target key alone when all that were selected are rotated. -/
theorem totpReadable_alone (ha : r.Admissible crypto s) (htarget : TargetOnly crypto.keyVersion s)
    (hkeys : ∀ user ∈ s.users.rows, user.secretWrappedDek ≠ some "")
    (hsecrets : ∀ secret ∈ mfaRows s, ∃ p, secret.legacyText svc.gcm crypto = .ok p)
    (husers : t.users = s.users)
    (ht : t.secrets = (rotateSecret svc.gcm crypto r.secretNonces).rows s.secrets r.secrets) :
    TotpReadable (svc.withKeys crypto.alone) t id p ↔
      TotpReadable (svc.withKeys crypto) t id p := by
  have hsame : ∀ user secret', s.users.find? id = some user →
      t.secrets.find? (toLex (id, mfaField user)) = some secret' →
      plainDecryptUserSecret (svc.withKeys crypto.alone) user secret'.ciphertext secret'.nonce
          (mfaField user) =
        plainDecryptUserSecret (svc.withKeys crypto) user secret'.ciphertext secret'.nonce
          (mfaField user) := by
    intro user secret' huser hsecret'
    obtain ⟨hmem, hid⟩ := KeyedTable.find?_eq_some huser
    apply plainDecryptUserSecret_alone htarget hmem
    intro hlegacy
    -- an account without a key: its TOTP secret was selected, and has been rotated
    have hno : user.secretWrappedDek = none := by
      cases hkey : user.secretWrappedDek with
      | none => rfl
      | some value =>
          rw [hkey] at hlegacy
          have hvalue : value ≠ "" := fun h => hkeys user hmem (by rw [hkey, h])
          rw [truthy_some hvalue] at hlegacy
          cases hlegacy
    rw [ht, Rewrite.find?_rows] at hsecret'
    obtain ⟨secret, hsecret, rfl⟩ := Option.map_eq_some_iff.mp hsecret'
    obtain ⟨hstored, hkey⟩ := KeyedTable.find?_eq_some hsecret
    have hpair := Prod.mk.inj (toLex.injective hkey)
    have hfield : mfaField user = "mfa:" ++ secret.userId := by
      rw [hpair.1, ← hid]
      rfl
    have hselected : secret ∈ mfaRows s := by
      refine mem_mfaRows.mpr ⟨hstored, hpair.2.trans hfield, user, ?_, hno⟩
      rw [hpair.1]
      exact huser
    obtain ⟨p, hp⟩ := hsecrets secret hselected
    rw [if_pos (ha.secrets.mem_iff.mpr hselected)]
    have hrotated : RotatedSecret svc.gcm crypto secret
        ((rotateSecret svc.gcm crypto r.secretNonces).total secret) :=
      rotatedSecret_total ha.secretNonces secret
    have halone := hrotated.rotated p hp
    have htext := hrotated.text.trans hp
    unfold StoredSecret.legacyText at halone htext
    rw [hrotated.userId, ← hfield] at halone htext
    rw [halone, htext]
  unfold TotpReadable
  rw [husers]
  constructor
  · rintro ⟨user, secret, huser, hsecret, hp⟩
    exact ⟨user, secret, huser, hsecret, hsame user secret huser hsecret ▸ hp⟩
  · rintro ⟨user, secret, huser, hsecret, hp⟩
    exact ⟨user, secret, huser, hsecret, hsame user secret huser hsecret ▸ hp⟩

theorem users_of_run (hrun : (rotationSystem gcm crypto).Run s rs t) : t.users = s.users := by
  refine hrun.preserves (I := fun x => x.users = s.users) ?_ rfl
  rintro x r y hx ⟨ha, rfl⟩
  exact (rewritten_main ha).users.trans hx

/-- **After the status `0`** of a real run the target key alone reads what all keys have read before
the runs. -/
theorem alone_of_zero (hrun : (rotationSystem svc.gcm crypto).Run s rs t)
    (ha : r.Admissible crypto t) (hstop : r.stop = none) (hreal : r.dryRun = false)
    (hzero : (rotationMain svc.gcm crypto t r).2 = some 0)
    (hkeys : ∀ user ∈ s.users.rows, user.secretWrappedDek ≠ some "") :
    (∀ id p, Readable (svc.withKeys crypto.alone) (rotationMain svc.gcm crypto t r).1 id p ↔
      Readable (svc.withKeys crypto) s id p) ∧
    ∀ id p, TotpReadable (svc.withKeys crypto.alone) (rotationMain svc.gcm crypto t r).1 id p ↔
      TotpReadable (svc.withKeys crypto) s id p := by
  obtain ⟨hdeps, hmessages, hsecrets⟩ := (status_main ha hstop).mp hzero
  have hfinished : (rotationMain svc.gcm crypto t r).1 = { t with
      messages := (rotateMessage svc.gcm crypto r.nonces).rows t.messages r.rows
      secrets := (rotateSecret svc.gcm crypto r.secretNonces).rows t.secrets r.secrets } :=
    finished_main ha hstop hreal hdeps
  have htarget := targetOnly_of_dependencies hdeps
  -- every selected row could be decrypted, so none is selected again
  have hnone : legacyRows crypto.keyVersion (rotationMain svc.gcm crypto t r).1 = [] := by
    have hleft : legacyRows crypto.keyVersion (rotationMain svc.gcm crypto t r).1 =
        (legacyRows crypto.keyVersion t).filter fun row =>
          !(row.legacyText svc.gcm crypto).isOk :=
      legacyRows_finished ha (by rw [hfinished])
    rw [hleft, List.filter_eq_nil_iff]
    intro row hrow
    obtain ⟨p, hp⟩ := hmessages row hrow
    simp [hp, Except.isOk, Except.toBool]
  have hrewritten : Rewritten svc.gcm crypto t (rotationMain svc.gcm crypto t r).1 :=
    rewritten_main ha
  -- all the runs together keep the plaintexts, this last one included
  have hkept := (plaintextsKept_of_run hrun).trans (plaintextsKept_of_rewritten hrewritten)
  constructor
  · intro id p
    rw [← hkept.readable id p]
    exact readable_alone (targetOnly_congr hrewritten.epochs hrewritten.users htarget) hnone
  · intro id p
    rw [← hkept.totpReadable id p]
    rw [← users_of_run hrun] at hkeys
    exact totpReadable_alone ha htarget hkeys hsecrets hrewritten.users (by rw [hfinished])

/-! ### A rotation

`alice` has a message and a TOTP secret under the first key, and the second is the target. The
ciphertexts are those of AES-256-GCM at these arguments. -/

def rotatedKek : Bytes := List.replicate 32 6

def rotatedNonce : Bytes := List.replicate 12 7

def rotatedSecretNonce : Bytes := List.replicate 12 8

/-- The message under the first key. -/
def firstCiphertext : Bytes :=
  [135, 200, 242, 27, 161, 65, 170, 43, 203, 177, 24, 90, 46, 43, 129, 10, 3, 147]

def rotatedCiphertext : Bytes :=
  [202, 150, 135, 59, 23, 55, 42, 191, 155, 234, 221, 55, 207, 49, 201, 248, 22, 140]

def rotatedTotp : Bytes := [
  120, 147, 209, 162, 188, 127, 164, 127, 107, 167, 149, 93, 135, 146, 246, 69,
  171, 90, 97, 2, 127, 117, 173, 22, 66, 206, 228, 219, 192, 188, 125, 107]

def firstMessageGcm : AesGcm :=
  sampleBase.override sampleKek sampleNonce (legacyAad "s1" "user" 1) (utf8 "hi") firstCiphertext
    (by decide) (sampleBase_fresh (by decide))

theorem length_legacyTotp : 16 ≤ legacyTotp.length := by
  decide

theorem legacyTotp_fresh (k n a p : Bytes) : firstMessageGcm.encrypt k n a p ≠ legacyTotp :=
  AesGcm.encrypt_override_ne (by decide) (sampleBase_fresh (by decide) k n a p)

def firstSecretGcm : AesGcm :=
  firstMessageGcm.override sampleKek legacyNonce (fieldAad "mfa:alice" 1)
    (utf8 "JBSWY3DPEHPK3PXP") legacyTotp length_legacyTotp legacyTotp_fresh

def rotatedMessageGcm : AesGcm :=
  firstSecretGcm.override rotatedKek rotatedNonce (legacyAad "s1" "user" 2) (utf8 "hi")
    rotatedCiphertext (by decide) fun k n a p =>
      AesGcm.encrypt_override_ne (by decide)
        (AesGcm.encrypt_override_ne (by decide) (sampleBase_fresh (by decide) k n a p))

def rotationGcm : AesGcm :=
  rotatedMessageGcm.override rotatedKek rotatedSecretNonce (fieldAad "mfa:alice" 2)
    (utf8 "JBSWY3DPEHPK3PXP") rotatedTotp (by decide) fun k n a p =>
      AesGcm.encrypt_override_ne (by decide) (AesGcm.encrypt_override_ne (by decide)
        (AesGcm.encrypt_override_ne (by decide) (sampleBase_fresh (by decide) k n a p)))

/-- Both keys; the second is the target. -/
def rotationKeys : CryptoService where
  keys := [(1, sampleKek), (2, rotatedKek)]
  keyVersion := 2
  activeKey := rotatedKek
  active := by decide

def rotationService : EnvelopeCryptoService where
  provider := localAesKeyProvider rotationGcm sampleRing
  gcm := rotationGcm
  sha256 := legacySha
  legacyCrypto := none
  cacheTtlSeconds := 300
  maxCacheEntries := 2
  cacheEntries := Nat.two_pos

def firstMessage : SecureMessage where
  id := 1
  sessionId := "s1"
  role := "user"
  messageUuid := "m1"
  messageIndex := 1
  ciphertext := urlsafeB64encode firstCiphertext
  nonce := urlsafeB64encode sampleNonce
  keyVersion := 1
  cryptoEpoch := 0
  encryptionScheme := LEGACY_SCHEME

def rotationState : CryptoState where
  sessions := KeyedTable.empty.insertNew sampleSession
  epochs := .empty
  messages := KeyedTable.empty.insertNew firstMessage
  users := KeyedTable.empty.insertNew legacyAlice
  secrets := KeyedTable.empty.insertNew legacyRow
  cache := .empty
  clock := 0

/-- The first run commits after every message, and is stopped after the only one. -/
def stoppedRun : ToolRun where
  batch := 1
  dryRun := false
  rows := [firstMessage]
  secrets := [legacyRow]
  nonces _ := rotatedNonce
  secretNonces _ := rotatedSecretNonce
  stop := some (.messages 1)

/-- The second one finds no message, and goes on to the end. -/
def finishedRun : ToolRun := { stoppedRun with rows := [], stop := none }

def stoppedState : CryptoState := (rotationMain rotationGcm rotationKeys rotationState stoppedRun).1

theorem legacyRows_sample : legacyRows 2 rotationState = [firstMessage] := by
  rfl

theorem mfaRows_sample : mfaRows rotationState = [legacyRow] := by
  rfl

theorem firstMessage_text : firstMessage.legacyText rotationGcm rotationKeys = .ok "hi" := by
  decide +kernel

theorem legacyRow_text :
    legacyRow.legacyText rotationGcm rotationKeys = .ok "JBSWY3DPEHPK3PXP" := by
  decide +kernel

theorem stoppedRun_admissible : stoppedRun.Admissible rotationKeys rotationState where
  rows := by
    show [firstMessage].Perm (legacyRows 2 rotationState)
    rw [legacyRows_sample]
  secrets := by
    show [legacyRow].Perm (mfaRows rotationState)
    rw [mfaRows_sample]
  nonces _ := rfl
  secretNonces _ := rfl

theorem run_stoppedState :
    (rotationSystem rotationGcm rotationKeys).Run rotationState [stoppedRun] stoppedState :=
  .single ⟨stoppedRun_admissible, rfl⟩

theorem firstMessage_readable :
    Readable (rotationService.withKeys rotationKeys) rotationState 1 "hi" :=
  ⟨firstMessage, sampleSession, rfl, rfl, firstMessage_text⟩

theorem legacyRow_readable :
    TotpReadable (rotationService.withKeys rotationKeys) rotationState "alice"
      "JBSWY3DPEHPK3PXP" :=
  ⟨legacyAlice, legacyRow, rfl, rfl, legacyRow_text⟩

/-- **Runs keep the plaintexts.** Wherever the runs of the script are stopped, the application reads
the same afterwards, and what the keyring cannot decrypt is left as it was. -/
theorem rotation_keeps_plaintexts (svc : EnvelopeCryptoService) (crypto : CryptoService)
    {rs' : List ToolRun} (hrun : (rotationSystem svc.gcm crypto).Run s rs t)
    (hrun' : (rotationSystem svc.gcm crypto).Run s rs' u) :
    PlaintextsKept svc crypto s t ∧
    (∀ id p, Readable (svc.withKeys crypto) t id p ↔ Readable (svc.withKeys crypto) u id p) ∧
    ∀ id p, TotpReadable (svc.withKeys crypto) t id p ↔
      TotpReadable (svc.withKeys crypto) u id p := by
  have hkept := plaintextsKept_of_run hrun
  have hkept' := plaintextsKept_of_run hrun'
  refine ⟨hkept, ?_, ?_⟩
  · intro id p
    exact (hkept.readable id p).trans (hkept'.readable id p).symm
  · intro id p
    exact (hkept.totpReadable id p).trans (hkept'.totpReadable id p).symm

theorem rotation_keeps_plaintexts_sample :
    Readable (rotationService.withKeys rotationKeys) stoppedState 1 "hi" ∧
    TotpReadable (rotationService.withKeys rotationKeys) stoppedState "alice"
      "JBSWY3DPEHPK3PXP" := by
  obtain ⟨hkept, -, -⟩ :=
    rotation_keeps_plaintexts rotationService rotationKeys run_stoppedState .nil
  exact ⟨(hkept.readable _ _).mpr firstMessage_readable,
    (hkept.totpReadable _ _).mpr legacyRow_readable⟩

/-- **The exit status.** A finished run ends with `0` if and only if no data key is wrapped by
another key and all selected rows can be decrypted, in a dry run, which changes nothing, as in a
real one. After a real one the messages that are selected again are those that cannot be decrypted;
and if it ended with `0`, after whatever runs before it, the target key alone reads what all keys
have read. -/
theorem rotation_exit (svc : EnvelopeCryptoService) (crypto : CryptoService)
    (hrun : (rotationSystem svc.gcm crypto).Run s rs t) (ha : r.Admissible crypto t)
    (hstop : r.stop = none) :
    ((rotationMain svc.gcm crypto t r).2 = some 0 ↔
      unrotatedEnvelopeDependencies crypto.keyVersion t = 0 ∧
      (∀ row ∈ legacyRows crypto.keyVersion t, ∃ p, row.legacyText svc.gcm crypto = .ok p) ∧
      ∀ secret ∈ mfaRows t, ∃ p, secret.legacyText svc.gcm crypto = .ok p) ∧
    (r.dryRun = true → (rotationMain svc.gcm crypto t r).1 = t) ∧
    (r.dryRun = false → unrotatedEnvelopeDependencies crypto.keyVersion t = 0 →
      legacyRows crypto.keyVersion (rotationMain svc.gcm crypto t r).1 =
        (legacyRows crypto.keyVersion t).filter fun row => !(row.legacyText svc.gcm crypto).isOk) ∧
    (r.dryRun = false → (rotationMain svc.gcm crypto t r).2 = some 0 →
      (∀ user ∈ s.users.rows, user.secretWrappedDek ≠ some "") →
      (∀ id p, Readable (svc.withKeys crypto.alone) (rotationMain svc.gcm crypto t r).1 id p ↔
        Readable (svc.withKeys crypto) s id p) ∧
      ∀ id p, TotpReadable (svc.withKeys crypto.alone) (rotationMain svc.gcm crypto t r).1 id p ↔
        TotpReadable (svc.withKeys crypto) s id p) := by
  refine ⟨status_main ha hstop, ?_, ?_, ?_⟩
  · intro hdry
    unfold rotationMain rotateMfaSecrets rotateMessages
    rw [hstop, hdry]
    split <;> rfl
  · intro hreal hdeps
    apply legacyRows_finished ha
    rw [finished_main ha hstop hreal hdeps]
  · exact alone_of_zero hrun ha hstop

theorem legacyRows_stopped : legacyRows 2 stoppedState = [] := by
  decide +kernel

theorem mfaRows_stopped : mfaRows stoppedState = [legacyRow] := by
  decide +kernel

theorem finishedRun_admissible : finishedRun.Admissible rotationKeys stoppedState where
  rows := by
    show [].Perm (legacyRows 2 stoppedState)
    rw [legacyRows_stopped]
  secrets := by
    show [legacyRow].Perm (mfaRows stoppedState)
    rw [mfaRows_stopped]
  nonces _ := rfl
  secretNonces _ := rfl

theorem finishedRun_status :
    (rotationMain rotationGcm rotationKeys stoppedState finishedRun).2 = some 0 := by
  decide +kernel

theorem rotationState_keys : ∀ user ∈ rotationState.users.rows, user.secretWrappedDek ≠ some "" := by
  decide

theorem rotation_exit_sample :
    (rotationMain rotationGcm rotationKeys stoppedState finishedRun).2 = some 0 ∧
    Readable (rotationService.withKeys rotationKeys.alone)
      (rotationMain rotationGcm rotationKeys stoppedState finishedRun).1 1 "hi" ∧
    TotpReadable (rotationService.withKeys rotationKeys.alone)
      (rotationMain rotationGcm rotationKeys stoppedState finishedRun).1 "alice"
      "JBSWY3DPEHPK3PXP" := by
  obtain ⟨-, -, -, halone⟩ := rotation_exit rotationService rotationKeys run_stoppedState
    finishedRun_admissible rfl
  obtain ⟨hread, htotp⟩ := halone rfl finishedRun_status rotationState_keys
  exact ⟨finishedRun_status, (hread _ _).mpr firstMessage_readable,
    (htotp _ _).mpr legacyRow_readable⟩

/-! ### The whole rotation -/

/-- **Legacy rotation.** Runs that are stopped anywhere keep what the rows decrypt to, leave alone
what cannot be decrypted, count what of it they select, and come to the same plaintexts. After the
status `0` of a real run the target key alone reads what all keys have read. -/
theorem legacy_rotation (svc : EnvelopeCryptoService) (crypto : CryptoService) {rs' : List ToolRun}
    (hrun : (rotationSystem svc.gcm crypto).Run s rs t)
    (hrun' : (rotationSystem svc.gcm crypto).Run s rs' u) (ha : r.Admissible crypto t) :
    PlaintextsKept svc crypto s (rotationMain svc.gcm crypto t r).1 ∧
    ((∀ id p, Readable (svc.withKeys crypto) (rotationMain svc.gcm crypto t r).1 id p ↔
        Readable (svc.withKeys crypto) u id p) ∧
      ∀ id p, TotpReadable (svc.withKeys crypto) (rotationMain svc.gcm crypto t r).1 id p ↔
        TotpReadable (svc.withKeys crypto) u id p) ∧
    (rotateMessages svc.gcm crypto t r).2.2 = ((legacyRows crypto.keyVersion t).countP fun row =>
      !(row.legacyText svc.gcm crypto).isOk) ∧
    (rotateMfaSecrets svc.gcm crypto t r).2.2 = ((mfaRows t).countP fun secret =>
      !(secret.legacyText svc.gcm crypto).isOk) ∧
    (r.stop = none → r.dryRun = false → (rotationMain svc.gcm crypto t r).2 = some 0 →
      (∀ user ∈ s.users.rows, user.secretWrappedDek ≠ some "") →
      (∀ id p, Readable (svc.withKeys crypto.alone) (rotationMain svc.gcm crypto t r).1 id p ↔
        Readable (svc.withKeys crypto) s id p) ∧
      ∀ id p, TotpReadable (svc.withKeys crypto.alone) (rotationMain svc.gcm crypto t r).1 id p ↔
        TotpReadable (svc.withKeys crypto) s id p) := by
  have hkept := (plaintextsKept_of_run hrun).trans (plaintextsKept_of_rewritten (rewritten_main ha))
  have hkept' := plaintextsKept_of_run hrun'
  refine ⟨hkept, ⟨?_, ?_⟩, failed_rotateMessages ha, failed_secretLoop ha, alone_of_zero hrun ha⟩
  · intro id p
    exact (hkept.readable id p).trans (hkept'.readable id p).symm
  · intro id p
    exact (hkept.totpReadable id p).trans (hkept'.totpReadable id p).symm

/-- The second run goes on where the first one was stopped, and the first key is needed no more. -/
theorem legacy_rotation_sample :
    (rotateMfaSecrets rotationGcm rotationKeys stoppedState finishedRun).2.2 = 0 ∧
    Readable (rotationService.withKeys rotationKeys.alone)
      (rotationMain rotationGcm rotationKeys stoppedState finishedRun).1 1 "hi" ∧
    TotpReadable (rotationService.withKeys rotationKeys.alone)
      (rotationMain rotationGcm rotationKeys stoppedState finishedRun).1 "alice"
      "JBSWY3DPEHPK3PXP" := by
  obtain ⟨-, -, -, hfailed, halone⟩ := legacy_rotation rotationService rotationKeys
    run_stoppedState .nil finishedRun_admissible
  obtain ⟨hread, htotp⟩ := halone rfl rfl finishedRun_status rotationState_keys
  refine ⟨?_, (hread _ _).mpr firstMessage_readable, (htotp _ _).mpr legacyRow_readable⟩
  refine hfailed.trans ?_
  rw [mfaRows_stopped, countP_refused]
  exact fun row hrow => ⟨_, List.mem_singleton.mp hrow ▸ legacyRow_text⟩

/-- A run that finds nothing to rotate: a message of the target version that was changed, and a TOTP
secret under the first key whose account holds an empty wrapped key. -/
def strayState : CryptoState :=
  let alice := { legacyAlice with
    secretWrappedDek := some ""
    secretKekUri := some developmentKek
    secretKekVersion := some "2" }
  { rotationState with
    messages := KeyedTable.empty.insertNew { firstMessage with keyVersion := 2 }
    users := KeyedTable.empty.insertNew alice }

def strayRun : ToolRun := { finishedRun with secrets := [] }

/-- The run ends with `0`, but neither the message nor the TOTP secret is read by the target key
alone, though the whole keyring reads the secret. -/
theorem rotation_misses : strayRun.Admissible rotationKeys strayState ∧
    rotationMain rotationGcm rotationKeys strayState strayRun = (strayState, some 0) ∧
    (∀ p, ¬ Readable (rotationService.withKeys rotationKeys.alone) strayState 1 p) ∧
    TotpReadable (rotationService.withKeys rotationKeys) strayState "alice" "JBSWY3DPEHPK3PXP" ∧
    ∀ p, ¬ TotpReadable (rotationService.withKeys rotationKeys.alone) strayState "alice" p := by
  refine ⟨⟨.nil, .nil, fun _ => rfl, fun _ => rfl⟩, rfl, ?_, ⟨_, _, rfl, rfl, legacyRow_text⟩, ?_⟩
  · rintro p ⟨row, session, hrow, hsession, hp⟩
    obtain rfl := Option.some.inj (hrow.symm.trans rfl)
    obtain rfl := Option.some.inj (hsession.symm.trans rfl)
    have hrefused : (plainDecryptMessage (rotationService.withKeys rotationKeys.alone) strayState
        sampleSession { firstMessage with keyVersion := 2 }).isOk = false := by decide +kernel
    rw [hp] at hrefused
    cases hrefused
  · rintro p ⟨user, row, huser, hrow, hp⟩
    obtain rfl := Option.some.inj (huser.symm.trans rfl)
    obtain rfl := Option.some.inj (hrow.symm.trans rfl)
    have hrefused : (legacyRow.legacyText rotationGcm rotationKeys.alone).isOk = false := by
      decide +kernel
    have hp : legacyRow.legacyText rotationGcm rotationKeys.alone = .ok p := hp
    rw [hp] at hrefused
    cases hrefused

end Scap.Crypto
