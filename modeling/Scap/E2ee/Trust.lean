import Scap.E2ee.Routes

/-!
# Device challenges, approvals and registration

`Registry` is the relay with what the registration of a device checks: the challenges, and of each
device its public keys and who approved it. `registerDevice` and `updatePrekeys` make these checks
and then take the relay's own step.

Signatures are ideal: `signatures` lists the triples of a public key, a message and a signature that
the holders of private keys have produced, and a signature verifies exactly if it is listed. Nobody
is asked who signs what. The list is not in the database. `hash` is the SHA-256 of a challenge and
`fingerprint` that of an identity key.
-/

namespace Scap.E2ee

open Scap.Lib Scap.Py

/-! ## Signed statements -/

/-- `canonical_json_bytes`. The members are given in the order of their keys. -/
def canonicalJson (schema : String) (payload : List (String × Value)) : String :=
  Value.dumps .utf8 (.obj
    [("payload", .obj payload), ("schema", .str schema), ("version", .int 1)])

theorem canonicalJson_inj {schema schema' : String} {payload payload' : List (String × Value)} :
    canonicalJson schema payload = canonicalJson schema' payload' ↔
      schema = schema' ∧ payload = payload' := by
  unfold canonicalJson
  rw [Value.dumps_injective.eq_iff]
  simp [and_comm]

def deviceApprovalSchema : String := "scap.e2ee.device-approval"
def devicePossessionSchema : String := "scap.e2ee.device-possession"
def prekeyUpdateSchema : String := "scap.e2ee.prekey-update"

/-- `_canonical_public_key`. -/
def canonicalPublicKey (field key : String) : Except String String :=
  (decodeBase64Strict field key 1 none (some 32)).map (·.canonical)

/-- `_canonical_challenge`. -/
def canonicalChallenge (field challenge : String) : Except String String :=
  (decodeBase64Strict field challenge 16 (some 64) none).map (·.canonical)

/-- `build_device_possession_message`. -/
def buildDevicePossessionMessage (accountId deviceId identityPublicKey challenge : String) :
    Except String String := do
  let publicKey ← canonicalPublicKey "identity_public_key" identityPublicKey
  let accountId ← identifier "account_id" accountId
  let challenge ← canonicalChallenge "challenge" challenge
  let deviceId ← identifier "device_id" deviceId
  return canonicalJson devicePossessionSchema [("account_id", .str accountId),
    ("challenge", .str challenge), ("device_id", .str deviceId),
    ("identity_public_key", .str publicKey)]

/-- `build_device_approval_message`. -/
def buildDeviceApprovalMessage (accountId approverDeviceId newDeviceId newDevicePublicKey
    approvalChallenge : String) : Except String String := do
  let newPublicKey ← canonicalPublicKey "new_device_public_key" newDevicePublicKey
  let accountId ← identifier "account_id" accountId
  let challenge ← canonicalChallenge "approval_challenge" approvalChallenge
  let approverDeviceId ← identifier "approver_device_id" approverDeviceId
  let newDeviceId ← identifier "new_device_id" newDeviceId
  return canonicalJson deviceApprovalSchema [("account_id", .str accountId),
    ("approval_challenge", .str challenge), ("approver_device_id", .str approverDeviceId),
    ("new_device_id", .str newDeviceId), ("new_device_public_key", .str newPublicKey)]

/-- The statement of an update of prekeys. -/
def prekeyUpdateStatement (accountId deviceId challenge : String) (oneTimePrekeys : List String)
    (signedPrekey signedPrekeySignature : Option String) : String :=
  let optional (value : Option String) : Value := value.elim .null .str
  canonicalJson prekeyUpdateSchema [("account_id", .str accountId), ("challenge", .str challenge),
    ("device_id", .str deviceId), ("one_time_prekeys", .arr (oneTimePrekeys.map .str)),
    ("signed_prekey", optional signedPrekey),
    ("signed_prekey_signature", optional signedPrekeySignature)]

/-- What is signed: a statement, or the 32 bytes of a prekey, which are fewer than any statement
has. -/
inductive Message where
  | statement (text : String)
  | prekey (canonical : String)
  deriving DecidableEq, Repr

/-! ## The registry -/

/-- The columns of `e2ee_devices` that the relay does not route by. -/
structure DeviceKeys where
  deviceId : String
  userId : String
  identityKey : String
  signedPrekey : String
  signedPrekeySignature : String
  fingerprint : String
  approvedBy : Option String
  deriving DecidableEq, Repr

structure DeviceChallenge where
  id : String
  userId : String
  challengeHash : String
  expiresAt : Int
  consumedAt : Option Int
  deriving DecidableEq, Repr

structure Registry where
  relay : Relay
  deviceKeys : KeyedTable DeviceKeys.deviceId
  challenges : KeyedTable DeviceChallenge.id
  signatures : List (String × Message × String)

/-- `verify_ed25519_signature`. -/
def verifySignature (s : Registry) (publicKey signature : String) (m : Message) : Bool :=
  match canonicalPublicKey "public_key" publicKey,
    decodeBase64Strict "signature" signature 1 none (some 64) with
  | .ok key, .ok decoded => (key, m, decoded.canonical) ∈ s.signatures
  | _, _ => false

def verifyStatement (s : Registry) (publicKey signature : String)
    (statement : Except String String) : Bool :=
  match statement with
  | .ok text => verifySignature s publicKey signature (.statement text)
  | .error _ => false

/-- `verify_device_approval`. -/
def verifyDeviceApproval (s : Registry) (approverPublicKey signature accountId approverDeviceId
    newDeviceId newDevicePublicKey approvalChallenge : String) : Bool :=
  verifyStatement s approverPublicKey signature
    (buildDeviceApprovalMessage accountId approverDeviceId newDeviceId newDevicePublicKey
      approvalChallenge)

/-- `verify_device_possession`. -/
def verifyDevicePossession (s : Registry) (publicKey signature accountId deviceId challenge :
    String) : Bool :=
  verifyStatement s publicKey signature
    (buildDevicePossessionMessage accountId deviceId publicKey challenge)

variable (hash fingerprint : String → String)

/-! ## Challenges -/

/-- `create_e2ee_device_challenge`: the challenge is drawn, and lives for five minutes. -/
def createDeviceChallenge (s : Registry) (userId : String) (refusal : Option HttpError)
    (id raw : String) : Registry × Reply String :=
  match lockRequestMutation s.relay userId refusal with
  | .error e => (s, .error e)
  | .ok user =>
    match decodeBase64Strict "challenge" raw 32 (some 32) none with
    | .error text => (s, .error ⟨500, text⟩)
    | .ok bytes =>
      let challenge : DeviceChallenge :=
        ⟨id, user.id, hash bytes.canonical, s.relay.clock + 300000000, none⟩
      ({ s with
        relay := { s.relay with drawn := id :: s.relay.drawn }
        challenges := s.challenges.insertNew challenge }, .ok raw)

/-- The challenge, if the account may redeem it now. -/
def redeemable (s : Registry) (userId challengeId challengeHash : String) :
    Option DeviceChallenge :=
  (s.challenges.find? challengeId).filter fun c =>
    c.userId = userId && c.challengeHash = challengeHash && c.consumedAt = none &&
      s.relay.clock < c.expiresAt

/-- `consumed_at = now`. -/
def burn (s : Registry) (challengeId : String) : Registry :=
  { s with
    challenges := s.challenges.modify
      (fun c => if c.id = challengeId then { c with consumedAt := some s.relay.clock } else c)
      fun c => by split <;> rfl }

/-! ## Registration -/

/-- `E2eeDeviceRegisterRequest`. -/
structure DeviceRegister where
  challengeId : String
  challenge : String
  deviceId : String
  identityKey : String
  possessionSignature : String
  signedPrekey : String
  signedPrekeySignature : String
  oneTimePrekeys : List String
  approverDeviceId : Option String
  approvalSignature : Option String
  deriving DecidableEq, Repr

def deviceExists : HttpError := ⟨409, "Thiết bị đã tồn tại."⟩
def keyOrDeviceExists : HttpError := ⟨409, "Khóa hoặc thiết bị đã tồn tại."⟩
def badKeyProof : HttpError := ⟨422, "Bằng chứng khóa công khai không hợp lệ."⟩
def approvalRequired : HttpError :=
  ⟨403, "Thiết bị mới phải được một thiết bị đã tin cậy phê duyệt."⟩
def badApproval : HttpError := ⟨403, "Chữ ký phê duyệt không hợp lệ."⟩

/-- The trusted devices of an account. -/
def trustedDevices (s : Relay) (userId : String) : List E2eeDevice :=
  s.devices.rows.filter fun d => d.userId = userId && d.trusted

/-- The approver of a new device: none is needed where no device is trusted. -/
def approver (s : Registry) (userId : String) (p : DeviceRegister) (identityKey : String) :
    Reply (Option String) :=
  if trustedDevices s.relay userId = [] then .ok none
  else
    match p.approverDeviceId.filter (· ≠ ""), p.approvalSignature.filter (· ≠ "") with
    | some approverId, some signature =>
      match (trustedDevices s.relay userId).find? fun d => d.id = approverId,
        s.deviceKeys.find? approverId with
      | some device, some keys =>
        if verifyDeviceApproval s keys.identityKey signature userId device.id p.deviceId identityKey
            p.challenge then .ok (some device.id)
        else .error badApproval
      | _, _ => .error badApproval
    | _, _ => .error approvalRequired

/-- The checks of `register_e2ee_device` after the challenge is burnt, in its order. -/
def checkRegistration (s : Registry) (userId : String) (p : DeviceRegister) : Reply DeviceKeys :=
  if (s.relay.devices.find? p.deviceId).isSome then .error deviceExists
  else
    match canonicalPublicKey "identity_key" p.identityKey with
    | .error text => .error ⟨422, text⟩
    | .ok identityKey =>
      match canonicalPublicKey "signed_prekey" p.signedPrekey with
      | .error text => .error ⟨422, text⟩
      | .ok signedPrekey =>
        match canonicalPrekeys p.oneTimePrekeys with
        | .error text => .error ⟨422, text⟩
        | .ok prekeys =>
          let possession := verifyDevicePossession s p.identityKey p.possessionSignature userId
            p.deviceId p.challenge
          let signed := verifySignature s identityKey p.signedPrekeySignature (.prekey signedPrekey)
          if possession = false ∨ signed = false ∨ ¬ prekeys.Nodup then .error badKeyProof
          else
            match approver s userId p identityKey with
            | .error e => .error e
            | .ok approvedBy =>
              let keys : DeviceKeys := ⟨p.deviceId, userId, identityKey, signedPrekey,
                p.signedPrekeySignature, fingerprint identityKey, approvedBy⟩
              -- `uq_e2ee_device_fingerprint`
              if s.deviceKeys.rows.any fun k =>
                  k.userId = userId && k.fingerprint = keys.fingerprint then
                .error keyOrDeviceExists
              else .ok keys

/-- `register_e2ee_device`. A refusal after the challenge is burnt leaves it burnt. -/
def registerDevice (s : Registry) (userId : String) (p : DeviceRegister)
    (refusal : Option HttpError) : Registry × Reply E2eeDevice :=
  match lockRequestMutation s.relay userId refusal with
  | .error e => (s, .error e)
  | .ok user =>
    match canonicalChallenge "challenge" p.challenge with
    | .error text => (s, .error ⟨422, text⟩)
    | .ok challenge =>
      match redeemable s user.id p.challengeId (hash challenge) with
      | none => (s, .error ⟨409, "Challenge không hợp lệ hoặc đã hết hạn."⟩)
      | some c =>
        let s := burn s c.id
        match checkRegistration fingerprint s user.id p with
        | .error e => (s, .error e)
        | .ok keys =>
          match registerE2eeDevice s.relay user.id p.deviceId p.oneTimePrekeys none with
          | (_, .error e) => (s, .error e)
          | (relay, .ok device) =>
            ({ s with
              relay := relay
              deviceKeys := s.deviceKeys.insertNew keys }, .ok device)

/-! ## Prekeys -/

/-- `E2eePreKeyUpdateRequest`. -/
structure PrekeyUpdate where
  challengeId : String
  challenge : String
  oneTimePrekeys : List String
  signedPrekey : Option String
  signedPrekeySignature : Option String
  updateSignature : String
  deriving DecidableEq, Repr

def badPrekeys : HttpError := ⟨422, "Prekey công khai không hợp lệ."⟩

/-- The checks of `update_e2ee_prekeys` that read the registry: the new signed prekey, if any. -/
def checkPrekeyUpdate (s : Registry) (userId : String) (keys : DeviceKeys) (p : PrekeyUpdate) :
    Reply (Option String) :=
  let statement := prekeyUpdateStatement userId keys.deviceId p.challenge p.oneTimePrekeys
    p.signedPrekey p.signedPrekeySignature
  if verifySignature s keys.identityKey p.updateSignature (.statement statement) = false then
    .error ⟨422, "Chữ ký cập nhật prekey không hợp lệ."⟩
  else
    match canonicalPrekeys p.oneTimePrekeys, p.signedPrekey.mapM (canonicalPublicKey
        "signed_prekey") with
    | .ok oneTime, .ok signed =>
      if ¬ oneTime.Nodup ∨ s.relay.prekeys.any (fun k =>
          k.deviceId = keys.deviceId && k.publicKey ∈ oneTime) then .error prekeyReused
      else if signed.any fun key => verifySignature s keys.identityKey
          (p.signedPrekeySignature.getD "") (.prekey key) = false then
        .error ⟨422, "Chữ ký signed prekey không hợp lệ."⟩
      else .ok signed
    | _, _ => .error badPrekeys

/-- The columns of a new signed prekey. -/
def setSignedPrekey (s : Registry) (deviceId : String) (signed : Option String)
    (signature : Option String) : Registry :=
  match signed with
  | none => s
  | some key =>
    { s with
      deviceKeys := s.deviceKeys.modify
        (fun k => if k.deviceId = deviceId then
          { k with signedPrekey := key, signedPrekeySignature := signature.getD "" } else k)
        fun k => by split <;> rfl }

/-- `update_e2ee_prekeys`: how many keys were added. -/
def updatePrekeys (s : Registry) (userId deviceId : String) (p : PrekeyUpdate)
    (refusal : Option HttpError) : Registry × Reply Nat :=
  match lockRequestMutation s.relay userId refusal with
  | .error e => (s, .error e)
  | .ok user =>
    match (s.relay.trustedDevice? deviceId).filter fun d => d.userId = user.id,
      s.deviceKeys.find? deviceId with
    | some _, some keys =>
      match decodeBase64Strict "challenge" p.challenge 1 none (some 32) with
      | .error text => (s, .error ⟨422, text⟩)
      | .ok challenge =>
        match redeemable s user.id p.challengeId (hash challenge.canonical) with
        | none => (s, .error ⟨409, "Challenge không hợp lệ hoặc đã sử dụng."⟩)
        | some c =>
          let s := burn s c.id
          match checkPrekeyUpdate s user.id keys p with
          | .error e => (s, .error e)
          | .ok signed =>
            match updateE2eePrekeys s.relay user.id deviceId p.oneTimePrekeys none with
            | (_, .error e) => (s, .error e)
            | (relay, .ok added) =>
              (setSignedPrekey { s with relay := relay } deviceId signed p.signedPrekeySignature,
                .ok added)
    | _, _ => (s, .error ⟨404, "Không tìm thấy thiết bị tin cậy."⟩)

/-! ## The system -/

/-- What can happen next. `relay` is any step of the relay but for the two with a challenge. -/
inductive TrustAction where
  | relay (a : Action)
  /-- The holder of a private key signs a message. -/
  | sign (publicKey : String) (m : Message) (signature : String)
  | challenge (userId : String) (refusal : Option HttpError) (id raw : String)
  | register (userId : String) (p : DeviceRegister) (refusal : Option HttpError)
  | updatePrekeys (userId deviceId : String) (p : PrekeyUpdate) (refusal : Option HttpError)
  /-- The challenge sweep of `enforce_retention`. -/
  | sweepChallenges (challengeIds : List String)
  deriving DecidableEq, Repr

/-- The relay's actions that take a challenge. -/
def takesChallenge : Action → Bool
  | .registerDevice .. => true
  | .updatePrekeys .. => true
  | _ => false

variable (cfg : Settings) (digest : ReplayPayload → String)

/-- The challenge that an action redeems with success. -/
def redeems (s : Registry) : TrustAction → Option String
  | .register userId p refusal =>
      match (registerDevice hash fingerprint s userId p refusal).2 with
      | .ok _ => some p.challengeId
      | .error _ => none
  | .updatePrekeys userId deviceId p refusal =>
      match (updatePrekeys hash s userId deviceId p refusal).2 with
      | .ok _ => some p.challengeId
      | .error _ => none
  | _ => none

/-- The registry after an action. -/
def stepRegistry (s : Registry) : TrustAction → Option Registry
  | .relay a =>
      if takesChallenge a then none
      else (stepRelay cfg digest s.relay a).map fun relay => { s with relay := relay }
  | .sign publicKey m signature =>
      some { s with signatures := (publicKey, m, signature) :: s.signatures }
  | .challenge userId refusal id raw =>
      if id ∈ s.relay.drawn then none
      else some (createDeviceChallenge hash s userId refusal id raw).1
  | .register userId p refusal => some (registerDevice hash fingerprint s userId p refusal).1
  | .updatePrekeys userId deviceId p refusal =>
      some (updatePrekeys hash s userId deviceId p refusal).1
  | .sweepChallenges challengeIds =>
      some { s with
        challenges := s.challenges.filter fun c =>
          ¬ (c.id ∈ challengeIds ∧ c.expiresAt ≤ s.relay.clock) }

def Registry.initial (clock : Int) : Registry := ⟨Relay.initial clock, .empty, .empty, []⟩

/-- The registry from an empty database on. -/
def registrySystem : System Registry TrustAction :=
  System.ofFun (fun s => ∃ clock, s = Registry.initial clock)
    (stepRegistry hash fingerprint cfg digest)

end Scap.E2ee
