import Scap.E2ee.Canonical
import Scap.Lib.Durable
import Scap.Py.Dict

/-!
# The vault of a client

What the two clients of a device keep: `PrivateClient` its Olm account, ratchets, pinned peers and
one pending ciphertext, `MlsClient` the state of the native helper, groups, pinned offers and the
pending operation. Both change `vault.state` in memory and save all of it at once.

`Lib` is the code they call and that is not theirs: vodozemac, the native helper, and the encodings,
digests and signatures that are pure functions. Ratchets, accounts and native states are values of
its types, as in their pickled form. Nothing is assumed of `Lib` here.

Every outbox entry and every upload carries the `Use` of a ratchet or of the native state that its
ciphertext comes from. It is only for what is said about runs.
-/

namespace Scap.Client

open Scap.Lib Scap.Py Scap.E2ee

/-! ## Data from outside -/

instance : Coe String Str := ⟨Str.ofString⟩

/-- What an operation can raise; `value` are `ValueError`, `KeyError`, `TypeError`, `OSError` and
`httpx.HTTPError`. -/
inductive Err where
  | client (message : String)
  | persistence
  | value
  | other
  deriving DecidableEq, Repr

/-- What `json.loads` returns. A number that is not an `int` has its exact value, if it is finite. -/
inductive Json where
  | null
  | bool (b : Bool)
  | int (n : Int)
  | float (value : Option Rat)
  | str (s : Str)
  | list (vs : List Json)
  | dict (fs : List (Str × Json))

namespace Json

/-- An object that is written down. -/
def obj (fs : List (String × Json)) : Json := .dict (fs.map fun f => (Str.ofString f.1, f.2))

/-- `value.get(key)` of an object; `none` also for what is none. -/
def get? : Json → String → Option Json
  | .dict fs, key => fs.lookup (Str.ofString key)
  | _, _ => none

/-- A field that holds a string. -/
def getStr? (j : Json) (key : String) : Option Str :=
  match j.get? key with
  | some (.str s) => some s
  | _ => none

/-- The items of a list; iterating over anything else fails. -/
def items : Json → Except Err (List Json)
  | .list vs => .ok vs
  | _ => .error .value

/-- The keys of an object. -/
def keys : Json → List Str
  | .dict fs => fs.map Prod.fst
  | _ => []

/-- `value == s`. -/
def eqStr : Json → Str → Bool
  | .str t, s => t = s
  | _, _ => false

/-- `value == n`: `bool` and `float` compare as numbers. -/
def eqInt : Json → Int → Bool
  | .bool b, n => (if b then 1 else 0) = n
  | .int m, n => m = n
  | .float (some q), n => q = n
  | _, _ => false

/-- `bool(value)`. -/
def truthy : Json → Bool
  | .null => false
  | .bool b => b
  | .int n => n ≠ 0
  | .float (some q) => q ≠ 0
  | .float none => true
  | .str s => s ≠ []
  | .list vs => !vs.isEmpty
  | .dict fs => !fs.isEmpty

/-- The object that `canonical_json_bytes` is given. -/
def toObject : Json → Object
  | .null => .none
  | .bool b => .bool b
  | .int n => .int n
  | .float _ => .float
  | .str s => .str s
  | .list vs => .list (vs.attach.map fun v => v.1.toObject)
  | .dict fs => .mapping (fs.attach.map fun f => (.str f.1.1, f.1.2.toObject))
termination_by j => sizeOf j
decreasing_by
  · have := List.sizeOf_lt_of_mem v.2
    simp only [list.sizeOf_spec]
    omega
  · have := List.sizeOf_lt_of_mem f.2
    obtain ⟨⟨k, x⟩, hmem⟩ := f
    simp only [dict.sizeOf_spec, Prod.mk.sizeOf_spec] at *
    omega

end Json

/-- What the two `receive` catch. -/
def Err.caught : Err → Bool
  | .other => false
  | _ => true

/-- `value[key]`. -/
def Json.sub (j : Json) (key : String) : Except Err Json := ((j.get? key).map .ok).getD (.error .value)

/-- `str(uuid.UUID(value)) == value`. -/
def isUuid (value : Str) : Bool :=
  value.length = 36 && (value.zipIdx.all fun (c, i) =>
    if i = 8 ∨ i = 13 ∨ i = 18 ∨ i = 23 then c.val = 45
    else (48 ≤ c.val && c.val ≤ 57) || (97 ≤ c.val && c.val ≤ 102))

/-! ## The code that is called -/

/-- The operations of the native helper that the client asks for. -/
inductive NativeOp where
  | keyPackage
  | create (groupId : Str)
  | add (groupId aad keyPackage : Str)
  | remove (groupId aad targetDevice : Str)
  | send (groupId aad plaintext : Str)
  | join (groupId message : Str)
  | receive (groupId message : Str)
  deriving DecidableEq

/-- What the native helper prints; a field it leaves out is `none`. -/
structure NativeResult (Native : Type) where
  state : Option Native
  signingKey : Option Str
  keyPackage : Option Str
  commit : Option Str
  welcome : Option Str
  message : Option Str
  welcomeSender : Option Str
  senderDevice : Option Str
  aad : Option Str
  kind : Option Str
  plaintext : Option Str
  epoch : Option Int
  members : Option (List (Str × Str))
  active : Bool

structure Lib where
  Account : Type
  Ratchet : Type
  Native : Type
  Key : Type
  Message : Type
  PreKey : Type
  Seed : Type
  -- vodozemac
  newAccount : Seed → Account
  identity : Account → Str
  curve : Account → ByteArray
  sign : Account → ByteArray → Str
  oneTimeKeys : Account → List Str
  generateOneTimeKeys : Account → Nat → Seed → Account
  markKeysAsPublished : Account → Account
  nativeKey : Json → Except Err Key
  fromParts : Int → ByteArray → Except Err Message
  toPreKey : Message → Option PreKey
  createOutbound : Account → Key → Key → Seed → Ratchet
  createInbound : Account → Key → PreKey → Except Err (Account × Ratchet × ByteArray)
  sessionId : Ratchet → Str
  encrypt : Ratchet → ByteArray → Seed → Ratchet × Int × ByteArray
  decrypt : Ratchet → Message → Except Err (Ratchet × ByteArray)
  -- the native helper: the device, its state, what it is asked for, and what it draws
  native : Str → Option Native → NativeOp → Seed → Except Err (NativeResult Native)
  inspect : Str → Except Err (Str × Str)
  -- encodings, digests, signatures, times
  nfc : Str → Str
  loads : ByteArray → Except Err Json
  dumps : Json → ByteArray
  encodeUtf8 : Str → Except Err ByteArray
  decodeUtf8 : ByteArray → Except Err Str
  encodeBase64url : ByteArray → Str
  /-- `max_bytes`, or `exact_bytes` if the flag is set. -/
  decodeBase64Strict : Json → Bool → Nat → Except Err ByteArray
  fingerprint : Str → Except Err Str
  possessionMessage : Str → Str → Str → Json → Except Err ByteArray
  approvalMessage : Str → Str → Str → Str → Str → Except Err ByteArray
  isFullFingerprint : Str → Bool
  verifyEd25519 : Str → Str → ByteArray → Bool
  sha256 : ByteArray → Str
  fromIsoFormat : Str → Except Err Int

variable (L : Lib)

/-- `canonical_json_bytes`. -/
def Lib.canonical (payload : Json) (schema : String) : Except Err ByteArray :=
  match canonicalJsonBytes L.nfc payload.toObject (.str schema) (.int 1) with
  | .ok bytes => .ok bytes
  | .error _ => .error .value

/-- What a ciphertext was made from: a ratchet of the vault, or the native state. -/
inductive Slot where
  | ratchet (id : Str)
  | native
  deriving DecidableEq

inductive KeyState where
  | ratchet (r : L.Ratchet)
  | native (n : L.Native)

/-- A ratchet or the native state is used: `content` is what was encrypted. -/
structure Use where
  slot : Slot
  before : KeyState L
  after : KeyState L
  content : ByteArray

/-! ## The vault -/

/-- A pinned device, with the last bundle that its account offered for it. -/
structure Peer where
  deviceId : Str
  identityKey : Str
  signedPrekey : Str
  oneTimePrekey : Option Json
  userId : Option Json
  username : Str
  fingerprint : Str

/-- The upload of a ciphertext. -/
structure Envelope where
  protocol : Str
  recipient : Str
  recipientDeviceId : Option Str
  epoch : Json
  clientMessageId : Str
  senderDeviceId : Str
  messageKind : Str
  header : Str
  ciphertext : Str

/-- `state["outbox"]`. -/
structure Pending where
  conversation : Str
  envelope : Envelope
  use : Use L

/-- A signed KeyPackage. -/
structure Offer where
  server : Str
  username : Str
  accountId : Str
  deviceId : Str
  keyPackage : Str
  signingKey : Str
  signature : Str

structure Group where
  epoch : Int
  ownerId : Json
  ownerDevice : Str

structure Membership where
  username : Str
  accountId : Str
  remove : Bool

/-- `data["outbox"]`. -/
structure MlsPending where
  conversation : Str
  epoch : Int
  membership : Option Membership
  envelopes : List Envelope
  use : Use L

/-- `state["mls"]`. A cursor is the time and the identifier of a row. -/
structure MlsData where
  native : Option L.Native
  keyPackage : Str
  signingKey : Str
  pins : Dict Str Offer
  groups : Dict Str Group
  cursors : Dict Str (Str × Str)
  outbox : Option (MlsPending L)
  own : Dict Str (Dict Str Str)

/-- `vault.state`. -/
structure Vault where
  binding : Option (Str × Str)
  account : Option L.Account
  deviceId : Option Str
  peers : Dict Str Peer
  sessions : Dict Str L.Ratchet
  active : Dict Str Str
  cursors : Dict Str (Str × Str)
  outbox : Option (Pending L)
  registrationOffer : Option Json
  prekeyUpload : Option (List Str)
  mls : Option (MlsData L)

def Vault.blank : Vault L :=
  ⟨none, none, none, .empty, .empty, .empty, .empty, none, none, none, none⟩

/-- The memory of a client process; `ready` once `PrivateClient` is there. -/
structure Mem where
  state : Vault L
  account : Option L.Account
  deviceId : Str
  accountId : Str
  username : Str
  ready : Bool
  failed : Bool
  lastReceiveError : Option String
  mlsLastReceiveError : Option String

/-- A process that has opened the vault. -/
def Mem.load (state : Vault L) : Mem L := ⟨state, none, [], [], [], false, false, none, none⟩

/-! ## Requests -/

inductive Request where
  | me
  | stepUp (body : Json)
  | challenge
  | devices
  | registerDevice (body : Json)
  | prekeys (deviceId : Str) (body : Json)
  | bundle (username : Str) (deviceId : Option Str)
  | createSession (title : Str)
  | addMember (conversation username : Str)
  | removeMember (conversation username : Str)
  | members (conversation : Str)
  | state (conversation : Str)
  | envelopes (conversation deviceId : Str) (cursor : Option (Str × Str))
  | envelope (conversation : Str) (envelope : Envelope) (use : Use L)

inductive Body where
  | empty
  | invalid
  | json (j : Json)

/-- What comes back of a request; `failed` is `httpx.HTTPError`. -/
inductive Answer where
  | failed
  | response (status : Nat) (body : Body)

/-- `response.json()`. -/
def Body.parse : Body → Except Err Json
  | .json j => .ok j
  | _ => .error .value

/-- What an operation returns. -/
structure Received where
  senderDevice : Str
  text : Str
  deriving DecidableEq

inductive Out where
  | nothing
  | json (j : Json)
  | conversation (id : Str)
  | delivered (duplicate : Bool)
  | messages (ms : List Received)

/-! ## What every operation is made of -/

abbrev M (α : Type) := Proc (Mem L) (Request L) Answer Err α

variable {L}

open Proc

/-- `if refused: raise e`. -/
def raiseIf (refused : Prop) [Decidable refused] (e : Err) : M L Unit :=
  if refused then raise e else pure ()

/-- `_require_healthy`; a vault that is closed has no process. -/
def requireHealthy : M L Unit := do
  raiseIf (← memory).failed .persistence

/-- `PrivateClient._save` with `EncryptedVault.save`. -/
def save : M L Unit := do
  requireHealthy
  modify fun m => { m with state := { m.state with account := m.account } }
  Proc.save (fun m => { m with failed := true }) .persistence

/-- `_request_response`. -/
def requestResponse (q : Request L) : M L (Nat × Body) := do
  requireHealthy
  match ← ask q with
  | .failed => raise .value
  | .response status body => pure (status, body)

def request (q : Request L) : M L Json := do
  let (status, body) ← requestResponse q
  if 400 ≤ status then
    raise (.client
      s!"SCAP request rejected (HTTP {status}); authenticate/step up or check policy.")
  else match body with
    | .empty => pure .null
    | .invalid => raise .value
    | .json j => pure j

/-- `self.account`, of a client that is there. -/
def theAccount : M L L.Account := do
  let m ← memory
  match m.account with
  | some account => if m.ready then pure account else raise .other
  | none => raise .other

def setState (f : Vault L → Vault L) : M L Unit := modify fun m => { m with state := f m.state }

end Scap.Client
