import Mathlib.Data.Prod.Lex
import Scap.E2ee.Wire
import Scap.Lib.KeyedTable

/-!
# The relay's store

Accounts, conversations, memberships, devices, one-time prekeys and envelopes, and the helpers the
routes share: `requirePrivateMemberSession`, `requireOwnedSession` and the two loops that advance
the epoch of every conversation an account takes part in.

Each route is one transaction: it locks the account and then the conversation row, and the writes
on one conversation are serial. The bearer, the step-up and the proofs of possession and approval
are an argument `refusal`, the error of a refusal or `none`. Envelopes are kept in the order
`(created_at, id)` in which they are served; a serial number stands for the UUID of a prekey row,
which no query orders by. Three lists are not in the database: `handedOut` holds the keys that went
out in bundles, `sweptKeys` the keys whose rows a retention sweep has deleted, and `stored` every
envelope ever inserted.
-/

namespace Scap.E2ee

open Scap.Lib

/-! ## Rows -/

structure Settings where
  /-- `security_profile == "high"`. -/
  highSecurity : Bool
  maxSessionsPerUser : Nat
  maxMessagesPerSession : Nat
  secureRetentionDays : Nat
  confidentialRetentionDays : Nat
  deriving DecidableEq, Repr

def days (n : Nat) : Int := n * 86400000000

structure Account where
  id : String
  username : String
  isActive : Bool
  mfaEnabled : Bool
  deriving DecidableEq, Repr

inductive SecurityMode where
  | secure
  | confidential
  | privateE2ee
  deriving DecidableEq, Repr

structure ChatSession where
  id : String
  ownerId : String
  securityMode : SecurityMode
  dataClassification : String
  currentCryptoEpoch : Nat
  retentionExpiresAt : Int
  deriving DecidableEq, Repr

structure ConversationMember where
  sessionId : String
  userId : String
  joinedEpoch : Nat
  removedEpoch : Option Nat
  removedAt : Option Int
  deriving DecidableEq, Repr

/-- `uq_conversation_member`. -/
def ConversationMember.key (m : ConversationMember) : String ×ₗ String :=
  toLex (m.sessionId, m.userId)

theorem ConversationMember.key_eq {m : ConversationMember} {sessionId userId : String} :
    m.key = toLex (sessionId, userId) ↔ m.sessionId = sessionId ∧ m.userId = userId := by
  unfold ConversationMember.key
  rw [toLex.injective.eq_iff, Prod.mk.injEq]

structure E2eeDevice where
  id : String
  userId : String
  trusted : Bool
  createdAt : Int
  deriving DecidableEq, Repr

structure E2eePreKey where
  id : Nat
  deviceId : String
  publicKey : String
  consumedAt : Option Int
  createdAt : Int
  deriving DecidableEq, Repr

structure E2eeEnvelope where
  id : String
  sessionId : String
  senderUserId : String
  senderDeviceId : String
  recipientDeviceId : Option String
  protocol : String
  messageKind : MessageKind
  clientMessageId : String
  replayKey : String
  headerB64 : String
  ciphertextB64 : String
  groupEpoch : Nat
  createdAt : Int
  deriving DecidableEq, Repr

/-- `ORDER BY created_at, id`. -/
def E2eeEnvelope.cursor (e : E2eeEnvelope) : Int ×ₗ String := toLex (e.createdAt, e.id)

structure Relay where
  clock : Int
  users : KeyedTable Account.id
  sessions : KeyedTable ChatSession.id
  members : KeyedTable ConversationMember.key
  devices : KeyedTable E2eeDevice.id
  prekeys : List E2eePreKey
  nextPrekey : Nat
  envelopes : KeyedTable E2eeEnvelope.cursor
  /-- Every UUID drawn so far. -/
  drawn : List String
  handedOut : List (String × String)
  sweptKeys : List (String × String)
  stored : List E2eeEnvelope

def Relay.initial (clock : Int) : Relay :=
  ⟨clock, .empty, .empty, .empty, .empty, [], 0, .empty, [], [], [], []⟩

/-- An `HTTPException`. -/
structure HttpError where
  status : Nat
  detail : String
  deriving DecidableEq, Repr

abbrev Reply := Except HttpError

/-! ## Lookups -/

/-- The membership, if it has not been removed. -/
def Relay.activeMember? (s : Relay) (sessionId userId : String) : Option ConversationMember :=
  (s.members.find? (toLex (sessionId, userId))).filter fun m => m.removedAt = none

def Relay.trustedDevice? (s : Relay) (deviceId : String) : Option E2eeDevice :=
  (s.devices.find? deviceId).filter fun d => d.trusted

theorem activeMember?_eq_some {s : Relay} {sessionId userId : String} {m : ConversationMember} :
    s.activeMember? sessionId userId = some m ↔
      m ∈ s.members.rows ∧ m.sessionId = sessionId ∧ m.userId = userId ∧ m.removedAt = none := by
  simp only [Relay.activeMember?, Option.filter_eq_some_iff, KeyedTable.find?_iff,
    ConversationMember.key_eq, decide_eq_true_eq, and_assoc]

theorem trustedDevice?_eq_some {s : Relay} {deviceId : String} {d : E2eeDevice} :
    s.trustedDevice? deviceId = some d ↔
      d ∈ s.devices.rows ∧ d.id = deviceId ∧ d.trusted = true := by
  simp only [Relay.trustedDevice?, Option.filter_eq_some_iff, KeyedTable.find?_iff, and_assoc]

/-- `ORDER BY created_at LIMIT 1`; `tie` says which of several oldest rows the database returns. -/
def oldest {ρ : Type} (createdAt : ρ → Int) (rows : List ρ) (tie : Nat) : Option ρ :=
  let first := rows.filter fun r => rows.all fun x => createdAt r ≤ createdAt x
  first[tie % first.length]?

theorem mem_of_oldest {ρ : Type} {createdAt : ρ → Int} {rows : List ρ} {tie : Nat} {r : ρ}
    (h : oldest createdAt rows tie = some r) : r ∈ rows :=
  (List.mem_filter.mp (List.mem_of_getElem? h)).1

/-! ## Locks and guards -/

/-- `lock_request_mutation`. -/
def lockRequestMutation (s : Relay) (userId : String) (refusal : Option HttpError) :
    Reply Account :=
  match refusal, (s.users.find? userId).filter fun u => u.isActive with
  | some e, _ => .error e
  | none, none => .error ⟨401, "Tài khoản không hợp lệ."⟩
  | none, some u => .ok u

/-- `db.delete` of a conversation, with what the foreign keys cascade to. -/
def dropSession (s : Relay) (sessionId : String) : Relay :=
  { s with
    sessions := s.sessions.filter fun c => c.id ≠ sessionId
    members := s.members.filter fun m => m.sessionId ≠ sessionId
    envelopes := s.envelopes.filter fun e => e.sessionId ≠ sessionId }

/-- `session_is_sensitive`. -/
def sessionIsSensitive (c : ChatSession) : Bool :=
  c.securityMode = .confidential || c.securityMode = .privateE2ee ||
    c.dataClassification ∈ ["confidential", "highly_confidential", "e2ee_private"]

def sessionNotFound : HttpError := ⟨404, "Không tìm thấy phiên hội thoại."⟩
def e2eeSessionNotFound : HttpError := ⟨404, "Không tìm thấy phiên E2EE."⟩

variable (cfg : Settings)

/-- `require_private_member_session`, with the deletion of `reject_expired_session`. -/
def requirePrivateMemberSession (s : Relay) (userId sessionId : String)
    (refusal : Option HttpError) : Relay × Reply (ChatSession × ConversationMember) :=
  match lockRequestMutation s userId refusal with
  | .error e => (s, .error e)
  | .ok user =>
    match s.sessions.find? sessionId with
    | none => (s, .error e2eeSessionNotFound)
    | some row =>
      if row.securityMode ≠ .privateE2ee then (s, .error e2eeSessionNotFound)
      else if row.retentionExpiresAt ≤ s.clock then
        (dropSession s row.id, .error sessionNotFound)
      else match s.activeMember? sessionId userId with
        | none => (s, .error e2eeSessionNotFound)
        | some member =>
          if cfg.highSecurity = true ∧ user.mfaEnabled = false then
            (s, .error ⟨403, "Hội thoại E2EE bắt buộc tài khoản đã bật MFA."⟩)
          else (s, .ok (row, member))

/-- `require_owned_session` with `for_update`. -/
def requireOwnedSession (s : Relay) (userId sessionId : String) (refusal : Option HttpError) :
    Relay × Reply ChatSession :=
  match (s.sessions.find? sessionId).filter fun c => c.ownerId = userId with
  | none => (s, .error sessionNotFound)
  | some row =>
    match lockRequestMutation s userId refusal with
    | .error e => (s, .error e)
    | .ok user =>
      if row.retentionExpiresAt ≤ s.clock then (dropSession s row.id, .error sessionNotFound)
      else if cfg.highSecurity = true ∧ sessionIsSensitive row = true ∧ user.mfaEnabled = false then
        (s, .error ⟨403, "Hội thoại nhạy cảm bắt buộc tài khoản đã bật MFA."⟩)
      else (s, .ok row)

/-! ## Epochs -/

/-- `current_crypto_epoch += 1`. -/
def advanceEpoch (s : Relay) (sessionId : String) : Relay :=
  { s with
    sessions := s.sessions.modify
      (fun c => if c.id = sessionId then
        { c with currentCryptoEpoch := c.currentCryptoEpoch + 1 } else c)
      fun c => by split <;> rfl }

/-- A membership ends, with the epoch that its end begins. -/
def endMembership (s : Relay) (row : ChatSession) (userId : String) : Relay :=
  let s := advanceEpoch s row.id
  { s with
    members := s.members.modify
      (fun m => if m.key = toLex (row.id, userId) then
        { m with
          removedEpoch := some (row.currentCryptoEpoch + 1)
          removedAt := some s.clock } else m)
      fun m => by split <;> rfl }

/-- The private conversations an account is an active member of, in the order of their ids. -/
def activePrivateSessions (s : Relay) (userId : String) : List String :=
  (s.members.rows.filter fun m =>
    m.userId = userId && m.removedAt = none &&
      (s.sessions.find? m.sessionId).any fun c => c.securityMode = .privateE2ee).map (·.sessionId)

/-- One turn of the two loops: `act` on the conversation if the account is still an active
member. -/
def ifStillActive (act : Relay → ChatSession → Relay) (userId : String) (s : Relay)
    (sessionId : String) : Relay :=
  match s.sessions.find? sessionId, s.activeMember? sessionId userId with
  | some row, some _ => if row.securityMode = .privateE2ee then act s row else s
  | _, _ => s

/-- `revoke_active_e2ee_memberships`. -/
def revokeActiveE2eeMemberships (s : Relay) (userId : String) : Relay :=
  (activePrivateSessions s userId).foldl
    (ifStillActive (fun s row => endMembership s row userId) userId) s

/-- The loop of `revoke_e2ee_device`. -/
def advanceActiveEpochs (s : Relay) (userId : String) : Relay :=
  (activePrivateSessions s userId).foldl
    (ifStillActive (fun s row => advanceEpoch s row.id) userId) s

end Scap.E2ee
