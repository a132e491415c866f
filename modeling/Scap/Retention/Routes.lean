import Scap.Lib.Run
import Scap.Retention.Model
import Scap.Sessions.Policy

/-!
# Conversations between two sweeps

The routes that create, label, use and delete a conversation, over the same tables as the sweep: a
conversation may have no deadline here, as after an upgrade, and every access then treats it as
expired. Each route is one transaction; `utcnow k` is what a request's `k`-th look at the clock
returns, and nothing is assumed about how these readings are ordered.

The bearer, the step-up and the locks are an argument `refusal`, and so are the outcome of
`ensure_session_key`, of a chat exchange and of the checks of an envelope, which `Scap.Sessions` and
`Scap.E2ee` follow in detail.
-/

namespace Scap.Retention

open Scap.Lib Scap.Py
open Scap.E2ee (HttpError Reply SecurityMode)
open Scap.Sessions (PolicyPayload DataClass)

structure Settings where
  /-- `security_profile == "high"`. -/
  highSecurity : Bool
  maxSessionsPerUser : Nat
  maxMessagesPerSession : Nat
  secureRetentionDays : Int
  confidentialRetentionDays : Int
  deriving DecidableEq, Repr

structure ConversationMember (ι : Type*) where
  sessionId : ι
  userId : ι
  removed : Bool
  deriving DecidableEq

/-- The tables, with the memberships of private conversations, and every id that `uuid4` gave. -/
structure Server (ι : Type*) where
  db : Database ι
  members : List (ConversationMember ι)
  drawn : List ι

/-- Who asks, and what a request finds out besides the tables. -/
structure Caller (ι : Type*) where
  userId : ι
  mfaEnabled : Bool
  refusal : Option HttpError
  utcnow : Nat → Int

/-- What `ensure_session_key` comes to. -/
inductive KeyOutcome where
  | found
  | created
  | failed
  deriving DecidableEq, Repr

/-- The value of the column. -/
def modeValue : SecurityMode → String
  | .secure => "secure"
  | .confidential => "confidential"
  | .privateE2ee => "private_e2ee"

section Routes

variable {ι : Type*} [DecidableEq ι] (cfg : Settings)

def sessionNotFound : HttpError := ⟨404, "Không tìm thấy phiên hội thoại."⟩
def e2eeSessionNotFound : HttpError := ⟨404, "Không tìm thấy phiên E2EE."⟩

/-- `retained_session_clause`, and the test of `reject_expired_session`. -/
def retained (row : ChatSession ι) (now : Int) : Bool :=
  match row.retentionExpiresAt with
  | none => false
  | some expiresAt => now < expiresAt

/-- `session_is_sensitive`. -/
def sessionIsSensitive (row : ChatSession ι) : Bool :=
  row.securityMode ∈ [some "confidential", some "private_e2ee"] ||
    row.dataClassification ∈ ["confidential", "highly_confidential", "e2ee_private"]

/-- `db.delete` of a conversation, with what the foreign keys cascade to. -/
def dropSession (s : Server ι) (id : ι) : Server ι :=
  { s with
    db := { s.db with
      sessions := s.db.sessions.pop id
      messages := s.db.messages.filter fun x => x ≠ id
      envelopes := s.db.envelopes.filter fun x => x ≠ id
      keyEpochs := s.db.keyEpochs.filter fun x => x ≠ id }
    members := s.members.filter fun m => m.sessionId ≠ id }

/-- The row of a conversation, written back. -/
def storeSession (s : Server ι) (id : ι) (row : ChatSession ι) : Server ι :=
  { s with db := { s.db with sessions := s.db.sessions.set id row } }

/-- `reject_expired_session`, whose readings of the clock begin at the `k`-th. -/
def rejectExpiredSession (s : Server ι) (c : Caller ι) (id : ι) (row : ChatSession ι) (k : Nat) :
    Server ι × Reply Unit :=
  if retained row (c.utcnow k) then (s, .ok ())
  else
    match c.refusal with
    | some e => (s, .error e)
    | none =>
      if retained row (c.utcnow (k + 1)) then (s, .ok ())
      else (dropSession s id, .error sessionNotFound)

/-- `require_owned_session`. With `for_update` the row is looked at again under its lock. -/
def requireOwnedSession (s : Server ι) (c : Caller ι) (id : ι) (forUpdate : Bool) :
    Server ι × Reply (ChatSession ι) :=
  match (s.db.sessions.get id).filter fun row => row.ownerId = c.userId with
  | none => (s, .error sessionNotFound)
  | some row =>
    match rejectExpiredSession s c id row 0 with
    | (s, .error e) => (s, .error e)
    | (s, .ok ()) =>
      match c.refusal with
      | some e => (s, .error e)
      | none =>
        match if forUpdate then rejectExpiredSession s c id row 2 else (s, .ok ()) with
        | (s, .error e) => (s, .error e)
        | (s, .ok ()) =>
          if cfg.highSecurity = true ∧ sessionIsSensitive row = true ∧ c.mfaEnabled = false then
            (s, .error ⟨403, "Hội thoại nhạy cảm bắt buộc tài khoản đã bật MFA."⟩)
          else (s, .ok row)

/-- `require_private_member_session`. -/
def requirePrivateMemberSession (s : Server ι) (c : Caller ι) (id : ι) :
    Server ι × Reply (ChatSession ι) :=
  match c.refusal with
  | some e => (s, .error e)
  | none =>
    match s.db.sessions.get id with
    | none => (s, .error e2eeSessionNotFound)
    | some row =>
      if row.securityMode ≠ some "private_e2ee" then (s, .error e2eeSessionNotFound)
      else
        match rejectExpiredSession s c id row 0 with
        | (s, .error e) => (s, .error e)
        | (s, .ok ()) =>
          if s.members.any fun m => m.sessionId = id && m.userId = c.userId && !m.removed then
            if cfg.highSecurity = true ∧ c.mfaEnabled = false then
              (s, .error ⟨403, "Hội thoại E2EE bắt buộc tài khoản đã bật MFA."⟩)
            else (s, .ok row)
          else (s, .error e2eeSessionNotFound)

/-- `ensure_session_key`: a new epoch changes the row's counter. -/
def ensureSessionKey (s : Server ι) (id : ι) (row : ChatSession ι) (key : KeyOutcome) :
    Reply (Server ι) :=
  if row.securityMode = some "private_e2ee" then
    .error ⟨500, "Private E2EE sessions cannot have server-side DEKs."⟩
  else
    match key with
    | .found => .ok s
    | .created =>
      let s := storeSession s id { row with currentCryptoEpoch := row.currentCryptoEpoch + 1 }
      .ok { s with db := { s.db with keyEpochs := s.db.keyEpochs ++ [id] } }
    | .failed => .error ⟨500, "Unable to create a protected conversation key."⟩

/-- The retention period of a new policy. -/
def Settings.retentionDays (mode : SecurityMode) : Int :=
  if mode = .confidential ∨ mode = .privateE2ee then cfg.confidentialRetentionDays
  else cfg.secureRetentionDays

/-- `create_session_endpoint`. -/
def createSession (s : Server ι) (c : Caller ι) (payload : PolicyPayload) (key : KeyOutcome)
    (id : ι) : Server ι × Reply (ChatSession ι) :=
  match payload.validate with
  | .error text => (s, .error ⟨422, text⟩)
  | .ok (mode, d) =>
    match c.refusal with
    | some e => (s, .error e)
    | none =>
      if cfg.highSecurity = true ∧ mode ≠ .secure ∧ c.mfaEnabled = false then
        (s, .error ⟨403, "Chế độ hội thoại nhạy cảm bắt buộc tài khoản đã bật MFA."⟩)
      else
        let count := s.db.sessions.rows.countP fun r =>
          r.2.ownerId = c.userId && retained r.2 (c.utcnow 0)
        if cfg.maxSessionsPerUser ≤ count then
          (s, .error ⟨409, "Đã đạt giới hạn " ++ toString cfg.maxSessionsPerUser ++
            " phiên hội thoại. Vui lòng xóa bớt phiên cũ."⟩)
        else
          let row : ChatSession ι :=
            { ownerId := c.userId
              securityMode := some (modeValue mode)
              dataClassification := d.value
              currentCryptoEpoch := if mode = .privateE2ee then 1 else 0
              retentionExpiresAt := some (c.utcnow 1 + days (cfg.retentionDays mode))
              createdAt := some (c.utcnow 2) }
          let added := { storeSession s id row with drawn := id :: s.drawn }
          if mode = .privateE2ee then
            ({ added with members := ⟨id, c.userId, false⟩ :: added.members }, .ok row)
          else
            match ensureSessionKey added id row key with
            | .error _ => (s, .error ⟨503, "Không thể khởi tạo khóa hội thoại an toàn."⟩)
            | .ok s => (s, .ok row)

/-- The new trust boundary of a conversation without content. -/
def switchMode (s : Server ι) (c : Caller ι) (id : ι) (row : ChatSession ι) (mode : SecurityMode)
    (key : KeyOutcome) : Reply (Server ι) :=
  if row.securityMode = some (modeValue mode) then .ok s
  else if mode = .privateE2ee then
    let s := storeSession s id { row with currentCryptoEpoch := 1 }
    let s := { s with db := { s.db with keyEpochs := s.db.keyEpochs.filter fun x => x ≠ id } }
    if s.members.any fun m => m.sessionId = id && m.userId = c.userId then .ok s
    else .ok { s with members := ⟨id, c.userId, false⟩ :: s.members }
  else if row.securityMode = some "private_e2ee" then
    let row := { row with currentCryptoEpoch := 0, securityMode := some (modeValue mode) }
    let s := { storeSession s id row with members := s.members.filter fun m => m.sessionId ≠ id }
    ensureSessionKey s id row key
  else .ok s

/-- `row.retention_expires_at` after a policy edit. -/
def tightened (deadline : Option Int) (policyDeadline : Int) : Option Int :=
  match deadline with
  | some deadline => some (min deadline policyDeadline)
  | none => some policyDeadline

/-- The row under its new labels. -/
def relabel (row : ChatSession ι) (mode : SecurityMode) (d : DataClass) (policyDeadline : Int) :
    ChatSession ι :=
  { row with
    securityMode := some (modeValue mode)
    dataClassification := d.value
    retentionExpiresAt := tightened row.retentionExpiresAt policyDeadline }

/-- `update_session_security`. -/
def updateSessionSecurity (s : Server ι) (c : Caller ι) (id : ι) (payload : PolicyPayload)
    (key : KeyOutcome) : Server ι × Reply (ChatSession ι) :=
  match payload.validate with
  | .error text => (s, .error ⟨422, text⟩)
  | .ok (mode, d) =>
    match requireOwnedSession cfg s c id true with
    | (s, .error e) => (s, .error e)
    | (s, .ok row) =>
      if cfg.highSecurity = true ∧ mode ≠ .secure ∧ c.mfaEnabled = false then
        (s, .error ⟨403, "Chế độ hội thoại nhạy cảm bắt buộc tài khoản đã bật MFA."⟩)
      else if row.securityMode ≠ some (modeValue mode) ∧
          (id ∈ s.db.messages ∨ id ∈ s.db.envelopes) then
        (s, .error ⟨409, "Không thể đổi trust boundary sau khi hội thoại đã có dữ liệu."⟩)
      else
        match switchMode s c id row mode key with
        | .error e => (s, .error e)
        | .ok switched =>
          match switched.db.sessions.get id with
          | none => (s, .error sessionNotFound)
          | some row =>
            let row := relabel row mode d (c.utcnow 4 + days (cfg.retentionDays mode))
            (storeSession switched id row, .ok row)

/-- `delete_session_endpoint`. -/
def deleteSession (s : Server ι) (c : Caller ι) (id : ι) : Server ι × Reply Unit :=
  match requireOwnedSession cfg s c id true with
  | (s, .error e) => (s, .error e)
  | (s, .ok _) => (dropSession s id, .ok ())

/-- `send_message_endpoint`: the two rows of an exchange, unless the chat fails. -/
def sendMessage (s : Server ι) (c : Caller ι) (id : ι) (answer : Reply Unit) (key : KeyOutcome) :
    Server ι × Reply Unit :=
  match requireOwnedSession cfg s c id true with
  | (s, .error e) => (s, .error e)
  | (s, .ok row) =>
    if cfg.maxMessagesPerSession < s.db.messages.count id + 2 then
      (s, .error ⟨409, "Phiên đã đạt giới hạn tin nhắn."⟩)
    else if row.securityMode = some "private_e2ee" then
      (s, .error ⟨403, "Private E2EE không cho phép máy chủ nhận plaintext hoặc gọi AI tự động."⟩)
    else
      match answer with
      | .error e => (s, .error e)
      | .ok () =>
        match ensureSessionKey s id row key with
        | .error e => (s, .error e)
        | .ok s => ({ s with db := { s.db with messages := s.db.messages ++ [id, id] } }, .ok ())

/-- `send_e2ee_envelope`: the row, unless a check of the envelope fails. -/
def sendE2eeEnvelope (s : Server ι) (c : Caller ι) (id : ι) (check : Reply Unit) :
    Server ι × Reply Unit :=
  match requirePrivateMemberSession cfg s c id with
  | (s, .error e) => (s, .error e)
  | (s, .ok _) =>
    match check with
    | .error e => (s, .error e)
    | .ok () => ({ s with db := { s.db with envelopes := s.db.envelopes ++ [id] } }, .ok ())

/-- A route that reads an owned conversation. -/
def readSession (s : Server ι) (c : Caller ι) (id : ι) : Server ι × Reply (ChatSession ι) :=
  requireOwnedSession cfg s c id false

/-- A route that reads a private conversation as a member. -/
def readPrivateSession (s : Server ι) (c : Caller ι) (id : ι) :
    Server ι × Reply (ChatSession ι) :=
  requirePrivateMemberSession cfg s c id

end Routes

/-! ## The system -/

section System

variable {ι : Type*} [LinearOrder ι] (nullsFirst : Bool) (cfg : Settings)

inductive Action (ι : Type*) where
  | createSession (c : Caller ι) (payload : PolicyPayload) (key : KeyOutcome) (id : ι)
  | updateSecurity (c : Caller ι) (id : ι) (payload : PolicyPayload) (key : KeyOutcome)
  | deleteSession (c : Caller ι) (id : ι)
  | sendMessage (c : Caller ι) (id : ι) (answer : Reply Unit) (key : KeyOutcome)
  | sendEnvelope (c : Caller ι) (id : ι) (check : Reply Unit)
  | readSession (c : Caller ι) (id : ι)
  | readPrivateSession (c : Caller ι) (id : ι)
  | sweep (a : Sweep) (dryRun : Bool)

/-- The tables after a sweep; the memberships of the conversations that it deletes go with them. -/
def sweep (s : Server ι) (a : Sweep) (dryRun : Bool) : Server ι :=
  match enforceRetention nullsFirst a dryRun s.db with
  | .error _ => s
  | .ok (db, _) =>
    { s with
      db := db
      members := s.members.filter fun m => (db.sessions.get m.sessionId).isSome }

local instance lawfulBEq_ids : LawfulBEq ι := instLawfulBEq

/-- The server after an action. -/
def stepServer (s : Server ι) : Action ι → Option (Server ι)
  | .createSession c payload key id =>
      if id ∈ s.drawn then none else some (createSession cfg s c payload key id).1
  | .updateSecurity c id payload key => some (updateSessionSecurity cfg s c id payload key).1
  | .deleteSession c id => some (deleteSession cfg s c id).1
  | .sendMessage c id answer key => some (sendMessage cfg s c id answer key).1
  | .sendEnvelope c id check => some (sendE2eeEnvelope cfg s c id check).1
  | .readSession c id => some (readSession cfg s c id).1
  | .readPrivateSession c id => some (readPrivateSession cfg s c id).1
  | .sweep a dryRun => some (sweep nullsFirst s a dryRun)

/-- Any database, such as an upgrade leaves it, whose ids are among those drawn. -/
def serverSystem : System (Server ι) (Action ι) :=
  System.ofFun (fun s => ∀ id ∈ s.db.sessions.rows.map Prod.fst, id ∈ s.drawn)
    (stepServer nullsFirst cfg)

end System

end Scap.Retention
