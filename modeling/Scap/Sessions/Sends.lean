import Scap.Sessions.Freeze

/-!
# Sends

A send holds the locks of its account and its conversation from the quota check to the commit, and
the reply of the AI service is awaited in between. `Service` is the store with the sends under way;
everything else the server does goes on meanwhile, as long as it needs none of the rows they lock.

`created` is the order in which the messages were created, with the send that created each: what the
autoincrement `id` of `SecureMessage` shows.
-/

namespace Scap.Sessions

open Scap.Lib Scap.E2ee

variable (cfg : Settings) (digest : ReplayPayload → String)

/-- A send that has passed the quota check. -/
structure Sending where
  request : Nat
  userId : String
  row : ChatSession
  /-- What `next_message_index` returned, once there is a reply. -/
  firstIndex : Option Nat
  deriving DecidableEq, Repr

structure Created where
  request : Nat
  sessionId : String
  role : Role
  messageIndex : Nat
  deriving DecidableEq, Repr

structure Service where
  store : Store
  sending : KeyedTable Sending.request
  created : List Created
  requests : Nat

/-- No send under way holds the account or the conversation. -/
def Service.free (s : Service) (userId sessionId : String) : Bool :=
  s.sending.rows.all fun p => p.userId ≠ userId && p.row.id ≠ sessionId

/-- The store after a transaction of something else; messages go with their conversation. -/
def Service.moved (s : Service) (store : Store) : Service :=
  { s with
    store := store
    created := s.created.filter fun c => (store.relay.sessions.find? c.sessionId).isSome }

/-- A send ends, and its transaction with it. -/
def Service.drop (s : Service) (request : Nat) : Service :=
  { s with sending := s.sending.filter fun p => p.request ≠ request }

def messageConflict : HttpError := ⟨500, "UNIQUE(session_id, message_index)"⟩

/-- The part of `ChatService.chat` from `encrypt_message` to `db.flush()`. -/
def storeExchange (s : Store) (row : ChatSession) (firstIndex : Nat)
    (generated : Option WrappedDek) (sealedUser sealedAssistant : Option String) : Reply Store :=
  match encryptMessage s row generated sealedUser with
  | .error e => .error e
  | .ok (s, row, userCiphertext) =>
    match encryptMessage s row generated sealedAssistant with
    | .error e => .error e
    | .ok (s, row', assistantCiphertext) =>
      match s.messages.insert? ⟨row.id, .user, firstIndex, userCiphertext,
          row.currentCryptoEpoch, .envelopeV1⟩ with
      | none => .error messageConflict
      | some messages =>
        match messages.insert? ⟨row.id, .assistant, firstIndex + 1, assistantCiphertext,
            row'.currentCryptoEpoch, .envelopeV1⟩ with
        | none => .error messageConflict
        | some messages => .ok { s with messages := messages }

/-! ## Steps -/

/-- What can happen next. `fail` is any other end of a send: a lost connection, a crash of the
process, a commit that is refused. -/
inductive SendAction where
  | begin (userId sessionId : String) (refusal : Option HttpError) (limited : Bool)
  | answered (request : Nat) (answer : Reply Unit)
  | commit (request : Nat) (generated : Option WrappedDek)
      (sealedUser sealedAssistant : Option String)
  | fail (request : Nat)
  | other (a : Action)

/-- `send_message_endpoint` up to the call of `ChatService.chat`. -/
def beginSend (s : Service) (userId sessionId : String) (refusal : Option HttpError)
    (limited : Bool) : Service :=
  match requireOwnedSession cfg s.store.relay userId sessionId refusal with
  | (relay, .error _) => s.moved (cascade s.store relay)
  | (_, .ok row) =>
    let existing := s.store.messages.rows.countP fun m => m.sessionId = row.id
    if cfg.maxMessagesPerSession < existing + 2 then s
    else if limited then s
    else
      { s with
        sending := s.sending.insertNew ⟨s.requests, userId, row, none⟩
        requests := s.requests + 1 }

/-- `first_index` of the send `request`. -/
def Sending.allocate (request firstIndex : Nat) (p : Sending) : Sending :=
  if p.request = request then { p with firstIndex := some firstIndex } else p

@[simp] theorem Sending.allocate_row (request firstIndex : Nat) (p : Sending) :
    (p.allocate request firstIndex).row = p.row := by
  unfold allocate
  split <;> rfl

@[simp] theorem Sending.allocate_request (request firstIndex : Nat) (p : Sending) :
    (p.allocate request firstIndex).request = p.request := by
  unfold allocate
  split <;> rfl

/-- The AI service answers or refuses; `next_message_index` is read only now. -/
def answeredSend (s : Service) (p : Sending) : Reply Unit → Service
  | .error _ => s.drop p.request
  | .ok () =>
    if p.row.securityMode = .privateE2ee then s.drop p.request
    else
      let firstIndex := nextMessageIndex s.store p.row.id
      { s with
        sending := s.sending.modify (·.allocate p.request firstIndex)
          fun q => q.allocate_request p.request firstIndex }

/-- The two rows and the commit. -/
def commitSend (s : Service) (p : Sending) (firstIndex : Nat) (generated : Option WrappedDek)
    (sealedUser sealedAssistant : Option String) : Service :=
  match storeExchange s.store p.row firstIndex generated sealedUser sealedAssistant with
  | .error _ => s.drop p.request
  | .ok store =>
    { s.drop p.request with
      store := store
      created := s.created ++ [⟨p.request, p.row.id, .user, firstIndex⟩,
        ⟨p.request, p.row.id, .assistant, firstIndex + 1⟩] }

/-- Whether a step leaves the rows alone that a send under way has locked. -/
def Service.leavesLocked (s : Service) (store : Store) : Bool :=
  s.sending.rows.all fun p =>
    store.relay.sessions.find? p.row.id = s.store.relay.sessions.find? p.row.id &&
      store.relay.users.find? p.userId = s.store.relay.users.find? p.userId

def sendsMessage : Action → Bool
  | .sendMessage .. => true
  | _ => false

/-- The service after an action; `none` where it has to wait for a lock. -/
def stepService (s : Service) : SendAction → Option Service
  | .begin userId sessionId refusal limited =>
      if s.free userId sessionId then some (beginSend cfg s userId sessionId refusal limited)
      else none
  | .answered request answer =>
      match s.sending.find? request with
      | some p => if p.firstIndex = none then some (answeredSend s p answer) else none
      | none => none
  | .commit request generated sealedUser sealedAssistant =>
      match s.sending.find? request with
      | some p =>
          p.firstIndex.map fun n => commitSend s p n generated sealedUser sealedAssistant
      | none => none
  | .fail request => some (s.drop request)
  | .other a =>
      if sendsMessage a then none
      else
        match stepStore cfg digest s.store a with
        | some store => if s.leavesLocked store then some (s.moved store) else none
        | none => none

/-- The service on a database that has accounts and conversations but no message. -/
structure Fresh (s : Service) : Prop where
  store : Upgraded s.store
  messages : s.store.messages.rows = []
  sending : s.sending.rows = []
  created : s.created = []

def sendSystem : System Service SendAction := System.ofFun Fresh (stepService cfg digest)

end Scap.Sessions
