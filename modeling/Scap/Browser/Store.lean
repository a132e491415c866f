import Mathlib.Data.Rat.Floor
import Scap.Lib.Links
import Scap.Py.Base64
import Scap.Py.Hmac
import Scap.Py.Object
import Scap.Py.OrderedDict

/-!
# `BrowserSessionStore`

Tickets that hand a login over to a browser, the sessions of browsers, the successors of access
tokens that were rotated, and device tokens that wait for a handover. Every method runs under the
lock of the store, so a call is one step.

SHA-256 is a parameter. Clock readings and expiry times are rational numbers, and the arithmetic on
them is exact. Access tokens are ASCII, where `compare_digest` is equality.
-/

namespace Scap.Browser

open Scap.Py Scap.Lib

/-- `_Session`. -/
structure Session where
  token : Str
  expiresAt : ℚ
  deviceToken : Option Str
  deriving DecidableEq

/-- `_Ticket`. -/
structure Ticket where
  session : Session
  expiresAt : ℚ
  deriving DecidableEq

/-- What the store is built with. -/
structure Settings where
  sha256 : List UInt8 → Digest
  maxTickets : Nat
  maxSessions : Nat
  ticketTtl : ℚ
  maxTickets_pos : 0 < maxTickets
  maxSessions_pos : 0 < maxSessions
  ticketTtl_pos : 0 < ticketTtl
  ticketTtl_le : ticketTtl ≤ 60

structure Store where
  tickets : OrderedDict String Ticket
  sessions : OrderedDict String Session
  successors : OrderedDict String Session
  pendingDevices : OrderedDict String Session

/-- What a method raises. -/
inductive Failure where
  | valueError
  | capacity
  deriving DecidableEq, Repr

def Store.empty : Store := ⟨.empty, .empty, .empty, .empty⟩

/-! ## Keys -/

/-- `s.encode("utf-8", "replace")`: a surrogate becomes a question mark. -/
def encodeReplace (s : Str) : List UInt8 :=
  s.flatMap fun c => utf8 (String.singleton (c.char?.getD '?'))

variable (cfg : Settings)

/-- `_token_key`. -/
def tokenKey (token : Str) : String := hexdigest (cfg.sha256 (encodeReplace token))

/-- A character of `[A-Za-z0-9_-]`. -/
def isHandleChar (c : CodePoint) : Bool :=
  (0x41 ≤ c.val && c.val ≤ 0x5a) || (0x61 ≤ c.val && c.val ≤ 0x7a) ||
    (0x30 ≤ c.val && c.val ≤ 0x39) || c.val = 0x5f || c.val = 0x2d

/-- `_HANDLE_RE.fullmatch`. -/
def isHandle (s : Str) : Bool := s.length = 43 && s.all isHandleChar

/-- What `secrets.token_urlsafe(32)` yields. -/
abbrev Handle := { s : Str // isHandle s = true }

/-- The key of a handle that is well formed. -/
def handleKey (handle : Handle) : String := hexdigest (cfg.sha256 (encodeReplace handle.val))

/-- `_key`. -/
def key (handle : Option Str) : Option String :=
  handle.bind fun s => if h : isHandle s = true then some (handleKey cfg ⟨s, h⟩) else none

@[simp] theorem key_handle (handle : Handle) :
    key cfg (some handle.val) = some (handleKey cfg handle) := by
  simp [key, handle.property]

/-! ## Methods -/

namespace Store

/-- `_prune`. -/
def prune (s : Store) (now : ℚ) : Store where
  tickets := s.tickets.filter fun r => now < r.2.expiresAt
  sessions := s.sessions.filter fun r => now < r.2.expiresAt
  successors := s.successors.filter fun r => now < r.2.expiresAt
  pendingDevices := s.pendingDevices.filter fun r => now < r.2.expiresAt

/-- The ticket of `issue`, with the device token that waits for the login. -/
def handOut (s : Store) (now : ℚ) (token : Str) (expiresAt : ℚ) (ticket : Handle) : Store :=
  let device := (s.pendingDevices.get (tokenKey cfg token)).map Session.token
  { s with
    pendingDevices := s.pendingDevices.pop (tokenKey cfg token)
    tickets := s.tickets.set (handleKey cfg ticket)
      ⟨⟨token, expiresAt, device⟩, min (now + cfg.ticketTtl) expiresAt⟩ }

/-- `issue`, when `token_urlsafe` yields `ticket`. -/
def issue (s : Store) (now : ℚ) (token : Str) (expiresAt : ℚ) (ticket : Handle) :
    Store × Except Failure Handle :=
  let s := s.prune now
  if token = [] ∨ 16384 < token.length ∨ expiresAt ≤ now then (s, .error .valueError)
  else if cfg.maxTickets ≤ s.tickets.len then (s, .error .capacity)
  else (s.handOut cfg now token expiresAt ticket, .ok ticket)

/-- `remember_device`. -/
def rememberDevice (s : Store) (now : ℚ) (accessToken deviceToken : Str) : Store :=
  let s := s.prune now
  if cfg.maxTickets ≤ s.pendingDevices.len then s
  else
    let row : Session := ⟨deviceToken, now + cfg.ticketTtl, none⟩
    { s with pendingDevices := s.pendingDevices.set (tokenKey cfg accessToken) row }

/-- The token after a token, as the store knows it. -/
def successor (s : Store) (token : Str) : Option Str :=
  (s.successors.get (tokenKey cfg token)).map Session.token

/-- `current_token`. -/
def currentToken (s : Store) (now : ℚ) (token : Str) : Store × Str :=
  let s := s.prune now
  (s, Links.follow (s.successor cfg) 16 token)

/-- The row of a ticket, with its key. -/
def ticketRow (s : Store) (ticket : Str) : Option (String × Ticket) :=
  (key cfg (some ticket)).bind fun k => (s.tickets.get k).map fun row => (k, row)

/-- The row of a session, with its key. -/
def sessionRow (s : Store) (cookie : Option Str) : Option (String × Session) :=
  (key cfg cookie).bind fun k => (s.sessions.get k).map fun row => (k, row)

/-- The session of `attach`, in the place of the one that the browser had. -/
def openSession (s : Store) (k : String) (row : Ticket) (previous : Option (String × Session))
    (handle : Handle) : Store :=
  let sessions := match previous with
    | some p => s.sessions.pop p.1
    | none => s.sessions
  { s with
    tickets := s.tickets.pop k
    sessions := sessions.set (handleKey cfg handle) row.session }

/-- `attach`, when `token_urlsafe` yields `handle`. -/
def attach (s : Store) (now : ℚ) (ticket : Str) (previousCookie : Option Str) (handle : Handle) :
    Store × Except Failure Handle :=
  let s := s.prune now
  match s.ticketRow cfg ticket with
  | none => (s, .error .valueError)
  | some (k, row) =>
    let previous := s.sessionRow cfg previousCookie
    if cfg.maxSessions ≤ s.sessions.len ∧ previous = none then (s, .error .capacity)
    else (s.openSession cfg k row previous handle, .ok handle)

/-- `take_device_token`. -/
def takeDeviceToken (s : Store) (cookie : Option Str) : Store × Option Str :=
  match s.sessionRow cfg cookie with
  | none => (s, none)
  | some (k, row) =>
    match row.deviceToken with
    | none => (s, none)
    | some device =>
      ({ s with sessions := s.sessions.set k ⟨row.token, row.expiresAt, none⟩ }, some device)

/-- `restore`. -/
def restore (s : Store) (now : ℚ) (cookie : Option Str) : Store × Option (Str × ℚ) :=
  let s := s.prune now
  (s, (s.sessionRow cfg cookie).map fun r => (r.2.token, r.2.expiresAt))

/-- `revoke`. -/
def revoke (s : Store) (now : ℚ) (cookie : Option Str) : Store :=
  let s := s.prune now
  match key cfg cookie with
  | none => s
  | some k => { s with sessions := s.sessions.pop k }

/-- `rotate_token`. The sessions and the tickets get a row without a device token. -/
def rotateToken (s : Store) (now : ℚ) (previous token : Str) (expiresAt : ℚ) : Store :=
  let s := s.prune now
  let updated : Session := ⟨token, expiresAt, none⟩
  { s with
    successors := if s.successors.len < cfg.maxSessions * 4 then
      s.successors.set (tokenKey cfg previous) updated else s.successors
    sessions := s.sessions.mapValues fun r => if r.2.token = previous then updated else r.2
    tickets := s.tickets.mapValues fun r =>
      if r.2.session.token = previous then ⟨updated, min r.2.expiresAt expiresAt⟩ else r.2 }

end Store

end Scap.Browser
