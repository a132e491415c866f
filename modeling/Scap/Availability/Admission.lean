import Mathlib.Algebra.GroupWithZero.Nat
import Mathlib.Data.String.Basic
import Scap.Py.OrderedDict

/-!
# `AdmissionMiddleware`

Every HTTP request takes a slot of one of two budgets, streams or requests, and one of its source,
and gives them back when its response is over. The requests in flight go from phase to phase:
between two phases of one request those of the others may move on. A phase ends where the code
awaits something, or where it leaves a critical section.

What the rate limiters answer and what the client's address is come with the steps.
-/

namespace Scap.Availability

open Scap.Py

/-! ## Budgets -/

structure CapacityBudget where
  maximum : Nat
  active : Int
  rejected : Int
  maximum_pos : 0 < maximum

namespace CapacityBudget

def acquire (b : CapacityBudget) : CapacityBudget × Bool :=
  if b.maximum ≤ b.active then ({ b with rejected := b.rejected + 1 }, false)
  else ({ b with active := b.active + 1 }, true)

/-- `none` is the `RuntimeError`. -/
def release (b : CapacityBudget) : Option CapacityBudget :=
  if b.active ≤ 0 then none else some { b with active := b.active - 1 }

end CapacityBudget

/-! ## Requests -/

/-- What the middleware reads of an ASGI scope. -/
structure Scope where
  type : String
  method : Option String
  path : String
  rawPath : Option (List UInt8)
  queryString : List UInt8
  headers : List (List UInt8 × List UInt8)
  deriving DecidableEq

/-- The settings of the middleware, and whether it has a shared limiter. -/
structure Settings where
  requestMaxConcurrent : Nat
  requestMaxStreams : Nat
  requestIpMaxAttempts : Int
  requestGlobalMaxAttempts : Int
  requestIpMaxAssetAttempts : Int
  requestGlobalMaxAssetAttempts : Int
  authGlobalMaxAttempts : Int
  readinessMaxAttempts : Int
  requestIpMaxConcurrent : Int
  requestIpMaxStreams : Int
  sharedLimiter : Bool
  requestMaxConcurrent_pos : 0 < requestMaxConcurrent
  requestMaxStreams_pos : 0 < requestMaxStreams

def maxUriBytes : Nat := 16384

def maxHeaderBytes : Nat := 32768

def maxHeaderCount : Nat := 100

/-- `path.rstrip("/")`. -/
def rstripSlash (path : String) : List Char := (path.toList.reverse.dropWhile (· = '/')).reverse

/-- `path.startswith(start)`. -/
def startsWith (path start : String) : Bool := start.toList.isPrefixOf path.toList

/-- `"/." in path`. -/
def hidden : List Char → Bool
  | '/' :: '.' :: _ => true
  | _ :: cs => hidden cs
  | [] => false

/-- A character of `[A-Za-z0-9_-]`. -/
def isNameChar (c : Char) : Bool := c.isAlphanum || c = '_' || c = '-'

/-- What `_FRONTEND_ASSET_PATH` asks of the path after the directory. -/
def isAssetName : List Char → Bool
  | [] => false
  | c :: cs => isNameChar c && cs.length ≤ 255 &&
      cs.all fun c => isNameChar c || c = '.' || c = '/'

namespace Scope

variable (scope : Scope)

/-- `_frontend_asset`. -/
def frontendAsset : Bool :=
  (scope.method = some "GET" || scope.method = some "HEAD") &&
    (startsWith scope.path "/assets/" && isAssetName (scope.path.toList.drop "/assets/".length) ||
      startsWith scope.path "/static/" && isAssetName (scope.path.toList.drop "/static/".length)) &&
    !hidden scope.path.toList

/-- Long-lived server-sent events. -/
def streaming : Bool :=
  scope.method = some "GET" && scope.path.length ≤ maxUriBytes &&
    (rstripSlash scope.path = "/gradio_api/queue/data".toList ||
      startsWith scope.path "/gradio_api/call/")

/-- Metadata that is left to the inner boundary to reject. -/
def oversized : Bool :=
  maxHeaderCount < scope.headers.length ||
    maxHeaderBytes < (scope.headers.map fun h => h.1.length + h.2.length + 4).sum ||
    maxUriBytes < (scope.rawPath.map List.length).getD scope.path.utf8ByteSize + 1 +
      scope.queryString.length ||
    maxUriBytes < scope.path.length + 1 + scope.queryString.length

/-- The keys that a request counts under, and how often a window each may be used. -/
def limits (cfg : Settings) (ip : String) : List (String × Int) :=
  (if scope.frontendAsset then
    [("asset-ip:" ++ ip, cfg.requestIpMaxAssetAttempts),
      ("asset-global", cfg.requestGlobalMaxAssetAttempts)]
  else [("ip:" ++ ip, cfg.requestIpMaxAttempts), ("global", cfg.requestGlobalMaxAttempts)]) ++
  (if scope.method = some "POST" && startsWith scope.path "/api/auth/" then
    [("auth-global", cfg.authGlobalMaxAttempts)] else []) ++
  (if rstripSlash scope.path = "/api/ready".toList then
    [("readiness-global", cfg.readinessMaxAttempts)] else [])

/-- Whether the shared limiter is asked: not about liveness. -/
def askShared (cfg : Settings) : Bool :=
  cfg.sharedLimiter && !(scope.method = some "GET" && scope.path = "/api/health")

/-- `source_key`: frontend assets have none. -/
def sourceKey (ip : String) : Option (String × Bool) :=
  if scope.frontendAsset then none else some (ip, scope.streaming)

end Scope

/-- What a limiter's `allow` does: the decision and the seconds to wait, or an exception. -/
abbrev Limiter := String → Int → Except Unit (Bool × Int)

/-- The limits in order, up to the first that refuses: `some` seconds to wait, or `none`. -/
def checkLimits (allow : Limiter) : List (String × Int) → Except Unit (Option Int)
  | [] => .ok none
  | (key, maximum) :: rest =>
    match allow key maximum with
    | .error e => .error e
    | .ok (true, _) => checkLimits allow rest
    | .ok (false, retryAfter) => .ok (some retryAfter)

/-! ## Phases -/

/-- Where a request is. -/
inductive Phase where
  /-- In the app, past the middleware: not HTTP, or with oversized metadata. -/
  | delegated
  /-- Before `budget.acquire()`. -/
  | admitting
  /-- Before the source is counted. -/
  | counting
  /-- The source has no slot left: before `budget.release()`. -/
  | sourceFull
  /-- In `_reject`, outside of the `try`. -/
  | rejecting
  /-- The shared limiter is asked. -/
  | checking
  /-- In `_reject`, inside of the `try`. -/
  | refusing
  /-- In the app. -/
  | running
  /-- In the `finally`, before the source is counted down. -/
  | leaving
  /-- In the `finally`, before `budget.release()`. -/
  | releasing
  | done
  deriving DecidableEq, Repr

/-- A request in flight. Of the slots only the acquisitions and releases are counted. -/
structure Flight where
  scope : Scope
  ip : String
  phase : Phase
  /-- Acquisitions of its budget, less the releases. -/
  slots : Int
  /-- The same for its source. -/
  sourceSlots : Int
  deriving DecidableEq

structure Middleware where
  requests : CapacityBudget
  streams : CapacityBudget
  sources : OrderedDict (String × Bool) Int
  flights : List Flight
  /-- How often a release raised. -/
  faults : Nat

namespace Middleware

variable (cfg : Settings) (m : Middleware)

/-- Before the first request. -/
def start : Middleware where
  requests := ⟨cfg.requestMaxConcurrent, 0, 0, cfg.requestMaxConcurrent_pos⟩
  streams := ⟨cfg.requestMaxStreams, 0, 0, cfg.requestMaxStreams_pos⟩
  sources := .empty
  flights := []
  faults := 0

def budget (streaming : Bool) : CapacityBudget := if streaming then m.streams else m.requests

def withBudget (streaming : Bool) (b : CapacityBudget) : Middleware :=
  if streaming then { m with streams := b } else { m with requests := b }

def withFlight (i : Nat) (f : Flight) : Middleware := { m with flights := m.flights.set i f }

/-- `source_maximum`. -/
def sourceMaximum (streaming : Bool) : Int :=
  if streaming then cfg.requestIpMaxStreams else cfg.requestIpMaxConcurrent

/-- A request arrives: `__call__` and `_admit` up to the budget. An exception ends it. -/
def arrive (scope : Scope) (ip : Option String) (allow : Limiter) : Middleware :=
  let flight (ip : String) (phase : Phase) : Middleware :=
    { m with flights := m.flights ++ [⟨scope, ip, phase, 0, 0⟩] }
  if scope.type ≠ "http" then flight "" .delegated else
  if scope.oversized then flight "" .delegated else
  match ip with
  | none => flight "" .done
  | some ip =>
    match checkLimits allow (scope.limits cfg ip) with
    | .error _ => flight ip .done
    | .ok (some _) => flight ip .rejecting
    | .ok none => flight ip .admitting

/-- The first phase inside of the `try`. -/
def entered (f : Flight) : Phase := if f.scope.askShared cfg then .checking else .running

/-- `budget.acquire()`. -/
def acquire (i : Nat) (f : Flight) : Middleware :=
  let (b, acquired) := (m.budget f.scope.streaming).acquire
  let m := m.withBudget f.scope.streaming b
  if acquired then
    let phase := if (f.scope.sourceKey f.ip).isSome then .counting else entered cfg f
    m.withFlight i { f with phase, slots := f.slots + 1 }
  else m.withFlight i { f with phase := .rejecting }

/-- The critical section that counts the source. -/
def countSource (i : Nat) (f : Flight) (key : String × Bool) : Middleware :=
  let sourceActive := (m.sources.get key).getD 0
  if sourceActive < sourceMaximum cfg f.scope.streaming then
    let m := { m with sources := m.sources.set key (sourceActive + 1) }
    m.withFlight i { f with phase := entered cfg f, sourceSlots := f.sourceSlots + 1 }
  else m.withFlight i { f with phase := .sourceFull }

/-- `budget.release()`, and on to `next`. When it raises, the request is over. -/
def release (i : Nat) (f : Flight) (next : Phase) : Middleware :=
  match (m.budget f.scope.streaming).release with
  | none => { m.withFlight i { f with phase := .done } with faults := m.faults + 1 }
  | some b =>
    (m.withBudget f.scope.streaming b).withFlight i { f with phase := next, slots := f.slots - 1 }

/-- The end of the `try`: the app has returned or raised, the rejection is sent, or the client is
gone. -/
def leave (i : Nat) (f : Flight) : Middleware :=
  m.withFlight i
    { f with phase := if (f.scope.sourceKey f.ip).isSome then .leaving else .releasing }

/-- The critical section in the `finally`. A missing key raises, and the release is not reached. -/
def leaveSource (i : Nat) (f : Flight) (key : String × Bool) : Middleware :=
  match m.sources.get key with
  | none => { m.withFlight i { f with phase := .done } with faults := m.faults + 1 }
  | some n =>
    let remaining := n - 1
    let sources := if remaining ≠ 0 then m.sources.set key remaining else m.sources.pop key
    { m with sources }.withFlight i { f with phase := .releasing, sourceSlots := f.sourceSlots - 1 }

end Middleware

/-! ## Steps -/

inductive Op where
  | arrive (scope : Scope) (ip : Option String) (allow : Limiter)
  /-- The request in place `i` takes the critical section that is next. -/
  | proceed (i : Nat)
  /-- The shared limiter answers. -/
  | answer (i : Nat) (allow : Limiter)
  /-- What is awaited ends, also by an exception or by cancellation. -/
  | finish (i : Nat)

namespace Middleware

variable (cfg : Settings) (m : Middleware)

/-- The next critical section of a request. -/
def proceed (i : Nat) (f : Flight) : Option Middleware :=
  match f.phase, f.scope.sourceKey f.ip with
  | .admitting, _ => some (m.acquire cfg i f)
  | .counting, some key => some (m.countSource cfg i f key)
  | .sourceFull, _ => some (m.release i f .rejecting)
  | .leaving, some key => some (m.leaveSource i f key)
  | .releasing, _ => some (m.release i f .done)
  | _, _ => none

/-- What `shared_check` says, in a thread of its own. -/
def answer (i : Nat) (f : Flight) (allow : Limiter) : Option Middleware :=
  if f.phase = .checking then
    match checkLimits allow (f.scope.limits cfg f.ip) with
    | .ok none => some (m.withFlight i { f with phase := .running })
    | .ok (some _) => some (m.withFlight i { f with phase := .refusing })
    | .error _ => some (m.withFlight i { f with phase := .refusing })
  else none

/-- The end of what a request awaits. -/
def finish (i : Nat) (f : Flight) : Option Middleware :=
  match f.phase with
  | .delegated | .rejecting => some (m.withFlight i { f with phase := .done })
  | .checking | .refusing | .running => some (m.leave i f)
  | _ => none

def step : Op → Option Middleware
  | .arrive scope ip allow => some (m.arrive cfg scope ip allow)
  | .proceed i => do m.proceed cfg i (← m.flights[i]?)
  | .answer i allow => do m.answer cfg i (← m.flights[i]?) allow
  | .finish i => do m.finish i (← m.flights[i]?)

end Middleware

end Scap.Availability
