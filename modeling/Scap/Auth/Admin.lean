import Scap.Auth.Routes

/-!
# Administrators at work

The four operations of an administrator on accounts, cut where their requests wait: the dependency
`admin_user` runs in a transaction of its own, `lock_admin_mutation` takes the row locks of the two
accounts in the order of their identifiers and then that of the session, and only then decides.
Between any two of these steps other requests go on, as long as they write no row that is locked;
one that does waits, so that it is a later step here.
-/

namespace Scap.Auth

open Scap.Lib

variable (cfg : Settings)

/-- `admin_create_user`, `admin_delete_user`, `admin_change_role`, `update_user_status`. -/
inductive AdminOp where
  | create (role : String)
  | delete (targetId : String)
  | changeRole (targetId role : String)
  | updateStatus (targetId : String) (isActive : Bool)
  deriving DecidableEq, Repr

/-- `target_id`. -/
def AdminOp.target? : AdminOp → Option String
  | .create _ => none
  | .delete targetId => some targetId
  | .changeRole targetId _ => some targetId
  | .updateStatus targetId _ => some targetId

/-- How far a request has come. -/
inductive Phase where
  | admitted
  | locking (waiting : List String)
  | authorized
  deriving DecidableEq, Repr

structure AdminRequest where
  number : Nat
  bearer : BearerToken
  op : AdminOp
  phase : Phase
  /-- `locked_users`. -/
  held : List String
  deriving DecidableEq, Repr

structure Office where
  store : Store
  requests : KeyedTable AdminRequest.number
  arrivals : Nat

/-- The order in which `lock_admin_mutation` locks the accounts. -/
def lockOrder (actorId : String) (target? : Option String) : List String :=
  (target?.toList.filter (· ≠ actorId)).orderedInsert (· ≤ ·) actorId

/-- What `lock_admin_mutation` checks once it holds the accounts. -/
def authorize (s : Store) (p : AdminRequest) : Reply Unit :=
  match (s.users.find? p.bearer.sub).filter fun _ => p.held.contains p.bearer.sub with
  | none => .error 401
  | some actor =>
    if actor.isActive = false ∨ p.bearer.ver ≠ actor.tokenVersion then .error 401
    else match lockAuthSessionRow s p.bearer.jti actor.id with
      | none => .error 401
      | some r =>
        if s.revokedTokens.find? p.bearer.jti ≠ none ∨
            authSessionExpiryReason cfg r s.clock ≠ none then .error 401
        else if actor.role ≠ "admin" then .error 403
        else if cfg.highSecurity = true ∧ actor.mfaEnabled = false then .error 403
        else if recentStepUp cfg s r = false then .error 403
        else if p.op.target?.any fun id => !p.held.contains id then .error 404
        else .ok ()

/-- What the route does after `lock_admin_mutation`; `id` is that of a new account. -/
def perform (s : Store) (actorId : String) (op : AdminOp) (id : String) : Reply Store :=
  match op with
  | .create role =>
    .ok { s with
      users := s.users.insertNew ⟨id, role, true, false, 1⟩
      drawn := id :: s.drawn }
  | .delete targetId =>
    match s.users.find? targetId with
    | none => .error 404
    | some target =>
      if target.id = actorId then .error 400
      else if target.role = "admin" then .error 400
      else .ok { s with
        users := s.users.filter fun u => u.id ≠ target.id
        sessions := s.sessions.filter fun r => r.userId ≠ target.id }
  | .changeRole targetId role =>
    match s.users.find? targetId with
    | none => .error 404
    | some target =>
      if target.id = actorId then .error 400
      else .ok (revokeAllAuthSessions (setAccount s target.id role target.isActive
        target.mfaEnabled) target.id)
  | .updateStatus targetId isActive =>
    match s.users.find? targetId with
    | none => .error 404
    | some target =>
      if target.id = actorId ∧ isActive = false then .error 400
      else if target.isActive = isActive then .ok s
      else .ok (revokeAllAuthSessions (setAccount s target.id target.role isActive
        target.mfaEnabled) target.id)

/-! ## Steps -/

/-- `abort` is any other end of a request: a refusal, a lost connection, a commit that fails. -/
inductive OfficeAction where
  | acceptRequest (b : BearerToken) (op : AdminOp)
  | enter (number : Nat)
  | acquire (number : Nat)
  | authorize (number : Nat)
  | commit (number : Nat) (id : String)
  | abort (number : Nat)
  | other (a : Action)
  deriving DecidableEq, Repr

def Office.put (s : Office) (p : AdminRequest) : Office :=
  { s with requests := (s.requests.filter fun q => q.number ≠ p.number).insertNew p }

def Office.drop (s : Office) (number : Nat) : Office :=
  { s with requests := s.requests.filter fun q => q.number ≠ number }

/-- Whether a transaction leaves the rows alone that the requests other than `number` have locked. -/
def Office.leavesLocked (s : Office) (number : Nat) (store : Store) : Bool :=
  s.requests.rows.all fun q => q.number = number ||
    (q.held.all fun id => store.users.find? id = s.store.users.find? id) &&
      (q.phase ≠ .authorized ||
        store.sessions.find? q.bearer.jti = s.store.sessions.find? q.bearer.jti)

/-- `admin_user`, and the first `require_recent_step_up` of `admin_create_user`. -/
def admits (s : Store) (b : BearerToken) (op : AdminOp) (u : User) : Bool :=
  u.role = "admin" && !(cfg.highSecurity && !u.mfaEnabled) &&
    (op.target?.isSome || (s.sessions.find? b.jti).any fun r => recentStepUp cfg s r)

def acceptRequest (s : Office) (b : BearerToken) (op : AdminOp) : Option Office :=
  let result := currentUser cfg s.store false b
  if s.leavesLocked s.arrivals result.1 then
    let s := { s with store := result.1 }
    match result.2 with
    | .error _ => some s
    | .ok u =>
      if admits cfg s.store b op u then
        some { s.put ⟨s.arrivals, b, op, .admitted, []⟩ with arrivals := s.arrivals + 1 }
      else some s
  else none

/-- The next account is locked, as soon as nobody else holds it; one that is gone is passed over. -/
def acquire (s : Office) (p : AdminRequest) (id : String) (waiting : List String) :
    Option Office :=
  match s.store.users.find? id with
  | none => some (s.put { p with phase := .locking waiting })
  | some _ =>
    if s.requests.rows.any fun q => q.number ≠ p.number && q.held.contains id then none
    else some (s.put { p with phase := .locking waiting, held := id :: p.held })

/-- The operations of `OfficeAction` that are not steps of their own in `Action`; public
registration is for the role `user` only. -/
def isAdminOp : Action → Bool
  | .register _ role => role ≠ "user"
  | .changeRole .. => true
  | .updateStatus .. => true
  | .deleteUser .. => true
  | _ => false

/-- The state after an action; `none` where it has to wait for a lock or is not next. -/
def stepOffice (s : Office) : OfficeAction → Option Office
  | .acceptRequest b op => if b ∈ s.store.bearers then acceptRequest cfg s b op else none
  | .enter number =>
      match s.requests.find? number with
      | some p =>
        if p.phase = .admitted then
          if s.store.decodes p.bearer = false then some (s.drop number)
          else some (s.put { p with phase := .locking (lockOrder p.bearer.sub p.op.target?) })
        else none
      | none => none
  | .acquire number =>
      match s.requests.find? number with
      | some p =>
        match p.phase with
        | .locking (id :: waiting) => acquire s p id waiting
        | _ => none
      | none => none
  | .authorize number =>
      match s.requests.find? number with
      | some p =>
        if p.phase = .locking [] then
          match authorize cfg s.store p with
          | .error _ => some (s.drop number)
          | .ok () => some (s.put { p with phase := .authorized })
        else none
      | none => none
  | .commit number id =>
      match s.requests.find? number with
      | some p =>
        if p.phase = .authorized ∧ id ∉ s.store.drawn then
          match perform s.store p.bearer.sub p.op id with
          | .error _ => none
          | .ok store =>
            if s.leavesLocked number store then some { s.drop number with store := store }
            else none
        else none
      | none => none
  | .abort number => some (s.drop number)
  | .other a =>
      if isAdminOp a then none
      else match stepStore cfg s.store a with
        | some store =>
          if s.leavesLocked s.arrivals store then some { s with store := store } else none
        | none => none

/-- An account that may administer. -/
def User.isAdmin (u : User) : Prop := u.role = "admin" ∧ u.isActive = true

instance (u : User) : Decidable u.isAdmin := inferInstanceAs (Decidable (_ ∧ _))

def Store.hasAdmin (s : Store) : Prop := ∃ u ∈ s.users.rows, u.isAdmin

/-- The platform in any state it can be in that has an active administrator, and no request of one
under way. -/
structure Opening (s : Office) : Prop where
  store : (authSystem cfg).Reachable s.store
  admin : s.store.hasAdmin
  requests : s.requests.rows = []

def officeSystem : System Office OfficeAction := System.ofFun (Opening cfg) (stepOffice cfg)

end Scap.Auth
