import Mathlib.Algebra.Order.BigOperators.Group.List
import Mathlib.Data.List.Dedup
import Scap.Py.Object
import Scap.Py.OrderedDict

/-!
# `ChatFileStore`

Uploaded files that wait to be claimed, and files that are staged under the digests of tokens. Each
method runs under the store's lock, so a call is one step.

Files are objects: `φ` is the type of their identities, which the byte count goes by, and `blob`
what they hold. A time is whatever the clock yields, with an order and an addition.
-/

namespace Scap.ChatFiles

open Scap.Py

/-- `_Pending`. -/
structure Pending (φ τ : Type*) where
  owner : Str
  expiresAt : τ
  file : φ
  deriving DecidableEq

/-- `_Staged`. -/
structure Staged (φ τ : Type*) where
  expiresAt : τ
  file : φ
  deriving DecidableEq

/-- What the store is built with. -/
structure Limits (τ : Type*) where
  maxBytes : Nat
  maxPending : Nat
  maxStaged : Nat
  pendingTtl : τ
  stagedTtl : τ

structure Store (φ τ : Type*) where
  pending : OrderedDict Str (Pending φ τ)
  staged : OrderedDict Str (Staged φ τ)

/-- What a claim raises: `ChatFileError("expired")`, or what `compare_digest` raises. -/
inductive Failure where
  | expired
  | typeError
  deriving DecidableEq, Repr

/-- A character of `[A-Za-z0-9_-]`. -/
def isUploadIdChar (c : CodePoint) : Bool :=
  (0x41 ≤ c.val && c.val ≤ 0x5a) || (0x61 ≤ c.val && c.val ≤ 0x7a) ||
    (0x30 ≤ c.val && c.val ≤ 0x39) || c.val = 0x5f || c.val = 0x2d

/-- `UPLOAD_ID_RE.fullmatch`. -/
def isUploadId (s : Str) : Bool := s.length = 32 && s.all isUploadIdChar

/-- `isinstance(upload_id, str)` and the pattern. -/
def uploadId? : Object → Option Str
  | .str s => if isUploadId s then some s else none
  | _ => none

/-- `secrets.compare_digest` of two strings, which have to be ASCII. -/
def compareDigest (a b : Str) : Except Failure Bool :=
  if a.all (fun c => c.val < 128) && b.all (fun c => c.val < 128) then .ok (a = b)
  else .error .typeError

/-- `any(secrets.compare_digest(owner, key) for key in keys)`. -/
def anyEqual (owner : Str) : List Str → Except Failure Bool
  | [] => .ok false
  | key :: keys =>
    match compareDigest owner key with
    | .ok true => .ok true
    | .ok false => anyEqual owner keys
    | .error e => .error e

theorem compareDigest_true {a b : Str} (h : compareDigest a b = .ok true) : a = b := by
  unfold compareDigest at h
  split at h
  · simpa using h
  · cases h

/-- Only an equal key compares equal. -/
theorem anyEqual_true {owner : Str} {keys : List Str} (h : anyEqual owner keys = .ok true) :
    owner ∈ keys := by
  induction keys with
  | nil => cases h
  | cons key keys ih =>
      unfold anyEqual at h
      split at h
      · next heq =>
        rw [compareDigest_true heq]
        exact List.mem_cons_self
      · exact List.mem_cons_of_mem _ (ih h)
      · cases h

namespace Store

variable {φ τ : Type*} [DecidableEq φ] (blob : φ → List UInt8) (cfg : Limits τ)

def empty : Store φ τ := ⟨.empty, .empty⟩

/-- `sum(files.values())`: a file counts once, under however many keys it stands. -/
def bytes (pending : List (Str × Pending φ τ)) (staged : List (Str × Staged φ τ)) : Nat :=
  (((pending.map fun r => r.2.file) ++ staged.map fun r => r.2.file).dedup.map
    fun file => (blob file).length).sum

/-- `_enforce_budget`. As long as there is a pending upload, the oldest is what the byte limit
deletes; the staged files lose their oldest once the uploads are gone. -/
def enforceBudget (s : Store φ τ) : Store φ τ :=
  let pending := s.pending.discardUntil fun rows => rows.length ≤ cfg.maxPending
  let staged := s.staged.discardUntil fun rows => rows.length ≤ cfg.maxStaged
  let pending := pending.discardUntil fun rows => bytes blob rows staged.rows ≤ cfg.maxBytes
  let staged := staged.discardUntil fun rows => bytes blob pending.rows rows ≤ cfg.maxBytes
  ⟨pending, staged⟩

/-- `for key in keys: self._staged.pop(key, None); self._staged[key] = staged`. -/
def stageAll (staged : OrderedDict Str (Staged φ τ)) (row : Staged φ τ) :
    List Str → OrderedDict Str (Staged φ τ)
  | [] => staged
  | key :: keys => stageAll ((staged.pop key).set key row) row keys

/-- `clear`. -/
def clear (s : Store φ τ) (keys : List Str) : Store φ τ :=
  ⟨s.pending.filter fun r => r.2.owner ∉ keys, s.staged.filter fun r => r.1 ∉ keys⟩

variable [LinearOrder τ]

/-- `_prune`. -/
def prune (now : τ) (s : Store φ τ) : Store φ τ :=
  ⟨s.pending.filter fun r => now < r.2.expiresAt, s.staged.filter fun r => now < r.2.expiresAt⟩

/-- `staged`. -/
def findStaged (s : Store φ τ) (keys : List Str) (now : τ) : Store φ τ × Option φ :=
  let s := s.prune now
  (s, keys.findSome? fun key => (s.staged.get key).map Staged.file)

variable [Add τ]

/-- `put_pending`, when `secrets.token_urlsafe` yields `uploadId`. -/
def putPending (s : Store φ τ) (owner : Str) (file : φ) (uploadId : Str) (now : τ) : Store φ τ :=
  let s := s.prune now
  let pending := s.pending.filter fun r => r.2.owner ≠ owner
  let pending := pending.set uploadId ⟨owner, now + cfg.pendingTtl, file⟩
  enforceBudget blob cfg { s with pending }

/-- `stage`. -/
def stage (s : Store φ τ) (keys : List Str) (file : φ) (now : τ) : Store φ τ :=
  let s := s.prune now
  enforceBudget blob cfg
    { s with staged := stageAll s.staged ⟨now + cfg.stagedTtl, file⟩ keys.eraseDups }

/-- What `claim` does under the lock, once the id is known to be one. -/
def claimId (s : Store φ τ) (uploadId : Str) (keys : List Str) (now : τ) :
    Store φ τ × Except Failure φ :=
  let s := s.prune now
  match s.pending.get uploadId with
  | none => (s, .error .expired)
  | some row =>
    -- the upload is gone, whether or not the keys are its owner's
    let s := { s with pending := s.pending.pop uploadId }
    match anyEqual row.owner keys with
    | .error e => (s, .error e)
    | .ok false => (s, .error .expired)
    | .ok true =>
      let s := { s with staged := stageAll s.staged ⟨now + cfg.stagedTtl, row.file⟩ keys }
      (enforceBudget blob cfg s, .ok row.file)

/-- `claim`. -/
def claim (s : Store φ τ) (uploadId : Object) (keys : List Str) (now : τ) :
    Store φ τ × Except Failure φ :=
  let keys := keys.eraseDups
  if keys.isEmpty then (s, .error .expired) else
  match uploadId? uploadId with
  | none => (s, .error .expired)
  | some uploadId => claimId blob cfg s uploadId keys now

end Store

/-! ## Calls -/

/-- A call. What `secrets.token_urlsafe` yields and the clock's reading come with it. -/
inductive Op (φ τ : Type*) where
  | putPending (owner : Str) (file : φ) (uploadId : Str) (now : τ)
  | claim (uploadId : Object) (keys : List Str) (now : τ)
  | stage (keys : List Str) (file : φ) (now : τ)
  | staged (keys : List Str) (now : τ)
  | clear (keys : List Str)

inductive Answer (φ : Type*) where
  | uploadId (uploadId : Str)
  | claimed (result : Except Failure φ)
  | found (file : Option φ)
  | done
  deriving DecidableEq

/-- A call and its answer. -/
abbrev Entry (φ τ : Type*) := Op φ τ × Answer φ

def Store.perform {φ τ : Type*} [DecidableEq φ] [LinearOrder τ] [Add τ] (blob : φ → List UInt8)
    (cfg : Limits τ) (s : Store φ τ) : Op φ τ → Store φ τ × Answer φ
  | .putPending owner file uploadId now =>
      (s.putPending blob cfg owner file uploadId now, .uploadId uploadId)
  | .claim uploadId keys now =>
      let (s, result) := s.claim blob cfg uploadId keys now
      (s, .claimed result)
  | .stage keys file now => (s.stage blob cfg keys file now, .done)
  | .staged keys now =>
      let (s, file) := s.findStaged keys now
      (s, .found file)
  | .clear keys => (s.clear keys, .done)

end Scap.ChatFiles
