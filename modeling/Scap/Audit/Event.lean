import Scap.Lib.KeyedTable
import Scap.Py.DateTime
import Scap.Py.Hmac

/-!
# Audit rows and what their hash covers

`AuditEvent` is a row of `audit_events` without its id, as the ORM object is before `INSERT`;
`AuditRow` is a stored row. `canonicalEntry` is the text ten of the columns are signed under.

`canonicalEntry_injective` and `signedText_injective` are the two facts the chain rests on: the
canonical text determines the ten columns, and the signed text `prev_hash | canonical` determines
both halves whatever characters the previous hash consists of.
-/

namespace Scap.Audit

open Scap.Py Scap.Lib

/-- The arguments of `canonical_entry`: the columns a row's hash covers. -/
structure Content where
  actorId : Option String
  eventType : String
  targetType : Option String
  targetId : Option String
  outcome : String
  ipAddress : Option String
  userAgent : Option String
  requestId : Option String
  detailsJson : String
  createdAt : String
  deriving DecidableEq, Repr

/-- `canonical_entry`. -/
def canonicalEntry (c : Content) : String :=
  dumps [
    ("actor_id", .ofOption c.actorId),
    ("event_type", .str c.eventType),
    ("target_type", .ofOption c.targetType),
    ("target_id", .ofOption c.targetId),
    ("outcome", .str c.outcome),
    ("ip_address", .ofOption c.ipAddress),
    ("user_agent", .ofOption c.userAgent),
    ("request_id", .ofOption c.requestId),
    ("details_json", .str c.detailsJson),
    ("created_at", .str c.createdAt)]

/-- The members in the order `sort_keys` gives them. -/
def sortedFields (c : Content) : List (String × Option String) := [
  ("actor_id", c.actorId),
  ("created_at", some c.createdAt),
  ("details_json", some c.detailsJson),
  ("event_type", some c.eventType),
  ("ip_address", c.ipAddress),
  ("outcome", some c.outcome),
  ("request_id", c.requestId),
  ("target_id", c.targetId),
  ("target_type", c.targetType),
  ("user_agent", c.userAgent)]

/-- The members as the serialiser takes them. -/
def sortedMembers (c : Content) : List (String × Scalar) :=
  (sortedFields c).map fun f => (f.1, Scalar.ofOption f.2)

theorem canonicalEntry_eq (c : Content) :
    ∃ fields, canonicalEntry c = dumps fields ∧ sortKeys fields = sortedMembers c := by
  refine ⟨_, rfl, ?_⟩
  simp [sortKeys, List.insertionSort, List.orderedInsert, sortedMembers, sortedFields,
    Scalar.ofOption]

theorem canonicalEntry_toList (c : Content) :
    (canonicalEntry c).toList = '{' :: members (sortedMembers c) ++ ['}'] := by
  obtain ⟨fields, htext, hsort⟩ := canonicalEntry_eq c
  rw [htext, dumps, String.toList_ofList, hsort]

/-- The canonical text determines every column it covers. -/
theorem canonicalEntry_injective {c d : Content} (h : canonicalEntry c = canonicalEntry d) :
    c = d := by
  obtain ⟨fc, hfc, hsc⟩ := canonicalEntry_eq c
  obtain ⟨fd, hfd, hsd⟩ := canonicalEntry_eq d
  have hkeys : (sortKeys fc).map Prod.fst = (sortKeys fd).map Prod.fst := by
    simp only [hsc, hsd, sortedMembers, sortedFields, List.map_cons, List.map_nil]
  have hm := dumps_cancel hkeys (by rw [← hfc, ← hfd, h])
  rw [hsc, hsd] at hm
  simp only [sortedMembers, sortedFields, List.map_cons, List.map_nil, List.cons.injEq,
    Prod.mk.injEq, true_and, and_true, Scalar.ofOption_inj, Option.some.injEq] at hm
  cases c
  cases d
  simp_all

/-- Every canonical text begins with `{"a`. -/
theorem canonicalEntry_start (c : Content) :
    ∃ rest, (canonicalEntry c).toList = '{' :: '"' :: 'a' :: rest := by
  have hkey : quote "actor_id" = '"' :: 'a' :: (escapeBody "ctor_id".toList ++ ['"']) := by decide
  rw [canonicalEntry_toList]
  simp only [sortedMembers, sortedFields, List.map_cons, members, member, hkey,
    List.cons_append]
  exact ⟨_, rfl⟩

/-- The text `compute_hash` hands to HMAC. -/
def signedText (prev : String) (c : Content) : String := prev ++ "|" ++ canonicalEntry c

theorem signedText_toList (prev : String) (c : Content) :
    (signedText prev c).toList = prev.toList ++ '|' :: (canonicalEntry c).toList := by
  simp [signedText, String.toList_append]

/-- One of two equal signed texts cannot have the longer canonical part: the other's would restart
inside it. -/
theorem canonicalEntry_length_le {p q : String} {c d : Content}
    (h : signedText p c = signedText q d) :
    (canonicalEntry c).toList.length ≤ (canonicalEntry d).toList.length := by
  by_contra hlt
  have ht := congrArg String.toList h
  rw [signedText_toList, signedText_toList] at ht
  rcases List.append_eq_append_iff.mp ht with ⟨mid, -, hmid⟩ | ⟨mid, hq, hmid⟩
  · cases mid with
    | nil =>
        have := (List.cons.inj hmid).2
        exact hlt (le_of_eq (congrArg List.length this))
    | cons x xs =>
        obtain ⟨-, hx⟩ := List.cons.inj (show '|' :: _ = x :: (xs ++ '|' :: _) from hmid)
        obtain ⟨rest, hrest⟩ := canonicalEntry_start d
        rw [canonicalEntry_toList, hrest] at hx
        exact object_no_restart _ _ _ hx
  · have hlen := congrArg List.length hmid
    simp only [List.length_append, List.length_cons] at hlen
    omega

/-- **The signed text is unambiguous**: it determines the previous hash and the columns, even when
the previous hash is an arbitrary text. -/
theorem signedText_injective {p q : String} {c d : Content}
    (h : signedText p c = signedText q d) : p = q ∧ c = d := by
  have hlen := le_antisymm (canonicalEntry_length_le h) (canonicalEntry_length_le h.symm)
  have ht := congrArg String.toList h
  rw [signedText_toList, signedText_toList] at ht
  obtain ⟨hpq, hcd⟩ := List.append_inj' ht (by simp only [List.length_cons, hlen])
  exact ⟨String.toList_inj.mp hpq,
    canonicalEntry_injective (String.toList_inj.mp (List.cons.inj hcd).2)⟩

/-! ## Rows -/

/-- The columns of `audit_events` other than its id. -/
structure AuditEvent where
  actorId : Option String
  eventType : String
  targetType : Option String
  targetId : Option String
  outcome : String
  ipAddress : Option String
  userAgent : Option String
  requestId : Option String
  detailsJson : String
  createdAt : Option DateTime
  prevHash : Option String
  entryHash : Option String
  deriving DecidableEq, Repr

/-- A stored row. -/
structure AuditRow where
  id : Int
  event : AuditEvent
  deriving DecidableEq, Repr

/-- The table `audit_events`. -/
abbrev AuditTable := KeyedTable AuditRow.id

/-- `canonical_datetime`. -/
def canonicalDatetime : Option DateTime → String
  | none => ""
  | some d => DateTime.isoformat d.utc

/-- The covered columns of an event, as `entry_canonical` passes them on. -/
def AuditEvent.content (e : AuditEvent) : Content where
  actorId := e.actorId
  eventType := e.eventType
  targetType := e.targetType
  targetId := e.targetId
  outcome := e.outcome
  ipAddress := e.ipAddress
  userAgent := e.userAgent
  requestId := e.requestId
  detailsJson := e.detailsJson
  createdAt := canonicalDatetime e.createdAt

/-- `entry_canonical`. -/
def entryCanonical (e : AuditEvent) : String := canonicalEntry e.content

/-- An event as the database returns it after `INSERT`; `created_at` has the default `utcnow`. -/
def AuditEvent.stored (dialect : Dialect) (now : Int) (e : AuditEvent) : AuditEvent :=
  { e with createdAt := some (dialect.stored (e.createdAt.getD (.ofUtc now))) }

@[simp] theorem AuditEvent.prevHash_stored (dialect : Dialect) (now : Int) (e : AuditEvent) :
    (e.stored dialect now).prevHash = e.prevHash := rfl

@[simp] theorem AuditEvent.entryHash_stored (dialect : Dialect) (now : Int) (e : AuditEvent) :
    (e.stored dialect now).entryHash = e.entryHash := rfl

/-- Storing an event stamped in UTC does not change what its hash covers. -/
theorem AuditEvent.content_stored {dialect : Dialect} {now i : Int} {e : AuditEvent}
    (h : e.createdAt = some (.ofUtc i)) : (e.stored dialect now).content = e.content := by
  simp [stored, content, canonicalDatetime, h, Dialect.utc_stored_ofUtc]

end Scap.Audit
