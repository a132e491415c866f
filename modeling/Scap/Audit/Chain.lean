import Scap.Audit.Event

/-!
# The hash chain: sealing, verifying, repairing

`sealEvent` (writer), `verifyChain` (verifier) and `resealUnsealed` (repair tool) each walk the
table with their own notion of the current head. `Consistent` is the one predicate all three are
measured against: read in id order, a sealed row continues the head before it under its own hash,
and an unsealed row resets the head to genesis.

* `verifyRows_of_consistent`, `verifyRows_of_not_consistent` — the verifier's loop succeeds exactly
  on consistent rows, and its counters count;
* `lastHash_of_consistent` — on consistent rows the writer's head is the verifier's;
* `consistent_resealRows` — a resealed tail is consistent exactly when what it continues is.
-/

namespace Scap.Audit

open Scap.Py Scap.Lib

/-- `GENESIS_HASH`. -/
def GENESIS_HASH : String := "0000000000000000000000000000000000000000000000000000000000000000"

section Hashing

variable (hmac : HmacSha256) (key : ByteArray)

/-- `compute_hash`. -/
def computeHash (prev canonical : String) : String :=
  hexdigest (hmac key (prev ++ "|" ++ canonical).toUTF8)

/-- The hash a row with this content has on top of `prev`. -/
def linkHash (prev : String) (c : Content) : String := computeHash hmac key prev (canonicalEntry c)

@[simp] theorem validSha256Digest_computeHash (prev canonical : String) :
    validSha256Digest (some (computeHash hmac key prev canonical)) = true :=
  validSha256Digest_hexdigest _

end Hashing

/-! ## The writer -/

/-- Python's `value or GENESIS_HASH`: a missing and an empty hash both restart the chain. -/
def orGenesis : Option String → String
  | none => GENESIS_HASH
  | some h => if h = "" then GENESIS_HASH else h

/-- `_last_hash`. -/
def lastHash (t : AuditTable) (beforeId : Option Int) : String :=
  let last := match beforeId with
    | none => t.last?
    | some b => (t.rows.filter fun r : AuditRow => r.id < b).getLast?
  orGenesis (last.bind fun r => r.event.entryHash)

/-- `seal_event`. An `AuditEvent` has no id yet, which is what the function's guard asks for. -/
def sealEvent (hmac : HmacSha256) (key : ByteArray) (t : AuditTable) (now : Int) (e : AuditEvent) :
    AuditEvent :=
  let e := { e with createdAt := some (e.createdAt.getD (.ofUtc now)) }
  let prev := lastHash t none
  { e with prevHash := some prev, entryHash := some (computeHash hmac key prev (entryCanonical e)) }

/-- The next value of the id sequence, `gap` values having been used up by transactions that
rolled back. -/
def nextId (t : AuditTable) (gap : Nat) : Int := (t.last?.elim 0 AuditRow.id) + 1 + gap

theorem lt_nextId {t : AuditTable} {gap : Nat} {r : AuditRow} (hr : r ∈ t.rows) :
    r.id < nextId t gap := by
  unfold nextId KeyedTable.last?
  rcases List.eq_nil_or_concat t.rows with hnil | ⟨init, last, hlast⟩
  · rw [hnil] at hr
    cases hr
  · have hsorted := t.sorted
    rw [hlast, List.concat_eq_append, List.pairwise_append] at hsorted
    rw [hlast, List.concat_eq_append] at hr
    rw [hlast, List.concat_eq_append, List.getLast?_concat]
    simp only [Option.elim_some]
    rcases List.mem_append.mp hr with hr | hr
    · have := hsorted.2.2 r hr last (by simp)
      omega
    · rw [List.mem_singleton.mp hr]
      omega

/-- `INSERT` under the next id of the sequence. -/
def append (dialect : Dialect) (now : Int) (t : AuditTable) (gap : Nat) (e : AuditEvent) :
    AuditTable where
  rows := t.rows ++ [⟨nextId t gap, e.stored dialect now⟩]
  sorted := by
    refine List.pairwise_append.mpr ⟨t.sorted, by simp, fun r hr x hx => ?_⟩
    rw [List.mem_singleton.mp hx]
    exact lt_nextId hr

/-! ## The verifier -/

/-- `ChainVerification`. -/
structure ChainVerification where
  total : Nat
  verified : Nat
  intact : Bool
  firstBrokenId : Option Int
  reason : Option String
  unsealed : Nat
  firstUnsealedId : Option Int
  segments : Nat
  verifiedThroughEventId : Option Int
  verifiedThroughEntryHash : Option String
  deriving DecidableEq, Repr

/-- The local variables of `verify_chain`. -/
structure Walk where
  prev : String
  total : Nat
  verified : Nat
  unsealed : Nat
  firstUnsealed : Option Int
  segments : Nat
  verifiedThroughId : Option Int
  verifiedThroughHash : Option String
  deriving DecidableEq, Repr

def Walk.start : Walk := ⟨GENESIS_HASH, 0, 0, 0, none, 1, none, none⟩

/-- `ChainVerification(total, verified, intact, broken, reason, ...)`. -/
def Walk.report (w : Walk) (intact : Bool) (broken : Option Int) (reason : Option String) :
    ChainVerification :=
  ⟨w.total, w.verified, intact, broken, reason, w.unsealed, w.firstUnsealed, w.segments,
    w.verifiedThroughId, w.verifiedThroughHash⟩

/-- The body of the loop of `verify_chain`; an early `return` is an error. -/
def visit (hmac : HmacSha256) (key : ByteArray) (w : Walk) (r : AuditRow) :
    Except ChainVerification Walk :=
  let w := { w with total := w.total + 1 }
  match r.event.entryHash with
  | none => .ok { w with
      unsealed := w.unsealed + 1
      firstUnsealed := w.firstUnsealed.or (some r.id)
      segments := if w.prev ≠ GENESIS_HASH then w.segments + 1 else w.segments
      prev := GENESIS_HASH }
  | some h =>
    if r.event.prevHash ≠ some w.prev then
      .error (w.report false (some r.id) (some "prev_hash_mismatch"))
    else if validSha256Digest (some h) = false ∨
        computeHash hmac key w.prev (entryCanonical r.event) ≠ h then
      .error (w.report false (some r.id) (some "entry_hash_mismatch"))
    else .ok { w with
      verified := w.verified + 1
      prev := h
      verifiedThroughId := some r.id
      verifiedThroughHash := some h }

/-- `verify_chain` over the rows in id order. -/
def verifyRows (hmac : HmacSha256) (key : ByteArray) (rows : List AuditRow) (strict : Bool) :
    ChainVerification :=
  match rows.foldlM (visit hmac key) Walk.start with
  | .error broken => broken
  | .ok w =>
    let intact := if strict then w.verified == w.total else true
    w.report intact none (if intact then none else some "unsealed_events")

/-- `verify_chain`. -/
def verifyChain (hmac : HmacSha256) (key : ByteArray) (t : AuditTable) (limit : Option Nat)
    (strict : Bool) : ChainVerification :=
  verifyRows hmac key (limit.elim t.rows t.rows.take) strict

/-! ## The repair tool -/

/-- The first sealed row after an unsealed one. -/
def sealedAfterGap : Bool → List AuditRow → Option Int
  | _, [] => none
  | seenGap, r :: rs =>
    match r.event.entryHash with
    | none => sealedAfterGap true rs
    | some _ => if seenGap then some r.id else sealedAfterGap seenGap rs

/-- Seal one unsealed row on top of `prev`, and store it. Only a missing `created_at` is written
back, so only that passes through the column. -/
def resealRow (hmac : HmacSha256) (key : ByteArray) (dialect : Dialect) (now : Int) (prev : String)
    (r : AuditRow) : AuditRow :=
  let e := { r.event with createdAt := some (r.event.createdAt.getD (.ofUtc now)) }
  { r with event := { r.event with
      createdAt := some (r.event.createdAt.getD (dialect.stored (.ofUtc now)))
      prevHash := some prev
      entryHash := some (computeHash hmac key prev (entryCanonical e)) } }

/-- The second loop of `reseal_unsealed`: the rows it leaves and how many it sealed. -/
def resealRows (hmac : HmacSha256) (key : ByteArray) (dialect : Dialect) (now : Int) :
    String → List AuditRow → List AuditRow × Nat
  | _, [] => ([], 0)
  | prev, r :: rs =>
    match r.event.entryHash with
    | none =>
      let sealed := resealRow hmac key dialect now prev r
      let rest := resealRows hmac key dialect now (sealed.event.entryHash.getD "") rs
      (sealed :: rest.1, rest.2 + 1)
    | some h =>
      let rest := resealRows hmac key dialect now h rs
      (r :: rest.1, rest.2)

theorem resealRows_ids (hmac : HmacSha256) (key : ByteArray) (dialect : Dialect) (now : Int)
    (prev : String) (rows : List AuditRow) :
    (resealRows hmac key dialect now prev rows).1.map AuditRow.id = rows.map AuditRow.id := by
  induction rows generalizing prev with
  | nil => rfl
  | cons r rs ih =>
      unfold resealRows
      split <;> simp [ih, resealRow]

/-- `reseal_unsealed`: the table afterwards, and the count or the id its error names. -/
def resealUnsealed (hmac : HmacSha256) (key : ByteArray) (dialect : Dialect) (now : Int)
    (t : AuditTable) : AuditTable × Except Int Nat :=
  match sealedAfterGap false t.rows with
  | some id => (t, .error id)
  | none =>
    let done := resealRows hmac key dialect now GENESIS_HASH t.rows
    (⟨done.1, by
      have hids := resealRows_ids hmac key dialect now GENESIS_HASH t.rows
      have hsorted := List.pairwise_map.mpr t.sorted
      rw [← hids] at hsorted
      exact List.pairwise_map.mp hsorted⟩, .ok done.2)

/-! ## Consistency -/

/-- A row that carries a hash. -/
def AuditRow.isSealed (r : AuditRow) : Bool := r.event.entryHash.isSome

/-- The head the verifier holds after a row. -/
def AuditRow.head (r : AuditRow) : String := r.event.entryHash.getD GENESIS_HASH

/-- The head after several rows. -/
def headFrom : String → List AuditRow → String
  | prev, [] => prev
  | _, r :: rs => headFrom r.head rs

section Consistency

variable (hmac : HmacSha256) (key : ByteArray)

/-- If the row is sealed, then on top of `prev`. -/
def Continues (prev : String) (r : AuditRow) : Prop :=
  ∀ h, r.event.entryHash = some h →
    r.event.prevHash = some prev ∧ linkHash hmac key prev r.event.content = h

/-- Every row continues the head before it. -/
def Consistent : String → List AuditRow → Prop
  | _, [] => True
  | prev, r :: rs => Continues hmac key prev r ∧ Consistent r.head rs

end Consistency

variable {hmac : HmacSha256} {key : ByteArray} {prev : String} {rows tail : List AuditRow}
  {r : AuditRow} {w : Walk}

theorem headFrom_append : headFrom prev (rows ++ tail) = headFrom (headFrom prev rows) tail := by
  induction rows generalizing prev with
  | nil => rfl
  | cons r rs ih => exact ih

theorem consistent_append :
    Consistent hmac key prev (rows ++ tail) ↔
      Consistent hmac key prev rows ∧ Consistent hmac key (headFrom prev rows) tail := by
  induction rows generalizing prev with
  | nil => simp [Consistent, headFrom]
  | cons r rs ih => simp [Consistent, headFrom, ih, and_assoc]

theorem Consistent.take (h : Consistent hmac key prev rows) (n : Nat) :
    Consistent hmac key prev (rows.take n) :=
  (consistent_append.mp ((List.take_append_drop n rows).symm ▸ h)).1

theorem continues_of_unsealed (h : r.event.entryHash = none) : Continues hmac key prev r := by
  intro h' hsome
  rw [h] at hsome
  cases hsome

/-! ### The verifier against consistency -/

/-- What a row that passes does to the verifier's variables. -/
def Walk.next (w : Walk) (r : AuditRow) : Walk :=
  match r.event.entryHash with
  | none => { w with
      total := w.total + 1
      unsealed := w.unsealed + 1
      firstUnsealed := w.firstUnsealed.or (some r.id)
      segments := if w.prev ≠ GENESIS_HASH then w.segments + 1 else w.segments
      prev := GENESIS_HASH }
  | some h => { w with
      total := w.total + 1
      verified := w.verified + 1
      prev := h
      verifiedThroughId := some r.id
      verifiedThroughHash := some h }

theorem Walk.prev_next : (w.next r).prev = r.head := by
  unfold Walk.next AuditRow.head
  split
  · next hnone => rw [hnone]; rfl
  · next h hsome => rw [hsome]; rfl

theorem visit_of_continues (h : Continues hmac key w.prev r) :
    visit hmac key w r = .ok (w.next r) := by
  unfold visit Walk.next
  split
  · rfl
  · next hash hsome =>
    obtain ⟨hprev, hhash⟩ := h hash hsome
    have hvalid : validSha256Digest (some hash) = true :=
      hhash ▸ validSha256Digest_computeHash hmac key _ _
    have hcompute : computeHash hmac key w.prev (entryCanonical r.event) = hash := hhash
    simp [hprev, hvalid, hcompute]

/-- The two reports of a mismatch. -/
def IsMismatch (c : ChainVerification) : Prop :=
  c.intact = false ∧
    (c.reason = some "prev_hash_mismatch" ∨ c.reason = some "entry_hash_mismatch")

theorem visit_of_not_continues (h : ¬ Continues hmac key w.prev r) :
    ∃ c, visit hmac key w r = .error c ∧ IsMismatch c := by
  unfold visit
  split
  · next hnone => exact absurd (continues_of_unsealed hnone) h
  · next hash hsome =>
    dsimp only
    split
    · exact ⟨_, rfl, rfl, .inl rfl⟩
    · next hprev =>
      split
      · exact ⟨_, rfl, rfl, .inr rfl⟩
      · next hbad =>
        refine absurd (fun hash' hsome' => ?_) h
        obtain rfl : hash = hash' := by simpa [hsome] using hsome'
        exact ⟨not_not.mp hprev, not_not.mp (not_or.mp hbad).2⟩

theorem foldlM_visit (h : Consistent hmac key w.prev rows) :
    rows.foldlM (visit hmac key) w = .ok (rows.foldl Walk.next w) := by
  induction rows generalizing w with
  | nil => rfl
  | cons r rs ih =>
      rw [List.foldlM_cons, visit_of_continues h.1]
      exact ih (Walk.prev_next ▸ h.2)

theorem foldlM_visit_error (h : ¬ Consistent hmac key w.prev rows) :
    ∃ c, rows.foldlM (visit hmac key) w = .error c ∧ IsMismatch c := by
  induction rows generalizing w with
  | nil => exact absurd trivial h
  | cons r rs ih =>
      rw [List.foldlM_cons]
      by_cases hr : Continues hmac key w.prev r
      · rw [visit_of_continues hr]
        exact ih fun hrest => h ⟨hr, Walk.prev_next ▸ hrest⟩
      · obtain ⟨c, hc, hmis⟩ := visit_of_not_continues hr
        exact ⟨c, by rw [hc]; rfl, hmis⟩

/-- The counters count. -/
theorem walk_counts (rows : List AuditRow) (w : Walk) :
    (rows.foldl Walk.next w).total = w.total + rows.length ∧
    (rows.foldl Walk.next w).verified = w.verified + rows.countP AuditRow.isSealed ∧
    (rows.foldl Walk.next w).unsealed = w.unsealed + rows.countP (fun r => !r.isSealed) ∧
    (rows.foldl Walk.next w).firstUnsealed =
      w.firstUnsealed.or ((rows.find? fun r => !r.isSealed).map AuditRow.id) := by
  induction rows generalizing w with
  | nil => simp
  | cons r rs ih =>
      obtain ⟨ht, hv, hu, hf⟩ := ih (w.next r)
      rw [List.foldl_cons, ht, hv, hu, hf]
      cases hr : r.event.entryHash with
      | none =>
          have hs : r.isSealed = false := by simp [AuditRow.isSealed, hr]
          simp [Walk.next, hr, hs]
          omega
      | some h =>
          have hs : r.isSealed = true := by simp [AuditRow.isSealed, hr]
          simp [Walk.next, hr, hs]
          omega

/-- What `verify_chain` reports of a table without mismatch, against a plain count of its rows. -/
structure Counts (c : ChainVerification) (rows : List AuditRow) : Prop where
  total : c.total = rows.length
  verified : c.verified = rows.countP AuditRow.isSealed
  unsealed : c.unsealed = rows.countP fun r => !r.isSealed
  firstUnsealed : c.firstUnsealedId = (rows.find? fun r => !r.isSealed).map AuditRow.id

theorem verifyRows_of_consistent (h : Consistent hmac key GENESIS_HASH rows) (strict : Bool) :
    Counts (verifyRows hmac key rows strict) rows ∧
      ((verifyRows hmac key rows strict).intact = true ↔
        strict = true → ∀ r ∈ rows, r.isSealed = true) ∧
      (verifyRows hmac key rows strict).reason =
        if (verifyRows hmac key rows strict).intact then none else some "unsealed_events" := by
  obtain ⟨ht, hv, hu, hf⟩ := walk_counts rows Walk.start
  have hfold := foldlM_visit (w := Walk.start) h
  simp only [verifyRows, hfold, Walk.report]
  refine ⟨⟨?_, ?_, ?_, ?_⟩, ?_, trivial⟩
  · simpa [Walk.start] using ht
  · simpa [Walk.start] using hv
  · simpa [Walk.start] using hu
  · simpa [Walk.start] using hf
  · cases strict with
    | false => simp
    | true =>
        rw [hv, ht]
        simp [Walk.start, List.countP_eq_length]

theorem verifyRows_of_not_consistent (h : ¬ Consistent hmac key GENESIS_HASH rows)
    (strict : Bool) : IsMismatch (verifyRows hmac key rows strict) := by
  obtain ⟨c, hc, hmis⟩ := foldlM_visit_error (w := Walk.start) h
  simpa only [verifyRows, hc] using hmis

/-- Strict verification accepts exactly the consistent tables without a gap. -/
theorem verifyRows_strict :
    (verifyRows hmac key rows true).intact = true ↔
      Consistent hmac key GENESIS_HASH rows ∧ ∀ r ∈ rows, r.isSealed = true := by
  by_cases h : Consistent hmac key GENESIS_HASH rows
  · rw [(verifyRows_of_consistent h true).2.1]
    simp [h]
  · have hmis := (verifyRows_of_not_consistent h true).1
    simp [h, hmis]

/-! ### The writer against consistency -/

theorem computeHash_ne_empty {canonical : String} : computeHash hmac key prev canonical ≠ "" := by
  intro h
  have hvalid := validSha256Digest_computeHash hmac key prev canonical
  rw [h] at hvalid
  revert hvalid
  decide

/-- On consistent rows the writer and the verifier agree on the head. -/
theorem lastHash_of_consistent {t : AuditTable} (h : Consistent hmac key GENESIS_HASH t.rows) :
    lastHash t none = headFrom GENESIS_HASH t.rows := by
  show orGenesis (t.rows.getLast?.bind fun r => r.event.entryHash) = _
  rcases List.eq_nil_or_concat t.rows with hnil | ⟨init, last, hlast⟩
  · rw [hnil]
    rfl
  · rw [hlast, List.concat_eq_append] at h ⊢
    rw [List.getLast?_concat, headFrom_append]
    have hcont : Continues hmac key _ last := (consistent_append.mp h).2.1
    show orGenesis last.event.entryHash = last.head
    cases hhash : last.event.entryHash with
    | none => simp [orGenesis, AuditRow.head, hhash]
    | some hash =>
        have hne : hash ≠ "" := by
          rw [← (hcont hash hhash).2]
          exact computeHash_ne_empty
        simp [orGenesis, AuditRow.head, hhash, hne]

/-- A new event's timestamp is missing or in UTC. -/
def AuditEvent.StampedUtc (e : AuditEvent) : Prop := ∀ d, e.createdAt = some d → ∃ i, d = .ofUtc i

theorem sealEvent_createdAt (hmac : HmacSha256) (key : ByteArray) (t : AuditTable) (now : Int)
    {e : AuditEvent} (h : e.StampedUtc) :
    ∃ i, (sealEvent hmac key t now e).createdAt = some (.ofUtc i) := by
  cases hc : e.createdAt with
  | none => exact ⟨now, by simp [sealEvent, hc]⟩
  | some d =>
      obtain ⟨i, rfl⟩ := h d hc
      exact ⟨i, by simp [sealEvent, hc]⟩

/-- What the database returns of a sealed event is still under its hash. -/
theorem continues_sealEvent {t : AuditTable} {dialect : Dialect} {now : Int} {id : Int}
    {e : AuditEvent} (h : e.StampedUtc) :
    Continues hmac key (lastHash t none)
      ⟨id, (sealEvent hmac key t now e).stored dialect now⟩ := by
  intro hash hsome
  refine ⟨rfl, ?_⟩
  obtain ⟨i, hi⟩ := sealEvent_createdAt hmac key t now h
  show linkHash hmac key _ ((sealEvent hmac key t now e).stored dialect now).content = hash
  rw [AuditEvent.content_stored hi]
  exact Option.some.inj hsome

/-! ### The repair tool against consistency -/

section Reseal

variable {dialect : Dialect} {now : Int}

theorem content_resealRow :
    (resealRow hmac key dialect now prev r).event.content =
      AuditEvent.content { r.event with createdAt := some (r.event.createdAt.getD (.ofUtc now)) } := by
  cases hc : r.event.createdAt with
  | none => simp [resealRow, AuditEvent.content, canonicalDatetime, hc, Dialect.utc_stored_ofUtc]
  | some d => simp [resealRow, AuditEvent.content, canonicalDatetime, hc]

theorem continues_resealRow :
    Continues hmac key prev (resealRow hmac key dialect now prev r) := by
  intro h hsome
  refine ⟨rfl, ?_⟩
  rw [content_resealRow]
  exact Option.some.inj hsome

theorem sealedAfterGap_true (h : sealedAfterGap true rows = none) :
    ∀ r ∈ rows, r.event.entryHash = none := by
  induction rows with
  | nil => simp
  | cons r rs ih =>
      unfold sealedAfterGap at h
      split at h
      · next hnone => simpa [hnone] using ih h
      · simp at h

variable (hmac key dialect now)

/-- Resealing unsealed rows gives consistent sealed rows, whatever head it starts from. -/
theorem resealRows_unsealed (prev : String) (h : ∀ r ∈ rows, r.event.entryHash = none) :
    Consistent hmac key prev (resealRows hmac key dialect now prev rows).1 ∧
      ∀ r ∈ (resealRows hmac key dialect now prev rows).1, r.isSealed = true := by
  induction rows generalizing prev with
  | nil => exact ⟨trivial, by simp [resealRows]⟩
  | cons r rs ih =>
      have hr := h r List.mem_cons_self
      have hrest := ih ((resealRow hmac key dialect now prev r).event.entryHash.getD "")
        fun x hx => h x (List.mem_cons_of_mem _ hx)
      unfold resealRows
      rw [hr]
      refine ⟨⟨continues_resealRow, hrest.1⟩, ?_⟩
      intro x hx
      rcases List.mem_cons.mp hx with rfl | hx
      · rfl
      · exact hrest.2 x hx

/-- Resealing a table whose gap is a tail leaves every row sealed, and the table is consistent
exactly when its sealed prefix was. -/
theorem consistent_resealRows (prev : String) (h : sealedAfterGap false rows = none) :
    (Consistent hmac key prev (resealRows hmac key dialect now prev rows).1 ↔
        Consistent hmac key prev (rows.takeWhile AuditRow.isSealed)) ∧
      ∀ r ∈ (resealRows hmac key dialect now prev rows).1, r.isSealed = true := by
  induction rows generalizing prev with
  | nil => exact ⟨Iff.rfl, by simp [resealRows]⟩
  | cons r rs ih =>
      cases hr : r.event.entryHash with
      | none =>
          have htail : ∀ x ∈ r :: rs, x.event.entryHash = none := by
            simp only [sealedAfterGap, hr] at h
            simpa [hr] using sealedAfterGap_true h
          have hunsealed : r.isSealed = false := by simp [AuditRow.isSealed, hr]
          obtain ⟨hcons, hall⟩ := resealRows_unsealed hmac key dialect now prev htail
          refine ⟨iff_of_true hcons ?_, hall⟩
          rw [List.takeWhile_cons_of_neg (by simp [hunsealed])]
          trivial
      | some hash =>
          have hsealed : r.isSealed = true := by simp [AuditRow.isSealed, hr]
          have hhead : r.head = hash := by simp [AuditRow.head, hr]
          have hgap : sealedAfterGap false rs = none := by
            simpa [sealedAfterGap, hr] using h
          obtain ⟨hiff, hall⟩ := ih hash hgap
          have hstep : (resealRows hmac key dialect now prev (r :: rs)).1 =
              r :: (resealRows hmac key dialect now hash rs).1 := by
            rw [resealRows, hr]
          rw [hstep, List.takeWhile_cons_of_pos hsealed]
          refine ⟨by simp only [Consistent, hhead, hiff], ?_⟩
          intro x hx
          rcases List.mem_cons.mp hx with rfl | hx
          · exact hsealed
          · exact hall x hx

variable {hmac key dialect now}

/-- Rows that had a hash are not touched. -/
theorem resealRows_forall₂ :
    List.Forall₂ (fun r r' : AuditRow => r'.id = r.id ∧ (r.event.entryHash ≠ none → r' = r))
      rows (resealRows hmac key dialect now prev rows).1 := by
  induction rows generalizing prev with
  | nil => exact .nil
  | cons r rs ih =>
      unfold resealRows
      split
      · next hnone => exact .cons ⟨rfl, fun h => absurd hnone h⟩ ih
      · exact .cons ⟨rfl, fun _ => rfl⟩ ih

end Reseal

end Scap.Audit
