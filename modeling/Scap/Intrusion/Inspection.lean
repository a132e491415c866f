import Mathlib.Data.List.DropRight
import Scap.Intrusion.Runs
import Scap.Lib.History
import Scap.Py.Json

/-!
# The inspection of requests

`inspect_intrusion`: a request is answered 403 if its source is banned; otherwise its hits are
recorded in one transaction with the audit entries about them, and the source is looked at again
before the request goes on. Any number of workers inspect at once, so that between the look of a
request and its transaction others may commit and administrators may lift bans.

* `banned_kept_out` — a ban that is not lifted keeps out every request that is decided before its
  end, also one that was looked at before; nobody is kept out without an entry in the audit trail,
  nor told to wait longer than a ban lasts;
* `inspection_audited` — the operational history is the latest of the hits that the audit trail
  names, a request that goes on has left all of its hits there, and the entries of bans are as many
  as the bans.
-/

namespace Scap.Intrusion

open Scap.Py Scap.Lib IntrusionDb

/-! ## What a request is searched for -/

/-- What `scan_text` says of a rule that matches. -/
structure Hit where
  ruleId : String
  severity : String
  description : String
  evidence : String
  deriving DecidableEq, Repr

/-- A `Detection`, its time in microseconds. -/
structure Finding where
  ruleId : String
  severity : String
  engine : String
  description : String
  sourceIp : String
  path : String
  method : String
  evidenceSha256 : String
  mitreTechnique : Option String
  detectedAt : Int
  deriving DecidableEq, Repr

/-- The patterns, the digest of a text, and `json.dumps(detection.as_dict())`. -/
structure Scanner where
  scanText : String → List Hit
  scannerAgent : String → Bool
  decoyPath : String → Bool
  fingerprint : String → String
  dumps : Finding → String

/-- What the inspection reads of a request: `client_ip`, the decoded path and the raw query of the
scope, the method and `client_user_agent`. -/
structure Inspected where
  sourceIp : String
  path : String
  query : String
  method : String
  userAgent : String
  deriving DecidableEq, Repr

/-- `text[:n]`. -/
def cut (n : Nat) (text : String) : String := String.ofList (text.toList.take n)

def exportsPrefix : String := "/api/exports/"

def redactedPath : String := "/api/exports/[capability-redacted]"

/-- `_audit_safe_path`. -/
def auditSafePath (path : String) : String :=
  if exportsPrefix.toList <+: path.toList then redactedPath else cut 200 path

def t1190Rules : List String :=
  ["SQLI-001", "SQLI-002", "SQLI-003", "XSS-001", "XSS-002", "TRAV-001", "CMDI-001", "SSTI-001",
    "LOGI-001", "NOSQ-001"]

/-- `mitre_technique_for_rule`. -/
def mitreTechniqueForRule (ruleId : String) : Option String :=
  if ruleId ∈ t1190Rules then some "T1190" else none

section Findings

variable (sc : Scanner) (r : Inspected) (now : Int)

/-- The detection of a rule in a request. -/
def finding (hit : Hit) (mitreTechnique : Option String) : Finding where
  ruleId := hit.ruleId
  severity := hit.severity
  engine := "signature"
  description := hit.description
  sourceIp := r.sourceIp
  path := auditSafePath r.path
  method := r.method
  evidenceSha256 := sc.fingerprint hit.evidence
  mitreTechnique := mitreTechnique
  detectedAt := now

def toolHit (userAgent : String) : Hit :=
  ⟨"TOOL-001", "medium", "User-Agent của công cụ quét lỗ hổng tự động", cut 120 userAgent⟩

def reconHit (path : String) : Hit :=
  ⟨"RECON-001", "medium", "Dò đường dẫn nhạy cảm không tồn tại trên hệ thống này", cut 120 path⟩

/-- The detections of a request. -/
def findingsOf : List Finding :=
  (sc.scanText (r.path ++ "?" ++ r.query)).map
      (fun hit => finding sc r now hit (mitreTechniqueForRule hit.ruleId)) ++
    (if sc.scannerAgent r.userAgent then [finding sc r now (toolHit r.userAgent) none] else []) ++
    if sc.decoyPath r.path then [finding sc r now (reconHit r.path) none] else []

/-- What the intrusion state gets of it. -/
def Finding.detection (f : Finding) : Detection := ⟨f.sourceIp, f.severity, sc.dumps f⟩

end Findings

/-! ## What is written about it -/

/-- An entry as it is handed to `record_audits`. -/
structure Entry where
  eventType : String
  outcome : String
  targetType : String
  targetId : String
  details : List (String × Scalar)
  deriving DecidableEq, Repr

/-- `ids.signature`. -/
def signatureEntry (blocked : Bool) (f : Finding) : Entry where
  eventType := "ids.signature"
  outcome := if blocked then "blocked" else "denied"
  targetType := "request"
  targetId := f.ruleId
  details := [("rule", .str f.ruleId), ("severity", .str f.severity),
    ("mitre_technique", .ofOption f.mitreTechnique), ("path", .str f.path),
    ("method", .str f.method), ("evidence_sha256", .str f.evidenceSha256)]

/-- `ids.block`. -/
def blockEntry (cfg : Settings) (sourceIp : String) : Entry where
  eventType := "ids.block"
  outcome := "blocked"
  targetType := "source_ip"
  targetId := sourceIp
  details := [("block_seconds", .int cfg.blockSeconds)]

/-- `ids.unblock`. -/
def unblockEntry (sourceIp : String) (removed : Bool) : Entry where
  eventType := "ids.unblock"
  outcome := if removed then "success" else "failure"
  targetType := "source_ip"
  targetId := sourceIp
  details := []

/-! ## The transaction -/

/-- `None`, or the 403 with its `Retry-After`. -/
inductive Outcome where
  | passed
  | forbidden (retryAfter : Int)
  deriving DecidableEq, Repr

/-- A request that was looked at and has to be recorded. -/
structure Held where
  request : Inspected
  findings : List Finding
  deriving DecidableEq, Repr

/-- A request that was decided, at a reading of the clock. -/
structure Decided where
  request : Inspected
  readAt : Int
  answer : Outcome
  deriving DecidableEq, Repr

/-- What a transaction commits and how it answers. -/
structure Committed where
  tables : Tables
  entries : List Entry
  answer : Outcome

section Transaction

variable (sc : Scanner) (cfg : Settings) (now later : Int)

/-- The transaction of a request: `record_many` at one reading of the clock, `is_blocked` at the
next, and the entries. -/
def transact (s : Tables) (h : Held) : Committed :=
  let detections := h.findings.map (Finding.detection sc)
  let newlyBlocked := (s.db.recordMany cfg now detections).2
  let t := s.after cfg (.recordMany now detections)
  let (blocked, retryAfter) := t.db.isBlocked later h.request.sourceIp
  { tables := t
    entries := h.findings.map (signatureEntry blocked) ++
      if newlyBlocked then [blockEntry cfg h.request.sourceIp] else []
    answer := if newlyBlocked || blocked then
        .forbidden (if blocked then retryAfter else cfg.blockSeconds)
      else .passed }

end Transaction

/-! ## The workers together -/

/-- The database, the requests between their look and their transaction, and every decision. `clock`
is the last reading of a transaction: what is read later of committed rows is not before it. -/
structure Gate where
  tables : Tables
  clock : Int
  audit : List Entry
  held : List Held
  decided : List Decided

inductive GateAct where
  /-- The first `is_blocked` of a request, and what its text is searched for. -/
  | look (now : Int) (r : Inspected)
  /-- The transaction of a request commits. -/
  | commit (now later : Int) (h : Held)
  /-- It does not: the request is answered with an error. -/
  | fail (h : Held)
  /-- `ids_unblock`. -/
  | unblock (now : Int) (sourceIp : String)
  deriving DecidableEq, Repr

section Steps

variable (sc : Scanner) (cfg : Settings) (m : Gate)

def look (now : Int) (r : Inspected) : Gate :=
  let (blocked, retryAfter) := m.tables.db.isBlocked now r.sourceIp
  if blocked then { m with decided := m.decided ++ [⟨r, now, .forbidden retryAfter⟩] }
  else
    let findings := findingsOf sc r now
    if findings.isEmpty then { m with decided := m.decided ++ [⟨r, now, .passed⟩] }
    else { m with held := m.held ++ [⟨r, findings⟩] }

def commit (now later : Int) (h : Held) : Gate :=
  let done := transact sc cfg now later m.tables h
  { tables := done.tables
    clock := later
    audit := m.audit ++ done.entries
    held := m.held.erase h
    decided := m.decided ++ [⟨h.request, later, done.answer⟩] }

def liftBan (now : Int) (ip : String) : Gate :=
  { m with
    tables := m.tables.after cfg (.unblock now ip)
    clock := now
    audit := m.audit ++ [unblockEntry ip (m.tables.db.unblock now ip).2] }

def stepGate : GateAct → Option Gate
  | .look now r => if now < m.clock then none else some (look sc m now r)
  | .commit now later h =>
      if h ∈ m.held ∧ m.clock ≤ now ∧ now ≤ later then some (commit sc cfg m now later h) else none
  | .fail h => if h ∈ m.held then some { m with held := m.held.erase h } else none
  | .unblock now ip => if now < m.clock then none else some (liftBan cfg m now ip)

end Steps

def Gate.Initial (m : Gate) : Prop :=
  m.tables.db.detections = .empty ∧ m.tables.db.sources = .empty ∧
    (m.tables.recorded = fun _ => []) ∧ m.audit = [] ∧ m.held = [] ∧ m.decided = []

def gateSystem (sc : Scanner) (cfg : Settings) : System Gate GateAct :=
  System.ofFun Gate.Initial (stepGate sc cfg)

variable {sc : Scanner} {cfg : Settings} {now later : Int} {ip other : String} {s t : Tables}
  {m n : Gate} {a : GateAct} {ds : List Detection} {h : Held}

/-! ## What a transaction does to the bans -/

theorem bannedUntil_unique {db : IntrusionDb} {u v : Int} (hu : BannedUntil db ip u)
    (hv : BannedUntil db ip v) : u = v := by
  obtain ⟨r, hr, hru⟩ := hu
  obtain ⟨r', hr', hrv⟩ := hv
  obtain rfl := Option.some.inj (hr.symm.trans hr')
  exact Option.some.inj (hru.symm.trans hrv)

/-- The detections of one source ban no other. -/
theorem bannedUntil_within (hs : TablesInv cfg now s) (hds : ∀ d ∈ ds, d.sourceIp = ip)
    (hne : other ≠ ip) {until_ : Int}
    (hban : BannedUntil (ds.foldl (Tables.track cfg now) s).db other until_) :
    BannedUntil s.db other until_ := by
  induction ds generalizing s with
  | nil => exact hban
  | cons d ds ih =>
      have hfirst := track_spec (d := d) hs
      rw [List.foldl_cons] at hban
      rcases hfirst.began other until_ (ih hfirst.inv (fun x hx => hds x (by simp [hx])) hban) with
        hold | ⟨-, hself, -⟩
      · exact hold
      · exact absurd (hself.trans (hds d (by simp))) hne

/-- What `record_many` does for one source, at a moment. -/
structure Records (cfg : Settings) (now : Int) (ip : String) (s t : Tables) (newly : Bool) :
    Prop where
  inv : TablesInv cfg now t
  bans : ∀ other until_, BannedUntil t.db other until_ ↔
    (BannedUntil s.db other until_ ∧ now < until_) ∨
      newly = true ∧ other = ip ∧ until_ = now + cfg.block
  free : newly = true → ∀ until_, BannedUntil s.db ip until_ → until_ ≤ now

theorem records (hs : TablesInv cfg now s) (hne : ds ≠ []) (hds : ∀ d ∈ ds, d.sourceIp = ip) :
    Records cfg now ip s (s.after cfg (.recordMany now ds)) (s.db.recordMany cfg now ds).2 := by
  obtain ⟨hdb, hspec⟩ := within_spec hs hne
  have hpruned : ∀ ip until_, BannedUntil (s.prune cfg now).db ip until_ ↔
      BannedUntil s.db ip until_ ∧ now < until_ := fun _ _ => bannedUntil_prune
  -- a ban that began is one of the source
  have hself : ∀ other until_, BannedUntil (s.within cfg now ds).db other until_ →
      BannedUntil (s.prune cfg now).db other until_ ∨ other = ip ∧ until_ = now + cfg.block := by
    intro other until_ hban
    rcases hspec.began other until_ hban with hold | hlength
    · exact .inl hold
    · by_cases hother : other = ip
      · exact .inr ⟨hother, hlength⟩
      · exact .inl (bannedUntil_within (prune_inv hs) hds hother hban)
  -- and began just when `record_many` says so
  have hnewly : (s.db.recordMany cfg now ds).2 = true →
      (∀ until_, ¬ BannedUntil (s.prune cfg now).db ip until_) ∧
        BannedUntil (s.within cfg now ds).db ip (now + cfg.block) := by
    intro htrue
    obtain ⟨other, hnot, until_, hban⟩ := hspec.transition.mp htrue
    rcases hself other until_ hban with hold | ⟨rfl, rfl⟩
    · exact absurd hold (hnot until_)
    · exact ⟨hnot, hban⟩
  refine ⟨after_inv (c := .recordMany now ds) hs, ?_, ?_⟩
  · intro other until_
    show BannedUntil (s.db.recordMany cfg now ds).1 other until_ ↔ _
    rw [hdb, ← hpruned]
    constructor
    · intro hban
      rcases hself other until_ hban with hold | ⟨rfl, rfl⟩
      · exact .inl hold
      · by_cases hbefore : ∃ u, BannedUntil (s.prune cfg now).db other u
        · obtain ⟨u, hu⟩ := hbefore
          obtain rfl := bannedUntil_unique (hspec.kept other u hu) hban
          exact .inl hu
        · exact .inr ⟨hspec.transition.mpr ⟨other, not_exists.mp hbefore, _, hban⟩, rfl, rfl⟩
    · rintro (hold | ⟨htrue, rfl, rfl⟩)
      · exact hspec.kept other until_ hold
      · exact (hnewly htrue).2
  · intro htrue until_ hban
    apply not_lt.mp
    intro hlater
    exact (hnewly htrue).1 until_ ((hpruned ip until_).mpr ⟨hban, hlater⟩)

/-- Whom `record_many` bans. -/
theorem Records.newly_iff {newly : Bool} (hrec : Records cfg now ip s t newly) :
    newly = true ↔ ¬ Banned s.db now ip ∧ Banned t.db now ip := by
  have hpos := cfg.block_pos
  simp only [banned_iff, not_exists, not_and]
  constructor
  · intro htrue
    refine ⟨fun until_ hban => not_lt.mpr (hrec.free htrue until_ hban), now + cfg.block, ?_, ?_⟩
    · exact (hrec.bans ip _).mpr (.inr ⟨htrue, rfl, rfl⟩)
    · omega
  · rintro ⟨hfree, until_, hban, hlater⟩
    rcases (hrec.bans ip until_).mp hban with ⟨hold, -⟩ | ⟨htrue, -⟩
    · exact absurd hlater (hfree until_ hold)
    · exact htrue

/-- A lifted ban is gone, and no other. -/
theorem bannedUntil_unblock {until_ : Int}
    (hban : BannedUntil (s.db.unblock now ip).1 other until_) :
    other ≠ ip ∧ BannedUntil s.db other until_ := by
  unfold IntrusionDb.unblock at hban
  split at hban
  · next hnone =>
    refine ⟨?_, hban⟩
    rintro rfl
    obtain ⟨r, hr, -⟩ := hban
    cases hr.symm.trans hnone
  · obtain ⟨r, hr, hblocked⟩ := hban
    have hne : other ≠ ip := by
      rintro rfl
      cases hr.symm.trans Dict.get_pop_self
    exact ⟨hne, r, (Dict.get_pop_of_ne hne).symm.trans hr, hblocked⟩

/-! ## The history of detections -/

/-- The latest `n`, and then more. -/
theorem rtake_append_rtake {α : Type} (n : Nat) (xs ys : List α) :
    (xs.rtake n ++ ys).rtake n = (xs ++ ys).rtake n := by
  unfold List.rtake
  rw [List.drop_append, List.drop_append, List.drop_drop]
  simp only [List.length_append, List.length_drop]
  congr 2 <;> omega

/-- The texts of the detections that are kept, the latest last. -/
def payloads (db : IntrusionDb) : List String := db.detections.rows.map DetectionRow.payloadJson

/-- A detection is the latest of those that are kept. -/
theorem payloads_retainDetection {db : IntrusionDb} {d : Detection}
    (hids : ∀ r ∈ db.detections.rows, r.id < db.nextId) :
    payloads (db.retainDetection cfg d) = (payloads db ++ [d.payloadJson]).rtake cfg.history := by
  have hpos := cfg.history_pos
  obtain ⟨u, hu, hrows⟩ :=
    KeyedTable.insert?_of_above (t := db.detections) (r := ⟨db.nextId, d.payloadJson⟩) hids
  have hnew : (db.detections.insertNew ⟨db.nextId, d.payloadJson⟩).rows =
      db.detections.rows ++ [⟨db.nextId, d.payloadJson⟩] := by
    rw [KeyedTable.insertNew, hu]
    exact hrows
  have hmap : payloads db ++ [d.payloadJson] =
      (db.detections.insertNew ⟨db.nextId, d.payloadJson⟩).rows.map DetectionRow.payloadJson := by
    rw [hnew, List.map_append]
    rfl
  rw [hmap]
  unfold payloads IntrusionDb.retainDetection
  dsimp only
  split
  · next oldest hget =>
    rw [KeyedTable.rows_filter_from hget, List.map_drop]
    unfold List.rtake
    rw [List.length_map]
    congr 1
    omega
  · next hget =>
    have hlength := List.getElem?_eq_none_iff.mp hget
    rw [List.length_reverse] at hlength
    unfold List.rtake
    rw [List.length_map, Nat.sub_eq_zero_of_le (by omega), List.drop_zero]

theorem detections_recordLocked {db : IntrusionDb} {d : Detection} :
    (db.recordLocked cfg now d).1.detections = (db.retainDetection cfg d).detections := by
  unfold IntrusionDb.recordLocked
  dsimp only
  split
  · rfl
  · split
    · split <;> rfl
    · rfl

/-- All of a request are. -/
theorem payloads_recordAll (hs : TablesInv cfg now s) (ds : List Detection) :
    payloads (recordAll cfg now s.db ds).1 =
      (payloads s.db ++ ds.map Detection.payloadJson).rtake cfg.history := by
  induction ds generalizing s with
  | nil =>
      have hle : (payloads s.db).length ≤ cfg.history := by
        rw [payloads, List.length_map]
        exact hs.detections_le
      rw [List.map_nil, List.append_nil, List.rtake, Nat.sub_eq_zero_of_le hle]
      rfl
  | cons d ds ih =>
      have hfirst : payloads (s.track cfg now d).db =
          (payloads s.db ++ [d.payloadJson]).rtake cfg.history := by
        rw [← payloads_retainDetection hs.ids]
        show List.map _ (s.db.recordLocked cfg now d).1.detections.rows = _
        rw [detections_recordLocked]
        rfl
      have hrest := ih (track_spec (d := d) hs).inv
      rw [hfirst, rtake_append_rtake, List.append_assoc] at hrest
      exact hrest

/-! ## A request's transaction -/

/-- How long one is told to wait. -/
theorem isBlocked_snd {db : IntrusionDb} (hban : Banned db now ip)
    (hle : ∀ until_, BannedUntil db ip until_ → until_ ≤ now + cfg.block) :
    1 ≤ (db.isBlocked now ip).2 ∧ (db.isBlocked now ip).2 ≤ cfg.blockSeconds := by
  have hpos := cfg.blockSeconds_pos
  obtain ⟨until_, ⟨r, hr, hblocked⟩, hlater⟩ := banned_iff.mp hban
  have hends := hle until_ ⟨r, hr, hblocked⟩
  unfold Settings.block at hends
  have heq : db.isBlocked now ip = (true, max 1 ((until_ - now) / 1000000)) := by
    unfold IntrusionDb.isBlocked
    rw [hr, Option.bind_some, hblocked]
    exact if_pos hlater
  rw [heq]
  dsimp only
  omega

/-- What a request's transaction commits: `newly` if it bans the source, `blocked` if that is banned
when it is looked at again. -/
structure Transacts (sc : Scanner) (cfg : Settings) (now later : Int) (s : Tables) (h : Held)
    (done : Committed) (newly blocked : Bool) : Prop where
  records : Records cfg now h.request.sourceIp s done.tables newly
  history : payloads done.tables.db =
    (payloads s.db ++ h.findings.map sc.dumps).rtake cfg.history
  entries : done.entries = h.findings.map (signatureEntry blocked) ++
    if newly then [blockEntry cfg h.request.sourceIp] else []
  blocked_iff : blocked = true ↔ Banned done.tables.db later h.request.sourceIp
  passed : done.answer = .passed ↔ newly = false ∧ blocked = false
  retry : ∀ retryAfter, done.answer = .forbidden retryAfter →
    retryAfter = if blocked then (done.tables.db.isBlocked later h.request.sourceIp).2
      else cfg.blockSeconds

theorem transacts (hs : TablesInv cfg now s) (hne : h.findings ≠ [])
    (hsource : ∀ f ∈ h.findings, f.sourceIp = h.request.sourceIp) :
    ∃ newly blocked,
      Transacts sc cfg now later s h (transact sc cfg now later s h) newly blocked := by
  have hne' : h.findings.map (Finding.detection sc) ≠ [] := by simpa using hne
  have hds : ∀ d ∈ h.findings.map (Finding.detection sc), d.sourceIp = h.request.sourceIp := by
    intro d hd
    obtain ⟨f, hf, rfl⟩ := List.mem_map.mp hd
    exact hsource f hf
  obtain ⟨hdb, -⟩ := within_spec hs hne'
  let done := s.after cfg (.recordMany now (h.findings.map (Finding.detection sc)))
  refine ⟨_, (done.db.isBlocked later h.request.sourceIp).1, records hs hne' hds, ?_, rfl, Iff.rfl,
    ?_, ?_⟩
  · show payloads (s.db.recordMany cfg now _).1 = _
    unfold IntrusionDb.recordMany
    rw [if_neg (by simpa using hne')]
    have hall := payloads_recordAll (prune_inv hs) (h.findings.map (Finding.detection sc))
    rw [List.map_map] at hall
    exact hall
  · unfold transact
    dsimp only
    split
    · next hor =>
      rw [Bool.or_eq_true] at hor
      constructor
      · intro heq
        cases heq
      · rintro ⟨hfree, hunblocked⟩
        rcases hor with hor | hor
        · cases hor.symm.trans hfree
        · cases hor.symm.trans hunblocked
    · next hnor =>
      rw [Bool.or_eq_true, not_or, Bool.not_eq_true, Bool.not_eq_true] at hnor
      exact iff_of_true rfl hnor
  · intro retryAfter
    unfold transact
    dsimp only
    split
    · intro heq
      exact (Outcome.forbidden.inj heq).symm
    · intro heq
      cases heq

/-! ## What a step does -/

/-- The first look at a request. -/
theorem look_cases (sc : Scanner) (m : Gate) (now : Int) (r : Inspected) :
    (Banned m.tables.db now r.sourceIp ∧ look sc m now r = { m with
      decided := m.decided ++ [⟨r, now, .forbidden (m.tables.db.isBlocked now r.sourceIp).2⟩] }) ∨
    (¬ Banned m.tables.db now r.sourceIp ∧ findingsOf sc r now = [] ∧
      look sc m now r = { m with decided := m.decided ++ [⟨r, now, .passed⟩] }) ∨
    (findingsOf sc r now ≠ [] ∧
      look sc m now r = { m with held := m.held ++ [⟨r, findingsOf sc r now⟩] }) := by
  unfold look Banned
  dsimp only
  split
  · next hblocked => exact .inl ⟨hblocked, rfl⟩
  · next hfree =>
    split
    · next hempty => exact .inr (.inl ⟨hfree, List.isEmpty_iff.mp hempty, rfl⟩)
    · next hsome => exact .inr (.inr ⟨fun hnil => hsome (List.isEmpty_iff.mpr hnil), rfl⟩)

/-- What a step can be. -/
theorem gate_cases (hstep : (gateSystem sc cfg).step m a n) :
    (∃ now r, a = .look now r ∧ m.clock ≤ now ∧ n = look sc m now r) ∨
    (∃ now later h, a = .commit now later h ∧ h ∈ m.held ∧ m.clock ≤ now ∧ now ≤ later ∧
      n = commit sc cfg m now later h) ∨
    (∃ h, a = .fail h ∧ n = { m with held := m.held.erase h }) ∨
    ∃ now ip, a = .unblock now ip ∧ m.clock ≤ now ∧ n = liftBan cfg m now ip := by
  cases a with
  | look now r =>
      obtain ⟨hle, rfl⟩ := of_guarded hstep
      exact .inl ⟨now, r, rfl, not_lt.mp hle, rfl⟩
  | commit now later h =>
      obtain ⟨⟨hh, hle, hlater⟩, rfl⟩ := of_allowed hstep
      exact .inr (.inl ⟨now, later, h, rfl, hh, hle, hlater, rfl⟩)
  | fail h =>
      obtain ⟨-, rfl⟩ := of_allowed hstep
      exact .inr (.inr (.inl ⟨h, rfl, rfl⟩))
  | unblock now ip =>
      obtain ⟨hle, rfl⟩ := of_guarded hstep
      exact .inr (.inr (.inr ⟨now, ip, rfl, not_lt.mp hle, rfl⟩))

/-! ## What a request is searched for -/

theorem sourceIp_of_mem {r : Inspected} {f : Finding} (hf : f ∈ findingsOf sc r now) :
    f.sourceIp = r.sourceIp ∧ f.path = auditSafePath r.path := by
  unfold findingsOf at hf
  rcases List.mem_append.mp hf with hf | hf
  · rcases List.mem_append.mp hf with hf | hf
    · obtain ⟨hit, -, rfl⟩ := List.mem_map.mp hf
      exact ⟨rfl, rfl⟩
    · split at hf
      · obtain rfl := List.mem_singleton.mp hf
        exact ⟨rfl, rfl⟩
      · cases hf
  · split at hf
    · obtain rfl := List.mem_singleton.mp hf
      exact ⟨rfl, rfl⟩
    · cases hf

/-- The entries of a request do not depend on when it was looked at. -/
theorem signatureEntry_findingsOf (r : Inspected) (now later : Int) (blocked : Bool) :
    (findingsOf sc r now).map (signatureEntry blocked) =
      (findingsOf sc r later).map (signatureEntry blocked) := by
  unfold findingsOf
  simp only [List.map_append, List.map_map]
  congr 1
  · congr 1
    split <;> rfl
  · split <;> rfl

/-- The path of an export does not get into a detection. -/
theorem auditSafePath_redacts {path : String}
    (hpath : exportsPrefix.toList <+: (auditSafePath path).toList) :
    auditSafePath path = redactedPath := by
  unfold auditSafePath at hpath ⊢
  split
  · rfl
  · next hnot =>
    rw [if_neg hnot, cut, String.toList_ofList] at hpath
    have hcut := List.take_prefix 200 path.toList
    exact absurd (hpath.trans hcut) hnot

/-! ## What holds in every run -/

def isSignature (e : Entry) : Bool := e.eventType = "ids.signature"

/-- An `ids.block` of a source stands in the audit trail. -/
def BlockStands (cfg : Settings) (ip : String) (audit : List Entry) : Prop :=
  ∃ i, Stands (· = blockEntry cfg ip) (· = unblockEntry ip true) audit i audit.length

/-- Bans, answers and tables are all told by the audit. -/
structure GateInv (sc : Scanner) (cfg : Settings) (m : Gate) : Prop where
  tables : TablesInv cfg m.clock m.tables
  horizon : ∀ ip until_, BannedUntil m.tables.db ip until_ → until_ ≤ m.clock + cfg.block
  held : ∀ h ∈ m.held, h.findings ≠ [] ∧ ∃ now, h.findings = findingsOf sc h.request now
  retry : ∀ d ∈ m.decided, ∀ retryAfter, d.answer = .forbidden retryAfter →
    1 ≤ retryAfter ∧ retryAfter ≤ cfg.blockSeconds
  named : ∀ d ∈ m.decided, ∀ retryAfter, d.answer = .forbidden retryAfter →
    blockEntry cfg d.request.sourceIp ∈ m.audit
  stands : ∀ ip until_, BannedUntil m.tables.db ip until_ → BlockStands cfg ip m.audit
  history : ∃ hits : List (Finding × Bool),
    m.audit.filter isSignature = hits.map (fun x => signatureEntry x.2 x.1) ∧
      payloads m.tables.db = (hits.map fun x => sc.dumps x.1).rtake cfg.history ∧
      ∀ x ∈ hits, exportsPrefix.toList <+: x.1.path.toList → x.1.path = redactedPath
  passed : ∀ d ∈ m.decided, d.answer = .passed → ∀ now, ∀ f ∈ findingsOf sc d.request now,
    signatureEntry false f ∈ m.audit

theorem BlockStands.mem {audit : List Entry} (hstands : BlockStands cfg ip audit) :
    blockEntry cfg ip ∈ audit := by
  obtain ⟨i, hi⟩ := hstands
  obtain ⟨e, he, rfl⟩ := hi.here
  exact List.mem_of_getElem? he

theorem gateInv_of_initial (hm : m.Initial) : GateInv sc cfg m := by
  obtain ⟨hdetections, hsources, hrecorded, haudit, hheld, hdecided⟩ := hm
  have hnone : ∀ ip until_, ¬ BannedUntil m.tables.db ip until_ := by
    rintro ip until_ ⟨r, hr, -⟩
    rw [hsources] at hr
    cases hr
  refine ⟨inv_of_initial (m := ⟨m.tables, m.clock⟩) ⟨hdetections, hsources, hrecorded⟩, ?_, ?_, ?_,
    ?_, ?_, ⟨[], ?_, ?_, ?_⟩, ?_⟩
  · exact fun ip until_ hban => absurd hban (hnone ip until_)
  · simp [hheld]
  · simp [hdecided]
  · simp [hdecided]
  · exact fun ip until_ hban => absurd hban (hnone ip until_)
  · rw [haudit]
    rfl
  · rw [payloads, hdetections]
    exact (List.rtake_nil _).symm
  · simp
  · simp [hdecided]

/-- A look at a request keeps the invariant, whichever of its three answers it gives. -/
theorem GateInv.look (hm : GateInv sc cfg m) (hle : m.clock ≤ now) (r : Inspected) :
    GateInv sc cfg (look sc m now r) := by
  rcases look_cases sc m now r with ⟨hban, heq⟩ | ⟨-, hempty, heq⟩ | ⟨hsome, heq⟩
  · rw [heq]
    -- refused: the source is banned, and for no longer than a block lasts
    have hends : ∀ until_, BannedUntil m.tables.db r.sourceIp until_ →
        until_ ≤ now + cfg.block := by
      intro until_ hu
      have := hm.horizon _ until_ hu
      omega
    refine { hm with retry := ?_, named := ?_, passed := ?_ }
    · intro d hd retryAfter hanswer
      rcases List.mem_append.mp hd with hd | hd
      · exact hm.retry d hd retryAfter hanswer
      · obtain rfl := List.mem_singleton.mp hd
        obtain rfl := Outcome.forbidden.inj hanswer
        exact isBlocked_snd hban hends
    · intro d hd retryAfter hanswer
      rcases List.mem_append.mp hd with hd | hd
      · exact hm.named d hd retryAfter hanswer
      · obtain rfl := List.mem_singleton.mp hd
        obtain ⟨until_, hu, -⟩ := banned_iff.mp hban
        exact (hm.stands _ until_ hu).mem
    · intro d hd hanswer
      rcases List.mem_append.mp hd with hd | hd
      · exact hm.passed d hd hanswer
      · obtain rfl := List.mem_singleton.mp hd
        cases hanswer
  · rw [heq]
    refine { hm with retry := ?_, named := ?_, passed := ?_ }
    · intro d hd retryAfter hanswer
      rcases List.mem_append.mp hd with hd | hd
      · exact hm.retry d hd retryAfter hanswer
      · obtain rfl := List.mem_singleton.mp hd
        cases hanswer
    · intro d hd retryAfter hanswer
      rcases List.mem_append.mp hd with hd | hd
      · exact hm.named d hd retryAfter hanswer
      · obtain rfl := List.mem_singleton.mp hd
        cases hanswer
    · intro d hd hanswer later f hf
      rcases List.mem_append.mp hd with hd | hd
      · exact hm.passed d hd hanswer later f hf
      · obtain rfl := List.mem_singleton.mp hd
        have hentry := List.mem_map_of_mem (f := signatureEntry false) hf
        rw [signatureEntry_findingsOf r later now, hempty] at hentry
        cases hentry
  · rw [heq]
    refine { hm with held := ?_ }
    intro h hh
    rcases List.mem_append.mp hh with hh | hh
    · exact hm.held h hh
    · obtain rfl := List.mem_singleton.mp hh
      exact ⟨hsome, now, rfl⟩

/-- What the transaction of a held request does. -/
theorem GateInv.transacts (hm : GateInv sc cfg m) (hh : h ∈ m.held) (hle : m.clock ≤ now)
    (later : Int) : ∃ newly blocked, Transacts sc cfg now later m.tables h
      (transact sc cfg now later m.tables h) newly blocked := by
  obtain ⟨hne, looked, hfindings⟩ := hm.held h hh
  apply Intrusion.transacts (hm.tables.mono hle) hne
  intro f hf
  rw [hfindings] at hf
  exact (sourceIp_of_mem hf).1

theorem mem_entries {newly blocked : Bool} {e : Entry} {findings : List Finding}
    (he : e ∈ findings.map (signatureEntry blocked) ++ if newly then [blockEntry cfg ip] else []) :
    (∃ f ∈ findings, e = signatureEntry blocked f) ∨ newly = true ∧ e = blockEntry cfg ip := by
  rcases List.mem_append.mp he with he | he
  · obtain ⟨f, hf, rfl⟩ := List.mem_map.mp he
    exact .inl ⟨f, hf, rfl⟩
  · cases newly with
    | true => exact .inr ⟨rfl, List.mem_singleton.mp he⟩
    | false => cases he

theorem filter_entries (newly blocked : Bool) (findings : List Finding) :
    (findings.map (signatureEntry blocked) ++
      if newly then [blockEntry cfg ip] else []).filter isSignature =
        findings.map (signatureEntry blocked) := by
  have hblock : (if newly then [blockEntry cfg ip] else []).filter isSignature = [] := by
    cases newly <;> rfl
  rw [List.filter_append, hblock, List.append_nil]
  apply List.filter_eq_self.mpr
  intro e he
  obtain ⟨f, -, rfl⟩ := List.mem_map.mp he
  rfl

theorem GateInv.commit (hm : GateInv sc cfg m) (hh : h ∈ m.held) (hle : m.clock ≤ now)
    (hlater : now ≤ later) : GateInv sc cfg (commit sc cfg m now later h) := by
  obtain ⟨-, looked, hfindings⟩ := hm.held h hh
  obtain ⟨newly, blocked, hdone⟩ := hm.transacts hh hle later
  have hrec := hdone.records
  have hpos := cfg.block_pos
  set done := transact sc cfg now later m.tables h
  -- the bans that are left, and the one that begins
  have hhorizon : ∀ ip until_, BannedUntil done.tables.db ip until_ →
      until_ ≤ later + cfg.block := by
    intro ip until_ hban
    rcases (hrec.bans ip until_).mp hban with ⟨hold, -⟩ | ⟨-, -, rfl⟩
    · have := hm.horizon ip until_ hold
      omega
    · omega
  have hstands : ∀ ip until_, BannedUntil done.tables.db ip until_ →
      BlockStands cfg ip (m.audit ++ done.entries) := by
    intro ip until_ hban
    have hquiet : ∀ e ∈ done.entries, ¬ e = unblockEntry ip true := by
      rw [hdone.entries]
      intro e he heq
      rcases mem_entries he with ⟨f, -, rfl⟩ | ⟨-, rfl⟩
      · have htype : "request" = "source_ip" := congrArg Entry.targetType heq
        exact absurd htype (by decide)
      · have houtcome : "blocked" = "success" := congrArg Entry.outcome heq
        exact absurd houtcome (by decide)
    rcases (hrec.bans ip until_).mp hban with ⟨hold, -⟩ | ⟨rfl, rfl, -⟩
    · obtain ⟨i, hi⟩ := hm.stands ip until_ hold
      exact ⟨i, hi.later_all hquiet⟩
    · rw [hdone.entries, ← List.append_assoc]
      exact ⟨_, Stands.last rfl⟩
  have hblocked : ∀ retryAfter, done.answer = .forbidden retryAfter → blocked = true ∨
      newly = true := by
    intro retryAfter hanswer
    by_contra hneither
    rw [not_or, Bool.not_eq_true, Bool.not_eq_true] at hneither
    rw [hdone.passed.mpr ⟨hneither.2, hneither.1⟩] at hanswer
    cases hanswer
  refine ⟨hrec.inv.mono hlater, hhorizon, ?_, ?_, ?_, hstands, ?_, ?_⟩
  · exact fun h' hh' => hm.held h' (List.mem_of_mem_erase hh')
  · intro d hd retryAfter hanswer
    rcases List.mem_append.mp hd with hd | hd
    · exact hm.retry d hd retryAfter hanswer
    · obtain rfl := List.mem_singleton.mp hd
      rw [hdone.retry retryAfter hanswer]
      have := cfg.blockSeconds_pos
      split
      · next htrue => exact isBlocked_snd (hdone.blocked_iff.mp htrue) (hhorizon _)
      · omega
  · intro d hd retryAfter hanswer
    rcases List.mem_append.mp hd with hd | hd
    · exact List.mem_append_left _ (hm.named d hd retryAfter hanswer)
    · obtain rfl := List.mem_singleton.mp hd
      rcases hblocked retryAfter hanswer with htrue | htrue
      · obtain ⟨until_, hu, -⟩ := banned_iff.mp (hdone.blocked_iff.mp htrue)
        exact (hstands _ until_ hu).mem
      · exact (hstands _ _ ((hrec.bans _ _).mpr (.inr ⟨htrue, rfl, rfl⟩))).mem
  · obtain ⟨hits, haudit, hpayloads, hredacted⟩ := hm.history
    refine ⟨hits ++ h.findings.map fun f => (f, blocked), ?_, ?_, ?_⟩
    · show (m.audit ++ done.entries).filter isSignature = _
      rw [List.filter_append, haudit, hdone.entries, filter_entries, List.map_append, List.map_map]
      rfl
    · show payloads done.tables.db = _
      rw [hdone.history, hpayloads, rtake_append_rtake, List.map_append, List.map_map]
      rfl
    · intro x hx
      rcases List.mem_append.mp hx with hx | hx
      · exact hredacted x hx
      · obtain ⟨f, hf, rfl⟩ := List.mem_map.mp hx
        rw [hfindings] at hf
        dsimp only
        rw [(sourceIp_of_mem hf).2]
        exact auditSafePath_redacts
  · intro d hd hanswer later' f hf
    rcases List.mem_append.mp hd with hd | hd
    · exact List.mem_append_left _ (hm.passed d hd hanswer later' f hf)
    · obtain rfl := List.mem_singleton.mp hd
      have hfalse := (hdone.passed.mp hanswer).2
      have hentry := List.mem_map_of_mem (f := signatureEntry false) hf
      rw [signatureEntry_findingsOf h.request later' looked, ← hfindings, ← hfalse] at hentry
      apply List.mem_append_right
      rw [hdone.entries, ← hfalse]
      exact List.mem_append_left _ hentry

theorem GateInv.liftBan (hm : GateInv sc cfg m) (hle : m.clock ≤ now) (ip : String) :
    GateInv sc cfg (liftBan cfg m now ip) := by
  refine ⟨after_inv (c := .unblock now ip) (hm.tables.mono hle), ?_, hm.held, hm.retry, ?_, ?_, ?_,
    ?_⟩
  · intro other until_ hban
    obtain ⟨-, hold⟩ := bannedUntil_unblock hban
    have := hm.horizon other until_ hold
    show until_ ≤ now + cfg.block
    omega
  · exact fun d hd retryAfter hanswer =>
      List.mem_append_left _ (hm.named d hd retryAfter hanswer)
  · intro other until_ hban
    obtain ⟨hne, hold⟩ := bannedUntil_unblock hban
    obtain ⟨i, hi⟩ := hm.stands other until_ hold
    refine ⟨i, hi.later fun heq => ?_⟩
    exact hne (congrArg Entry.targetId heq).symm
  · obtain ⟨hits, haudit, hpayloads, hredacted⟩ := hm.history
    refine ⟨hits, ?_, ?_, hredacted⟩
    · show (m.audit ++ [_]).filter isSignature = _
      rw [List.filter_append, haudit]
      exact List.append_nil _
    · rw [← hpayloads]
      show payloads (m.tables.db.unblock now ip).1 = _
      unfold IntrusionDb.unblock
      split <;> rfl
  · exact fun d hd hanswer later f hf =>
      List.mem_append_left _ (hm.passed d hd hanswer later f hf)

theorem gateInv_step (hm : GateInv sc cfg m) (hstep : (gateSystem sc cfg).step m a n) :
    GateInv sc cfg n := by
  rcases gate_cases hstep with ⟨now, r, -, hle, rfl⟩ | ⟨now, later, h, -, hh, hle, hlater, rfl⟩ |
    ⟨h, -, rfl⟩ | ⟨now, ip, -, hle, rfl⟩
  · exact hm.look hle r
  · exact hm.commit hh hle hlater
  · exact { hm with held := fun h' hh' => hm.held h' (List.mem_of_mem_erase hh') }
  · exact hm.liftBan hle ip

theorem gateInv_of_reachable (hm : (gateSystem sc cfg).Reachable m) : GateInv sc cfg m := by
  apply hm.induct (I := GateInv sc cfg)
  · exact fun _ => gateInv_of_initial
  · exact fun _ _ _ _ hm hstep => gateInv_step hm hstep

/-! ## Who is kept out -/

/-- Between `m` and `n` nobody of a banned source was let through before the end of the ban. -/
def KeptOut (ip : String) (until_ : Int) (m n : Gate) : Prop :=
  (BannedUntil n.tables.db ip until_ ∨ until_ ≤ n.clock) ∧
    ∃ new, n.decided = m.decided ++ new ∧
      ∀ d ∈ new, d.request.sourceIp = ip → d.readAt < until_ → d.answer ≠ .passed

variable {until_ : Int} {k : Gate}

/-- One more decision, that does not let such a request through. -/
theorem KeptOut.decide (hk : KeptOut ip until_ m k) {d : Decided}
    (hd : d.request.sourceIp = ip → d.readAt < until_ → d.answer ≠ .passed)
    (hban : BannedUntil n.tables.db ip until_ ∨ until_ ≤ n.clock)
    (hn : n.decided = k.decided ++ [d]) : KeptOut ip until_ m n := by
  obtain ⟨-, new, hnew, hall⟩ := hk
  refine ⟨hban, new ++ [d], ?_, ?_⟩
  · rw [hn, hnew, List.append_assoc]
  · intro x hx
    rcases List.mem_append.mp hx with hx | hx
    · exact hall x hx
    · obtain rfl := List.mem_singleton.mp hx
      exact hd

/-- Until its ban ends a source is kept out, if nobody unblocks it. -/
theorem keptOut_step (hinv : GateInv sc cfg k) (hk : KeptOut ip until_ m k)
    (hstep : (gateSystem sc cfg).step k a n) (ha : ∀ now, a ≠ .unblock now ip) :
    KeptOut ip until_ m n := by
  rcases gate_cases hstep with ⟨now, r, rfl, hle, rfl⟩ |
    ⟨now, later, h, rfl, hh, hle, hlater, rfl⟩ | ⟨h, rfl, rfl⟩ | ⟨now, other, rfl, hle, rfl⟩
  · rcases look_cases sc k now r with ⟨-, heq⟩ | ⟨hfree, -, heq⟩ | ⟨-, heq⟩
    · rw [heq]
      refine hk.decide ?_ hk.1 rfl
      intro _ _ hanswer
      cases hanswer
    · rw [heq]
      refine hk.decide ?_ hk.1 rfl
      intro hself hbefore
      replace hbefore : now < until_ := hbefore
      rcases hk.1 with hban | hpast
      · exact absurd (banned_iff.mpr ⟨until_, hself ▸ hban, hbefore⟩) hfree
      · omega
    · rw [heq]
      exact hk
  · obtain ⟨newly, blocked, hdone⟩ := hinv.transacts hh hle later
    -- recording a detection takes no ban away before its end
    have hban : BannedUntil (transact sc cfg now later k.tables h).tables.db ip until_ ∨
        until_ ≤ later := by
      rcases hk.1 with hban | hpast
      · by_cases hnow : now < until_
        · exact .inl ((hdone.records.bans ip until_).mpr (.inl ⟨hban, hnow⟩))
        · exact .inr (by omega)
      · exact .inr (by omega)
    refine hk.decide ?_ hban rfl
    intro hself hbefore hpassed
    replace hbefore : later < until_ := hbefore
    have hblocked := (hdone.passed.mp hpassed).2
    rcases hban with hban | hpast
    · rw [← hself] at hban
      rw [hdone.blocked_iff.mpr (banned_iff.mpr ⟨until_, hban, hbefore⟩)] at hblocked
      cases hblocked
    · omega
  · exact hk
  · have hne : ∀ now', Call.unblock now other ≠ .unblock now' ip := by
      rintro now' heq
      cases heq
      exact ha now rfl
    refine ⟨?_, hk.2⟩
    rcases hk.1 with hban | hpast
    · by_cases hnow : now < until_
      · have hafter := hinv.tables.mono hle
        exact .inl (bannedUntil_after (c := .unblock now other) hafter hban hnow hne)
      · exact .inr (not_lt.mp hnow)
    · exact .inr (hpast.trans hle)

theorem keptOut_of_run {as : List GateAct} (hm : (gateSystem sc cfg).Reachable m)
    (hban : BannedUntil m.tables.db ip until_) (hrun : (gateSystem sc cfg).Run m as n)
    (has : ∀ now, GateAct.unblock now ip ∉ as) : KeptOut ip until_ m n := by
  induction hrun with
  | nil => exact ⟨.inl hban, [], (List.append_nil _).symm, by simp⟩
  | snoc hbefore hlast ih =>
      have hk := ih fun now hmem => has now (by simp [hmem])
      refine keptOut_step (gateInv_of_reachable (hm.run hbefore)) hk hlast ?_
      rintro now rfl
      exact has now (by simp)

/-- **Who is kept out.** Along every run from a reachable state a ban that nobody lifts keeps out
every request of its source that is decided before its end, be it at its first look or, when it was
looked at before the ban, in its transaction. Whoever is refused has an `ids.block` in the audit
trail, and is told to wait at least a second and at most as long as a ban lasts. -/
theorem banned_kept_out (hm : (gateSystem sc cfg).Reachable m) :
    (∀ ip until_ as n, BannedUntil m.tables.db ip until_ → (gateSystem sc cfg).Run m as n →
      (∀ now, GateAct.unblock now ip ∉ as) → ∃ new, n.decided = m.decided ++ new ∧
        ∀ d ∈ new, d.request.sourceIp = ip → d.readAt < until_ → d.answer ≠ .passed) ∧
    ∀ d ∈ m.decided, ∀ retryAfter, d.answer = .forbidden retryAfter →
      blockEntry cfg d.request.sourceIp ∈ m.audit ∧ 1 ≤ retryAfter ∧
        retryAfter ≤ cfg.blockSeconds := by
  have hinv := gateInv_of_reachable hm
  refine ⟨?_, fun d hd retryAfter hanswer =>
    ⟨hinv.named d hd retryAfter hanswer, hinv.retry d hd retryAfter hanswer⟩⟩
  intro ip until_ as n hban hrun has
  exact (keptOut_of_run hm hban hrun has).2

/-! ### Two requests at once -/

def sampleMember (key value : String) : String := "\"" ++ key ++ "\": \"" ++ value ++ "\", "

/-- `as_dict` as JSON, of texts without escapes and a time in whole seconds. -/
def sampleDumps (f : Finding) : String :=
  let technique := match f.mitreTechnique with
    | some technique => "\"" ++ technique ++ "\""
    | none => "null"
  "\x7b" ++ sampleMember "rule_id" f.ruleId ++ sampleMember "severity" f.severity ++
    sampleMember "engine" f.engine ++ sampleMember "description" f.description ++
    sampleMember "source_ip" f.sourceIp ++ sampleMember "path" f.path ++
    sampleMember "method" f.method ++ sampleMember "evidence_sha256" f.evidenceSha256 ++
    "\"mitre_technique\": " ++ technique ++ ", \"detected_at\": " ++
    toString (f.detectedAt / 1000000) ++ ".0\x7d"

/-- A scanner that knows one payload. -/
def sampleScanner : Scanner where
  scanText text := if text = "/?q=<script>" then [⟨"XSS-001", "high",
    "Payload kịch bản phía trình duyệt (Cross-Site Scripting)", "<script"⟩] else []
  scannerAgent _ := false
  decoyPath _ := false
  fingerprint _ := "5d74223d4af13c9f"
  dumps := sampleDumps

def sampleAttack : Inspected := ⟨"203.0.113.7", "/", "q=<script>", "GET", "curl/8.5"⟩

def sampleVisit : Inspected := ⟨"203.0.113.7", "/", "", "GET", "curl/8.5"⟩

def sampleHeld (now : Int) : Held := ⟨sampleAttack, findingsOf sampleScanner sampleAttack now⟩

def sampleGate : Gate := ⟨⟨⟨.empty, 1, .empty⟩, fun _ => []⟩, 0, [], [], []⟩

/-- Both are looked at, and the first is recorded. -/
def sampleBefore : List GateAct :=
  [.look 5000000 sampleAttack, .look 6000000 sampleAttack,
    .commit 7000000 7000001 (sampleHeld 5000000)]

/-- The second is recorded, and the source comes back. -/
def sampleAfter : List GateAct :=
  [.commit 8000000 8000001 (sampleHeld 6000000), .look 9000000 sampleVisit]

def sampleGateBanned : Gate :=
  (System.exec (stepGate sampleScanner sampleSettings) sampleGate sampleBefore).getD sampleGate

def sampleGateEnd : Gate :=
  (System.exec (stepGate sampleScanner sampleSettings) sampleGateBanned sampleAfter).getD sampleGate

theorem sample_isSome {s : Gate} {as : List GateAct}
    (h : (System.exec (stepGate sampleScanner sampleSettings) s as).isSome) :
    (gateSystem sampleScanner sampleSettings).Run s as
      ((System.exec (stepGate sampleScanner sampleSettings) s as).getD sampleGate) := by
  obtain ⟨t, ht⟩ := Option.isSome_iff_exists.mp h
  rw [ht]
  exact System.run_of_exec ht

theorem sampleGateBanned_run :
    (gateSystem sampleScanner sampleSettings).Run sampleGate sampleBefore sampleGateBanned :=
  sample_isSome (by decide +kernel)

theorem sampleGateEnd_run :
    (gateSystem sampleScanner sampleSettings).Run sampleGateBanned sampleAfter sampleGateEnd :=
  sample_isSome (by decide +kernel)

theorem sampleGateBanned_reachable :
    (gateSystem sampleScanner sampleSettings).Reachable sampleGateBanned :=
  ⟨sampleGate, sampleBefore, ⟨rfl, rfl, rfl, rfl, rfl, rfl⟩, sampleGateBanned_run⟩

theorem sampleGateBanned_ban :
    (sampleGateBanned.tables.db.sources.get "203.0.113.7").bind Source.blockedUntil =
      some 907000000 := by
  decide +kernel

/-- The second was looked at before the ban and is refused, like the visit after it. -/
theorem banned_kept_out_sample :
    sampleGateEnd.decided.length = 3 ∧
      ∃ new, sampleGateEnd.decided = sampleGateBanned.decided ++ new ∧
        ∀ d ∈ new, d.request.sourceIp = "203.0.113.7" → d.readAt < 907000000 →
          d.answer ≠ .passed := by
  obtain ⟨hout, -⟩ := banned_kept_out sampleGateBanned_reachable
  obtain ⟨r, hr, hblocked⟩ := Option.bind_eq_some_iff.mp sampleGateBanned_ban
  refine ⟨by decide +kernel, ?_⟩
  apply hout "203.0.113.7" 907000000 sampleAfter sampleGateEnd ⟨r, hr, hblocked⟩ sampleGateEnd_run
  intro now hmem
  simp [sampleAfter] at hmem

/-! ## What is left in the audit trail -/

instance (db : IntrusionDb) : Decidable (Banned db now ip) :=
  inferInstanceAs (Decidable (_ = true))

theorem count_entries {newly blocked : Bool} {findings : List Finding} :
    (findings.map (signatureEntry blocked) ++
      if newly then [blockEntry cfg ip] else []).count (blockEntry cfg other) =
        if newly = true ∧ other = ip then 1 else 0 := by
  have hsignatures : (findings.map (signatureEntry blocked)).count (blockEntry cfg other) = 0 := by
    apply List.count_eq_zero.mpr
    intro hmem
    obtain ⟨f, -, heq⟩ := List.mem_map.mp hmem
    have htype : "request" = "source_ip" := congrArg Entry.targetType heq
    exact absurd htype (by decide)
  rw [List.count_append, hsignatures, Nat.zero_add]
  cases newly with
  | false => simp
  | true =>
      by_cases hother : other = ip
      · subst hother
        simp
      · have hne : blockEntry cfg ip ≠ blockEntry cfg other := by
          intro heq
          exact hother (congrArg Entry.targetId heq).symm
        simp [hother, hne]

/-- **What is left in the audit trail**, in every run. The detections that are kept are the latest
of the hits that the entries `ids.signature` are about, in their order, and the path of no hit is
one of an export. A request that is let through has left an entry of every hit in it. The last word
about a banned source is an `ids.block`; and a transaction writes one of a source just when it bans
that source. -/
theorem inspection_audited (hm : (gateSystem sc cfg).Reachable m) :
    (∃ hits : List (Finding × Bool),
      m.audit.filter isSignature = hits.map (fun x => signatureEntry x.2 x.1) ∧
        payloads m.tables.db = (hits.map fun x => sc.dumps x.1).rtake cfg.history ∧
        ∀ x ∈ hits, exportsPrefix.toList <+: x.1.path.toList → x.1.path = redactedPath) ∧
    (∀ d ∈ m.decided, d.answer = .passed → ∀ now, ∀ f ∈ findingsOf sc d.request now,
      signatureEntry false f ∈ m.audit) ∧
    (∀ ip until_, BannedUntil m.tables.db ip until_ → BlockStands cfg ip m.audit) ∧
    ∀ now later h n, (gateSystem sc cfg).step m (.commit now later h) n → ∀ ip,
      n.audit.count (blockEntry cfg ip) = m.audit.count (blockEntry cfg ip) +
        if ¬ Banned m.tables.db now ip ∧ Banned n.tables.db now ip then 1 else 0 := by
  have hinv := gateInv_of_reachable hm
  refine ⟨hinv.history, hinv.passed, hinv.stands, ?_⟩
  intro now later h n hstep ip
  rcases gate_cases hstep with ⟨_, _, heq, -⟩ | ⟨now', later', h', heq, hh, hle, hlater, rfl⟩ |
    ⟨_, heq, -⟩ | ⟨_, _, heq, -⟩
  · cases heq
  · cases heq
    obtain ⟨newly, blocked, hdone⟩ := hinv.transacts hh hle later
    have hbegins : (newly = true ∧ ip = h.request.sourceIp) ↔ ¬ Banned m.tables.db now ip ∧
        Banned (transact sc cfg now later m.tables h).tables.db now ip := by
      by_cases hself : ip = h.request.sourceIp
      · subst hself
        rw [and_iff_left rfl]
        exact hdone.records.newly_iff
      · constructor
        · exact fun hboth => absurd hboth.2 hself
        · rintro ⟨hfree, hban⟩
          obtain ⟨until_, hu, hlater⟩ := banned_iff.mp hban
          rcases (hdone.records.bans ip until_).mp hu with ⟨hold, -⟩ | ⟨-, hsource, -⟩
          · exact absurd (banned_iff.mpr ⟨until_, hold, hlater⟩) hfree
          · exact absurd hsource hself
    show (m.audit ++ _).count _ = _
    rw [List.count_append, hdone.entries, count_entries]
    simp only [hbegins]
    rfl
  · cases heq
  · cases heq

/-- Both attacks are in the audit trail, and the ban is its last word. -/
theorem inspection_audited_sample :
    (sampleGateEnd.audit.filter isSignature).length = 2 ∧
      BlockStands sampleSettings "203.0.113.7" sampleGateBanned.audit ∧
      sampleGateBanned.audit.length = 2 := by
  obtain ⟨-, -, hstands, -⟩ := inspection_audited sampleGateBanned_reachable
  obtain ⟨r, hr, hblocked⟩ := Option.bind_eq_some_iff.mp sampleGateBanned_ban
  exact ⟨by decide +kernel, hstands _ 907000000 ⟨r, hr, hblocked⟩, by decide +kernel⟩

end Scap.Intrusion
