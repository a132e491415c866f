import Scap.GeoIp.Validation

/-!
# Installing a database

`install` keeps a current database that is recent enough, or else gets a candidate from a file or by
download, checks it, and puts it in the place of the current one. The opener of the download and
`gzip` are parameters; that the files can be read and written is taken for granted. The workspace,
which is removed again in any case, is left out.

`geoip_fails_closed_iff` says when the updater fails closed.
-/

namespace Scap.GeoIp

open Scap.Lib Scap.Py

/-! ## Sources of a candidate -/

/-- `_MAX_COMPRESSED`. -/
def maxCompressed : Nat := 160 * 1024 * 1024

def downloadHost : String := "download.db-ip.com"

/-- Chunks as they are read, and what is raised after the last one, if anything is. -/
structure Stream where
  chunks : List Bytes
  broken : Option PyException

/-- The answer to a request for a monthly file. -/
inductive Answer where
  | httpError (code : Nat)
  | unreachable
  | response (scheme host : String) (body : Stream)

/-- The loop that copies a stream, with the number of bytes so far. -/
def copyChunks (limit : Nat) (message : String) (broken : Option PyException) :
    Nat → List Bytes → Except Raised Bytes
  | _, [] =>
    match broken with
    | none => .ok []
    | some e => .error (.exception e)
  | total, chunk :: chunks =>
    if chunk = [] then .ok []
    else if limit < total + chunk.length then .error (.geoIpUpdateError message)
    else (copyChunks limit message broken (total + chunk.length) chunks).map fun rest =>
      chunk ++ rest

/-- `_download`: the archive, or `none` when it is not published yet. -/
def download : Answer → Except Raised (Option Bytes)
  | .httpError code =>
    if code = 404 then .ok none
    else .error (.geoIpUpdateError s!"Download failed with HTTP {code}.")
  | .unreachable =>
    .error (.geoIpUpdateError "Download failed; check the server's Internet access.")
  | .response scheme host body =>
    if scheme ≠ "https" ∨ host ≠ downloadHost then
      .error (.geoIpUpdateError "Download was redirected to an unexpected location.")
    else
      (copyChunks maxCompressed "Download exceeds the size limit." body.broken 0
        body.chunks).map some

/-- `_expand`. -/
def expand (gunzip : Bytes → Stream) (source : Bytes) : Except Raised Bytes :=
  let stream := if source.take 2 = [0x1f, 0x8b] then gunzip source else ⟨[source], none⟩
  copyChunks maxDatabase "The database exceeds the size limit." stream.broken 0 stream.chunks

/-- The arguments of `install`, with what it depends on besides the directory. -/
structure Request where
  check : Check
  /-- The content of the source file, if one is given. -/
  source : Option Bytes
  refreshAfterDays : Int
  /-- The answers for this month and for the one before. -/
  thisMonth : Answer
  lastMonth : Answer
  gunzip : Bytes → Stream

namespace Request

variable (request : Request)

/-- The candidate. -/
def fetch : Except Raised Bytes :=
  match request.source with
  | some source => expand request.gunzip source
  | none => do
    match ← download request.thisMonth with
    | some archive => expand request.gunzip archive
    | none =>
      match ← download request.lastMonth with
      | some archive => expand request.gunzip archive
      | none =>
        throw (.geoIpUpdateError "No DB-IP City Lite file is published for this or last month.")

/-! ## The directory -/

end Request

/-- What stands under the name of the database. -/
inductive Entry where
  | absent
  | file (data : Bytes)
  | symlink
  | directory
  deriving DecidableEq

/-- The directory of the database. One that is missing is made. -/
inductive Place where
  | noParent
  | file
  | symlink
  | ordinary (target : Entry)
  deriving DecidableEq

inductive Status where
  | installed
  | unchanged
  deriving DecidableEq

namespace Request

variable (request : Request)

/-- Whether a database that was accepted need not be refreshed yet. -/
def recent (metadata : List (Val × Val)) : Bool :=
  match get metadata "build_epoch" with
  | some (.int epoch) =>
    match toDouble epoch with
    | some epoch => !metadata.isEmpty &&
        ageOf request.check.now epoch < request.refreshAfterDays * 86400
    | none => false
  | _ => false

/-- The current database, if it is to be kept. -/
def keep (target : Entry) : Except Raised (Option (List (Val × Val))) :=
  match target with
  | .file data =>
    if request.source = none ∧ 0 < request.refreshAfterDays then
      match validate request.check data with
      | .ok metadata => .ok (if request.recent metadata then some metadata else none)
      | .error (.geoIpUpdateError _) => .ok none
      | .error e => .error e
    else .ok none
  | _ => .ok none

/-- The candidate takes the place of what is there. -/
def replace (target : Entry) : Except Raised (Status × List (Val × Val)) × Entry :=
  match request.fetch with
  | .error e => (.error e, target)
  | .ok candidate =>
    match validate request.check candidate with
    | .error e => (.error e, target)
    | .ok metadata =>
      if target = .directory then (.error (.exception .osError), target)
      else (.ok (.installed, metadata), .file candidate)

/-- `install`: what it returns or raises, and the directory after it. -/
def install : Place → Except Raised (Status × List (Val × Val)) × Place
  | .noParent =>
    (.error (.geoIpUpdateError "The parent of the GeoIP directory must already exist."), .noParent)
  | .file => (.error (.exception .osError), .file)
  | .symlink =>
    (.error (.geoIpUpdateError "The GeoIP directory must be an ordinary directory."), .symlink)
  | .ordinary .symlink =>
    (.error (.geoIpUpdateError "Refusing to replace a symbolic link."), .ordinary .symlink)
  | .ordinary target =>
    match request.keep target with
    | .error e => (.error e, .ordinary target)
    | .ok (some metadata) => (.ok (.unchanged, metadata), .ordinary target)
    | .ok none => ((request.replace target).1, .ordinary (request.replace target).2)

/-! ## Failing closed -/

/-- The candidate of the request, which the check accepts. -/
def Candidate (candidate : Bytes) (metadata : List (Val × Val)) : Prop :=
  request.fetch = .ok candidate ∧ validate request.check candidate = .ok metadata

variable {request} {current candidate : Bytes} {metadata : List (Val × Val)} {place : Place}

theorem replace_cases (request : Request) (target : Entry) : (request.replace target).2 = target ∨
    ∃ candidate metadata, request.Candidate candidate metadata ∧
      request.replace target = (.ok (.installed, metadata), .file candidate) := by
  unfold replace
  cases hfetch : request.fetch with
  | error e => exact .inl rfl
  | ok candidate =>
      simp only
      cases hvalid : validate request.check candidate with
      | error e => exact .inl rfl
      | ok metadata =>
          simp only
          split
          · exact .inl rfl
          · exact .inr ⟨candidate, metadata, ⟨hfetch, hvalid⟩, rfl⟩

/-- A candidate is installed after the check, or nothing changes. -/
theorem install_cases (request : Request) (place : Place) : (request.install place).2 = place ∨
    ∃ candidate metadata, request.Candidate candidate metadata ∧
      request.install place = (.ok (.installed, metadata), .ordinary (.file candidate)) := by
  unfold install
  split
  · exact .inl rfl
  · exact .inl rfl
  · exact .inl rfl
  · exact .inl rfl
  · next target _ =>
    split
    · exact .inl rfl
    · exact .inl rfl
    · rcases request.replace_cases target with h | ⟨candidate, metadata, hcandidate, h⟩
      · exact .inl (by rw [h])
      · exact .inr ⟨candidate, metadata, hcandidate, by rw [h]⟩

theorem replace_of_candidate (hcandidate : request.Candidate candidate metadata) :
    request.replace (.file current) = (.ok (.installed, metadata), .file candidate) := by
  rw [replace, hcandidate.1]
  simp only
  rw [hcandidate.2]
  exact if_neg (by simp)

/-- A current database that is not accepted is replaced, unless its check raises. -/
theorem install_malformed (hcandidate : request.Candidate candidate metadata)
    (hcurrent : ∀ m, validate request.check current ≠ .ok m) :
    request.install (.ordinary (.file current)) =
        (.ok (.installed, metadata), .ordinary (.file candidate)) ↔
      ¬((request.source = none ∧ 0 < request.refreshAfterDays) ∧
        Defective request.check current) := by
  have hreplaced : request.keep (.file current) = .ok none →
      request.install (.ordinary (.file current)) =
        (.ok (.installed, metadata), .ordinary (.file candidate)) := by
    intro hkeep
    rw [install, hkeep]
    · simp only
      rw [replace_of_candidate hcandidate]
    · simp
  rw [← validate_exception_iff]
  by_cases hrefresh : request.source = none ∧ 0 < request.refreshAfterDays
  · rw [and_iff_right hrefresh]
    cases hvalid : validate request.check current with
    | ok m => exact absurd hvalid (hcurrent m)
    | error raised =>
        cases raised with
        | geoIpUpdateError message =>
            have hkeep : request.keep (.file current) = .ok none := by
              rw [keep, if_pos hrefresh, hvalid]
            simp [hreplaced hkeep]
        | exception e =>
            have hkeep : request.keep (.file current) = .error (.exception e) := by
              rw [keep, if_pos hrefresh, hvalid]
            have hinstall : request.install (.ordinary (.file current)) =
                (.error (.exception e), .ordinary (.file current)) := by
              rw [install, hkeep]
              simp
            simp [hinstall]
  · have hkeep : request.keep (.file current) = .ok none := by
      rw [keep, if_neg hrefresh]
    simp [hreplaced hkeep, hrefresh]

end Request

/-- **Failing closed.** Reading and checking a file return or raise a `GeoIpUpdateError` unless they
come to a place where Python raises. In any case only a candidate that was accepted takes the place
of the current database, and everything else leaves it; but a current one whose check raises so
stands in the way of every candidate. -/
theorem geoip_fails_closed_iff (request : Request) :
    (∀ data, (∀ e, readMetadata data ≠ .error (.exception e)) ↔ ¬MetadataFails data) ∧
      (∀ data, (∀ e, validate request.check data ≠ .error (.exception e)) ↔
        ¬Defective request.check data) ∧
      (∀ place, (request.install place).2 = place ∨
        ∃ candidate metadata, request.Candidate candidate metadata ∧
          request.install place = (.ok (.installed, metadata), .ordinary (.file candidate))) ∧
      ∀ current candidate metadata, request.Candidate candidate metadata →
        (∀ m, validate request.check current ≠ .ok m) →
        (request.install (.ordinary (.file current)) =
            (.ok (.installed, metadata), .ordinary (.file candidate)) ↔
          ¬((request.source = none ∧ 0 < request.refreshAfterDays) ∧
            Defective request.check current)) := by
  refine ⟨fun data => ?_, fun data => ?_, request.install_cases,
    fun _ _ _ => Request.install_malformed⟩
  · rw [← readMetadata_exception_iff, not_exists]
  · rw [← validate_exception_iff, not_exists]

/-! ## A current database that stands in the way -/

/-- A city database without data, built on 2023-11-14. -/
def sampleDatabase : Bytes :=
  List.replicate 1024 0 ++ metadataMarker ++
    [0xe5, 0x4d] ++ utf8 "database_type" ++ [0x44] ++ utf8 "City" ++
    [0x4b] ++ utf8 "build_epoch" ++ [0xc4, 0x65, 0x53, 0xf1, 0x00] ++
    [0x4b] ++ utf8 "record_size" ++ [0xa1, 24] ++
    [0x4a] ++ utf8 "ip_version" ++ [0xa1, 6] ++
    [0x4a] ++ utf8 "node_count" ++ [0xc1, 1]

/-- The metadata is cut off after the control byte of an extended type. -/
def truncatedDatabase : Bytes := List.replicate 1024 0 ++ metadataMarker ++ [0]

/-- A refresh on the day after the sample was built, which is published. -/
def sampleRequest : Request where
  check := ⟨1700086400000000, 90, none⟩
  source := none
  refreshAfterDays := 25
  thisMonth := .response "https" downloadHost ⟨[sampleDatabase], none⟩
  lastMonth := .unreachable
  gunzip _ := ⟨[], some .osError⟩

theorem sampleRequest_candidate :
    ∃ metadata, sampleRequest.Candidate sampleDatabase metadata := by
  have hfetch : sampleRequest.fetch = .ok sampleDatabase := by decide +kernel
  have hvalid : (validate sampleRequest.check sampleDatabase).isOk = true := by decide +kernel
  cases h : validate sampleRequest.check sampleDatabase with
  | error e =>
      rw [h] at hvalid
      cases hvalid
  | ok metadata => exact ⟨metadata, hfetch, h⟩

/-- The exception that is raised, if one is. -/
def raised? {α : Type} : Except Raised α → Option Raised
  | .ok _ => none
  | .error e => some e

theorem raised?_eq_some {α : Type} {a : Except Raised α} {e : Raised} :
    raised? a = some e ↔ a = .error e := by
  cases a <;> simp [raised?]

theorem validate_truncatedDatabase :
    validate sampleRequest.check truncatedDatabase = .error (.exception .indexError) := by
  rw [← raised?_eq_some]
  decide +kernel

theorem install_truncatedDatabase :
    sampleRequest.install (.ordinary (.file truncatedDatabase)) =
      (.error (.exception .indexError), .ordinary (.file truncatedDatabase)) := by
  have hkeep : sampleRequest.keep (.file truncatedDatabase) = .error (.exception .indexError) := by
    rw [Request.keep, if_pos (by decide), validate_truncatedDatabase]
  rw [Request.install, hkeep]
  simp

/-- The refresh raises, though the current database is malformed and the candidate is accepted. -/
theorem refresh_blocked :
    readMetadata truncatedDatabase = .error (.exception .indexError) ∧
      (∃ metadata, sampleRequest.Candidate sampleDatabase metadata) ∧
      sampleRequest.install (.ordinary (.file truncatedDatabase)) =
        (.error (.exception .indexError), .ordinary (.file truncatedDatabase)) := by
  refine ⟨?_, sampleRequest_candidate, install_truncatedDatabase⟩
  rw [← raised?_eq_some]
  decide +kernel

theorem geoip_fails_closed_sample : Defective sampleRequest.check truncatedDatabase := by
  by_contra hsound
  obtain ⟨metadata, hcandidate⟩ := sampleRequest_candidate
  have hrefused : ∀ m, validate sampleRequest.check truncatedDatabase ≠ .ok m := by
    intro m hm
    rw [validate_truncatedDatabase] at hm
    cases hm
  have hinstall := ((geoip_fails_closed_iff sampleRequest).2.2.2 truncatedDatabase sampleDatabase
    metadata hcandidate hrefused).mpr fun h => hsound h.2
  rw [install_truncatedDatabase] at hinstall
  cases hinstall

end Scap.GeoIp
