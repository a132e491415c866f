import Mathlib.Data.List.Infix
import Scap.GeoIp.Mmdb
import Scap.Py.Float

/-!
# Checking a database

`read_metadata` finds the metadata map behind the last marker of a file, and `validate` checks the
file: its size, the map, the age, and a few lookups when the package `maxminddb` is there. What this
package answers is a parameter.

`Defective` says of a file that one of the checks raises something other than a `GeoIpUpdateError`
(`validate_exception_iff`).
-/

namespace Scap.GeoIp

open Scap.Lib Scap.Py

/-! ## Floats -/

/-- `now.timestamp()`, for a time in microseconds. -/
def timestamp (now : Int) : ℚ := roundDouble (now / 1000000)

/-- `now.timestamp() - epoch`. -/
def ageOf (now : Int) (epoch : ℚ) : ℚ := roundDouble (timestamp now - epoch)

/-! ## Metadata -/

def metadataMarker : Bytes := [0xab, 0xcd, 0xef, 77, 97, 120, 77, 105, 110, 100, 46, 99, 111, 109]

/-- `data.rfind(pattern)`. -/
def rfind (pattern : Bytes) : Bytes → Option Nat
  | [] => if pattern = [] then some 0 else none
  | b :: s =>
    match rfind pattern s with
    | some i => some (i + 1)
    | none => if pattern.isPrefixOf (b :: s) then some 0 else none

/-- The part of a file in which the metadata is looked for. -/
def tail (data : Bytes) : Bytes := data.drop (max 0 ((data.length : Int) - 128 * 1024)).toNat

/-- `_MAX_DATABASE`. -/
def maxDatabase : Nat := 256 * 1024 * 1024

/-- The map that begins at `base`. -/
def metadataAt (bytes : Bytes) (base : Nat) : Except Raised (List (Val × Val)) :=
  match decode bytes base 17 base with
  | .error e => .error e
  | .ok (.dict entries, _) => .ok entries
  | .ok _ => .error malformed

def readMetadata (data : Bytes) : Except Raised (List (Val × Val)) :=
  match rfind metadataMarker (tail data) with
  | none => .error (.geoIpUpdateError "Not a MaxMind DB (.mmdb) file.")
  | some start => metadataAt (tail data) (start + metadataMarker.length)

/-- `metadata.get(key)`. -/
def get (entries : List (Val × Val)) (key : String) : Option Val :=
  (entries.find? fun e => e.1.sameKey (.str key)).map Prod.snd

/-- `isinstance(kind, str) and "City" in kind`. -/
def isCity : Option Val → Bool
  | some (.str kind) => "City".toList <:+: kind.toList
  | _ => false

/-- `value in numbers`. -/
def isOneOf (numbers : List Int) (value : Option Val) : Bool :=
  match value.bind Val.number? with
  | some (.finite q) => numbers.any fun n => q = n
  | _ => false

/-- `bool(value)`. -/
def Val.truthy : Val → Bool
  | .str s => s ≠ ""
  | .float x => x ≠ .finite 0
  | .bytes b => b ≠ []
  | .int n => n ≠ 0
  | .dict entries => !entries.isEmpty
  | .list items => !items.isEmpty
  | .bool b => b

/-! ## Lookups -/

/-- `"latitude" in location`. -/
def hasLatitude : Val → Except Raised Bool
  | .dict entries => .ok (get entries "latitude").isSome
  | .list items => .ok (items.any fun v => v.sameKey (.str "latitude"))
  | .str s => .ok ("latitude".toList <:+: s.toList)
  | _ => .error (.exception .typeError)

/-- Whether a record gives coordinates. -/
def isLocated : Option Val → Except Raised Bool
  | some (.dict record) =>
    match get record "location" with
    | none => .ok false
    | some location => if location.truthy then hasLatitude location else .ok false
  | _ => .ok false

/-- `any(…)` over the records. -/
def anyLocated : List (Option Val) → Except Raised Bool
  | [] => .ok false
  | record :: records =>
    match isLocated record with
    | .error e => .error e
    | .ok true => .ok true
    | .ok false => anyLocated records

/-! ## The check -/

/-- What the check depends on besides the file. -/
structure Check where
  /-- The time, in microseconds. -/
  now : Int
  maxAgeDays : Int
  /-- The package, when it is installed: the records of the probes, unless it raises. -/
  maxminddb : Option (Bytes → Option (List (Option Val)))

/-- The part of the check that reads the metadata only. -/
def buildEpoch (metadata : List (Val × Val)) : Except Raised Int :=
  if isCity (get metadata "database_type") = false then
    .error (.geoIpUpdateError "The file is not a City database.")
  else
    match get metadata "build_epoch" with
    | some (.int epoch) =>
      if isOneOf [24, 28, 32] (get metadata "record_size") &&
          isOneOf [4, 6] (get metadata "ip_version") &&
          (get metadata "node_count").any Val.truthy then
        .ok epoch
      else .error malformed
    | _ => .error malformed

/-- The lookups of the probes. -/
def probe (check : Check) (data : Bytes) : Except Raised Unit :=
  match check.maxminddb with
  | none => .ok ()
  | some read =>
    match read data with
    | none => .error (.geoIpUpdateError "The database could not be read.")
    | some records =>
      match anyLocated records with
      | .error e => .error e
      | .ok true => .ok ()
      | .ok false =>
        .error (.geoIpUpdateError "The database has no coordinates for well-known addresses.")

/-- Dated in the future, or too old. -/
def outdated (check : Check) (epoch : ℚ) : Bool :=
  ageOf check.now epoch < -86400 || check.maxAgeDays * 86400 < ageOf check.now epoch

/-- The age, and then the lookups. -/
def checkAge (check : Check) (data : Bytes) (epoch : Int) : Except Raised Unit :=
  match toDouble epoch with
  | none => .error (.exception .overflowError)
  | some epoch =>
    if outdated check epoch then
      .error (.geoIpUpdateError
        s!"The database is older than {check.maxAgeDays} days (or dated in the future).")
    else probe check data

def validate (check : Check) (data : Bytes) : Except Raised (List (Val × Val)) :=
  if ¬(1024 ≤ data.length ∧ data.length ≤ maxDatabase) then
    .error (.geoIpUpdateError "GeoIP database size is outside the supported bounds.")
  else do
    let metadata ← readMetadata data
    let epoch ← buildEpoch metadata
    checkAge check data epoch
    return metadata

/-! ## Where Python raises -/

variable {data : Bytes} {entries : List (Val × Val)} {check : Check}

/-- Reading the metadata comes to a place where Python raises. -/
def MetadataFails (data : Bytes) : Prop :=
  ∃ start, rfind metadataMarker (tail data) = some start ∧
    Fails (tail data) (start + metadataMarker.length) .value 17 (start + metadataMarker.length)

/-- The metadata of a file. -/
def HasMetadata (data : Bytes) (entries : List (Val × Val)) : Prop :=
  ∃ start next, rfind metadataMarker (tail data) = some start ∧
    Reads (tail data) (start + metadataMarker.length) (.value (.dict entries)) 17
      (start + metadataMarker.length) next

theorem metadataAt_eq_ok_iff {bytes : Bytes} {base : Nat} :
    metadataAt bytes base = .ok entries ↔
      ∃ next, Reads bytes base (.value (.dict entries)) 17 base next := by
  simp only [metadataAt, ← decode_eq_ok_iff]
  match decode bytes base 17 base with
  | .error e => simp
  | .ok (.dict fields, next) => simp
  | .ok (.str _, _) | .ok (.float _, _) | .ok (.bytes _, _) | .ok (.int _, _) | .ok (.list _, _)
  | .ok (.bool _, _) => simp

theorem metadataAt_exception_iff {bytes : Bytes} {base : Nat} :
    (∃ e, metadataAt bytes base = .error (.exception e)) ↔ Fails bytes base .value 17 base := by
  simp only [metadataAt, ← decode_exception_iff]
  match decode bytes base 17 base with
  | .error e => simp
  | .ok (.dict fields, next) => simp
  | .ok (.str _, _) | .ok (.float _, _) | .ok (.bytes _, _) | .ok (.int _, _) | .ok (.list _, _)
  | .ok (.bool _, _) => simp [malformed]

theorem readMetadata_eq_ok_iff : readMetadata data = .ok entries ↔ HasMetadata data entries := by
  unfold readMetadata HasMetadata
  cases rfind metadataMarker (tail data) with
  | none => simp
  | some start => simp [metadataAt_eq_ok_iff]

theorem readMetadata_exception_iff :
    (∃ e, readMetadata data = .error (.exception e)) ↔ MetadataFails data := by
  unfold readMetadata MetadataFails
  cases rfind metadataMarker (tail data) with
  | none => simp
  | some start => simp [metadataAt_exception_iff]

/-- What a `location` must not be for the search in it: a number or bytes, and not empty. -/
def Unsearchable (record : Option Val) : Prop :=
  ∃ fields location, record = some (.dict fields) ∧ get fields "location" = some location ∧
    location.truthy = true ∧
    match location with
    | .dict _ | .list _ | .str _ => False
    | _ => True

theorem isLocated_exception_iff {record : Option Val} :
    (∃ e, isLocated record = .error (.exception e)) ↔ Unsearchable record := by
  match record with
  | some (.dict fields) =>
      cases hlocation : get fields "location" with
      | none => simp [isLocated, Unsearchable, hlocation]
      | some location =>
          by_cases htruthy : location.truthy = true
          · cases location <;> simp [isLocated, Unsearchable, hlocation, htruthy, hasLatitude]
          · simp [isLocated, Unsearchable, hlocation, htruthy]
  | none | some (.str _) | some (.float _) | some (.bytes _) | some (.int _) | some (.list _)
  | some (.bool _) => simp [isLocated, Unsearchable]

/-- The first of the records that do not lack coordinates cannot be searched. -/
def RecordsFail (records : List (Option Val)) : Prop :=
  ∃ before record after, records = before ++ record :: after ∧
    (∀ r ∈ before, isLocated r = .ok false) ∧ Unsearchable record

theorem anyLocated_exception_iff {records : List (Option Val)} :
    (∃ e, anyLocated records = .error (.exception e)) ↔ RecordsFail records := by
  induction records with
  | nil => simp [anyLocated, RecordsFail]
  | cons record records ih =>
      unfold anyLocated
      constructor
      · rintro ⟨e, h⟩
        split at h
        · next e' he =>
          obtain rfl := Except.error.inj h
          exact ⟨[], record, records, rfl, by simp, isLocated_exception_iff.mp ⟨e, he⟩⟩
        · cases h
        · next hfalse =>
          obtain ⟨before, r, after, rfl, hbefore, hr⟩ := ih.mp ⟨e, h⟩
          exact ⟨record :: before, r, after, rfl, List.forall_mem_cons.mpr ⟨hfalse, hbefore⟩, hr⟩
      · rintro ⟨before, r, after, heq, hbefore, hr⟩
        cases before with
        | nil =>
            obtain ⟨rfl, rfl⟩ := List.cons.inj heq
            obtain ⟨e, he⟩ := isLocated_exception_iff.mpr hr
            exact ⟨e, by rw [he]⟩
        | cons b before =>
            obtain ⟨rfl, rfl⟩ := List.cons.inj heq
            obtain ⟨hb, hbefore⟩ := List.forall_mem_cons.mp hbefore
            obtain ⟨e, he⟩ := ih.mpr ⟨before, r, after, rfl, hbefore, hr⟩
            exact ⟨e, by rw [hb]; exact he⟩

theorem probe_exception_iff : (∃ e, probe check data = .error (.exception e)) ↔
    ∃ read records, check.maxminddb = some read ∧ read data = some records ∧
      RecordsFail records := by
  unfold probe
  cases check.maxminddb with
  | none => simp
  | some read =>
      simp only [Option.some.injEq, exists_and_left, exists_eq_left']
      cases read data with
      | none => simp
      | some records =>
          simp only [Option.some.injEq, exists_eq_left', ← anyLocated_exception_iff]
          cases anyLocated records with
          | error e => simp
          | ok located => cases located <;> simp

/-- The checks of the metadata raise nothing but a `GeoIpUpdateError`. -/
theorem buildEpoch_ne_exception (metadata : List (Val × Val)) (e : PyException) :
    buildEpoch metadata ≠ .error (.exception e) := by
  unfold buildEpoch
  split
  · simp
  · split
    · split <;> simp [malformed]
    · simp [malformed]

/-- A file of a size that is checked further, on which the check raises something other than a
`GeoIpUpdateError`: on its metadata, on a date that is too large for a float, or on the records of
the probes. -/
def Defective (check : Check) (data : Bytes) : Prop :=
  (1024 ≤ data.length ∧ data.length ≤ maxDatabase) ∧
    (MetadataFails data ∨ ∃ metadata epoch, HasMetadata data metadata ∧
      buildEpoch metadata = .ok epoch ∧ (floatLimit ≤ |epoch| ∨
        outdated check (roundDouble epoch) = false ∧ ∃ read records,
          check.maxminddb = some read ∧ read data = some records ∧ RecordsFail records))

theorem checkAge_exception_iff {epoch : Int} :
    (∃ e, checkAge check data epoch = .error (.exception e)) ↔
      floatLimit ≤ |epoch| ∨ outdated check (roundDouble epoch) = false ∧ ∃ read records,
        check.maxminddb = some read ∧ read data = some records ∧ RecordsFail records := by
  rw [← probe_exception_iff]
  unfold checkAge toDouble
  by_cases hlimit : floatLimit ≤ |epoch|
  · simp [hlimit]
  · cases houtdated : outdated check (roundDouble epoch) with
    | true => simp [hlimit, houtdated]
    | false => simp [hlimit, houtdated]

theorem validate_exception_iff :
    (∃ e, validate check data = .error (.exception e)) ↔ Defective check data := by
  unfold validate Defective
  by_cases hsize : 1024 ≤ data.length ∧ data.length ≤ maxDatabase
  · rw [if_neg (not_not.mpr hsize), and_iff_right hsize]
    constructor
    · rintro ⟨e, h⟩
      rcases seq_eq_error.mp h with h | ⟨metadata, hmetadata, h⟩
      · exact .inl (readMetadata_exception_iff.mp ⟨e, h⟩)
      · rcases seq_eq_error.mp h with h | ⟨epoch, hepoch, h⟩
        · exact absurd h (buildEpoch_ne_exception metadata e)
        · rcases seq_eq_error.mp h with h | ⟨_, -, h⟩
          · exact .inr ⟨metadata, epoch, readMetadata_eq_ok_iff.mp hmetadata, hepoch,
              checkAge_exception_iff.mp ⟨e, h⟩⟩
          · cases h
    · rintro (h | ⟨metadata, epoch, hmetadata, hepoch, h⟩)
      · obtain ⟨e, he⟩ := readMetadata_exception_iff.mpr h
        exact ⟨e, seq_eq_error.mpr (.inl he)⟩
      · obtain ⟨e, he⟩ := checkAge_exception_iff.mpr h
        exact ⟨e, seq_eq_error.mpr (.inr ⟨metadata, readMetadata_eq_ok_iff.mpr hmetadata,
          seq_eq_error.mpr (.inr ⟨epoch, hepoch, seq_eq_error.mpr (.inl he)⟩)⟩)⟩
  · rw [if_pos hsize]
    simp [hsize]

end Scap.GeoIp
