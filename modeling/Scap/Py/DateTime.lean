import Mathlib.Data.Int.Basic

/-!
# `datetime` values and their signed form

A Python `datetime` is a wall-clock reading with an optional UTC offset; both are kept in
microseconds, the wall clock counted from 1970-01-01T00:00:00. Only what the platform signs is
modelled: the UTC instant and its ISO 8601 text with six fractional digits.
-/

namespace Scap.Py

/-- An aware (`utcoffset = some _`) or naive (`none`) datetime. -/
structure DateTime where
  wall : Int
  utcoffset : Option Int
  deriving DecidableEq, Repr

namespace DateTime

/-- `datetime.now(timezone.utc)` at an instant. -/
def ofUtc (instant : Int) : DateTime := ⟨instant, some 0⟩

/-- The UTC instant, a naive value being read as UTC. -/
def utc (d : DateTime) : Int := d.wall - d.utcoffset.getD 0

@[simp] theorem utc_ofUtc (i : Int) : (ofUtc i).utc = i := by simp [ofUtc, utc]

/-! ## ISO 8601 text -/

/-- Year, month and day of a day count from 1970-01-01, in the proleptic Gregorian calendar. -/
def civil (days : Int) : Int × Int × Int :=
  let z := days + 719468
  let era := z / 146097
  let doe := z % 146097
  let yoe := (doe - doe / 1460 + doe / 36524 - doe / 146096) / 365
  let doy := doe - (365 * yoe + yoe / 4 - yoe / 100)
  let mp := (5 * doy + 2) / 153
  let d := doy - (153 * mp + 2) / 5 + 1
  let m := if mp < 10 then mp + 3 else mp - 9
  let y := yoe + era * 400 + (if m ≤ 2 then 1 else 0)
  (y, m, d)

/-- Decimal digits, padded with zeros on the left. -/
def pad (width : Nat) (n : Int) : String :=
  let digits := (Nat.toDigits 10 n.toNat)
  String.ofList (List.replicate (width - digits.length) '0' ++ digits)

/-- `isoformat(timespec="microseconds")` of a UTC instant, with `Z` for `+00:00`. -/
def isoformat (instant : Int) : String :=
  let seconds := instant / 1000000
  let (y, m, d) := civil (seconds / 86400)
  let s := seconds % 86400
  pad 4 y ++ "-" ++ pad 2 m ++ "-" ++ pad 2 d ++ "T" ++ pad 2 (s / 3600) ++ ":" ++
    pad 2 (s % 3600 / 60) ++ ":" ++ pad 2 (s % 60) ++ "." ++ pad 6 (instant % 1000000) ++ "Z"

example : isoformat 1767225599000123 = "2025-12-31T23:59:59.000123Z" := by decide

end DateTime

/-! ## What a database keeps of a datetime -/

/-- SQLite stores the wall clock and returns it naive; PostgreSQL stores the instant and returns it
in the session's time zone. -/
inductive Dialect where
  | sqlite
  | postgresql (sessionOffset : Int)
  deriving DecidableEq, Repr

/-- A `DateTime(timezone=True)` column after a round trip. -/
def Dialect.stored : Dialect → DateTime → DateTime
  | .sqlite, d => ⟨d.wall, none⟩
  | .postgresql off, d => ⟨d.utc + off, some off⟩

/-- The round trip keeps the instant of every value written in UTC. -/
theorem Dialect.utc_stored_ofUtc (dialect : Dialect) (i : Int) :
    (dialect.stored (.ofUtc i)).utc = i := by
  cases dialect <;> simp [stored, DateTime.utc, DateTime.ofUtc]

end Scap.Py
