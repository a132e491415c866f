import Scap.Js.Json

/-!
# Base64 with `btoa` and `atob`

The alphabet is the URL-safe one, in which `-` and `_` replace `+` and `/`, and the padding is
removed after `btoa` and put back before `atob`. `atob64_btoa64` is the round trip.
-/

namespace Scap.Js

open Scap.Py (Bytes encodeGroups encodeGroups_eq decodeGroups decodeGroups_encodeGroups
  rdropWhile_replicate urlsafeDigit)

/-- `btoa(binary).replace(/\+/g, "-").replace(/\//g, "_").replace(/=+$/, "")`. -/
def btoa64 (data : Bytes) : Str := ((encodeGroups data).rdropWhile fun c => c = '=').map code

/-- `text.padEnd(Math.ceil(text.length / 4) * 4, "=")`. -/
def padEnd64 (text : List Char) : List Char :=
  text ++ List.replicate ((text.length + 3) / 4 * 4 - text.length) '='

/-- `atob` of a padded text in either alphabet. -/
def atob64 (text : Str) : Option Bytes :=
  decodeGroups (padEnd64 (text.map fun u => Char.ofNat u.toNat))

/-- `[A-Za-z0-9_-]`. -/
def isUrlsafe (u : CodeUnit) : Bool :=
  let n := u.toNat
  (65 ≤ n && n ≤ 90) || (97 ≤ n && n ≤ 122) || (48 ≤ n && n ≤ 57) || n = 95 || n = 45

/-- A digit is the same as a character and as a unit. -/
theorem digit_spec {n : Nat} (h : n < 64) : urlsafeDigit n ≠ '=' ∧
    Char.ofNat (code (urlsafeDigit n)).toNat = urlsafeDigit n ∧
    isUrlsafe (code (urlsafeDigit n)) = true := by
  revert n
  decide

/-- The text is the digits. -/
theorem btoa64_eq (data : Bytes) : ∃ ds, btoa64 data = ds.map code ∧
    encodeGroups data = padEnd64 ds ∧ ds.length = (4 * data.length + 2) / 3 ∧
    ∀ c ∈ ds, ∃ n < 64, c = urlsafeDigit n := by
  obtain ⟨ds, hds, hlength, hdigits⟩ := encodeGroups_eq data
  refine ⟨ds, ?_, hds, hlength, hdigits⟩
  rw [btoa64, hds, rdropWhile_replicate]
  intro c hc
  obtain ⟨n, hn, rfl⟩ := hdigits c hc
  exact (digit_spec hn).1

theorem length_btoa64 (data : Bytes) : (btoa64 data).length = (4 * data.length + 2) / 3 := by
  obtain ⟨ds, htext, -, hlength, -⟩ := btoa64_eq data
  rw [htext, List.length_map, hlength]

theorem isUrlsafe_of_mem_btoa64 {data : Bytes} {u : CodeUnit} (h : u ∈ btoa64 data) :
    isUrlsafe u = true := by
  obtain ⟨ds, htext, -, -, hdigits⟩ := btoa64_eq data
  rw [htext] at h
  obtain ⟨c, hc, rfl⟩ := List.mem_map.mp h
  obtain ⟨n, hn, rfl⟩ := hdigits c hc
  exact (digit_spec hn).2.2

/-- **What was encoded is decoded.** -/
theorem atob64_btoa64 (data : Bytes) : atob64 (btoa64 data) = some data := by
  obtain ⟨ds, htext, hpadded, -, hdigits⟩ := btoa64_eq data
  have hback : (ds.map code).map (fun u => Char.ofNat u.toNat) = ds := by
    rw [List.map_map]
    conv_rhs => rw [← List.map_id ds]
    apply List.map_congr_left
    intro c hc
    obtain ⟨n, hn, rfl⟩ := hdigits c hc
    exact (digit_spec hn).2.1
  rw [atob64, htext, hback, ← hpadded, decodeGroups_encodeGroups]

end Scap.Js
