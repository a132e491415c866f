import Scap.Lib.Except
import Scap.Py.Object
import Scap.Py.Struct

/-!
# Base32

`base64.b32encode` and `base64.b32decode(s, casefold=True)`: five bytes are eight digits, and `=`
stands for the digits that the last bytes do not need. Digits that are filled up with as much
padding as `b32encode` can write decode to some bytes (`exists_b32decode`).
-/

namespace Scap.Py

open Scap.Lib

/-- What `b32decode` raises. -/
inductive Base32Error where
  | nonAscii
  | incorrectPadding
  | nonBase32Digit
  deriving DecidableEq, Repr

/-- `_b32rev`. -/
def b32digitValue (c : CodePoint) : Option Nat :=
  if 0x41 ≤ c.val ∧ c.val ≤ 0x5A then some (c.val - 0x41)
  else if 0x32 ≤ c.val ∧ c.val ≤ 0x37 then some (c.val - 0x18)
  else none

/-- `bytes.upper`. -/
def upperAscii (c : CodePoint) : CodePoint :=
  if 0x61 ≤ c.val ∧ c.val ≤ 0x7A then c - 0x20 else c

/-- `s[0:n], s[n:2*n], …`. -/
def slices {α : Type} (n : Nat) (s : List α) : List (List α) :=
  (List.range ((s.length + n - 1) / n)).map fun i => (s.drop (n * i)).take n

/-- The number that the digits of a quantum write. -/
def quantum (digits : Str) : Except Base32Error Nat :=
  digits.foldlM (fun acc c => match b32digitValue c with
    | some d => .ok (acc * 32 + d)
    | none => .error .nonBase32Digit) 0

/-- The bytes of the quanta. Of the last one only those that its digits fill are kept. -/
def quantaBytes (padchars : Nat) (quanta : List Nat) : Bytes :=
  match padchars, quanta.getLast? with
  | 0, _ | _, none => quanta.flatMap (Struct.packInt 5)
  | padchars, some acc => quanta.dropLast.flatMap (Struct.packInt 5) ++
      (Struct.packInt 5 (acc * 32 ^ padchars)).take ((43 - 5 * padchars) / 8)

/-- `base64.b32decode(s, casefold=True)`. -/
def b32decode (s : Str) : Except Base32Error Bytes := do
  require (s.all (·.val < 128)) .nonAscii
  require (s.length % 8 = 0) .incorrectPadding
  let digits := (s.map upperAscii).rdropWhile (· = 0x3D)
  let padchars := s.length - digits.length
  let quanta ← (slices 8 digits).mapM quantum
  require (padchars ∈ [0, 1, 3, 4, 6]) .incorrectPadding
  return quantaBytes padchars quanta

/-! ## Writing -/

/-- `_b32alphabet`. -/
def b32digit (n : Nat) : CodePoint := Fin.ofNat _ (if n < 26 then 0x41 + n else 0x18 + n)

/-- The `w` digits of a number, most significant first. -/
def b32digits : Nat → Nat → Str
  | 0, _ => []
  | w + 1, n => b32digits w (n / 32) ++ [b32digit (n % 32)]

/-- How much padding stands for the missing bytes of the last five. -/
def b32padding (leftover : Nat) : Nat :=
  match leftover with
  | 1 => 6
  | 2 => 4
  | 3 => 3
  | 4 => 1
  | _ => 0

/-- `base64.b32encode(s)` before its padding. -/
def b32core (s : Bytes) : Str :=
  let leftover := s.length % 5
  let s := if leftover = 0 then s else s ++ List.replicate (5 - leftover) 0
  let encoded := (slices 5 s).flatMap fun bs => b32digits 8 (Struct.unpackInt bs)
  encoded.take (encoded.length - b32padding leftover)

/-- `base64.b32encode(s).decode("ascii")`. -/
def b32encode (s : Bytes) : Str := b32core s ++ List.replicate (b32padding (s.length % 5)) 0x3D

/-! ## Digits decode -/

/-- A digit of the alphabet. -/
def IsB32 (c : CodePoint) : Prop := ∃ d, b32digitValue c = some d

variable {c : CodePoint} {s digits : Str} {bs : Bytes} {n w : Nat}

theorem isB32_iff : IsB32 c ↔ 0x41 ≤ c.val ∧ c.val ≤ 0x5A ∨ 0x32 ≤ c.val ∧ c.val ≤ 0x37 := by
  unfold IsB32 b32digitValue
  split
  · simp [*]
  · split <;> simp [*]

theorem IsB32.ascii (h : IsB32 c) : c.val < 128 := by
  have hrange := isB32_iff.mp h
  omega

theorem IsB32.ne_padding (h : IsB32 c) : c ≠ 0x3D := by
  rintro rfl
  have hrange := isB32_iff.mp h
  revert hrange
  decide

theorem IsB32.upperAscii (h : IsB32 c) : upperAscii c = c := by
  have hrange := isB32_iff.mp h
  exact if_neg (by omega)

theorem exists_quantum (h : ∀ c ∈ digits, IsB32 c) : ∃ n, quantum digits = .ok n := by
  have hfold : ∀ acc, ∃ n, digits.foldlM (fun acc c => match b32digitValue c with
      | some d => Except.ok (acc * 32 + d)
      | none => .error Base32Error.nonBase32Digit) acc = .ok n := by
    induction digits with
    | nil => exact fun acc => ⟨acc, rfl⟩
    | cons c digits ih =>
        intro acc
        obtain ⟨d, hd⟩ := h c (by simp)
        obtain ⟨n, hn⟩ := ih (fun c hc => h c (by simp [hc])) (acc * 32 + d)
        exact ⟨n, by simpa [hd, bind, Except.bind] using hn⟩
  exact hfold 0

theorem exists_quanta {gs : List Str} (h : ∀ g ∈ gs, ∀ c ∈ g, IsB32 c) :
    ∃ ns, gs.mapM quantum = .ok ns := by
  induction gs with
  | nil => exact ⟨[], rfl⟩
  | cons g gs ih =>
      obtain ⟨n, hn⟩ := exists_quantum (h g (by simp))
      obtain ⟨ns, hns⟩ := ih fun g hg => h g (by simp [hg])
      exact ⟨n :: ns, by simp [List.mapM_cons, hn, hns, bind, Except.bind, pure, Except.pure]⟩

theorem mem_of_mem_slices {g : Str} (hg : g ∈ slices n digits) (hc : c ∈ g) : c ∈ digits := by
  obtain ⟨i, -, rfl⟩ := List.mem_map.mp hg
  exact List.mem_of_mem_drop (List.mem_of_mem_take hc)

/-- Padded digits decode. -/
theorem exists_b32decode (h : ∀ c ∈ digits, IsB32 c) (hpad : n ∈ [0, 1, 3, 4, 6])
    (hlength : (digits.length + n) % 8 = 0) :
    ∃ key, b32decode (digits ++ List.replicate n 0x3D) = .ok key := by
  have hascii : ∀ c ∈ digits ++ List.replicate n 0x3D, c.val < 128 := by
    intro c hc
    rcases List.mem_append.mp hc with hc | hc
    · exact (h c hc).ascii
    · rw [List.eq_of_mem_replicate hc]
      decide
  have hupper : digits.map upperAscii = digits := by
    rw [List.map_congr_left fun c hc => (h c hc).upperAscii, List.map_id'']
    exact fun _ => rfl
  have hcore : ((digits ++ List.replicate n 0x3D).map upperAscii).rdropWhile (· = 0x3D) =
      digits := by
    rw [List.map_append, hupper, List.map_replicate]
    exact rdropWhile_replicate fun c hc => (h c hc).ne_padding
  obtain ⟨quanta, hquanta⟩ : ∃ quanta, (slices 8 digits).mapM quantum = .ok quanta :=
    exists_quanta fun g hg c hc => h c (mem_of_mem_slices hg hc)
  have hcount : (digits ++ List.replicate n 0x3D).length - digits.length = n := by simp
  have hvalid : (digits ++ List.replicate n 0x3D).all (·.val < 128) = true := by
    exact List.all_eq_true.mpr fun c hc => decide_eq_true (hascii c hc)
  have height : (digits ++ List.replicate n 0x3D).length % 8 = 0 := by simpa using hlength
  refine ⟨quantaBytes n quanta, ?_⟩
  simp only [b32decode, hcore, hcount, hquanta, require, if_pos hvalid, if_pos height,
    if_pos hpad, bind, Except.bind, pure, Except.pure]

/-! ## What is written decodes -/

theorem isB32_b32digit (h : n < 32) : IsB32 (b32digit n) := by
  have hall : ∀ n < 32, (b32digitValue (b32digit n)).isSome = true := by decide
  exact Option.isSome_iff_exists.mp (hall n h)

theorem isB32_of_mem_b32digits (h : c ∈ b32digits w n) : IsB32 c := by
  induction w generalizing n with
  | zero => simp [b32digits] at h
  | succ w ih =>
      rw [b32digits, List.mem_append, List.mem_singleton] at h
      rcases h with h | rfl
      · exact ih h
      · exact isB32_b32digit (Nat.mod_lt _ (by decide))

theorem isB32_of_mem_b32core (h : c ∈ b32core bs) : IsB32 c := by
  obtain ⟨g, -, hg⟩ := List.mem_flatMap.mp (List.mem_of_mem_take h)
  exact isB32_of_mem_b32digits hg

theorem b32padding_mem : b32padding n ∈ [0, 1, 3, 4, 6] := by
  unfold b32padding
  split <;> decide

theorem length_b32digits : (b32digits w n).length = w := by
  induction w generalizing n with
  | zero => rfl
  | succ w ih => simp [b32digits, ih]

/-- Eight digits for every five bytes, less the padding. -/
theorem length_b32core : ((b32core bs).length + b32padding (bs.length % 5)) % 8 = 0 := by
  have hencoded : ∀ gs : List Bytes,
      (gs.flatMap fun g => b32digits 8 (Struct.unpackInt g)).length = 8 * gs.length := by
    intro gs
    induction gs with
    | nil => rfl
    | cons g gs ih => simp [length_b32digits, ih, Nat.mul_add, Nat.add_comm]
  have hslices : ∀ s : Bytes, (slices 5 s).length = (s.length + 4) / 5 := by simp [slices]
  have hpadding : b32padding (bs.length % 5) ≤ 6 := by
    unfold b32padding
    split <;> decide
  unfold b32core
  by_cases h : bs.length % 5 = 0
  · simp [h, hencoded, b32padding]
  · simp only [if_neg h, List.length_take, hencoded, hslices, List.length_append,
      List.length_replicate]
    omega

/-- `b32encode` without its padding. -/
theorem rstrip_b32encode : (b32encode bs).rdropWhile (· = 0x3D) = b32core bs :=
  rdropWhile_replicate fun _ hc => (isB32_of_mem_b32core hc).ne_padding

/-- What `b32encode` writes decodes, also after its padding was taken off and put on again. -/
theorem exists_b32decode_encode (bs : Bytes) : ∃ key, b32decode (b32encode bs) = .ok key :=
  exists_b32decode (fun _ hc => isB32_of_mem_b32core hc) b32padding_mem length_b32core

end Scap.Py
