import Mathlib.Algebra.GroupWithZero.Nat
import Mathlib.Algebra.Order.BigOperators.Group.List
import Scap.Py.Base64

/-!
# JavaScript strings

A string is a sequence of UTF-16 code units, in which a surrogate can stand alone. `TextEncoder` and
`TextDecoder("utf-8", {fatal: true})` are those of the Encoding Standard: the encoder writes U+FFFD
for a lone surrogate; the decoder throws on what is not UTF-8, and with `ignoreBOM` left at its
default it removes a byte order mark.

`decode_encode` says what a text is after both.
-/

namespace Scap.Js

open Scap.Py (Bytes utf8 decodeUtf8 decodeUtf8_utf8)

abbrev CodeUnit := UInt16

abbrev Str := List CodeUnit

/-! ## Code points -/

def isHigh (u : CodeUnit) : Bool := 0xd800 ≤ u.toNat && u.toNat < 0xdc00

def isLow (u : CodeUnit) : Bool := 0xdc00 ≤ u.toNat && u.toNat < 0xe000

def isSurrogate (c : Nat) : Bool := 0xd800 ≤ c && c < 0xe000

/-- The code point of a surrogate pair. -/
def pair (u v : CodeUnit) : Nat := 0x10000 + (u.toNat - 0xd800) * 0x400 + (v.toNat - 0xdc00)

/-- The code points of a string, as an iteration over it gives them. -/
def codePoints : Str → List Nat
  | u :: v :: s =>
    if isHigh u && isLow v then pair u v :: codePoints s else u.toNat :: codePoints (v :: s)
  | [u] => [u.toNat]
  | [] => []

/-- No surrogate stands alone. -/
def WellFormed (s : Str) : Prop := ∀ c ∈ codePoints s, isSurrogate c = false

instance (s : Str) : Decidable (WellFormed s) :=
  List.decidableBAll (fun c : Nat => isSurrogate c = false) (codePoints s)

/-- The code units of a character. -/
def charUnits (c : Char) : Str :=
  if c.toNat < 0x10000 then [UInt16.ofNat c.toNat]
  else
    [UInt16.ofNat (0xd800 + (c.toNat - 0x10000) / 0x400),
      UInt16.ofNat (0xdc00 + (c.toNat - 0x10000) % 0x400)]

def ofChars (cs : List Char) : Str := cs.flatMap charUnits

/-- The string of a literal in the source. -/
def ofString (text : String) : Str := ofChars text.toList

/-- The scalar value of a code point, U+FFFD for a surrogate. -/
def scalar (c : Nat) : Char := if c.isValidChar then Char.ofNat c else '\uFFFD'

/-- The conversion to `USVString`. -/
def scalars (s : Str) : List Char := (codePoints s).map scalar

/-! ## The coders -/

/-- `new TextEncoder().encode(s)`. -/
def encode (s : Str) : Bytes := utf8 (String.ofList (scalars s))

/-- U+FEFF. -/
def byteOrderMark : CodeUnit := 0xfeff

def dropMark : Str → Str
  | [] => []
  | u :: s => if u = byteOrderMark then s else u :: s

/-- `new TextDecoder("utf-8", {fatal: true}).decode(data)`, or `none` for the `TypeError`. -/
def decode (data : Bytes) : Option Str :=
  (decodeUtf8 data).map fun text => dropMark (ofString text)

theorem dropMark_eq_self_iff {s : Str} : dropMark s = s ↔ s.head? ≠ some byteOrderMark := by
  cases s with
  | nil => simp [dropMark]
  | cons u s =>
      rw [dropMark]
      split
      · next h => simp [h]
      · next h => simp [h]

/-! ## Strings without lone surrogates -/

variable {s t : Str} {u v : CodeUnit}

theorem isHigh_iff : isHigh u = true ↔ 0xd800 ≤ u.toNat ∧ u.toNat < 0xdc00 := by
  simp [isHigh]

theorem isLow_iff : isLow u = true ↔ 0xdc00 ≤ u.toNat ∧ u.toNat < 0xe000 := by
  simp [isLow]

theorem isSurrogate_eq_false {c : Nat} : isSurrogate c = false ↔ c < 0xd800 ∨ 0xe000 ≤ c := by
  simp only [isSurrogate, Bool.and_eq_false_iff, decide_eq_false_iff_not]
  omega

@[simp] theorem codePoints_nil : codePoints [] = [] := rfl

@[simp] theorem codePoints_single : codePoints [u] = [u.toNat] := rfl

theorem codePoints_pair (hu : isHigh u = true) (hv : isLow v = true) :
    codePoints (u :: v :: s) = pair u v :: codePoints s := by
  rw [codePoints, hu, hv]
  rfl

/-- A unit that is not the first of a pair is a code point. -/
theorem codePoints_cons (hu : isHigh u = false) :
    codePoints (u :: s) = u.toNat :: codePoints s := by
  cases s with
  | nil => rfl
  | cons v s => simp [codePoints, hu]

theorem wellFormed_nil : WellFormed [] := by
  simp [WellFormed]

theorem codePoints_other (h : ¬(isHigh u && isLow v) = true) :
    codePoints (u :: v :: s) = u.toNat :: codePoints (v :: s) := by
  rw [codePoints, if_neg h]

theorem WellFormed.of_codePoints_cons {c : Nat} (h : WellFormed s)
    (hs : codePoints s = c :: codePoints t) : isSurrogate c = false ∧ WellFormed t := by
  unfold WellFormed at h
  rw [hs] at h
  exact ⟨h c (by simp), fun d hd => h d (List.mem_cons_of_mem _ hd)⟩

theorem isHigh_eq_false (h : isSurrogate u.toNat = false) : isHigh u = false := by
  rw [Bool.eq_false_iff]
  intro hhigh
  have hu := isHigh_iff.mp hhigh
  have hs := isSurrogate_eq_false.mp h
  omega

/-- What stands before a string does not change its code points, unless it ends with the first half
of a pair. -/
theorem codePoints_append (h : WellFormed s) :
    codePoints (s ++ t) = codePoints s ++ codePoints t := by
  induction s using codePoints.induct with
  | case1 u v s hpair ih =>
      simp only [Bool.and_eq_true] at hpair
      obtain ⟨-, hs⟩ := h.of_codePoints_cons (codePoints_pair hpair.1 hpair.2)
      show codePoints (u :: v :: (s ++ t)) = _
      rw [codePoints_pair hpair.1 hpair.2, codePoints_pair hpair.1 hpair.2, ih hs]
      rfl
  | case2 u v s hpair ih =>
      obtain ⟨-, hs⟩ := h.of_codePoints_cons (codePoints_other hpair)
      have hrest := ih hs
      show codePoints (u :: v :: (s ++ t)) = _
      rw [codePoints_other hpair, codePoints_other hpair]
      show u.toNat :: codePoints (v :: s ++ t) = _
      rw [hrest]
      rfl
  | case3 u => exact codePoints_cons (isHigh_eq_false (h _ (by simp)))
  | case4 => rfl

theorem WellFormed.append (hs : WellFormed s) (ht : WellFormed t) : WellFormed (s ++ t) := by
  intro c hc
  rw [codePoints_append hs, List.mem_append] at hc
  exact hc.elim (hs c) (ht c)

/-- Every unit is ASCII. -/
def Ascii (s : Str) : Prop := ∀ u ∈ s, u.toNat < 0x80

instance (s : Str) : Decidable (Ascii s) :=
  List.decidableBAll (fun u : UInt16 => u.toNat < 0x80) s

theorem codePoints_ascii (h : Ascii s) : codePoints s = s.map UInt16.toNat := by
  induction s with
  | nil => rfl
  | cons u s ih =>
      have hu := h u (by simp)
      have hplane : isSurrogate u.toNat = false := isSurrogate_eq_false.mpr (by omega)
      rw [codePoints_cons (isHigh_eq_false hplane), ih fun x hx => h x (by simp [hx])]
      rfl

theorem Ascii.wellFormed (h : Ascii s) : WellFormed s := by
  intro c hc
  rw [codePoints_ascii h] at hc
  obtain ⟨u, hu, rfl⟩ := List.mem_map.mp hc
  have hlt := h u hu
  exact isSurrogate_eq_false.mpr (by omega)

/-! ## From characters to units and back -/

theorem toNat_scalar {c : Nat} (h : c < 0x110000) (hs : isSurrogate c = false) :
    (scalar c).toNat = c := by
  have hvalid : c.isValidChar := by
    have hplane := isSurrogate_eq_false.mp hs
    unfold Nat.isValidChar
    omega
  rw [scalar, if_pos hvalid, Char.ofNat, dif_pos hvalid]
  rfl

/-- A unit that is no surrogate is the only one of its character. -/
theorem charUnits_scalar (h : isSurrogate u.toNat = false) : charUnits (scalar u.toNat) = [u] := by
  have hlt := u.toNat_lt
  rw [charUnits, toNat_scalar (by omega) h, if_pos hlt, UInt16.ofNat_toNat]

/-- A pair is a character outside the Basic Multilingual Plane. -/
theorem toNat_scalar_pair (hu : isHigh u = true) (hv : isLow v = true) :
    (scalar (pair u v)).toNat = pair u v ∧ 0x10000 ≤ pair u v := by
  obtain ⟨hu₁, hu₂⟩ := isHigh_iff.mp hu
  obtain ⟨hv₁, hv₂⟩ := isLow_iff.mp hv
  have hvalue : pair u v = 0x10000 + (u.toNat - 0xd800) * 0x400 + (v.toNat - 0xdc00) := rfl
  have hplane : isSurrogate (pair u v) = false := isSurrogate_eq_false.mpr (by omega)
  exact ⟨toNat_scalar (by omega) hplane, by omega⟩

theorem charUnits_pair (hu : isHigh u = true) (hv : isLow v = true) :
    charUnits (scalar (pair u v)) = [u, v] := by
  obtain ⟨hu₁, hu₂⟩ := isHigh_iff.mp hu
  obtain ⟨hv₁, hv₂⟩ := isLow_iff.mp hv
  obtain ⟨hscalar, hlarge⟩ := toNat_scalar_pair hu hv
  have hvalue : pair u v = 0x10000 + (u.toNat - 0xd800) * 0x400 + (v.toNat - 0xdc00) := rfl
  have hfirst : 0xd800 + (pair u v - 0x10000) / 0x400 = u.toNat := by omega
  have hsecond : 0xdc00 + (pair u v - 0x10000) % 0x400 = v.toNat := by omega
  rw [charUnits, hscalar, if_neg (by omega), hfirst, hsecond, UInt16.ofNat_toNat,
    UInt16.ofNat_toNat]

/-- The characters of a well-formed string have its units. -/
theorem ofChars_scalars (h : WellFormed s) : ofChars (scalars s) = s := by
  induction s using codePoints.induct with
  | case1 u v s hpair ih =>
      simp only [Bool.and_eq_true] at hpair
      have hpoints := codePoints_pair (s := s) hpair.1 hpair.2
      obtain ⟨-, hs⟩ := h.of_codePoints_cons hpoints
      have hrest := ih hs
      rw [scalars, hpoints, List.map_cons, ofChars, List.flatMap_cons,
        charUnits_pair hpair.1 hpair.2]
      show [u, v] ++ ofChars (scalars s) = _
      rw [hrest]
      rfl
  | case2 u v s hpair ih =>
      have hpoints := codePoints_other (s := s) hpair
      obtain ⟨hu, hs⟩ := h.of_codePoints_cons hpoints
      have hrest := ih hs
      rw [scalars, hpoints, List.map_cons, ofChars, List.flatMap_cons, charUnits_scalar hu]
      show [u] ++ ofChars (scalars (v :: s)) = _
      rw [hrest]
      rfl
  | case3 u =>
      show charUnits (scalar u.toNat) ++ [] = [u]
      rw [List.append_nil, charUnits_scalar (h _ (by simp))]
  | case4 => rfl

/-- **What comes back from the decoder.** The text, without the byte order mark it may begin
with. -/
theorem decode_encode (h : WellFormed s) : decode (encode s) = some (dropMark s) := by
  rw [decode, encode, decodeUtf8_utf8]
  show some (dropMark (ofChars (String.ofList (scalars s)).toList)) = _
  rw [String.toList_ofList, ofChars_scalars h]

/-! ## Sizes -/

theorem utf8_ofList (cs : List Char) :
    utf8 (String.ofList cs) = cs.flatMap String.utf8EncodeChar := by
  rw [utf8, String.toByteArray_ofList, List.utf8Encode, List.toList_data_toByteArray]

theorem encode_eq (s : Str) : encode s = (scalars s).flatMap String.utf8EncodeChar :=
  utf8_ofList (scalars s)

theorem encode_append (h : WellFormed s) : encode (s ++ t) = encode s ++ encode t := by
  rw [encode_eq, encode_eq, encode_eq, scalars, codePoints_append h, List.map_append,
    List.flatMap_append]
  rfl

theorem encode_ascii_cons (hu : u.toNat < 0x80) : encode (u :: s) = encode [u] ++ encode s := by
  have hascii : Ascii [u] := by
    intro x hx
    rwa [List.mem_singleton.mp hx]
  exact encode_append (s := [u]) hascii.wellFormed

theorem length_encode_codePoints (s : Str) :
    (encode s).length = ((codePoints s).map fun c => (scalar c).utf8Size).sum := by
  rw [encode_eq, List.length_flatMap, scalars, List.map_map]
  simp [Function.comp_def]

/-- ASCII is one byte for each unit. -/
theorem length_encode_ascii (h : Ascii s) : (encode s).length = s.length := by
  rw [length_encode_codePoints, codePoints_ascii h, List.map_map]
  have hone : ∀ u ∈ s, ((fun c => (scalar c).utf8Size) ∘ UInt16.toNat) u = 1 := by
    intro u hu
    have hlt := h u hu
    have hplane : isSurrogate u.toNat = false := isSurrogate_eq_false.mpr (by omega)
    have hvalue := toNat_scalar (c := u.toNat) (by omega) hplane
    show (scalar u.toNat).utf8Size = 1
    rw [Char.utf8Size_eq_one_iff]
    show (scalar u.toNat).toNat ≤ 127
    omega
  rw [List.map_congr_left hone]
  simp

theorem utf8Size_pair (hu : isHigh u = true) (hv : isLow v = true) :
    (scalar (pair u v)).utf8Size = 4 := by
  obtain ⟨hscalar, hlarge⟩ := toNat_scalar_pair hu hv
  rw [Char.utf8Size_eq_four_iff, UInt32.lt_iff_toNat_lt]
  show 0xffff < (scalar (pair u v)).toNat
  omega

/-- No text has more units than bytes. -/
theorem length_le_encode (s : Str) : s.length ≤ (encode s).length := by
  rw [length_encode_codePoints]
  induction s using codePoints.induct with
  | case1 u v s hpair ih =>
      simp only [Bool.and_eq_true] at hpair
      rw [codePoints_pair hpair.1 hpair.2, List.map_cons, List.sum_cons,
        utf8Size_pair hpair.1 hpair.2]
      simp only [List.length_cons]
      omega
  | case2 u v s hpair ih =>
      have hpos := (scalar u.toNat).utf8Size_pos
      rw [codePoints_other hpair, List.map_cons, List.sum_cons]
      simp only [List.length_cons] at ih ⊢
      omega
  | case3 u =>
      have hpos := (scalar u.toNat).utf8Size_pos
      simpa using Nat.succ_le_of_lt hpos
  | case4 => simp

end Scap.Js
