import Mathlib.Data.List.DropRight

/-!
# Byte strings

UTF-8 as `str.encode` and `bytes.decode` do it, and Base64 in both alphabets as
`base64.urlsafe_b64encode` and `base64.b64decode(altchars=b"-_", validate=True)` do it.

`decodeUtf8_utf8` and `b64decode_urlsafe` are the two round trips.
-/

namespace Scap.Py

abbrev Bytes := List UInt8

/-! ## UTF-8 -/

/-- `text.encode("utf-8")`. -/
def utf8 (text : String) : Bytes := text.toByteArray.data.toList

/-- `data.decode("utf-8")`. -/
def decodeUtf8 (data : Bytes) : Option String := String.fromUTF8? ⟨data.toArray⟩

@[simp] theorem decodeUtf8_utf8 (text : String) : decodeUtf8 (utf8 text) = some text := by
  have hbytes : (⟨(utf8 text).toArray⟩ : ByteArray) = text.toByteArray := by
    simp [utf8]
  unfold decodeUtf8 String.fromUTF8?
  rw [hbytes, dif_pos text.isValidUTF8]
  rfl

theorem utf8_injective : Function.Injective utf8 := by
  intro s t h
  have hdecode := congrArg decodeUtf8 h
  rw [decodeUtf8_utf8, decodeUtf8_utf8] at hdecode
  exact Option.some.inj hdecode

/-! ## Base64 -/

/-- The URL-safe digit for a value below 64. -/
def urlsafeDigit (n : Nat) : Char :=
  if n < 26 then Char.ofNat (65 + n)
  else if n < 52 then Char.ofNat (71 + n)
  else if n < 62 then Char.ofNat (n - 4)
  else if n = 62 then '-'
  else '_'

/-- The value of a digit of either alphabet. -/
def digitValue (c : Char) : Option Nat :=
  if 'A' ≤ c ∧ c ≤ 'Z' then some (c.toNat - 65)
  else if 'a' ≤ c ∧ c ≤ 'z' then some (c.toNat - 71)
  else if '0' ≤ c ∧ c ≤ '9' then some (c.toNat + 4)
  else if c = '-' ∨ c = '+' then some 62
  else if c = '_' ∨ c = '/' then some 63
  else none

/-- Three bytes are four digits; one or two bytes at the end are padded. -/
def encodeGroups : Bytes → List Char
  | a :: b :: c :: rest =>
    urlsafeDigit (a.toNat / 4) :: urlsafeDigit (a.toNat % 4 * 16 + b.toNat / 16) ::
      urlsafeDigit (b.toNat % 16 * 4 + c.toNat / 64) :: urlsafeDigit (c.toNat % 64) ::
      encodeGroups rest
  | [a, b] => [urlsafeDigit (a.toNat / 4), urlsafeDigit (a.toNat % 4 * 16 + b.toNat / 16),
      urlsafeDigit (b.toNat % 16 * 4), '=']
  | [a] => [urlsafeDigit (a.toNat / 4), urlsafeDigit (a.toNat % 4 * 16), '=', '=']
  | [] => []

/-- The bytes of groups of four digits, the last of which may be padded. -/
def decodeGroups : List Char → Option Bytes
  | [] => some []
  | [w, x, '=', '='] => do
    let w ← digitValue w
    let x ← digitValue x
    return [UInt8.ofNat (w * 4 + x / 16)]
  | [w, x, y, '='] => do
    let w ← digitValue w
    let x ← digitValue x
    let y ← digitValue y
    return [UInt8.ofNat (w * 4 + x / 16), UInt8.ofNat (x % 16 * 16 + y / 4)]
  | w :: x :: y :: z :: rest => do
    let w ← digitValue w
    let x ← digitValue x
    let y ← digitValue y
    let z ← digitValue z
    let rest ← decodeGroups rest
    return UInt8.ofNat (w * 4 + x / 16) :: UInt8.ofNat (x % 16 * 16 + y / 4) ::
      UInt8.ofNat (y % 4 * 64 + z) :: rest
  | _ => none

/-- `base64.urlsafe_b64encode(data).decode("ascii")`. -/
def urlsafeB64encode (data : Bytes) : String := String.ofList (encodeGroups data)

/-- `base64.b64decode(text.encode("ascii"), altchars=b"-_", validate=True)`. -/
def b64decode (text : String) : Option Bytes := decodeGroups text.toList

theorem digitValue_urlsafeDigit {n : Nat} (h : n < 64) :
    digitValue (urlsafeDigit n) = some n := by
  revert n
  decide

theorem urlsafeDigit_ne {n : Nat} (h : n < 64) : urlsafeDigit n ≠ '=' := by
  revert n
  decide

/-- A byte is put together again from its upper and its lower part. -/
theorem ofNat_split {b : UInt8} {high low : Nat} (h : high + low = b.toNat) :
    UInt8.ofNat (high + low) = b := by
  rw [h]
  exact UInt8.ofNat_toNat

theorem decodeGroups_encodeGroups (data : Bytes) : decodeGroups (encodeGroups data) = some data := by
  induction data using encodeGroups.induct with
  | case1 a b c rest ih =>
      have ha := a.toNat_lt
      have hb := b.toNat_lt
      have hc := c.toNat_lt
      rw [encodeGroups, decodeGroups]
      · rw [digitValue_urlsafeDigit (by omega), digitValue_urlsafeDigit (by omega),
          digitValue_urlsafeDigit (by omega), digitValue_urlsafeDigit (by omega), ih]
        have h₁ : a.toNat / 4 * 4 + (a.toNat % 4 * 16 + b.toNat / 16) / 16 = a.toNat := by omega
        have h₂ : (a.toNat % 4 * 16 + b.toNat / 16) % 16 * 16 +
            (b.toNat % 16 * 4 + c.toNat / 64) / 4 = b.toNat := by omega
        have h₃ : (b.toNat % 16 * 4 + c.toNat / 64) % 4 * 64 + c.toNat % 64 = c.toNat := by omega
        show some (UInt8.ofNat _ :: UInt8.ofNat _ :: UInt8.ofNat _ :: rest) = _
        rw [ofNat_split h₁, ofNat_split h₂, ofNat_split h₃]
      · intro hdigit
        exact absurd hdigit (urlsafeDigit_ne (by omega))
      · intro hdigit _
        exact absurd hdigit (urlsafeDigit_ne (by omega))
  | case2 a b =>
      have ha := a.toNat_lt
      have hb := b.toNat_lt
      rw [encodeGroups, decodeGroups]
      · rw [digitValue_urlsafeDigit (by omega), digitValue_urlsafeDigit (by omega),
          digitValue_urlsafeDigit (by omega)]
        have h₁ : a.toNat / 4 * 4 + (a.toNat % 4 * 16 + b.toNat / 16) / 16 = a.toNat := by omega
        have h₂ : (a.toNat % 4 * 16 + b.toNat / 16) % 16 * 16 + b.toNat % 16 * 4 / 4 =
            b.toNat := by omega
        show some [UInt8.ofNat _, UInt8.ofNat _] = _
        rw [ofNat_split h₁, ofNat_split h₂]
      · exact urlsafeDigit_ne (by omega)
  | case3 a =>
      have ha := a.toNat_lt
      rw [encodeGroups, decodeGroups, digitValue_urlsafeDigit (by omega),
        digitValue_urlsafeDigit (by omega)]
      have h₁ : a.toNat / 4 * 4 + a.toNat % 4 * 16 / 16 = a.toNat := by omega
      show some [UInt8.ofNat _] = _
      rw [ofNat_split h₁]
  | case4 => rfl

theorem b64decode_urlsafe (data : Bytes) : b64decode (urlsafeB64encode data) = some data := by
  rw [b64decode, urlsafeB64encode, String.toList_ofList]
  exact decodeGroups_encodeGroups data

/-- The digits of some bytes and what fills up the last group. -/
theorem encodeGroups_eq (data : Bytes) : ∃ ds,
    encodeGroups data = ds ++ List.replicate ((ds.length + 3) / 4 * 4 - ds.length) '=' ∧
      ds.length = (4 * data.length + 2) / 3 ∧ ∀ c ∈ ds, ∃ n < 64, c = urlsafeDigit n := by
  induction data using encodeGroups.induct with
  | case1 a b c rest ih =>
      obtain ⟨ds, hds, hlength, hdigits⟩ := ih
      have ha := a.toNat_lt
      have hb := b.toNat_lt
      have hc := c.toNat_lt
      refine ⟨urlsafeDigit (a.toNat / 4) :: urlsafeDigit (a.toNat % 4 * 16 + b.toNat / 16) ::
        urlsafeDigit (b.toNat % 16 * 4 + c.toNat / 64) :: urlsafeDigit (c.toNat % 64) :: ds,
        ?_, ?_, ?_⟩
      · have hfill : (ds.length + 4 + 3) / 4 * 4 - (ds.length + 4) =
            (ds.length + 3) / 4 * 4 - ds.length := by omega
        rw [encodeGroups, hds]
        simp only [List.cons_append, List.length_cons]
        rw [hfill]
      · simp only [List.length_cons]
        omega
      · intro d hd
        simp only [List.mem_cons] at hd
        rcases hd with rfl | rfl | rfl | rfl | hd
        · exact ⟨_, by omega, rfl⟩
        · exact ⟨_, by omega, rfl⟩
        · exact ⟨_, by omega, rfl⟩
        · exact ⟨_, by omega, rfl⟩
        · exact hdigits d hd
  | case2 a b =>
      have ha := a.toNat_lt
      have hb := b.toNat_lt
      refine ⟨[urlsafeDigit (a.toNat / 4), urlsafeDigit (a.toNat % 4 * 16 + b.toNat / 16),
        urlsafeDigit (b.toNat % 16 * 4)], by simp [encodeGroups], by simp, ?_⟩
      intro d hd
      simp only [List.mem_cons, List.not_mem_nil, or_false] at hd
      rcases hd with rfl | rfl | rfl
      · exact ⟨_, by omega, rfl⟩
      · exact ⟨_, by omega, rfl⟩
      · exact ⟨_, by omega, rfl⟩
  | case3 a =>
      have ha := a.toNat_lt
      refine ⟨[urlsafeDigit (a.toNat / 4), urlsafeDigit (a.toNat % 4 * 16)],
        by simp [encodeGroups, List.replicate], by simp, ?_⟩
      intro d hd
      simp only [List.mem_cons, List.not_mem_nil, or_false] at hd
      rcases hd with rfl | rfl
      · exact ⟨_, by omega, rfl⟩
      · exact ⟨_, by omega, rfl⟩
  | case4 => exact ⟨[], rfl, rfl, by simp⟩

/-- Padding is taken off a text that does not end in it. -/
theorem rdropWhile_replicate {α : Type*} [DecidableEq α] {x : α} {ds : List α} {k : Nat}
    (h : ∀ c ∈ ds, c ≠ x) :
    (ds ++ List.replicate k x).rdropWhile (fun c => c = x) = ds := by
  unfold List.rdropWhile
  rw [List.reverse_append, List.reverse_replicate, List.dropWhile_append_of_pos (by simp)]
  cases hlast : ds.reverse with
  | nil => simpa using hlast.symm
  | cons d rest =>
      have hd : d ≠ x := h d (by rw [← List.mem_reverse, hlast]; simp)
      rw [List.dropWhile_cons, if_neg (by simpa using hd), ← hlast, List.reverse_reverse]

end Scap.Py
