import Scap.Py.Json

/-!
# `hmac.new(key, message, sha256).hexdigest()`

HMAC-SHA256 itself is a parameter of the development: a function from a key and a message to 32
bytes. What the code does around it — UTF-8 encoding, the hexadecimal rendering and the check that a
stored text is such a rendering — is concrete.

`IdealOn` is what "collision free and never the genesis string" can mean for a function with 32-byte
values: it is said of the texts that are really handed to it, not of all texts.
-/

namespace Scap.Py

/-- A SHA-256 output. -/
abbrev Digest := { bytes : List UInt8 // bytes.length = 32 }

/-- HMAC-SHA256: key, message, digest. -/
abbrev HmacSha256 := ByteArray → ByteArray → Digest

/-- Two lower-case hexadecimal digits. -/
def hexByte (b : UInt8) : List Char := [hexDigit (b.toNat / 16), hexDigit (b.toNat % 16)]

def hexdigest (d : Digest) : String := String.ofList (d.val.flatMap hexByte)

/-- The characters of a lower-case hexadecimal text. -/
def isHexChar (c : Char) : Bool := c ∈ "0123456789abcdef".toList

/-- `valid_sha256_digest`: 64 lower-case hexadecimal characters. -/
def validSha256Digest : Option String → Bool
  | none => false
  | some s => s.toList.length = 64 && s.toList.all isHexChar

theorem isHexChar_hexDigit {n : Nat} (h : n < 16) : isHexChar (hexDigit n) = true := by
  revert n
  decide

theorem length_hexBytes (bs : List UInt8) : (bs.flatMap hexByte).length = 2 * bs.length := by
  induction bs with
  | nil => rfl
  | cons b bs ih => simp [List.flatMap_cons, ih, hexByte]; omega

/-- Every digest renders as a valid digest text. -/
@[simp] theorem validSha256Digest_hexdigest (d : Digest) :
    validSha256Digest (some (hexdigest d)) = true := by
  obtain ⟨bytes, hlen⟩ := d
  have hall : ∀ c ∈ bytes.flatMap hexByte, isHexChar c = true := by
    intro c hc
    obtain ⟨b, -, hb⟩ := List.mem_flatMap.mp hc
    have hb256 : b.toNat < 256 := b.toNat_lt
    rcases List.mem_cons.mp hb with rfl | hb
    · exact isHexChar_hexDigit (by omega)
    · rw [List.mem_singleton.mp hb]
      exact isHexChar_hexDigit (by omega)
  simp only [validSha256Digest, hexdigest, String.toList_ofList, Bool.and_eq_true,
    decide_eq_true_eq, List.all_eq_true]
  exact ⟨by rw [length_hexBytes, hlen], hall⟩

/-- On the messages `asked`, `mac` has no collision and never yields the text `genesis`. -/
structure IdealOn (mac : ByteArray → String) (genesis : String) (asked : Set ByteArray) : Prop where
  collisionFree : Set.InjOn mac asked
  neGenesis : ∀ m ∈ asked, mac m ≠ genesis

end Scap.Py
