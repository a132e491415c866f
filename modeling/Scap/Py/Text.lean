import Mathlib.Data.List.DropRight
import Scap.Py.Object

/-!
# Cleaning text

`str.strip` and `str.lower` as the validators use them. The words they compare with are ASCII, and
no character outside ASCII has a lower case that occurs in one of them, so that lowering the ASCII
letters is all that matters.
-/

namespace Scap.Py

/-- `str.isspace` of one character. -/
def isSpace (c : Char) : Bool :=
  let n := c.toNat
  (9 ≤ n && n ≤ 13) || (28 ≤ n && n ≤ 32) || n = 0x85 || n = 0xA0 || n = 0x1680 ||
    (0x2000 ≤ n && n ≤ 0x200A) || n = 0x2028 || n = 0x2029 || n = 0x202F || n = 0x205F || n = 0x3000

/-- `value.strip()`. -/
def strip (value : String) : String :=
  String.ofList ((value.toList.dropWhile isSpace).reverse.dropWhile isSpace).reverse

/-- `value.strip()` of a string in which surrogates can stand alone. -/
def Str.strip (value : Str) : Str :=
  (value.dropWhile fun c => c.char?.any isSpace).rdropWhile fun c => c.char?.any isSpace

/-- `value.strip().lower()`. -/
def cleaned (value : String) : String :=
  String.ofList ((strip value).toList.map Char.toLower)

example : cleaned " Private_E2EE\n" = "private_e2ee" := by decide +kernel

end Scap.Py
