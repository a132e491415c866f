import Mathlib.Data.List.Infix

/-!
# File systems

A file system says what stands at a path, if anything does. `put` makes an entry and `removeTree`
takes a directory away with everything below it; what stands elsewhere is untouched.
-/

namespace Scap.Lib

/-- A path, from the root. -/
abbrev Path := List String

inductive Entry (β : Type*) where
  | file (content : β)
  | directory
  | link
  deriving DecidableEq

/-- What stands at each path. -/
def Files (β : Type*) := Path → Option (Entry β)

namespace Files

variable {β : Type*} {fs : Files β} {p q : Path} {e : Entry β}

def put (fs : Files β) (p : Path) (e : Entry β) : Files β :=
  fun q => if q = p then some e else fs q

/-- `shutil.rmtree`. -/
def removeTree (fs : Files β) (directory : Path) : Files β :=
  fun p => if directory <+: p then none else fs p

@[simp] theorem put_self : fs.put p e p = some e := if_pos rfl

theorem put_of_ne (h : q ≠ p) : fs.put p e q = fs q := if_neg h

theorem removeTree_of_not_prefix (h : ¬ p <+: q) : fs.removeTree p q = fs q := if_neg h

/-- What a removal leaves was there before. -/
theorem of_removeTree (h : fs.removeTree p q = some e) : fs q = some e := by
  unfold removeTree at h
  split at h
  · cases h
  · exact h

end Files

end Scap.Lib
