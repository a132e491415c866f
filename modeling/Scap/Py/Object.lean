import Mathlib.Algebra.GroupWithZero.Nat
import Mathlib.Data.List.Forall2
import Mathlib.Data.String.Basic

/-!
# Python objects

What a function that asks `isinstance` can tell apart in nested data, and Python strings: sequences
of code points, in which a surrogate can stand alone. Such a string has no UTF-8 encoding, all
others are texts (`Str.text?`).

`Object.induction` goes from the elements and the values of an object to the object.
-/

namespace Scap.Py

/-! ## Strings -/

abbrev CodePoint := Fin 0x110000

instance neZero_codePoints : NeZero 0x110000 := ⟨by decide⟩

/-- The character of a code point that is not a surrogate. -/
def CodePoint.char? (c : CodePoint) : Option Char :=
  if h : c.val.isValidChar then some (Char.ofNatAux c.val h) else none

theorem CodePoint.char?_injective {c d : CodePoint} {x : Char} (hc : c.char? = some x)
    (hd : d.char? = some x) : c = d := by
  unfold CodePoint.char? at hc hd
  by_cases hvalid : c.val.isValidChar
  · rw [dif_pos hvalid] at hc
    by_cases hvalid' : d.val.isValidChar
    · rw [dif_pos hvalid'] at hd
      have hval := congrArg Char.toNat (Option.some.inj (hc.trans hd.symm))
      exact Fin.ext hval
    · rw [dif_neg hvalid'] at hd
      cases hd
  · rw [dif_neg hvalid] at hc
    cases hc

/-- A `str`. -/
abbrev Str := List CodePoint

instance lawfulBEq_str : LawfulBEq Str := List.instLawfulBEq

namespace Str

def chars? : Str → Option (List Char)
  | [] => some []
  | c :: s => do
      let x ← c.char?
      let xs ← chars? s
      return x :: xs

/-- The text of a string, which `encode("utf-8")` asks for. -/
def text? (s : Str) : Option String := s.chars?.map String.ofList

theorem toNat_lt (x : Char) : x.toNat < 0x110000 := by
  rcases x.valid with h | ⟨-, h⟩
  · exact h.trans (by decide)
  · exact h

/-- The string of a text. -/
def ofString (text : String) : Str := text.toList.map fun x => ⟨x.toNat, toNat_lt x⟩

theorem chars?_injective {s t : Str} {xs : List Char} (hs : s.chars? = some xs)
    (ht : t.chars? = some xs) : s = t := by
  induction s generalizing t xs with
  | nil =>
      obtain rfl := Option.some.inj hs
      cases t with
      | nil => rfl
      | cons d t => simp [chars?, Option.bind_eq_some_iff] at ht
  | cons c s ih =>
      simp only [chars?, Option.bind_eq_bind, Option.bind_eq_some_iff, Option.pure_def,
        Option.some.injEq] at hs
      obtain ⟨x, hx, xs, hxs, rfl⟩ := hs
      cases t with
      | nil => simp [chars?] at ht
      | cons d t =>
          simp only [chars?, Option.bind_eq_bind, Option.bind_eq_some_iff, Option.pure_def,
            Option.some.injEq, List.cons.injEq] at ht
          obtain ⟨y, hy, ys, hys, rfl, rfl⟩ := ht
          rw [CodePoint.char?_injective hx hy, ih hxs hys]

/-- A text is the text of one string. -/
theorem text?_injective {s t : Str} {text : String} (hs : s.text? = some text)
    (ht : t.text? = some text) : s = t := by
  obtain ⟨xs, hxs, rfl⟩ := Option.map_eq_some_iff.mp hs
  obtain ⟨ys, hys, hsame⟩ := Option.map_eq_some_iff.mp ht
  obtain rfl := String.ofList_injective hsame
  exact chars?_injective hxs hys

end Str

/-! ## Objects -/

/-- An object; `other` has none of the types that the code asks for. A mapping is its items in the
order in which it yields them. -/
inductive Object where
  | none
  | bool (b : Bool)
  | int (n : Int)
  | float
  | str (s : Str)
  | list (vs : List Object)
  | tuple (vs : List Object)
  | mapping (fs : List (Object × Object))
  | other

namespace Object

/-- The elements of a list or a tuple. -/
def items? : Object → Option (List Object)
  | .list vs => some vs
  | .tuple vs => some vs
  | _ => Option.none

/-- An element of a list or a tuple, or a value of a mapping. -/
inductive Child : Object → Object → Prop
  | list {vs : List Object} {v : Object} : v ∈ vs → Child (.list vs) v
  | tuple {vs : List Object} {v : Object} : v ∈ vs → Child (.tuple vs) v
  | mapping {fs : List (Object × Object)} {f : Object × Object} : f ∈ fs → Child (.mapping fs) f.2

theorem sizeOf_child {v w : Object} (h : v.Child w) : sizeOf w < sizeOf v := by
  cases h with
  | list h =>
      have := List.sizeOf_lt_of_mem h
      simp only [Object.list.sizeOf_spec]
      omega
  | tuple h =>
      have := List.sizeOf_lt_of_mem h
      simp only [Object.tuple.sizeOf_spec]
      omega
  | @mapping fs f h =>
      have := List.sizeOf_lt_of_mem h
      have : sizeOf f.2 < sizeOf f := by
        obtain ⟨k, v⟩ := f
        simp only [Prod.mk.sizeOf_spec]
        omega
      simp only [Object.mapping.sizeOf_spec]
      omega

/-- What passes from the children of an object to it holds of every object. -/
theorem induction {P : Object → Prop} (h : ∀ v, (∀ w, v.Child w → P w) → P v) (v : Object) : P v :=
  h v fun w _ => induction h w
termination_by sizeOf v
decreasing_by exact sizeOf_child ‹_›

theorem child_of_items {v w : Object} {vs : List Object} (h : v.items? = some vs) (hw : w ∈ vs) :
    v.Child w := by
  cases v with
  | list us =>
      obtain rfl := Option.some.inj h
      exact .list hw
  | tuple us =>
      obtain rfl := Option.some.inj h
      exact .tuple hw
  | _ => cases h

/-- `v.At d w`: the object `w` stands in the object `v` at depth `d`. -/
inductive At (v : Object) : Nat → Object → Prop
  | root : At v 0 v
  | child {d : Nat} {w u : Object} : At v d w → w.Child u → At v (d + 1) u

end Object

end Scap.Py
