import Mathlib.Algebra.GroupWithZero.Nat
import Mathlib.Data.List.Forall2
import Scap.Py.Base64

/-!
# `struct`

Packed records in network order, without padding: unsigned integers of a fixed width, most
significant byte first, and byte strings of a fixed width. `unpack_pack` is the round trip; a byte
string survives it when it has the width of its field, since a shorter one is filled up and a longer
one cut off.
-/

namespace Scap.Py.Struct

/-! ## Integers -/

/-- The `w` bytes of a number, most significant first. -/
def packInt : Nat → Nat → Bytes
  | 0, _ => []
  | w + 1, n => packInt w (n / 256) ++ [UInt8.ofNat n]

def unpackInt (bs : Bytes) : Nat := bs.foldl (fun n b => n * 256 + b.toNat) 0

@[simp] theorem length_packInt (w n : Nat) : (packInt w n).length = w := by
  induction w generalizing n with
  | zero => rfl
  | succ w ih => simp [packInt, ih]

theorem unpackInt_packInt {w n : Nat} (h : n < 256 ^ w) : unpackInt (packInt w n) = n := by
  induction w generalizing n with
  | zero =>
      have hzero : n = 0 := by simpa using h
      subst hzero
      rfl
  | succ w ih =>
      have hhigh : n / 256 < 256 ^ w := by
        apply Nat.div_lt_of_lt_mul
        rwa [Nat.mul_comm, ← Nat.pow_succ]
      have hread := ih hhigh
      unfold unpackInt at hread ⊢
      rw [packInt, List.foldl_append, hread]
      show n / 256 * 256 + (UInt8.ofNat n).toNat = n
      rw [UInt8.toNat_ofNat']
      omega

theorem packInt_unpackInt (bs : Bytes) : packInt bs.length (unpackInt bs) = bs := by
  induction bs using List.reverseRecOn with
  | nil => rfl
  | append_singleton bs b ih =>
      have hb := b.toNat_lt
      have hvalue : unpackInt (bs ++ [b]) = unpackInt bs * 256 + b.toNat := by
        unfold unpackInt
        rw [List.foldl_append]
        rfl
      have hhigh : (unpackInt bs * 256 + b.toNat) / 256 = unpackInt bs := by omega
      have hlow : UInt8.ofNat (unpackInt bs * 256 + b.toNat) = b := by
        apply UInt8.toNat_inj.mp
        rw [UInt8.toNat_ofNat']
        omega
      rw [List.length_append, hvalue]
      show packInt (bs.length + 1) _ = _
      rw [packInt, hhigh, hlow, ih]

/-! ## Records -/

/-- `{w}s`, or an unsigned integer of `w` bytes. -/
inductive Field where
  | str (w : Nat)
  | uint (w : Nat)
  deriving DecidableEq, Repr

def Field.width : Field → Nat
  | str w => w
  | uint w => w

inductive Item where
  | str (bs : Bytes)
  | uint (n : Int)
  deriving DecidableEq, Repr

/-- `calcsize`. -/
def size (fields : List Field) : Nat := (fields.map Field.width).sum

def packField : Field → Item → Option Bytes
  | .str w, .str bs => some ((bs ++ List.replicate w 0).take w)
  | .uint w, .uint n => if 0 ≤ n ∧ n < (256 ^ w : Nat) then some (packInt w n.toNat) else none
  | _, _ => none

def unpackField : Field → Bytes → Item
  | .str _, bs => .str bs
  | .uint _, bs => .uint (unpackInt bs)

/-- `pack`, or `none` for `struct.error`. -/
def pack : List Field → List Item → Option Bytes
  | [], [] => some []
  | field :: fields, item :: items => do
    let bs ← packField field item
    let rest ← pack fields items
    return bs ++ rest
  | _, _ => none

def unpackFrom : List Field → Bytes → List Item
  | [], _ => []
  | field :: fields, bs =>
    unpackField field (bs.take field.width) :: unpackFrom fields (bs.drop field.width)

/-- `unpack`, or `none` for `struct.error`. -/
def unpack (fields : List Field) (bs : Bytes) : Option (List Item) :=
  if bs.length = size fields then some (unpackFrom fields bs) else none

/-- A byte string is as wide as its field. -/
def Fits : Field → Item → Prop
  | .str w, .str bs => bs.length = w
  | .uint _, .uint _ => True
  | _, _ => False

variable {field : Field} {item : Item} {fields : List Field} {items : List Item} {bs : Bytes}

theorem unpack_uint {w : Nat} (h : bs.length = w) :
    unpack [.uint w] bs = some [.uint (unpackInt bs)] := by
  subst h
  simp [unpack, size, unpackFrom, unpackField, Field.width]

theorem packField_uint {w : Nat} {n : Int} : packField (.uint w) (.uint n) = some bs ↔
    (0 ≤ n ∧ n < (256 ^ w : Nat)) ∧ packInt w n.toNat = bs := by
  show (if 0 ≤ n ∧ n < (256 ^ w : Nat) then some (packInt w n.toNat) else none) = some bs ↔ _
  simp

theorem length_packField (h : packField field item = some bs) : bs.length = field.width := by
  cases field with
  | str w =>
      cases item with
      | str s =>
          cases h
          show ((s ++ List.replicate w 0).take w).length = w
          rw [List.length_take, List.length_append, List.length_replicate]
          omega
      | uint n => cases h
  | uint w =>
      cases item with
      | str s => cases h
      | uint n =>
          obtain ⟨-, rfl⟩ := packField_uint.mp h
          exact length_packInt w _

theorem unpackField_packField (hfits : Fits field item) (h : packField field item = some bs) :
    unpackField field bs = item := by
  cases field with
  | str w =>
      cases item with
      | str s =>
          cases h
          have hwidth : s.length = w := hfits
          show Item.str ((s ++ List.replicate w 0).take w) = .str s
          rw [List.take_left' hwidth]
      | uint n => cases h
  | uint w =>
      cases item with
      | str s => cases h
      | uint n =>
          obtain ⟨hrange, rfl⟩ := packField_uint.mp h
          have hbound : n.toNat < 256 ^ w := (Int.toNat_lt hrange.1).mpr hrange.2
          show Item.uint (unpackInt (packInt w n.toNat)) = .uint n
          rw [unpackInt_packInt hbound, Int.toNat_of_nonneg hrange.1]

/-- The parts of a packed record. -/
theorem pack_cons (h : pack (field :: fields) (item :: items) = some bs) :
    ∃ first rest, packField field item = some first ∧ pack fields items = some rest ∧
      bs = first ++ rest := by
  obtain ⟨first, hfirst, h⟩ := Option.bind_eq_some_iff.mp h
  obtain ⟨rest, hrest, h⟩ := Option.bind_eq_some_iff.mp h
  exact ⟨first, rest, hfirst, hrest, (Option.some.inj h).symm⟩

theorem length_pack (h : pack fields items = some bs) : bs.length = size fields := by
  induction fields generalizing items bs with
  | nil =>
      cases items with
      | nil =>
          cases h
          rfl
      | cons item items => cases h
  | cons field fields ih =>
      cases items with
      | nil => cases h
      | cons item items =>
          obtain ⟨first, rest, hfirst, hrest, rfl⟩ := pack_cons h
          rw [List.length_append, length_packField hfirst, ih hrest]
          rfl

theorem unpackFrom_pack (hfits : List.Forall₂ Fits fields items)
    (h : pack fields items = some bs) : unpackFrom fields bs = items := by
  induction hfits generalizing bs with
  | nil => rfl
  | cons hfit hfits ih =>
      obtain ⟨first, rest, hfirst, hrest, rfl⟩ := pack_cons h
      have hlength := length_packField hfirst
      unfold unpackFrom
      rw [List.take_left' hlength, List.drop_left' hlength, ih hrest,
        unpackField_packField hfit hfirst]

/-- **What was packed is unpacked.** -/
theorem unpack_pack (hfits : List.Forall₂ Fits fields items) (h : pack fields items = some bs) :
    unpack fields bs = some items := by
  unfold unpack
  rw [if_pos (length_pack h), unpackFrom_pack hfits h]

end Scap.Py.Struct
