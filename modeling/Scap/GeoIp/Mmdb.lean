import Mathlib.Data.Int.Log
import Mathlib.Data.Rat.Floor
import Scap.Lib.Except
import Scap.Py.Base64

/-!
# The data section of a MaxMind DB file

`_decode` reads one value: control bytes with extended types and sizes, pointers, scalars, maps and
arrays. A malformed value is a `GeoIpUpdateError`, but a few places raise errors of Python itself.

`Reads` says what stands at an offset, and `Fails` that a place is reached, in the order of the
bytes, at which Python raises. `decode_eq_ok_iff` and `decode_exception_iff` put the function beside
the two.

Depths are counted down: `left` is 17 less the depth.
-/

namespace Scap.GeoIp

open Scap.Lib Scap.Py

/-! ## Values and errors -/

/-- A float of Python. The sign of a zero is left out: no comparison shows it. -/
inductive PyFloat where
  | finite (q : ℚ)
  | infinite (negative : Bool)
  | nan
  deriving DecidableEq

/-- The value of the bits of a binary floating-point number. -/
def PyFloat.ofBits (exponentBits fractionBits n : Nat) : PyFloat :=
  let bias := 2 ^ (exponentBits - 1) - 1
  let fraction := n % 2 ^ fractionBits
  let exponent := n / 2 ^ fractionBits % 2 ^ exponentBits
  let negative : Bool := n / 2 ^ (fractionBits + exponentBits) % 2 = 1
  if exponent = 2 ^ exponentBits - 1 then
    if fraction = 0 then .infinite negative else .nan
  else
    let magnitude : ℚ :=
      if exponent = 0 then fraction * (2 : ℚ) ^ (1 - (bias : Int) - fractionBits)
      else (2 ^ fractionBits + fraction : Nat) * (2 : ℚ) ^ ((exponent : Int) - bias - fractionBits)
    .finite (if negative then -magnitude else magnitude)

/-- What `_decode` returns. -/
inductive Val where
  | str (s : String)
  | float (x : PyFloat)
  | bytes (b : Bytes)
  | int (n : Int)
  | dict (entries : List (Val × Val))
  | list (items : List Val)
  | bool (b : Bool)

/-- The exceptions that are not a `GeoIpUpdateError`. -/
inductive PyException where
  | indexError
  | unicodeDecodeError
  | structError
  | typeError
  | overflowError
  | osError
  deriving DecidableEq

inductive Raised where
  | geoIpUpdateError (message : String)
  | exception (e : PyException)
  deriving DecidableEq

def malformed : Raised := .geoIpUpdateError "Malformed MaxMind DB metadata."

def unsupported : Raised := .geoIpUpdateError "Unsupported MaxMind DB metadata type."

namespace Val

/-- A map or an array is no key. -/
def hashable : Val → Bool
  | dict _ | list _ => false
  | _ => true

/-- The number that a value is equal to. -/
def number? : Val → Option PyFloat
  | int n => some (.finite n)
  | bool b => some (.finite (if b then 1 else 0))
  | float x => if x = .nan then none else some x
  | _ => none

/-- Whether two keys are one. -/
def sameKey : Val → Val → Bool
  | str s, str t => s = t
  | bytes b, bytes c => b = c
  | v, w =>
    match v.number?, w.number? with
    | some x, some y => x = y
    | _, _ => false

end Val

/-- `result[key] = value`. -/
def setItem (entries : List (Val × Val)) (entry : Val × Val) : List (Val × Val) :=
  if entries.any fun e => e.1.sameKey entry.1 then
    entries.map fun e => if e.1.sameKey entry.1 then (e.1, entry.2) else e
  else entries ++ [entry]

/-! ## Bytes -/

/-- `data[start:start + count]`. -/
def slice (data : Bytes) (start count : Nat) : Bytes := (data.drop start).take count

/-- `int.from_bytes(b, "big")`. -/
def fromBytes (b : Bytes) : Nat := b.foldl (fun n byte => n * 256 + byte.toNat) 0

/-- `int.from_bytes(b, "big", signed=True)`. -/
def fromBytesSigned (b : Bytes) : Int :=
  if 2 * fromBytes b < 256 ^ b.length then fromBytes b else fromBytes b - 256 ^ b.length

/-- How many bytes of a pointer follow its control byte, less one. -/
def pointerSize (control : Nat) : Nat := control >>> 3 &&& 0x3

/-- The offset that a pointer leads to, whose control byte lies before `offset`. -/
def pointerTarget (data : Bytes) (base control offset : Nat) : Nat :=
  let size := pointerSize control
  let low := control &&& 0x7
  let value := fromBytes (slice data offset (size + 1))
  base + if size < 3 then [0, 2048, 526336].getD size 0 + (low <<< (8 * (size + 1)) ||| value)
    else value

/-- The kind and the size of a value that is no pointer, and where it goes on. -/
def fieldHead (data : Bytes) (control offset : Nat) : Except Raised (Nat × Nat × Nat) := do
  let (kind, offset) ←
    if control >>> 5 = 0 then
      match data[offset]? with
      | none => throw (.exception .indexError)
      | some byte => pure (7 + byte.toNat, offset + 1)
    else pure (control >>> 5, offset)
  let size := control &&& 0x1f
  if 29 ≤ size then
    let extra := size - 28
    return (kind, [29, 285, 65821].getD (extra - 1) 0 + fromBytes (slice data offset extra),
      offset + extra)
  else return (kind, size, offset)

/-- A value that is no pointer, map or array. -/
def decodeScalar (data : Bytes) (kind size offset : Nat) : Except Raised (Val × Nat) :=
  if kind = 2 then
    match decodeUtf8 (slice data offset size) with
    | none => .error (.exception .unicodeDecodeError)
    | some s => .ok (.str s, offset + size)
  else if kind = 3 then
    if (slice data offset 8).length = 8 then
      .ok (.float (.ofBits 11 52 (fromBytes (slice data offset 8))), offset + 8)
    else .error (.exception .structError)
  else if kind = 4 then .ok (.bytes (slice data offset size), offset + size)
  else if kind ∈ [5, 6, 9, 10] then .ok (.int (fromBytes (slice data offset size)), offset + size)
  else if kind = 8 then .ok (.int (fromBytesSigned (slice data offset size)), offset + size)
  else if kind = 14 then .ok (.bool (size ≠ 0), offset)
  else if kind = 15 then
    if (slice data offset 4).length = 4 then
      .ok (.float (.ofBits 8 23 (fromBytes (slice data offset 4))), offset + 4)
    else .error (.exception .structError)
  else .error unsupported

/-! ## Decoding -/

section Loops

variable (item : Nat → Except Raised (Val × Nat))

/-- The loop over the entries of a map. -/
def decodeEntries : Nat → Nat → List (Val × Val) → Except Raised (List (Val × Val) × Nat)
  | 0, offset, result => .ok (result, offset)
  | n + 1, offset, result => do
    let (key, offset) ← item offset
    let (value, offset) ← item offset
    if key.hashable then decodeEntries n offset (setItem result (key, value))
    else throw (.exception .typeError)

/-- The loop over the items of an array. -/
def decodeItems : Nat → Nat → Except Raised (List Val × Nat)
  | 0, offset => .ok ([], offset)
  | n + 1, offset => do
    let (value, offset) ← item offset
    let (items, offset) ← decodeItems n offset
    return (value :: items, offset)

end Loops

variable (data : Bytes) (base : Nat)

/-- A value that is no pointer, with what reads the values in it. -/
def decodeField (item : Nat → Except Raised (Val × Nat)) (kind size offset : Nat) :
    Except Raised (Val × Nat) :=
  if kind = 7 then (decodeEntries item size offset []).map fun p => (.dict p.1, p.2)
  else if kind = 11 then (decodeItems item size offset).map fun p => (.list p.1, p.2)
  else decodeScalar data kind size offset

/-- `_decode`. -/
def decode : Nat → Nat → Except Raised (Val × Nat)
  | 0, _ => .error malformed
  | left + 1, offset =>
    match data[offset]? with
    | none => .error malformed
    | some byte =>
      let control := byte.toNat
      let offset := offset + 1
      if control >>> 5 = 1 then
        (decode left (pointerTarget data base control offset)).map fun p =>
          (p.1, offset + pointerSize control + 1)
      else
        match fieldHead data control offset with
        | .error e => .error e
        | .ok (kind, size, offset) => decodeField data (decode left) kind size offset

/-! ## What stands in the bytes -/

/-- A value that is no pointer begins at `offset` and goes on at `body`. -/
def Head (offset kind size body : Nat) : Prop :=
  ∃ byte, data[offset]? = some byte ∧ byte.toNat >>> 5 ≠ 1 ∧
    fieldHead data byte.toNat (offset + 1) = .ok (kind, size, body)

/-- A pointer at `offset` leads to `target`, and ends before `next`. -/
def Pointer (offset target next : Nat) : Prop :=
  ∃ byte, data[offset]? = some byte ∧ byte.toNat >>> 5 = 1 ∧
    target = pointerTarget data base byte.toNat (offset + 1) ∧
    next = offset + 1 + pointerSize byte.toNat + 1

inductive Phrase where
  | value (v : Val)
  | items (vs : List Val)
  | entries (es : List (Val × Val))

/-- `Reads data base p left offset next`: at `offset` stands `p`, nested less than `left` deep, and
it ends before `next`. -/
inductive Reads : Phrase → Nat → Nat → Nat → Prop
  | pointer {left offset target next ends : Nat} {v : Val}
      (h : Pointer data base offset target next) (hv : Reads (.value v) left target ends) :
      Reads (.value v) (left + 1) offset next
  | scalar {left offset kind size body next : Nat} {v : Val} (h : Head data offset kind size body)
      (hkind : kind ≠ 7 ∧ kind ≠ 11) (hv : decodeScalar data kind size body = .ok (v, next)) :
      Reads (.value v) (left + 1) offset next
  | dict {left offset size body next : Nat} {es : List (Val × Val)}
      (h : Head data offset 7 size body) (hsize : es.length = size)
      (hes : Reads (.entries es) left body next) :
      Reads (.value (.dict (es.foldl setItem []))) (left + 1) offset next
  | list {left offset size body next : Nat} {vs : List Val}
      (h : Head data offset 11 size body) (hsize : vs.length = size)
      (hvs : Reads (.items vs) left body next) : Reads (.value (.list vs)) (left + 1) offset next
  | noItems {left offset : Nat} : Reads (.items []) left offset offset
  | item {left offset mid next : Nat} {v : Val} {vs : List Val}
      (hv : Reads (.value v) left offset mid) (hvs : Reads (.items vs) left mid next) :
      Reads (.items (v :: vs)) left offset next
  | noEntries {left offset : Nat} : Reads (.entries []) left offset offset
  | entry {left offset mid mid' next : Nat} {k v : Val} {es : List (Val × Val)}
      (hk : Reads (.value k) left offset mid) (hkey : k.hashable = true)
      (hv : Reads (.value v) left mid mid') (hes : Reads (.entries es) left mid' next) :
      Reads (.entries ((k, v) :: es)) left offset next

/-- What is to be read: a value, or so many items or entries. -/
inductive Wanted where
  | value
  | items (n : Nat)
  | entries (n : Nat)

/-- `Fails data base w left offset`: what is read at `offset` comes to a place where Python raises:
a type byte or a part of a float that is cut off, a string that is no UTF-8, or an entry whose key
is a map or an array. -/
inductive Fails : Wanted → Nat → Nat → Prop
  | pointer {left offset target next : Nat} (h : Pointer data base offset target next)
      (hv : Fails .value left target) : Fails .value (left + 1) offset
  | extended {left offset : Nat} {byte : UInt8} (hbyte : data[offset]? = some byte)
      (hkind : byte.toNat >>> 5 = 0) (hend : data.length ≤ offset + 1) :
      Fails .value (left + 1) offset
  | text {left offset size body : Nat} (h : Head data offset 2 size body)
      (htext : decodeUtf8 (slice data body size) = none) : Fails .value (left + 1) offset
  | double {left offset size body : Nat} (h : Head data offset 3 size body)
      (hend : data.length < body + 8) : Fails .value (left + 1) offset
  | single {left offset size body : Nat} (h : Head data offset 15 size body)
      (hend : data.length < body + 4) : Fails .value (left + 1) offset
  | dict {left offset size body : Nat} (h : Head data offset 7 size body)
      (hes : Fails (.entries size) left body) : Fails .value (left + 1) offset
  | list {left offset size body : Nat} (h : Head data offset 11 size body)
      (hvs : Fails (.items size) left body) : Fails .value (left + 1) offset
  | item {left offset n : Nat} (hv : Fails .value left offset) : Fails (.items (n + 1)) left offset
  | laterItem {left offset mid n : Nat} {v : Val} (hv : Reads data base (.value v) left offset mid)
      (hvs : Fails (.items n) left mid) : Fails (.items (n + 1)) left offset
  | key {left offset n : Nat} (hk : Fails .value left offset) :
      Fails (.entries (n + 1)) left offset
  | mapped {left offset mid n : Nat} {k : Val} (hk : Reads data base (.value k) left offset mid)
      (hv : Fails .value left mid) : Fails (.entries (n + 1)) left offset
  | unhashable {left offset mid next n : Nat} {k v : Val}
      (hk : Reads data base (.value k) left offset mid)
      (hv : Reads data base (.value v) left mid next) (hkey : k.hashable = false) :
      Fails (.entries (n + 1)) left offset
  | laterEntry {left offset mid next n : Nat} {k v : Val}
      (hk : Reads data base (.value k) left offset mid) (hkey : k.hashable = true)
      (hv : Reads data base (.value v) left mid next) (hes : Fails (.entries n) left next) :
      Fails (.entries (n + 1)) left offset

section Decoding

variable {data base} {left offset next n size body kind : Nat} {v : Val} {w : Wanted} {p : Phrase}
  {e : PyException} {item : Nat → Except Raised (Val × Nat)} {vs : List Val}
  {es result : List (Val × Val)}

theorem length_slice (start count : Nat) :
    (slice data start count).length = min count (data.length - start) := by
  rw [slice, List.length_take, List.length_drop]

theorem fieldHead_eq_error {control : Nat} {error : Raised}
    (h : fieldHead data control offset = .error error) :
    error = .exception .indexError ∧ control >>> 5 = 0 ∧ data.length ≤ offset := by
  unfold fieldHead at h
  by_cases hkind : control >>> 5 = 0
  · cases hbyte : data[offset]? with
    | none =>
        rw [if_pos hkind, hbyte] at h
        exact ⟨(Except.error.inj h).symm, hkind, List.getElem?_eq_none_iff.mp hbyte⟩
    | some byte =>
        rw [if_pos hkind, hbyte] at h
        simp only [pure_bind] at h
        split at h <;> cases h
  · rw [if_neg hkind] at h
    simp only [pure_bind] at h
    split at h <;> cases h

theorem fieldHead_extended {control : Nat} (hkind : control >>> 5 = 0)
    (hend : data.length ≤ offset) :
    fieldHead data control offset = .error (.exception .indexError) := by
  rw [fieldHead, if_pos hkind, List.getElem?_eq_none_iff.mpr hend]
  rfl

/-- What one call does, one case for each way to go on. -/
theorem decode_cases (data : Bytes) (base left offset : Nat) :
    decode data base (left + 1) offset = .error malformed ∧ data.length ≤ offset ∨
      (∃ target next, Pointer data base offset target next ∧ decode data base (left + 1) offset =
        (decode data base left target).map fun p => (p.1, next)) ∨
      (∃ byte, data[offset]? = some byte ∧ byte.toNat >>> 5 = 0 ∧ data.length ≤ offset + 1 ∧
        decode data base (left + 1) offset = .error (.exception .indexError)) ∨
      ∃ kind size body, Head data offset kind size body ∧ decode data base (left + 1) offset =
        decodeField data (decode data base left) kind size body := by
  rw [decode]
  cases hbyte : data[offset]? with
  | none => exact .inl ⟨rfl, List.getElem?_eq_none_iff.mp hbyte⟩
  | some byte =>
      simp only
      by_cases hpointer : byte.toNat >>> 5 = 1
      · rw [if_pos hpointer]
        exact .inr (.inl ⟨_, _, ⟨byte, hbyte, hpointer, rfl, rfl⟩, rfl⟩)
      · rw [if_neg hpointer]
        cases hhead : fieldHead data byte.toNat (offset + 1) with
        | error error =>
            obtain ⟨rfl, hkind, hend⟩ := fieldHead_eq_error hhead
            exact .inr (.inr (.inl ⟨byte, rfl, hkind, hend, rfl⟩))
        | ok head =>
            obtain ⟨kind, size, body⟩ := head
            exact .inr (.inr (.inr ⟨kind, size, body, ⟨byte, hbyte, hpointer, hhead⟩, rfl⟩))

theorem decode_pointer {target : Nat} (h : Pointer data base offset target next) :
    decode data base (left + 1) offset =
      (decode data base left target).map fun p => (p.1, next) := by
  obtain ⟨byte, hbyte, hpointer, rfl, rfl⟩ := h
  rw [decode, hbyte]
  exact if_pos hpointer

theorem decode_head (h : Head data offset kind size body) : decode data base (left + 1) offset =
    decodeField data (decode data base left) kind size body := by
  obtain ⟨byte, hbyte, hpointer, hhead⟩ := h
  rw [decode, hbyte]
  simp only
  rw [if_neg hpointer, hhead]

/-! ## Values -/

theorem reads_items (hitem : ∀ {offset v next}, item offset = .ok (v, next) →
      Reads data base (.value v) left offset next)
    (h : decodeItems item n offset = .ok (vs, next)) :
    Reads data base (.items vs) left offset next ∧ vs.length = n := by
  induction n generalizing offset vs with
  | zero =>
      obtain ⟨rfl, rfl⟩ := Prod.mk.inj (Except.ok.inj h)
      exact ⟨.noItems, rfl⟩
  | succ n ih =>
      obtain ⟨⟨v, mid⟩, hv, h⟩ := seq_eq_ok.mp h
      obtain ⟨⟨vs', next'⟩, hvs, h⟩ := seq_eq_ok.mp h
      obtain ⟨rfl, rfl⟩ := Prod.mk.inj (Except.ok.inj h)
      obtain ⟨hreads, hlength⟩ := ih hvs
      exact ⟨.item (hitem hv) hreads, by rw [List.length_cons, hlength]⟩

theorem reads_entries (hitem : ∀ {offset v next}, item offset = .ok (v, next) →
      Reads data base (.value v) left offset next) {answer : List (Val × Val)}
    (h : decodeEntries item n offset result = .ok (answer, next)) :
    ∃ es, Reads data base (.entries es) left offset next ∧ es.length = n ∧
      answer = es.foldl setItem result := by
  induction n generalizing offset result with
  | zero =>
      obtain ⟨rfl, rfl⟩ := Prod.mk.inj (Except.ok.inj h)
      exact ⟨[], .noEntries, rfl, rfl⟩
  | succ n ih =>
      obtain ⟨⟨k, mid⟩, hk, h⟩ := seq_eq_ok.mp h
      obtain ⟨⟨v, mid'⟩, hv, h⟩ := seq_eq_ok.mp h
      simp only at h
      split at h
      · next hkey =>
        obtain ⟨es, hes, hlength, rfl⟩ := ih h
        exact ⟨(k, v) :: es, .entry (hitem hk) hkey (hitem hv) hes,
          by rw [List.length_cons, hlength], rfl⟩
      · cases h

theorem reads_of_decode (h : decode data base left offset = .ok (v, next)) :
    Reads data base (.value v) left offset next := by
  induction left generalizing offset v next with
  | zero => cases h
  | succ left ih =>
      rcases decode_cases data base left offset with ⟨heq, -⟩ | ⟨target, ends, hpointer, heq⟩ |
        ⟨_, -, -, -, heq⟩ | ⟨kind, size, body, hhead, heq⟩
      · rw [heq] at h
        cases h
      · rw [heq] at h
        obtain ⟨⟨v', mid⟩, hv, h⟩ := map_eq_ok.mp h
        obtain ⟨rfl, rfl⟩ := Prod.mk.inj h
        exact .pointer hpointer (ih hv)
      · rw [heq] at h
        cases h
      · rw [heq, decodeField] at h
        split_ifs at h with hmap harray
        · obtain ⟨⟨answer, mid⟩, hes, h⟩ := map_eq_ok.mp h
          obtain ⟨rfl, rfl⟩ := Prod.mk.inj h
          obtain ⟨es, hreads, hlength, rfl⟩ := reads_entries ih hes
          exact .dict (hmap ▸ hhead) hlength hreads
        · obtain ⟨⟨vs, mid⟩, hvs, h⟩ := map_eq_ok.mp h
          obtain ⟨rfl, rfl⟩ := Prod.mk.inj h
          obtain ⟨hreads, hlength⟩ := reads_items ih hvs
          exact .list (harray ▸ hhead) hlength hreads
        · exact .scalar hhead ⟨hmap, harray⟩ h

variable (data base) in
/-- What the functions make of a phrase. -/
def Decoded (left offset next : Nat) : Phrase → Prop
  | .value v => decode data base left offset = .ok (v, next)
  | .items vs => decodeItems (decode data base left) vs.length offset = .ok (vs, next)
  | .entries es => ∀ result, decodeEntries (decode data base left) es.length offset result =
      .ok (es.foldl setItem result, next)

theorem decoded_of_reads (h : Reads data base p left offset next) :
    Decoded data base left offset next p := by
  induction h with
  | pointer hpointer hv ih =>
      show decode data base _ _ = _
      rw [decode_pointer hpointer, ih]
      rfl
  | scalar hhead hkind hv =>
      show decode data base _ _ = _
      rw [decode_head hhead, decodeField, if_neg hkind.1, if_neg hkind.2, hv]
  | dict hhead hsize hes ih =>
      show decode data base _ _ = _
      rw [decode_head hhead, decodeField, if_pos rfl, ← hsize, ih []]
      rfl
  | list hhead hsize hvs ih =>
      show decode data base _ _ = _
      rw [decode_head hhead, decodeField, if_neg (by decide), if_pos rfl, ← hsize, ih]
      rfl
  | noItems => rfl
  | item hv hvs ih ih' => exact seq_eq_ok.mpr ⟨_, ih, seq_eq_ok.mpr ⟨_, ih', rfl⟩⟩
  | noEntries => exact fun _ => rfl
  | entry hk hkey hv hes ih ih' ih'' =>
      intro result
      refine seq_eq_ok.mpr ⟨_, ih, seq_eq_ok.mpr ⟨_, ih', ?_⟩⟩
      simp only [hkey, if_true]
      exact ih'' _

/-- **Values.** What is returned stands at the offset. -/
theorem decode_eq_ok_iff : decode data base left offset = .ok (v, next) ↔
    Reads data base (.value v) left offset next :=
  ⟨reads_of_decode, decoded_of_reads⟩

/-! ## Exceptions -/

theorem decodeScalar_exception : (∃ e, decodeScalar data kind size body = .error (.exception e)) ↔
    kind = 2 ∧ decodeUtf8 (slice data body size) = none ∨ kind = 3 ∧ data.length < body + 8 ∨
      kind = 15 ∧ data.length < body + 4 := by
  have hdouble : (slice data body 8).length = 8 ↔ ¬ data.length < body + 8 := by
    rw [length_slice]
    omega
  have hsingle : (slice data body 4).length = 4 ↔ ¬ data.length < body + 4 := by
    rw [length_slice]
    omega
  simp only [decodeScalar, hdouble, hsingle]
  split_ifs with htext hdouble hend
  · subst htext
    cases decodeUtf8 (slice data body size) <;> simp
  all_goals simp_all [unsupported]
  intro h
  omega

theorem fails_items (hitem : ∀ {offset v next}, item offset = .ok (v, next) →
      Reads data base (.value v) left offset next)
    (hfails : ∀ {offset e}, item offset = .error (.exception e) →
      Fails data base .value left offset)
    (h : decodeItems item n offset = .error (.exception e)) :
    Fails data base (.items n) left offset := by
  induction n generalizing offset with
  | zero => cases h
  | succ n ih =>
      rcases seq_eq_error.mp h with hv | ⟨⟨v, mid⟩, hv, h⟩
      · exact .item (hfails hv)
      · rcases seq_eq_error.mp h with hvs | ⟨_, -, h⟩
        · exact .laterItem (hitem hv) (ih hvs)
        · cases h

theorem fails_entries (hitem : ∀ {offset v next}, item offset = .ok (v, next) →
      Reads data base (.value v) left offset next)
    (hfails : ∀ {offset e}, item offset = .error (.exception e) →
      Fails data base .value left offset)
    (h : decodeEntries item n offset result = .error (.exception e)) :
    Fails data base (.entries n) left offset := by
  induction n generalizing offset result with
  | zero => cases h
  | succ n ih =>
      rcases seq_eq_error.mp h with hk | ⟨⟨k, mid⟩, hk, h⟩
      · exact .key (hfails hk)
      · rcases seq_eq_error.mp h with hv | ⟨⟨v, mid'⟩, hv, h⟩
        · exact .mapped (hitem hk) (hfails hv)
        · simp only at h
          split at h
          · next hkey => exact .laterEntry (hitem hk) hkey (hitem hv) (ih h)
          · next hkey => exact .unhashable (hitem hk) (hitem hv) (Bool.eq_false_iff.mpr hkey)

theorem fails_of_decode (h : decode data base left offset = .error (.exception e)) :
    Fails data base .value left offset := by
  induction left generalizing offset e with
  | zero => cases h
  | succ left ih =>
      rcases decode_cases data base left offset with ⟨heq, -⟩ | ⟨target, ends, hpointer, heq⟩ |
        ⟨byte, hbyte, hkind, hend, -⟩ | ⟨kind, size, body, hhead, heq⟩
      · rw [heq] at h
        cases h
      · rw [heq] at h
        exact .pointer hpointer (ih (map_eq_error.mp h))
      · exact .extended hbyte hkind hend
      · rw [heq, decodeField] at h
        split_ifs at h with hmap harray
        · exact .dict (hmap ▸ hhead) (fails_entries reads_of_decode ih (map_eq_error.mp h))
        · exact .list (harray ▸ hhead) (fails_items reads_of_decode ih (map_eq_error.mp h))
        · rcases decodeScalar_exception.mp ⟨e, h⟩ with ⟨rfl, htext⟩ | ⟨rfl, hend⟩ | ⟨rfl, hend⟩
          · exact .text hhead htext
          · exact .double hhead hend
          · exact .single hhead hend

variable (data base) in
/-- The functions raise an exception on what is wanted. -/
def Raises (left offset : Nat) : Wanted → Prop
  | .value => ∃ e, decode data base left offset = .error (.exception e)
  | .items n => ∃ e, decodeItems (decode data base left) n offset = .error (.exception e)
  | .entries n => ∀ result, ∃ e,
      decodeEntries (decode data base left) n offset result = .error (.exception e)

theorem raises_of_fails (h : Fails data base w left offset) : Raises data base left offset w := by
  -- a value that is no pointer raises what its body raises
  have hbody : ∀ {left offset kind size body}, Head data offset kind size body →
      (∃ e, decodeField data (decode data base left) kind size body = .error (.exception e)) →
      ∃ e, decode data base (left + 1) offset = .error (.exception e) := by
    rintro left offset kind size body hhead ⟨e, he⟩
    exact ⟨e, (decode_head hhead).trans he⟩
  have hscalar : ∀ {left offset kind size body}, Head data offset kind size body →
      (kind = 2 ∧ decodeUtf8 (slice data body size) = none ∨ kind = 3 ∧ data.length < body + 8 ∨
        kind = 15 ∧ data.length < body + 4) →
      ∃ e, decode data base (left + 1) offset = .error (.exception e) := by
    intro left offset kind size body hhead hkind
    obtain ⟨e, he⟩ := decodeScalar_exception.mpr hkind
    refine hbody hhead ⟨e, ?_⟩
    rw [decodeField, if_neg (by omega), if_neg (by omega), he]
  induction h with
  | pointer hpointer hv ih =>
      obtain ⟨e, he⟩ := ih
      exact ⟨e, (decode_pointer hpointer).trans (map_eq_error.mpr he)⟩
  | @extended left offset byte hbyte hkind hend =>
      rcases decode_cases data base left offset with ⟨-, hshort⟩ | ⟨_, _, ⟨b, hb, hk, -⟩, -⟩ |
        ⟨_, -, -, -, heq⟩ | ⟨_, _, _, ⟨b, hb, -, hhead⟩, -⟩
      · rw [List.getElem?_eq_none_iff.mpr hshort] at hbyte
        cases hbyte
      · obtain rfl := Option.some.inj (hb.symm.trans hbyte)
        omega
      · exact ⟨_, heq⟩
      · obtain rfl := Option.some.inj (hb.symm.trans hbyte)
        rw [fieldHead_extended hkind hend] at hhead
        cases hhead
  | text hhead htext => exact hscalar hhead (.inl ⟨rfl, htext⟩)
  | double hhead hend => exact hscalar hhead (.inr (.inl ⟨rfl, hend⟩))
  | single hhead hend => exact hscalar hhead (.inr (.inr ⟨rfl, hend⟩))
  | dict hhead hes ih =>
      obtain ⟨e, he⟩ := ih []
      exact hbody hhead ⟨e, map_eq_error.mpr he⟩
  | list hhead hvs ih =>
      obtain ⟨e, he⟩ := ih
      exact hbody hhead ⟨e, map_eq_error.mpr he⟩
  | item hv ih =>
      obtain ⟨e, he⟩ := ih
      exact ⟨e, seq_eq_error.mpr (.inl he)⟩
  | laterItem hv hvs ih =>
      obtain ⟨e, he⟩ := ih
      exact ⟨e, seq_eq_error.mpr (.inr ⟨_, decode_eq_ok_iff.mpr hv, seq_eq_error.mpr (.inl he)⟩)⟩
  | key hk ih =>
      obtain ⟨e, he⟩ := ih
      exact fun _ => ⟨e, seq_eq_error.mpr (.inl he)⟩
  | mapped hk hv ih =>
      obtain ⟨e, he⟩ := ih
      exact fun _ =>
        ⟨e, seq_eq_error.mpr (.inr ⟨_, decode_eq_ok_iff.mpr hk, seq_eq_error.mpr (.inl he)⟩)⟩
  | unhashable hk hv hkey =>
      refine fun _ => ⟨.typeError, seq_eq_error.mpr (.inr ⟨_, decode_eq_ok_iff.mpr hk,
        seq_eq_error.mpr (.inr ⟨_, decode_eq_ok_iff.mpr hv, ?_⟩)⟩)⟩
      simp only [hkey]
      rfl
  | laterEntry hk hkey hv hes ih =>
      intro result
      obtain ⟨e, he⟩ := ih (setItem result _)
      refine ⟨e, seq_eq_error.mpr (.inr ⟨_, decode_eq_ok_iff.mpr hk,
        seq_eq_error.mpr (.inr ⟨_, decode_eq_ok_iff.mpr hv, ?_⟩)⟩)⟩
      simp only [hkey, if_true]
      exact he

/-- **Exceptions.** The function raises something other than a `GeoIpUpdateError` just when it comes
to a place where Python raises. -/
theorem decode_exception_iff : (∃ e, decode data base left offset = .error (.exception e)) ↔
    Fails data base .value left offset :=
  ⟨fun ⟨_, h⟩ => fails_of_decode h, raises_of_fails⟩

end Decoding

end Scap.GeoIp
