import Mathlib.Algebra.Group.Int.Defs
import Mathlib.Data.List.Perm.Basic
import Scap.Lib.Except
import Scap.Py.Object
import Scap.Py.Value

/-!
# Canonical JSON

`canonical_json_bytes`, the bytes that every signature of the protocol covers. `_canonical_value`
copies a tree with its strings normalised and refuses what has no portable text; `json.dumps` then
sorts the keys. `nfc` stands for `unicodedata.normalize("NFC", ·)`; nothing is assumed of it.

* `denotes_of_encode` — what an accepted tree is written as;
* `Denotes.same` — a text is written for one tree only, up to `Same`;
* `not_faulty` — no accepted tree has a faulty node anywhere;
* `canonical_json_injective` — both for `canonical_json_bytes`.
-/

namespace Scap.E2ee

open Scap.Lib Scap.Py

/-! ## The code -/

inductive CanonicalError where
  /-- `E2EEValidationError`. -/
  | validation (message : String)
  /-- `UnicodeEncodeError`, for a surrogate. -/
  | unicodeEncode
  deriving DecidableEq, Repr

def maxCanonicalDepth : Nat := 16
def maxCanonicalItems : Nat := 256
def minJsonInteger : Int := -2 ^ 63
def maxJsonInteger : Int := 2 ^ 63 - 1

/-- What `_canonical_value` returns. -/
inductive Canonical where
  | null
  | bool (b : Bool)
  | int (n : Int)
  | str (s : Str)
  | list (vs : List Canonical)
  | dict (fs : List (Str × Canonical))

section

variable (nfc : Str → Str)

mutual

/-- `_canonical_value`. -/
def canonicalValue (depth : Nat) (value : Object) : Except CanonicalError Canonical :=
  if maxCanonicalDepth < depth then
    .error (.validation "Dữ liệu canonical JSON lồng quá sâu.")
  else
    match value with
    | .none => .ok .null
    | .bool b => .ok (.bool b)
    | .int n =>
        if minJsonInteger ≤ n ∧ n ≤ maxJsonInteger then .ok (.int n)
        else .error (.validation "Số nguyên canonical JSON nằm ngoài miền signed 64-bit.")
    | .float => .error (.validation "Canonical JSON không chấp nhận số thực.")
    | .str s => .ok (.str (nfc s))
    | .mapping items =>
        if maxCanonicalItems < items.length then
          .error (.validation "Canonical JSON có quá nhiều trường.")
        else (canonicalFields (depth + 1) [] items).map .dict
    | .list items | .tuple items =>
        if maxCanonicalItems < items.length then
          .error (.validation "Canonical JSON có quá nhiều phần tử.")
        else (canonicalItems (depth + 1) items).map .list
    | .other => .error (.validation
        "Canonical JSON chỉ chấp nhận null, bool, số nguyên, chuỗi, list và object.")

/-- The loop over the items of a mapping, with what it has put in the result. -/
def canonicalFields (depth : Nat) (result : List (Str × Canonical)) :
    List (Object × Object) → Except CanonicalError (List (Str × Canonical))
  | [] => .ok result
  | (rawKey, rawValue) :: items =>
      match rawKey with
      | .str s =>
          if nfc s ∈ result.map Prod.fst then
            .error (.validation "Khóa canonical JSON trùng nhau sau Unicode NFC.")
          else do
            let value ← canonicalValue depth rawValue
            canonicalFields depth (result ++ [(nfc s, value)]) items
      | _ => .error (.validation "Mọi khóa canonical JSON phải là chuỗi.")

/-- The elements of a list or a tuple. -/
def canonicalItems (depth : Nat) : List Object → Except CanonicalError (List Canonical)
  | [] => .ok []
  | item :: items => do
      let value ← canonicalValue depth item
      let values ← canonicalItems depth items
      return value :: values

end

end

/-- `sort_keys=True`: by code points. The keys are different. -/
def sortFields (fs : List (String × Value)) : List (String × Value) :=
  fs.insertionSort fun f g => f.1 ≤ g.1

mutual

/-- What `json.dumps` writes and `encode("utf-8")` accepts: a value without surrogates, the members
of its objects in the order of their keys. -/
def Canonical.encode : Canonical → Option Value
  | .null => some .null
  | .bool b => some (.bool b)
  | .int n => some (.int n)
  | .str s => s.text?.map .str
  | .list vs => (encodeItems vs).map .arr
  | .dict fs => (encodeFields fs).map fun ys => .obj (sortFields ys)

def encodeItems : List Canonical → Option (List Value)
  | [] => some []
  | v :: vs => do
      let x ← Canonical.encode v
      let xs ← encodeItems vs
      return x :: xs

def encodeFields : List (Str × Canonical) → Option (List (String × Value))
  | [] => some []
  | (k, v) :: fs => do
      let key ← k.text?
      let x ← Canonical.encode v
      let xs ← encodeFields fs
      return (key, x) :: xs

end

/-- `_SCHEMA_RE.fullmatch(schema)`. -/
def schemaMatches : Str → Bool
  | [] => false
  | c :: rest =>
      let lower (c : CodePoint) : Bool := 'a'.toNat ≤ c.val && c.val ≤ 'z'.toNat
      lower c && (2 ≤ rest.length && rest.length ≤ 95) &&
        rest.all fun c => lower c || ('0'.toNat ≤ c.val && c.val ≤ '9'.toNat) ||
          c.val == '.'.toNat || c.val == '-'.toNat

def checkSchema : Object → Except CanonicalError Str
  | .str name =>
      if schemaMatches name then .ok name
      else .error (.validation "schema canonical JSON không hợp lệ.")
  | _ => .error (.validation "schema canonical JSON không hợp lệ.")

/-- A `bool` is no version. -/
def checkVersion : Object → Except CanonicalError Int
  | .int n =>
      if 1 ≤ n ∧ n ≤ 2 ^ 31 - 1 then .ok n
      else .error (.validation "version canonical JSON phải là số nguyên dương.")
  | _ => .error (.validation "version canonical JSON phải là số nguyên dương.")

/-- What is written. -/
def document (value : Canonical) (schema : Str) (version : Int) : Canonical :=
  .dict [(Str.ofString "payload", value), (Str.ofString "schema", .str schema),
    (Str.ofString "version", .int version)]

/-- `canonical_json_bytes`. -/
def canonicalJsonBytes (nfc : Str → Str) (payload schema version : Object) :
    Except CanonicalError ByteArray :=
  match payload with
  | .mapping _ => do
      let schema ← checkSchema schema
      let version ← checkVersion version
      let value ← canonicalValue nfc 0 payload
      match (document value schema version).encode with
      | some v => .ok (v.dumps .utf8).toUTF8
      | none => .error .unicodeEncode
  | _ => .error (.validation "payload canonical JSON phải là object.")

/-! ## What an accepted tree is written as -/

variable {nfc : Str → Str} {depth : Nat} {v w : Object} {c : Canonical} {x : Value}

/-- Equal up to the normal form of strings, the order of keys, and list or tuple. -/
inductive Same (nfc : Str → Str) : Object → Object → Prop
  | none : Same nfc .none .none
  | bool (b : Bool) : Same nfc (.bool b) (.bool b)
  | int (n : Int) : Same nfc (.int n) (.int n)
  | str {s t : Str} : nfc s = nfc t → Same nfc (.str s) (.str t)
  | sequence {v w : Object} {vs ws : List Object} : v.items? = some vs → w.items? = some ws →
      vs.length = ws.length → (∀ p ∈ vs.zip ws, Same nfc p.1 p.2) → Same nfc v w
  | mapping {fs gs gs' : List (Object × Object)} : gs.Perm gs' → fs.length = gs'.length →
      (∀ p ∈ fs.zip gs', ∃ s t, p.1.1 = .str s ∧ p.2.1 = .str t ∧ nfc s = nfc t) →
      (∀ p ∈ fs.zip gs', Same nfc p.1.2 p.2.2) → Same nfc (.mapping fs) (.mapping gs)

/-- The object is written as the value. -/
inductive Denotes (nfc : Str → Str) : Object → Value → Prop
  | none : Denotes nfc .none .null
  | bool (b : Bool) : Denotes nfc (.bool b) (.bool b)
  | int (n : Int) : Denotes nfc (.int n) (.int n)
  | str {s : Str} {t : String} : (nfc s).text? = some t → Denotes nfc (.str s) (.str t)
  | sequence {v : Object} {vs : List Object} {xs : List Value} : v.items? = some vs →
      vs.length = xs.length → (∀ p ∈ vs.zip xs, Denotes nfc p.1 p.2) → Denotes nfc v (.arr xs)
  | mapping {fs : List (Object × Object)} {ys ys' : List (String × Value)} : ys.Perm ys' →
      fs.length = ys.length →
      (∀ p ∈ fs.zip ys, ∃ s, p.1.1 = .str s ∧ (nfc s).text? = some p.2.1) →
      (∀ p ∈ fs.zip ys, Denotes nfc p.1.2 p.2.2) → Denotes nfc (.mapping fs) (.obj ys')

/-- Two relations along three lists. -/
theorem forall₂_through {α β γ : Type*} {R : α → β → Prop} {S : β → γ → Prop} {T : α → γ → Prop}
    {as : List α} {bs : List β} {cs : List γ} (h : ∀ a ∈ as, ∀ b c, R a b → S b c → T a c)
    (hab : List.Forall₂ R as bs) (hbc : List.Forall₂ S bs cs) : List.Forall₂ T as cs := by
  induction hab generalizing cs with
  | nil =>
      cases hbc
      exact .nil
  | @cons a b as bs hfirst _ ih =>
      cases hbc with
      | cons hnext hrest =>
          refine .cons (h a List.mem_cons_self _ _ hfirst hnext) (ih ?_ hrest)
          exact fun a ha => h a (List.mem_cons_of_mem _ ha)

theorem exists_of_forall₂ {α β : Type*} {R : α → β → Prop} {as : List α} {bs : List β} {a : α}
    (h : List.Forall₂ R as bs) (ha : a ∈ as) : ∃ b, R a b := by
  induction h with
  | nil => cases ha
  | cons hfirst _ ih =>
      rcases List.mem_cons.mp ha with rfl | ha
      · exact ⟨_, hfirst⟩
      · exact ih ha

/-- **A value is written for one tree only.** -/
theorem Denotes.same (hv : Denotes nfc v x) (hw : Denotes nfc w x) : Same nfc v w := by
  induction hv generalizing w with
  | none =>
      cases hw
      exact .none
  | bool b =>
      cases hw
      exact .bool b
  | int n =>
      cases hw
      exact .int n
  | str hs =>
      cases hw with
      | str ht => exact .str (Str.text?_injective hs ht)
  | @sequence v vs xs hvs hlength _ ih =>
      cases hw with
      | @sequence w ws _ hws hlength' hdenotes =>
          have hfirst : List.Forall₂ (fun v x => ∀ w, Denotes nfc w x → Same nfc v w) vs xs :=
            List.forall₂_iff_zip.mpr ⟨hlength, fun hp w hw => ih _ hp hw⟩
          have hsecond : List.Forall₂ (Denotes nfc) ws xs :=
            List.forall₂_iff_zip.mpr ⟨hlength', fun hp => hdenotes _ hp⟩
          have hall : List.Forall₂ (Same nfc) vs ws :=
            forall₂_through (fun _ _ _ w hv hw => hv w hw) hfirst hsecond.flip
          obtain ⟨hsame, hzip⟩ := List.forall₂_iff_zip.mp hall
          exact .sequence hvs hws hsame fun p hp => hzip hp
  | @mapping fs ys ys' hperm hlength hkeys _ ih =>
      cases hw with
      | @mapping gs zs _ hperm' hlength' hkeys' hdenotes =>
          have hfirst : List.Forall₂ (fun (f : Object × Object) (y : String × Value) =>
              (∃ s, f.1 = .str s ∧ (nfc s).text? = some y.1) ∧
                ∀ w, Denotes nfc w y.2 → Same nfc f.2 w) fs ys :=
            List.forall₂_iff_zip.mpr ⟨hlength, fun hp => ⟨hkeys _ hp, fun w hw => ih _ hp hw⟩⟩
          -- the members of the second tree in the order of the first
          have hfields : List.Forall₂ (fun (z : String × Value) (g : Object × Object) =>
              (∃ t, g.1 = .str t ∧ (nfc t).text? = some z.1) ∧ Denotes nfc g.2 z.2) zs gs := by
            apply List.Forall₂.flip
            apply List.forall₂_iff_zip.mpr
            exact ⟨hlength', fun hp => ⟨hkeys' _ hp, hdenotes _ hp⟩⟩
          obtain ⟨gs', hgs', hback⟩ := List.perm_comp_forall₂ (hperm.trans hperm'.symm) hfields
          have hall : List.Forall₂ (fun f g : Object × Object =>
              (∃ s t, f.1 = .str s ∧ g.1 = .str t ∧ nfc s = nfc t) ∧ Same nfc f.2 g.2) fs gs' := by
            refine forall₂_through ?_ hfirst hgs'
            rintro f - y g ⟨⟨s, hs, hstext⟩, hf⟩ ⟨⟨t, ht, httext⟩, hg⟩
            exact ⟨⟨s, t, hs, ht, Str.text?_injective hstext httext⟩, hf _ hg⟩
          obtain ⟨hsame, hzip⟩ := List.forall₂_iff_zip.mp hall
          exact .mapping hback.symm hsame (fun p hp => (hzip hp).1) fun p hp => (hzip hp).2

/-! ### The loops -/

theorem canonicalItems_ok {vs : List Object} {cs : List Canonical}
    (h : canonicalItems nfc depth vs = .ok cs) :
    List.Forall₂ (fun v c => canonicalValue nfc depth v = .ok c) vs cs := by
  induction vs generalizing cs with
  | nil =>
      rw [canonicalItems] at h
      obtain rfl := Except.ok.inj h
      exact .nil
  | cons v vs ih =>
      rw [canonicalItems] at h
      obtain ⟨c, hc, h⟩ := bind_eq_ok.mp h
      obtain ⟨cs, hcs, h⟩ := bind_eq_ok.mp h
      obtain rfl := Except.ok.inj h
      exact .cons hc (ih hcs)

/-- What the loop makes of an item of a mapping. -/
def Copied (nfc : Str → Str) (depth : Nat) (f : Object × Object) (g : Str × Canonical) : Prop :=
  ∃ s, f.1 = .str s ∧ g.1 = nfc s ∧ canonicalValue nfc depth f.2 = .ok g.2

/-- The loop appends a member for every item, each under a new key. -/
theorem canonicalFields_ok {fs : List (Object × Object)} {result cs : List (Str × Canonical)}
    (h : canonicalFields nfc depth result fs = .ok cs) (hresult : (result.map Prod.fst).Nodup) :
    ∃ new, cs = result ++ new ∧ (cs.map Prod.fst).Nodup ∧
      List.Forall₂ (Copied nfc depth) fs new := by
  induction fs generalizing result with
  | nil =>
      rw [canonicalFields] at h
      obtain rfl := Except.ok.inj h
      exact ⟨[], by simp, hresult, .nil⟩
  | cons f fs ih =>
      obtain ⟨key, value⟩ := f
      rw [canonicalFields.eq_def] at h
      dsimp only at h
      split at h
      · next s =>
        split at h
        · cases h
        · next hfresh =>
          obtain ⟨c, hc, h⟩ := bind_eq_ok.mp h
          have hmore : ((result ++ [(nfc s, c)]).map Prod.fst).Nodup := by
            rw [List.map_append, List.map_singleton, ← List.concat_eq_append]
            exact hresult.concat hfresh
          obtain ⟨new, rfl, hnodup, hall⟩ := ih h hmore
          exact ⟨(nfc s, c) :: new, by simp, hnodup, .cons ⟨s, rfl, rfl, hc⟩ hall⟩
      · cases h

theorem copied_of_ok {fs : List (Object × Object)} {gs : List (Str × Canonical)}
    (h : canonicalFields nfc depth [] fs = .ok gs) :
    (gs.map Prod.fst).Nodup ∧ List.Forall₂ (Copied nfc depth) fs gs := by
  obtain ⟨new, hnew, hnodup, hcopied⟩ := canonicalFields_ok h List.nodup_nil
  exact ⟨hnodup, hnew ▸ hcopied⟩

theorem encodeItems_some {cs : List Canonical} {xs : List Value} (h : encodeItems cs = some xs) :
    List.Forall₂ (fun c x => c.encode = some x) cs xs := by
  induction cs generalizing xs with
  | nil =>
      rw [encodeItems] at h
      obtain rfl := Option.some.inj h
      exact .nil
  | cons c cs ih =>
      rw [encodeItems] at h
      obtain ⟨x, hx, h⟩ := Option.bind_eq_some_iff.mp h
      obtain ⟨xs, hxs, h⟩ := Option.bind_eq_some_iff.mp h
      obtain rfl := Option.some.inj h
      exact .cons hx (ih hxs)

theorem encodeFields_some {gs : List (Str × Canonical)} {ys : List (String × Value)}
    (h : encodeFields gs = some ys) :
    List.Forall₂ (fun g y => g.1.text? = some y.1 ∧ g.2.encode = some y.2) gs ys := by
  induction gs generalizing ys with
  | nil =>
      rw [encodeFields] at h
      obtain rfl := Option.some.inj h
      exact .nil
  | cons g gs ih =>
      obtain ⟨k, c⟩ := g
      rw [encodeFields] at h
      obtain ⟨key, hkey, h⟩ := Option.bind_eq_some_iff.mp h
      obtain ⟨x, hx, h⟩ := Option.bind_eq_some_iff.mp h
      obtain ⟨ys, hys, h⟩ := Option.bind_eq_some_iff.mp h
      obtain rfl := Option.some.inj h
      exact .cons ⟨hkey, hx⟩ (ih hys)

/-! ### The tree -/

/-- What is accepted at a depth, by the kind of the object. -/
theorem canonicalValue_items {vs : List Object} (hv : v.items? = some vs) :
    canonicalValue nfc depth v = .ok c ↔ depth ≤ maxCanonicalDepth ∧
      vs.length ≤ maxCanonicalItems ∧
      ∃ cs, canonicalItems nfc (depth + 1) vs = .ok cs ∧ c = .list cs := by
  have hcases : v = .list vs ∨ v = .tuple vs := by
    cases v <;> simp_all [Object.items?]
  rcases hcases with rfl | rfl
  all_goals
    rw [canonicalValue]
    split
    · next hdeep => simp [not_le.mpr hdeep]
    · next hdepth =>
      split
      · next hwide => simp [not_le.mpr hwide]
      · next hsize =>
        rw [map_eq_ok]
        simp [not_lt.mp hdepth, not_lt.mp hsize, eq_comm]

theorem canonicalValue_mapping {fs : List (Object × Object)} :
    canonicalValue nfc depth (.mapping fs) = .ok c ↔ depth ≤ maxCanonicalDepth ∧
      fs.length ≤ maxCanonicalItems ∧
      ∃ gs, canonicalFields nfc (depth + 1) [] fs = .ok gs ∧ c = .dict gs := by
  rw [canonicalValue]
  split
  · next hdeep => simp [not_le.mpr hdeep]
  · next hdepth =>
    split
    · next hwide => simp [not_le.mpr hwide]
    · next hsize =>
      rw [map_eq_ok]
      simp [not_lt.mp hdepth, not_lt.mp hsize, eq_comm]

/-- Nothing is accepted below the depth bound. -/
theorem depth_le (h : canonicalValue nfc depth v = .ok c) : depth ≤ maxCanonicalDepth := by
  by_contra hdeep
  rw [canonicalValue.eq_def, if_pos (not_le.mp hdeep)] at h
  cases h

/-- **What an accepted tree is written as.** -/
theorem denotes_of_encode (h : canonicalValue nfc depth v = .ok c) (hx : c.encode = some x) :
    Denotes nfc v x := by
  -- By induction on the tree; lists and tuples are written alike.
  induction v using Object.induction generalizing depth c x with
  | h v ih =>
  have hdepth := not_lt.mpr (depth_le h)
  have hitems : ∀ vs, v.items? = some vs → Denotes nfc v x := by
    intro vs hvs
    obtain ⟨-, -, cs, hcs, rfl⟩ := (canonicalValue_items hvs).mp h
    rw [Canonical.encode] at hx
    obtain ⟨xs, hxs, rfl⟩ := Option.map_eq_some_iff.mp hx
    have hall : List.Forall₂ (Denotes nfc) vs xs := by
      refine forall₂_through ?_ (canonicalItems_ok hcs) (encodeItems_some hxs)
      exact fun w hw c x hc hx => ih w (Object.child_of_items hvs hw) hc hx
    obtain ⟨hlength, hzip⟩ := List.forall₂_iff_zip.mp hall
    exact .sequence hvs hlength fun p hp => hzip hp
  cases v with
  | list vs => exact hitems vs rfl
  | tuple vs => exact hitems vs rfl
  | mapping fs =>
      obtain ⟨-, -, gs, hgs, rfl⟩ := canonicalValue_mapping.mp h
      obtain ⟨-, hcopied⟩ := copied_of_ok hgs
      rw [Canonical.encode] at hx
      obtain ⟨ys, hys, rfl⟩ := Option.map_eq_some_iff.mp hx
      have hall : List.Forall₂ (fun f y => (∃ s, f.1 = .str s ∧ (nfc s).text? = some y.1) ∧
          Denotes nfc f.2 y.2) fs ys := by
        refine forall₂_through ?_ hcopied (encodeFields_some hys)
        rintro f hf g y ⟨s, hs, hkey, hvalue⟩ ⟨htext, hy⟩
        exact ⟨⟨s, hs, hkey ▸ htext⟩, ih f.2 (.mapping hf) hvalue hy⟩
      obtain ⟨hlength, hzip⟩ := List.forall₂_iff_zip.mp hall
      -- the fields are written in the order of their keys, whatever order the mapping has
      exact .mapping (List.perm_insertionSort _ ys).symm hlength (fun p hp => (hzip hp).1)
        fun p hp => (hzip hp).2
  | none =>
      rw [canonicalValue, if_neg hdepth] at h
      obtain rfl := Except.ok.inj h
      rw [Canonical.encode] at hx
      obtain rfl := Option.some.inj hx
      exact .none
  | bool b =>
      rw [canonicalValue, if_neg hdepth] at h
      obtain rfl := Except.ok.inj h
      rw [Canonical.encode] at hx
      obtain rfl := Option.some.inj hx
      exact .bool b
  | int n =>
      rw [canonicalValue, if_neg hdepth] at h
      split at h
      · obtain rfl := Except.ok.inj h
        rw [Canonical.encode] at hx
        obtain rfl := Option.some.inj hx
        exact .int n
      · cases h
  | str s =>
      rw [canonicalValue, if_neg hdepth] at h
      obtain rfl := Except.ok.inj h
      rw [Canonical.encode] at hx
      obtain ⟨t, ht, rfl⟩ := Option.map_eq_some_iff.mp hx
      exact .str ht
  | float =>
      rw [canonicalValue, if_neg hdepth] at h
      cases h
  | other =>
      rw [canonicalValue, if_neg hdepth] at h
      cases h

/-! ## What is refused -/

/-- What must not stand in a tree, at its depth. -/
inductive Faulty (nfc : Str → Str) : Nat → Object → Prop
  | deep {d : Nat} {v : Object} : maxCanonicalDepth < d → Faulty nfc d v
  | float {d : Nat} : Faulty nfc d .float
  | other {d : Nat} : Faulty nfc d .other
  | int {d : Nat} {n : Int} : ¬ (minJsonInteger ≤ n ∧ n ≤ maxJsonInteger) → Faulty nfc d (.int n)
  | key {d : Nat} {fs : List (Object × Object)} {f : Object × Object} : f ∈ fs →
      (∀ s, f.1 ≠ .str s) → Faulty nfc d (.mapping fs)
  | collision {d : Nat} {fs : List (Object × Object)} {s t : Str} {v w : Object} :
      List.Sublist [(.str s, v), (.str t, w)] fs → nfc s = nfc t → Faulty nfc d (.mapping fs)

/-- The normal form of a key that is a string. -/
def normalKey (nfc : Str → Str) (f : Object × Object) : Option Str :=
  match f.1 with
  | .str s => some (nfc s)
  | _ => none

/-- The keys of an accepted mapping are strings with different normal forms. -/
theorem keys_of_accepted {fs : List (Object × Object)} {gs : List (Str × Canonical)}
    (h : canonicalFields nfc depth [] fs = .ok gs) :
    (∀ f ∈ fs, ∃ s, f.1 = .str s) ∧ (fs.map (normalKey nfc)).Nodup := by
  obtain ⟨hnodup, hcopied⟩ := copied_of_ok h
  have hkeys : fs.map (normalKey nfc) = gs.map fun g => some g.1 := by
    clear hnodup h
    induction hcopied with
    | nil => rfl
    | cons hfirst _ ih =>
        obtain ⟨s, hs, hkey, -⟩ := hfirst
        rw [List.map_cons, List.map_cons, ih, normalKey, hs, hkey]
  refine ⟨fun f hf => ?_, ?_⟩
  · have hmem : normalKey nfc f ∈ gs.map fun g => some g.1 := hkeys ▸ List.mem_map_of_mem hf
    obtain ⟨g, -, hg⟩ := List.mem_map.mp hmem
    unfold normalKey at hg
    split at hg
    · next s hs => exact ⟨s, hs⟩
    · cases hg
  · rw [hkeys]
    have hsome := hnodup.map (Option.some_injective Str)
    rwa [List.map_map] at hsome

/-- **An accepted object is not faulty.** -/
theorem not_faulty (h : canonicalValue nfc depth v = .ok c) : ¬ Faulty nfc depth v := by
  intro hfaulty
  have hdepth := not_lt.mpr (depth_le h)
  cases hfaulty with
  | deep hdeep => exact hdepth hdeep
  | float =>
      rw [canonicalValue, if_neg hdepth] at h
      cases h
  | other =>
      rw [canonicalValue, if_neg hdepth] at h
      cases h
  | int hrange =>
      rw [canonicalValue, if_neg hdepth] at h
      rw [if_neg hrange] at h
      cases h
  | key hf hkey =>
      obtain ⟨-, -, gs, hgs, -⟩ := canonicalValue_mapping.mp h
      obtain ⟨s, hs⟩ := (keys_of_accepted hgs).1 _ hf
      exact hkey s hs
  | collision hsub hsame =>
      obtain ⟨-, -, gs, hgs, -⟩ := canonicalValue_mapping.mp h
      have hnodup := (keys_of_accepted hgs).2.sublist (hsub.map _)
      simp [normalKey, hsame] at hnodup

/-- The children of an accepted object are accepted. -/
theorem accepted_child (h : canonicalValue nfc depth v = .ok c) (hw : v.Child w) :
    ∃ c', canonicalValue nfc (depth + 1) w = .ok c' := by
  have hitems : ∀ vs, v.items? = some vs → w ∈ vs →
      ∃ c', canonicalValue nfc (depth + 1) w = .ok c' := by
    intro vs hvs hmem
    obtain ⟨-, -, cs, hcs, -⟩ := (canonicalValue_items hvs).mp h
    exact exists_of_forall₂ (canonicalItems_ok hcs) hmem
  cases hw with
  | list hmem => exact hitems _ rfl hmem
  | tuple hmem => exact hitems _ rfl hmem
  | @mapping fs f hmem =>
      obtain ⟨-, -, gs, hgs, -⟩ := canonicalValue_mapping.mp h
      obtain ⟨-, hcopied⟩ := copied_of_ok hgs
      obtain ⟨g, s, -, -, hvalue⟩ := exists_of_forall₂ hcopied hmem
      exact ⟨g.2, hvalue⟩

/-- No accepted tree has a faulty object anywhere. -/
theorem not_faulty_at {d : Nat} (h : canonicalValue nfc 0 v = .ok c) (hw : v.At d w) :
    ¬ Faulty nfc d w := by
  have haccepted : ∃ c', canonicalValue nfc d w = .ok c' := by
    induction hw with
    | root => exact ⟨c, h⟩
    | child _ hchild ih =>
        obtain ⟨c', hc'⟩ := ih
        exact accepted_child hc' hchild
  obtain ⟨c', hc'⟩ := haccepted
  exact not_faulty hc'

/-! ## The statement -/

theorem checkSchema_ok {schema : Object} {name : Str} (h : checkSchema schema = .ok name) :
    schema = .str name := by
  unfold checkSchema at h
  split at h
  · split at h
    · obtain rfl := Except.ok.inj h
      rfl
    · cases h
  · cases h

theorem checkVersion_ok {version : Object} {n : Int} (h : checkVersion version = .ok n) :
    version = .int n := by
  unfold checkVersion at h
  split at h
  · split at h
    · obtain rfl := Except.ok.inj h
      rfl
    · cases h
  · cases h

/-- The three members are written in this order. -/
theorem encode_document {value : Canonical} {schema : Str} {version : Int} :
    (document value schema version).encode = value.encode.bind fun x =>
      schema.text?.bind fun name => some (.obj
        [("payload", x), ("schema", .str name), ("version", .int version)]) := by
  have hpayload : (Str.ofString "payload").text? = some "payload" := by decide +kernel
  have hschema : (Str.ofString "schema").text? = some "schema" := by decide +kernel
  have hversion : (Str.ofString "version").text? = some "version" := by decide +kernel
  have hsorted (x y z : Value) : sortFields [("payload", x), ("schema", y), ("version", z)] =
      [("payload", x), ("schema", y), ("version", z)] := by
    apply List.Pairwise.insertionSort_eq
    simp only [List.pairwise_cons, List.mem_cons, List.not_mem_nil, or_false, forall_eq_or_imp,
      forall_eq]
    refine ⟨⟨?_, ?_⟩, ?_, ?_⟩ <;> simp
  simp only [document, Canonical.encode, encodeFields, hpayload, hschema, hversion]
  cases value.encode with
  | none => rfl
  | some x =>
      cases schema.text? with
      | none => rfl
      | some name => simp [hsorted]

theorem canonicalJsonBytes_ok {payload schema version : Object} {bytes : ByteArray}
    (h : canonicalJsonBytes nfc payload schema version = .ok bytes) :
    ∃ name n c x text, schema = .str name ∧ version = .int n ∧
      canonicalValue nfc 0 payload = .ok c ∧ c.encode = some x ∧ name.text? = some text ∧
      bytes = (Value.dumps .utf8 (.obj
        [("payload", x), ("schema", .str text), ("version", .int n)])).toUTF8 := by
  unfold canonicalJsonBytes at h
  split at h
  swap
  · cases h
  next fs =>
  obtain ⟨name, hname, h⟩ := bind_eq_ok.mp h
  obtain ⟨n, hn, h⟩ := bind_eq_ok.mp h
  obtain ⟨c, hc, h⟩ := bind_eq_ok.mp h
  split at h
  swap
  · cases h
  next v hv =>
  rw [encode_document] at hv
  obtain ⟨x, hx, hv⟩ := Option.bind_eq_some_iff.mp hv
  obtain ⟨text, htext, hv⟩ := Option.bind_eq_some_iff.mp hv
  obtain rfl := Option.some.inj hv
  obtain rfl := Except.ok.inj h
  exact ⟨name, n, c, x, text, checkSchema_ok hname, checkVersion_ok hn, hc, hx, htext, rfl⟩

/-- Equal bytes come from the same statement. -/
theorem canonicalJsonBytes_same {payload schema version payload' schema' version' : Object}
    {bytes : ByteArray} (h : canonicalJsonBytes nfc payload schema version = .ok bytes)
    (h' : canonicalJsonBytes nfc payload' schema' version' = .ok bytes) :
    schema = schema' ∧ version = version' ∧ Same nfc payload payload' := by
  obtain ⟨name, n, c, x, text, rfl, rfl, hc, hx, htext, rfl⟩ := canonicalJsonBytes_ok h
  obtain ⟨name', n', c', x', text', rfl, rfl, hc', hx', htext', hbytes⟩ :=
    canonicalJsonBytes_ok h'
  have hvalue := Value.dumps_injective (String.toByteArray_inj.mp hbytes)
  simp only [Value.obj.injEq, List.cons.injEq, Prod.mk.injEq, true_and, and_true, Value.str.injEq,
    Value.int.injEq] at hvalue
  obtain ⟨rfl, rfl, rfl⟩ := hvalue
  refine ⟨by rw [Str.text?_injective htext htext'], rfl, ?_⟩
  exact (denotes_of_encode hc hx).same (denotes_of_encode hc' hx')

/-- **A signature over canonical bytes covers one statement.** Equal bytes come from equal schemas
and versions and from the same payload up to the normal form of strings, the order of keys, and
list or tuple; and no bytes come from a tree with a faulty object anywhere. -/
theorem canonical_json_injective (nfc : Str → Str) :
    (∀ payload schema version payload' schema' version' bytes,
      canonicalJsonBytes nfc payload schema version = .ok bytes →
      canonicalJsonBytes nfc payload' schema' version' = .ok bytes →
        schema = schema' ∧ version = version' ∧ Same nfc payload payload') ∧
    ∀ payload schema version d v, payload.At d v → Faulty nfc d v →
      ∀ bytes, canonicalJsonBytes nfc payload schema version ≠ .ok bytes := by
  refine ⟨?_, ?_⟩
  · intro payload schema version payload' schema' version' bytes h h'
    exact canonicalJsonBytes_same h h'
  · intro payload schema version d v hat hfaulty bytes h
    obtain ⟨-, -, c, -, -, -, -, hc, -⟩ := canonicalJsonBytes_ok h
    exact not_faulty_at hc hat hfaulty

/-! ### One statement in two spellings -/

/-- NFC on the strings below: `e` and a combining acute accent are composed. -/
def sampleNfc (s : Str) : Str := if s = [0x65, 0x301] then [0xe9] else s

def sampleSchema : Object := .str (Str.ofString "scap.e2ee.replay-key")

def samplePayload : Object :=
  .mapping [(.str [0x65, 0x301], .tuple [.int 1, .bool true]), (.str (Str.ofString "b"), .none)]

def samplePayload' : Object :=
  .mapping [(.str (Str.ofString "b"), .none), (.str [0xe9], .list [.int 1, .bool true])]

theorem canonical_json_injective_sample : Same sampleNfc samplePayload samplePayload' ∧
    ∀ bytes, canonicalJsonBytes sampleNfc
      (.mapping [(.str [0xe9], .list [.float])]) sampleSchema (.int 1) ≠ .ok bytes := by
  obtain ⟨hsame, hrefused⟩ := canonical_json_injective sampleNfc
  obtain ⟨bytes, hbytes, hbytes'⟩ : ∃ bytes,
      canonicalJsonBytes sampleNfc samplePayload sampleSchema (.int 1) = .ok bytes ∧
        canonicalJsonBytes sampleNfc samplePayload' sampleSchema (.int 1) = .ok bytes :=
    ⟨_, rfl, by decide +kernel⟩
  refine ⟨(hsame _ _ _ _ _ _ _ hbytes hbytes').2.2, ?_⟩
  refine hrefused _ _ _ 2 .float ?_ .float
  have hlist : (Object.list [.float]).Child .float := .list List.mem_cons_self
  have hvalue : (Object.mapping [(.str [0xe9], .list [.float])]).Child (.list [.float]) :=
    .mapping (f := (.str [0xe9], .list [.float])) List.mem_cons_self
  exact (Object.At.root.child hvalue).child hlist

end Scap.E2ee
