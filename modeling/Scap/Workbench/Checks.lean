import Scap.Js.Base64
import Scap.Js.Writing

/-!
# The checks of the encryption workbench

`boundedText`, `decode64`, `object` and `parse` of `crypto_workbench_core.js`. A function that
throws is `none`: whatever is thrown inside, the public operations report one failure.

`JSON.parse` accepts an object with two members under one key. `parse` looks for the keys a second
time and throws; `parse_stringify` says that it never does so on what `JSON.stringify` wrote.
-/

namespace Scap.Workbench

open Scap.Py (Bytes)
open Scap.Js

variable {ν : Type}

/-! ## Texts -/

def isLeading (c : Nat) : Bool := 0xd800 ≤ c && c ≤ 0xdbff

def isTrailing (c : Nat) : Bool := 0xdc00 ≤ c && c ≤ 0xdfff

/-- `/[\uD800-\uDBFF](?![\uDC00-\uDFFF])|(?:^|[^\uD800-\uDBFF])[\uDC00-\uDFFF]/u.test`, on the code
points after `previous`. -/
def testLone (previous : Option Nat) : List Nat → Bool
  | [] => false
  | c :: cs =>
    (isLeading c && !cs.head?.any isTrailing) || (!previous.any isLeading && isTrailing c) ||
      testLone (some c) cs

def boundedText (value : Value ν) (limit : Nat) : Option Bytes :=
  match value with
  | .str s =>
    if limit < s.length ∨ testLone none (codePoints s) = true then none
    else if limit < (encode s).length then none
    else some (encode s)
  | _ => none

/-- `typeof value === "string" && /^[0-9a-f]{64}$/.test(value)`. -/
def validFingerprint (value : Value ν) : Bool :=
  match value with
  | .str s => s.length = 64 && s.all fun u =>
      (48 ≤ u.toNat && u.toNat ≤ 57) || (97 ≤ u.toNat && u.toNat ≤ 102)
  | _ => false

def decode64 (value : Value ν) (minimum maximum : Nat) : Option Bytes :=
  match value with
  | .str s =>
    if s = [] ∨ s.all isUrlsafe = false ∨ (maximum * 4 + 2) / 3 < s.length ∨
        s.length % 4 = 1 then none
    else
      (atob64 s).bind fun result =>
        if result.length < minimum ∨ maximum < result.length ∨ btoa64 result ≠ s then none
        else some result
  | _ => none

/-! ## Objects -/

/-- `Object.hasOwn`. -/
def hasOwn (ms : List (Str × Value ν)) (key : Str) : Bool := ms.any fun m => m.1 = key

/-- A property, or `none` for `undefined`. -/
def property (ms : List (Str × Value ν)) (key : Str) : Option (Value ν) :=
  (ms.find? fun m => m.1 = key).map Prod.snd

def object (value : Value ν) (fields : List Str) : Option (List (Str × Value ν)) :=
  match value with
  | .obj ms => if ms.length = fields.length ∧ fields.all (hasOwn ms) then some ms else none
  | _ => none

/-- `value === text`. -/
def isText (value : Value ν) (text : Str) : Bool :=
  match value with
  | .str s => s = text
  | _ => false

/-- `value === n`. -/
def isNatural (N : Numbers ν) (value : Value ν) (n : Nat) : Bool :=
  match value with
  | .num x => N.safeInteger x = some (n : Int)
  | _ => false

/-! ## JSON without duplicate keys -/

/-- `/\s/`. -/
def isSpace (u : CodeUnit) : Bool :=
  let n := u.toNat
  (9 ≤ n && n ≤ 13) || n = 0x20 || n = 0xa0 || n = 0x1680 || (0x2000 ≤ n && n ≤ 0x200a) ||
    n = 0x2028 || n = 0x2029 || n = 0x202f || n = 0x205f || n = 0x3000 || n = 0xfeff

/-- The rest of a string literal with its closing quote, and what follows. -/
def skipLiteral : Str → Str × Str
  | [] => ([], [])
  | c :: s =>
    if c = code '\\' then
      match s with
      | [] => ([c], [])
      | d :: s => (c :: d :: (skipLiteral s).1, (skipLiteral s).2)
    else if c = code '"' then ([c], s)
    else (c :: (skipLiteral s).1, (skipLiteral s).2)

def colonFollows (s : Str) : Bool := (s.dropWhile isSpace).head? = some (code ':')

theorem skipLiteral_quote (s : Str) : skipLiteral (code '"' :: s) = ([code '"'], s) := by
  rw [skipLiteral.eq_def]
  rfl

theorem skipLiteral_escape (d : CodeUnit) (s : Str) : skipLiteral (code '\\' :: d :: s) =
    (code '\\' :: d :: (skipLiteral s).1, (skipLiteral s).2) := by
  rw [skipLiteral.eq_def]
  rfl

theorem skipLiteral_plain {c : CodeUnit} (s : Str) (hescape : c ≠ code '\\')
    (hquote : c ≠ code '"') :
    skipLiteral (c :: s) = (c :: (skipLiteral s).1, (skipLiteral s).2) := by
  rw [skipLiteral.eq_def]
  simp only
  rw [if_neg hescape, if_neg hquote]

theorem length_skipLiteral_le (s : Str) : (skipLiteral s).2.length ≤ s.length := by
  induction s using skipLiteral.induct with
  | case1 => exact Nat.le_refl _
  | case2 => exact Nat.zero_le _
  | case3 d s ih =>
      rw [skipLiteral_escape]
      simp only [List.length_cons]
      omega
  | case4 s h =>
      rw [skipLiteral_quote]
      exact Nat.le_succ _
  | case5 c s h h' ih =>
      rw [skipLiteral_plain s h h']
      exact Nat.le_succ_of_le ih

/-- The scan for duplicate keys: whether it ends without an error. A container is the set of the
keys of an object, or `none` for an array. -/
def scan (N : Numbers ν) (containers : List (Option (List Str))) : Str → Bool
  | [] => true
  | c :: s =>
    if c = code '{' then scan N (some [] :: containers) s
    else if c = code '[' then scan N (none :: containers) s
    else if c = code '}' ∨ c = code ']' then scan N containers.tail s
    else if c = code '"' then
      if colonFollows (skipLiteral s).2 then
        match jsonParse N (c :: (skipLiteral s).1), containers with
        | some (.str key), some keys :: outer =>
          if key ∈ keys then false
          else scan N (some (key :: keys) :: outer) (skipLiteral s).2
        | _, _ => false
      else scan N containers (skipLiteral s).2
    else scan N containers s
termination_by s => s.length
decreasing_by
  all_goals
    have := length_skipLiteral_le s
    simp only [List.length_cons]
    omega

def parse (N : Numbers ν) (value : Value ν) (limit : Nat) : Option (Value ν) :=
  match value with
  | .str s =>
    if limit < s.length ∨ limit < (encode s).length then none
    else (jsonParse N s).bind fun result => if scan N [] s then some result else none
  | _ => none

/-! ## What the checks accept -/

variable {N : Numbers ν} {s r : Str} {u v : CodeUnit}

/-- The first code point is the second half of a pair only if the first unit is. -/
theorem isTrailing_of_head {c : Nat} (h : c ∈ (codePoints (v :: s)).head?)
    (hc : isTrailing c = true) : isLow v = true := by
  cases s with
  | nil =>
      obtain rfl : v.toNat = c := by simpa using h
      simp only [isTrailing, Bool.and_eq_true, decide_eq_true_eq] at hc
      exact isLow_iff.mpr (by omega)
  | cons w s =>
      by_cases hpair : (isHigh v && isLow w) = true
      · simp only [Bool.and_eq_true] at hpair
        obtain ⟨-, hlarge⟩ := toNat_scalar_pair hpair.1 hpair.2
        rw [codePoints_pair hpair.1 hpair.2] at h
        obtain rfl : pair v w = c := by simpa using h
        simp only [isTrailing, Bool.and_eq_true, decide_eq_true_eq] at hc
        omega
      · rw [codePoints_other hpair] at h
        obtain rfl : v.toNat = c := by simpa using h
        simp only [isTrailing, Bool.and_eq_true, decide_eq_true_eq] at hc
        exact isLow_iff.mpr (by omega)

theorem testLone_of_wellFormed {cs : List Nat} (h : ∀ c ∈ cs, isSurrogate c = false)
    (previous : Option Nat) : testLone previous cs = false := by
  induction cs generalizing previous with
  | nil => rfl
  | cons c cs ih =>
      have hc := isSurrogate_eq_false.mp (h c (by simp))
      have hleading : isLeading c = false := by
        rw [Bool.eq_false_iff]
        simp only [isLeading, ne_eq, Bool.and_eq_true, decide_eq_true_eq]
        omega
      have htrailing : isTrailing c = false := by
        rw [Bool.eq_false_iff]
        simp only [isTrailing, ne_eq, Bool.and_eq_true, decide_eq_true_eq]
        omega
      rw [testLone, hleading, htrailing, ih fun d hd => h d (List.mem_cons_of_mem _ hd)]
      simp

/-- A surrogate that stands alone is found, as long as what comes before does not complete it. -/
theorem wellFormed_of_testLone {previous : Option Nat}
    (h : testLone previous (codePoints s) = false) (hprevious : previous.any isLeading = false) :
    WellFormed s := by
  -- by the code points: a pair is one, and any other unit stands alone
  induction s using codePoints.induct generalizing previous with
  | case1 u v s hpair ih =>
      simp only [Bool.and_eq_true] at hpair
      obtain ⟨-, hlarge⟩ := toNat_scalar_pair hpair.1 hpair.2
      have hpoints := codePoints_pair (s := s) hpair.1 hpair.2
      generalize pair u v = p at hlarge hpoints
      rw [hpoints, testLone, Bool.or_eq_false_iff] at h
      have hleading : isLeading p = false := by
        simp only [isLeading, Bool.and_eq_false_iff, decide_eq_false_iff_not]
        omega
      have hrest := ih h.2 (by rw [Option.any_some, hleading])
      intro c hc
      rw [hpoints] at hc
      rcases List.mem_cons.mp hc with rfl | hc
      · exact isSurrogate_eq_false.mpr (.inr (by omega))
      · exact hrest c hc
  | case2 u v s hpair ih =>
      rw [codePoints_other hpair, testLone, Bool.or_eq_false_iff, Bool.or_eq_false_iff,
        hprevious] at h
      obtain ⟨⟨hfirst, hsecond⟩, hrest⟩ := h
      have hleading : isLeading u.toNat = false := by
        rw [Bool.eq_false_iff]
        intro hu
        rw [hu] at hfirst
        simp only [Bool.true_and, Bool.not_eq_false', Option.any_eq_true] at hfirst
        obtain ⟨c, hc, htrailing⟩ := hfirst
        have hlow := isTrailing_of_head hc htrailing
        simp only [isLeading, Bool.and_eq_true, decide_eq_true_eq] at hu
        have hhigh : isHigh u = true := isHigh_iff.mpr (by omega)
        exact hpair (by rw [hhigh, hlow]; rfl)
      have htrailing : isTrailing u.toNat = false := by simpa using hsecond
      have hplain : isSurrogate u.toNat = false := by
        simp only [isLeading, isTrailing, Bool.and_eq_false_iff, decide_eq_false_iff_not]
          at hleading htrailing
        exact isSurrogate_eq_false.mpr (by omega)
      have hwell := ih hrest hleading
      intro c hc
      rw [codePoints_other hpair] at hc
      rcases List.mem_cons.mp hc with rfl | hc
      · exact hplain
      · exact hwell c hc
  | case3 u =>
      simp only [codePoints_single, testLone, hprevious, List.head?_nil, Option.any_none,
        Bool.not_false, Bool.and_true, Bool.true_and, Bool.or_false, Bool.or_eq_false_iff,
        isLeading, isTrailing, Bool.and_eq_false_iff, decide_eq_false_iff_not] at h
      intro c hc
      rw [List.mem_singleton.mp hc]
      exact isSurrogate_eq_false.mpr (by omega)
  | case4 => exact wellFormed_nil

theorem boundedText_eq_some {value : Value ν} {limit : Nat} {data : Bytes} :
    boundedText value limit = some data ↔
      ∃ s, value = .str s ∧ WellFormed s ∧ (encode s).length ≤ limit ∧ encode s = data := by
  constructor
  · intro h
    cases value with
    | str s =>
        simp only [boundedText] at h
        split_ifs at h with hbad hlong
        obtain ⟨-, hlone⟩ := not_or.mp hbad
        exact ⟨s, rfl, wellFormed_of_testLone (Bool.eq_false_iff.mpr hlone) rfl, by omega,
          Option.some.inj h⟩
    | null => cases h
    | bool b => cases h
    | num n => cases h
    | arr vs => cases h
    | obj ms => cases h
  · rintro ⟨s, rfl, hwell, hlength, rfl⟩
    have hunits := length_le_encode s
    have hlone := testLone_of_wellFormed hwell none
    simp only [boundedText]
    rw [hlone, if_neg (by simp; omega), if_neg (by omega)]

theorem decode64_btoa64 {data : Bytes} {minimum maximum : Nat} (hne : data ≠ [])
    (hmin : minimum ≤ data.length) (hmax : data.length ≤ maximum) :
    decode64 (Value.str (ν := ν) (btoa64 data)) minimum maximum = some data := by
  have hlength := length_btoa64 data
  have hpos := List.length_pos_of_ne_nil hne
  have hnonempty : btoa64 data ≠ [] := by
    intro h
    rw [h] at hlength
    simp only [List.length_nil] at hlength
    omega
  have hdigits : (btoa64 data).all isUrlsafe = true :=
    List.all_eq_true.mpr fun u hu => isUrlsafe_of_mem_btoa64 hu
  have haccepted : ¬(btoa64 data = [] ∨ (btoa64 data).all isUrlsafe = false ∨
      (maximum * 4 + 2) / 3 < (btoa64 data).length ∨ (btoa64 data).length % 4 = 1) := by
    rw [hdigits, hlength]
    simp only [hnonempty, Bool.true_eq_false, false_or, not_or]
    omega
  unfold decode64
  simp only
  rw [if_neg haccepted, atob64_btoa64]
  show (if _ then none else some data) = _
  rw [if_neg (by simp; omega)]

theorem property_of_mem {ms : List (Str × Value ν)} {key : Str} {value : Value ν}
    (hkeys : (ms.map Prod.fst).Nodup) (h : (key, value) ∈ ms) : property ms key = some value := by
  induction ms with
  | nil => cases h
  | cons m ms ih =>
      obtain ⟨hfirst, hrest⟩ := List.nodup_cons.mp hkeys
      by_cases hm : m.1 = key
      · rcases List.mem_cons.mp h with rfl | h
        · simp [property]
        · exact absurd (hm ▸ List.mem_map_of_mem h) hfirst
      · rcases List.mem_cons.mp h with rfl | h
        · exact absurd rfl hm
        · rw [property, List.find?_cons_of_neg (by simpa using hm)]
          exact ih hrest h

/-- An object with these keys has these fields. -/
theorem object_obj {ms : List (Str × Value ν)} {fields : List Str} (h : ms.map Prod.fst = fields) :
    object (.obj ms) fields = some ms := by
  subst h
  have hown : (ms.map Prod.fst).all (hasOwn ms) = true := by
    rw [List.all_eq_true]
    intro key hkey
    obtain ⟨m, hm, rfl⟩ := List.mem_map.mp hkey
    exact List.any_eq_true.mpr ⟨m, hm, by simp⟩
  simp only [object]
  rw [if_pos ⟨(List.length_map _).symm, hown⟩]

end Scap.Workbench
