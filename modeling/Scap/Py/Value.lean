import Scap.Py.Json

/-!
# `json.dumps` of nested values

Objects, arrays and scalars without whitespace, in either escaping: `ensure_ascii=False` writes
characters as they are, `ensure_ascii=True` everything outside printable ASCII as `\uXXXX`. An
`Escaping` carries the reader that undoes it. The order of the members is that of the list.

`text_cancel` says that a text determines its value, also when a delimiter and anything else
follows it.
-/

namespace Scap.Py

/-! ## Escapings -/

/-- How characters of a string are written, and how they are read back. -/
structure Escaping where
  escape : Char → List Char
  unescape : List Char → Option (Char × List Char)
  unescape_escape : ∀ c r, unescape (escape c ++ r) = some (c, r)
  unescape_quote : ∀ r, unescape ('"' :: r) = none

namespace Escaping

/-- `ensure_ascii=False`. -/
def utf8 : Escaping where
  escape := escapeChar
  unescape := Py.unescape
  unescape_escape := unescape_escapeChar
  unescape_quote _ := rfl

/-- Four hexadecimal digits. -/
def hex4 (n : Nat) : List Char :=
  [hexDigit (n / 4096 % 16), hexDigit (n / 256 % 16), hexDigit (n / 16 % 16), hexDigit (n % 16)]

def hexValue4 (a b c d : Char) : Nat :=
  ((hexValue a * 16 + hexValue b) * 16 + hexValue c) * 16 + hexValue d

theorem hexValue_hexDigit {n : Nat} (h : n < 16) : hexValue (hexDigit n) = n := by
  revert n
  decide

/-- How `json.dumps(ensure_ascii=True)` writes one character of a string. -/
def escapeAscii (c : Char) : List Char :=
  if c = '"' then ['\\', '"']
  else if c = '\\' then ['\\', '\\']
  else if c = '\n' then ['\\', 'n']
  else if c = '\r' then ['\\', 'r']
  else if c = '\t' then ['\\', 't']
  else if c = '\x0c' then ['\\', 'f']
  else if c = '\x08' then ['\\', 'b']
  else if 0x20 ≤ c.toNat ∧ c.toNat < 0x7f then [c]
  else if c.toNat < 0x10000 then '\\' :: 'u' :: hex4 c.toNat
  else
    let v := c.toNat - 0x10000
    '\\' :: 'u' :: hex4 (0xd800 + v / 1024) ++ '\\' :: 'u' :: hex4 (0xdc00 + v % 1024)

/-- The character of a `\u` escape with value `high`, which a second escape completes if `high` is
the first half of a surrogate pair. -/
def readUnicode (high : Nat) (r : List Char) : Option (Char × List Char) :=
  if 0xd800 ≤ high ∧ high < 0xdc00 then
    match r with
    | '\\' :: 'u' :: a :: b :: c :: d :: r =>
        some (Char.ofNat (0x10000 + (high - 0xd800) * 1024 + (hexValue4 a b c d - 0xdc00)), r)
    | _ => none
  else some (Char.ofNat high, r)

/-- The character that an ASCII text starts with, and what follows it. -/
def unescapeAscii : List Char → Option (Char × List Char)
  | '\\' :: '"' :: r => some ('"', r)
  | '\\' :: '\\' :: r => some ('\\', r)
  | '\\' :: 'n' :: r => some ('\n', r)
  | '\\' :: 'r' :: r => some ('\r', r)
  | '\\' :: 't' :: r => some ('\t', r)
  | '\\' :: 'f' :: r => some ('\x0c', r)
  | '\\' :: 'b' :: r => some ('\x08', r)
  | '\\' :: 'u' :: a :: b :: c :: d :: r => readUnicode (hexValue4 a b c d) r
  | '"' :: _ => none
  | c :: r => some (c, r)
  | [] => none

theorem hexValue4_hex4 {n : Nat} (h : n < 65536) :
    hexValue4 (hexDigit (n / 4096 % 16)) (hexDigit (n / 256 % 16)) (hexDigit (n / 16 % 16))
      (hexDigit (n % 16)) = n := by
  unfold hexValue4
  have hlt : ∀ m : Nat, m % 16 < 16 := fun m => Nat.mod_lt m (by omega)
  rw [hexValue_hexDigit (hlt _), hexValue_hexDigit (hlt _), hexValue_hexDigit (hlt _),
    hexValue_hexDigit (hlt _)]
  omega

/-- A code point is not a surrogate, and there are seventeen planes. -/
theorem toNat_valid (c : Char) : c.toNat < 0xd800 ∨ 0xdfff < c.toNat ∧ c.toNat < 0x110000 := by
  have h := c.valid
  rw [UInt32.isValidChar, Nat.isValidChar] at h
  exact h

theorem unescapeAscii_escapeAscii (c : Char) (r : List Char) :
    unescapeAscii (escapeAscii c ++ r) = some (c, r) := by
  have hvalid := toNat_valid c
  unfold escapeAscii
  split_ifs with h1 h2 h3 h4 h5 h6 h7 hplain hbmp
  · rw [h1]; rfl
  · rw [h2]; rfl
  · rw [h3]; rfl
  · rw [h4]; rfl
  · rw [h5]; rfl
  · rw [h6]; rfl
  · rw [h7]; rfl
  · show unescapeAscii (c :: r) = _
    unfold unescapeAscii
    split <;> simp_all
  · simp only [hex4, List.cons_append, List.nil_append]
    rw [unescapeAscii, hexValue4_hex4 hbmp]
    unfold readUnicode
    rw [if_neg (by omega), Char.ofNat_toNat]
  · simp only [hex4, List.cons_append, List.nil_append]
    have hhigh : 0xd800 + (c.toNat - 0x10000) / 1024 < 65536 := by omega
    have hlow : 0xdc00 + (c.toNat - 0x10000) % 1024 < 65536 := by omega
    rw [unescapeAscii, hexValue4_hex4 hhigh, readUnicode, if_pos (by omega), hexValue4_hex4 hlow]
    have hback : 0x10000 + (0xd800 + (c.toNat - 0x10000) / 1024 - 0xd800) * 1024 +
        (0xdc00 + (c.toNat - 0x10000) % 1024 - 0xdc00) = c.toNat := by omega
    rw [hback, Char.ofNat_toNat]

/-- `ensure_ascii=True`. -/
def ascii : Escaping where
  escape := escapeAscii
  unescape := unescapeAscii
  unescape_escape := unescapeAscii_escapeAscii
  unescape_quote _ := rfl

variable (e : Escaping)

/-- A JSON string literal, quotes included. -/
def quote (s : String) : List Char := '"' :: s.toList.flatMap e.escape ++ ['"']

variable {e}

/-- An escaped body is delimited by the first raw quote after it. -/
theorem body_cancel {cs ds r q : List Char}
    (h : cs.flatMap e.escape ++ '"' :: r = ds.flatMap e.escape ++ '"' :: q) :
    cs = ds ∧ r = q := by
  induction cs generalizing ds with
  | nil =>
      cases ds with
      | nil => exact ⟨rfl, (List.cons.inj h).2⟩
      | cons d ds =>
          have hread := congrArg e.unescape h
          rw [List.flatMap_cons, List.append_assoc, e.unescape_escape] at hread
          exact absurd (e.unescape_quote r ▸ hread) (by simp)
  | cons c cs ih =>
      have hread := congrArg e.unescape h
      rw [List.flatMap_cons, List.append_assoc, e.unescape_escape] at hread
      cases ds with
      | nil => exact absurd (e.unescape_quote q ▸ hread) (by simp)
      | cons d ds =>
          rw [List.flatMap_cons, List.append_assoc, e.unescape_escape] at hread
          obtain ⟨rfl, hrest⟩ := Prod.mk.inj (Option.some.inj hread)
          obtain ⟨rfl, rfl⟩ := ih hrest
          exact ⟨rfl, rfl⟩

theorem quote_cancel {s t : String} {r q : List Char} (h : e.quote s ++ r = e.quote t ++ q) :
    s = t ∧ r = q := by
  simp only [quote, List.cons_append, List.append_assoc, List.nil_append, List.cons.injEq,
    true_and] at h
  obtain ⟨hbody, hrest⟩ := body_cancel h
  exact ⟨String.toList_inj.mp hbody, hrest⟩

end Escaping

/-! ## Values -/

inductive Value where
  | null
  | bool (b : Bool)
  | int (n : Int)
  | str (s : String)
  | arr (vs : List Value)
  | obj (fs : List (String × Value))

namespace Value

variable (e : Escaping)

mutual

/-- The text of a value. -/
def text : Value → List Char
  | .null => ['n', 'u', 'l', 'l']
  | .bool true => ['t', 'r', 'u', 'e']
  | .bool false => ['f', 'a', 'l', 's', 'e']
  | .int n => (Int.repr n).toList
  | .str s => e.quote s
  | .arr [] => ['[', ']']
  | .arr (v :: vs) => '[' :: text v ++ elements vs
  | .obj [] => ['{', '}']
  | .obj ((k, v) :: fs) => '{' :: e.quote k ++ ':' :: text v ++ members fs

/-- What follows the first element of an array. -/
def elements : List Value → List Char
  | [] => [']']
  | v :: vs => ',' :: text v ++ elements vs

/-- What follows the first member of an object. -/
def members : List (String × Value) → List Char
  | [] => ['}']
  | (k, v) :: fs => ',' :: e.quote k ++ ':' :: text v ++ members fs

end

/-- `json.dumps(value, separators=(",", ":"))`. -/
def dumps (v : Value) : String := String.ofList (v.text e)

/-! ### Reading values back -/

/-- What a text is read up to. -/
def Stops : List Char → Prop
  | [] => True
  | c :: _ => c ∈ [',', ']', '}']

theorem stops_elements (vs : List Value) (r : List Char) : Stops (elements e vs ++ r) := by
  cases vs <;> simp [elements, Stops]

theorem stops_members (fs : List (String × Value)) (r : List Char) :
    Stops (members e fs ++ r) := by
  cases fs <;> simp [members, Stops]

/-- What the first character of a text tells apart. -/
def kind : Value → Nat
  | .null => 0
  | .bool true => 1
  | .bool false => 2
  | .int _ => 3
  | .str _ => 4
  | .arr _ => 5
  | .obj _ => 6

def kindOf (c : Char) : Nat :=
  if c = 'n' then 0 else if c = 't' then 1 else if c = 'f' then 2
  else if c.isDigit ∨ c = '-' then 3 else if c = '"' then 4 else if c = '[' then 5
  else if c = '{' then 6 else 7

theorem repr_ne_nil (n : Int) : (Int.repr n).toList ≠ [] := by
  cases n with
  | ofNat m =>
      show (Nat.repr m).toList ≠ []
      rw [Nat.repr, String.toList_ofList]
      exact Nat.toDigits_ne_nil
  | negSucc m => simp [Int.repr]

theorem repr_start (n : Int) : ∃ c cs, (Int.repr n).toList = c :: cs ∧ kindOf c = 3 := by
  have hfirst : ∀ c ∈ (Int.repr n).toList, kindOf c = 3 := by
    intro c hc
    unfold kindOf
    have hint := isDigit_or_minus hc
    have hne : ∀ d : Char, d.isDigit = false → d ≠ '-' → c ≠ d := by
      rintro d hfalse hminus rfl
      rcases hint with hdigit | heq
      · rw [hdigit] at hfalse
        cases hfalse
      · exact hminus heq
    rw [if_neg (hne 'n' rfl (by decide)), if_neg (hne 't' rfl (by decide)),
      if_neg (hne 'f' rfl (by decide)), if_pos hint]
  cases h : (Int.repr n).toList with
  | nil => exact absurd h (repr_ne_nil n)
  | cons c cs => exact ⟨c, cs, rfl, hfirst c (h ▸ List.mem_cons_self)⟩

variable {e}

theorem text_start (v : Value) : ∃ c cs, v.text e = c :: cs ∧ kindOf c = v.kind := by
  match v with
  | .null => exact ⟨_, _, by rw [text], rfl⟩
  | .bool true => exact ⟨_, _, by rw [text], rfl⟩
  | .bool false => exact ⟨_, _, by rw [text], rfl⟩
  | .int n =>
      obtain ⟨c, cs, h, hkind⟩ := repr_start n
      exact ⟨c, cs, by rw [text, h], hkind⟩
  | .str s => exact ⟨_, _, by rw [text, Escaping.quote, List.cons_append], rfl⟩
  | .arr [] => exact ⟨_, _, by rw [text], rfl⟩
  | .arr (v :: vs) => exact ⟨_, _, by rw [text, List.cons_append], rfl⟩
  | .obj [] => exact ⟨_, _, by rw [text], rfl⟩
  | .obj ((k, v) :: fs) => exact ⟨_, _, by rw [text, List.cons_append, List.cons_append], rfl⟩

theorem kind_eq {v w : Value} {r q : List Char} (h : v.text e ++ r = w.text e ++ q) :
    v.kind = w.kind := by
  obtain ⟨c, cs, hv, hc⟩ := text_start (e := e) v
  obtain ⟨d, ds, hw, hd⟩ := text_start (e := e) w
  rw [hv, hw] at h
  rw [← hc, ← hd, (List.cons.inj h).1]

/-- The characters of an integer end where something else begins. -/
theorem repr_cancel {m n : Int} {r q : List Char} (hr : Stops r) (hq : Stops q)
    (h : (Int.repr m).toList ++ r = (Int.repr n).toList ++ q) : m = n ∧ r = q := by
  have hplain : ∀ k : Int, ∀ c ∈ (Int.repr k).toList, c ∉ [',', ']', '}'] := by
    intro k c hc
    have hne : ∀ d : Char, d.isDigit = false → d ≠ '-' → c ≠ d := by
      rintro d hfalse hminus rfl
      rcases isDigit_or_minus hc with hdigit | heq
      · rw [hdigit] at hfalse
        cases hfalse
      · exact hminus heq
    simp [hne ',' rfl (by decide), hne ']' rfl (by decide), hne '}' rfl (by decide)]
  have hsplit : ∀ {xs ys r q : List Char}, (∀ x ∈ xs, x ∉ [',', ']', '}']) →
      (∀ y ∈ ys, y ∉ [',', ']', '}']) → Stops r → Stops q → xs ++ r = ys ++ q →
      xs = ys ∧ r = q := by
    intro xs
    induction xs with
    | nil =>
        intro ys r q _ hys hr _ h
        cases ys with
        | nil => exact ⟨rfl, h⟩
        | cons y ys =>
            rw [List.nil_append, List.cons_append] at h
            rw [h] at hr
            exact absurd hr (hys y List.mem_cons_self)
    | cons x xs ih =>
        intro ys r q hxs hys hr hq h
        cases ys with
        | nil =>
            rw [List.nil_append, List.cons_append] at h
            rw [← h] at hq
            exact absurd hq (hxs x List.mem_cons_self)
        | cons y ys =>
            obtain ⟨rfl, hrest⟩ := List.cons.inj h
            obtain ⟨rfl, rfl⟩ := ih (fun z hz => hxs z (List.mem_cons_of_mem _ hz))
              (fun z hz => hys z (List.mem_cons_of_mem _ hz)) hr hq hrest
            exact ⟨rfl, rfl⟩
  obtain ⟨htext, hrest⟩ := hsplit (hplain m) (hplain n) hr hq h
  exact ⟨Int.repr_injective (String.toList_inj.mp htext), hrest⟩

/-- No value begins where an array ends. -/
theorem text_ne_close {v : Value} {r q : List Char} : v.text e ++ r ≠ ']' :: q := by
  intro h
  obtain ⟨c, cs, hv, hc⟩ := text_start (e := e) v
  rw [hv, List.cons_append] at h
  rw [(List.cons.inj h).1] at hc
  cases v with
  | bool b => cases b <;> cases hc
  | _ => cases hc

mutual

/-- **The text of a value determines it**, whatever follows the delimiter after it. -/
theorem text_cancel (v w : Value) {r q : List Char} (hr : Stops r) (hq : Stops q)
    (h : v.text e ++ r = w.text e ++ q) : v = w ∧ r = q := by
  have hkind := kind_eq h
  match v, w with
  | .null, .null => exact ⟨rfl, by simpa [text] using h⟩
  | .bool true, .bool true => exact ⟨rfl, by simpa [text] using h⟩
  | .bool false, .bool false => exact ⟨rfl, by simpa [text] using h⟩
  | .int m, .int n =>
      rw [text, text] at h
      obtain ⟨rfl, hrest⟩ := repr_cancel hr hq h
      exact ⟨rfl, hrest⟩
  | .str s, .str t =>
      rw [text, text] at h
      obtain ⟨rfl, hrest⟩ := Escaping.quote_cancel h
      exact ⟨rfl, hrest⟩
  | .arr [], .arr [] => exact ⟨rfl, by simpa [text] using h⟩
  | .arr [], .arr (w :: ws) =>
      simp only [text, List.cons_append, List.append_assoc, List.cons.injEq, true_and] at h
      exact absurd h.symm text_ne_close
  | .arr (v :: vs), .arr [] =>
      simp only [text, List.cons_append, List.append_assoc, List.cons.injEq, true_and] at h
      exact absurd h text_ne_close
  | .arr (v :: vs), .arr (w :: ws) =>
      simp only [text, List.cons_append, List.append_assoc, List.cons.injEq, true_and] at h
      obtain ⟨rfl, hvs⟩ := text_cancel v w (stops_elements e vs r) (stops_elements e ws q) h
      obtain ⟨rfl, hrest⟩ := elements_cancel vs ws hvs
      exact ⟨rfl, hrest⟩
  | .obj [], .obj [] => exact ⟨rfl, by simpa [text] using h⟩
  | .obj [], .obj ((l, w) :: gs) => simp [text, Escaping.quote] at h
  | .obj ((k, v) :: fs), .obj [] => simp [text, Escaping.quote] at h
  | .obj ((k, v) :: fs), .obj ((l, w) :: gs) =>
      simp only [text, List.cons_append, List.append_assoc, List.cons.injEq, true_and] at h
      obtain ⟨rfl, hcolon⟩ := Escaping.quote_cancel h
      obtain ⟨rfl, hfs⟩ := text_cancel v w (stops_members e fs r) (stops_members e gs q)
        (List.cons.inj hcolon).2
      obtain ⟨rfl, hrest⟩ := members_cancel fs gs hfs
      exact ⟨rfl, hrest⟩

theorem elements_cancel (vs ws : List Value) {r q : List Char}
    (h : elements e vs ++ r = elements e ws ++ q) : vs = ws ∧ r = q := by
  match vs, ws with
  | [], [] => exact ⟨rfl, by simpa [elements] using h⟩
  | [], w :: ws => simp [elements] at h
  | v :: vs, [] => simp [elements] at h
  | v :: vs, w :: ws =>
      simp only [elements, List.cons_append, List.append_assoc, List.cons.injEq, true_and] at h
      obtain ⟨rfl, hvs⟩ := text_cancel v w (stops_elements e vs r) (stops_elements e ws q) h
      obtain ⟨rfl, hrest⟩ := elements_cancel vs ws hvs
      exact ⟨rfl, hrest⟩

theorem members_cancel (fs gs : List (String × Value)) {r q : List Char}
    (h : members e fs ++ r = members e gs ++ q) : fs = gs ∧ r = q := by
  match fs, gs with
  | [], [] => exact ⟨rfl, by simpa [members] using h⟩
  | [], (l, w) :: gs => simp [members] at h
  | (k, v) :: fs, [] => simp [members] at h
  | (k, v) :: fs, (l, w) :: gs =>
      simp only [members, List.cons_append, List.append_assoc, List.cons.injEq, true_and] at h
      obtain ⟨rfl, hcolon⟩ := Escaping.quote_cancel h
      obtain ⟨rfl, hfs⟩ := text_cancel v w (stops_members e fs r) (stops_members e gs q)
        (List.cons.inj hcolon).2
      obtain ⟨rfl, hrest⟩ := members_cancel fs gs hfs
      exact ⟨rfl, hrest⟩

end

theorem dumps_injective : Function.Injective (dumps e) := by
  intro v w h
  have htext : v.text e ++ [] = w.text e ++ [] := by
    rw [List.append_nil, List.append_nil]
    exact String.ofList_injective h
  have hend : Stops [] := trivial
  exact (text_cancel v w hend hend htext).1

end Value

end Scap.Py
