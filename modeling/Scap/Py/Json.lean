import Mathlib.Data.List.Sort
import Mathlib.Data.Char
import Std.Data.String.ToInt

/-!
# `json.dumps` of a flat object

The deterministic serialisation the audit modules sign: `json.dumps(..., sort_keys=True,
ensure_ascii=False, separators=(",", ":"))` of a dictionary whose values are `None`, integers or
strings.

Two facts about the text are what the signatures rest on. `dumps_cancel`: the text determines the
dictionary's values. `object_no_restart`: a text never contains, after a `|`, the beginning `{"a` of
another object, so gluing an arbitrary prefix and a `|` in front of it stays unambiguous.
-/

namespace Scap.Py

/-! ## Strings -/

/-- A lower-case hexadecimal digit. -/
def hexDigit (n : Nat) : Char :=
  if n < 10 then Char.ofNat (48 + n) else Char.ofNat (87 + n)

/-- How `json.dumps(ensure_ascii=False)` writes one character of a string. -/
def escapeChar (c : Char) : List Char :=
  if c = '"' then ['\\', '"']
  else if c = '\\' then ['\\', '\\']
  else if c = '\n' then ['\\', 'n']
  else if c = '\r' then ['\\', 'r']
  else if c = '\t' then ['\\', 't']
  else if c = '\x0c' then ['\\', 'f']
  else if c = '\x08' then ['\\', 'b']
  else if c.val < 0x20 then
    ['\\', 'u', '0', '0', hexDigit (c.toNat / 16), hexDigit (c.toNat % 16)]
  else [c]

/-- The body of a JSON string literal. -/
def escapeBody (cs : List Char) : List Char := cs.flatMap escapeChar

/-- A JSON string literal, quotes included. -/
def quote (s : String) : List Char := '"' :: escapeBody s.toList ++ ['"']

/-! ### Reading an escaped character back -/

/-- The value of a hexadecimal digit. -/
def hexValue (c : Char) : Nat := if c.toNat < 58 then c.toNat - 48 else c.toNat - 87

/-- The character an escaped text starts with, and what follows it. -/
def unescape : List Char → Option (Char × List Char)
  | '\\' :: '"' :: r => some ('"', r)
  | '\\' :: '\\' :: r => some ('\\', r)
  | '\\' :: 'n' :: r => some ('\n', r)
  | '\\' :: 'r' :: r => some ('\r', r)
  | '\\' :: 't' :: r => some ('\t', r)
  | '\\' :: 'f' :: r => some ('\x0c', r)
  | '\\' :: 'b' :: r => some ('\x08', r)
  | '\\' :: 'u' :: '0' :: '0' :: a :: b :: r =>
      some (Char.ofNat (hexValue a * 16 + hexValue b), r)
  | '"' :: _ => none
  | c :: r => some (c, r)
  | [] => none

/-- A control character is the one its two hexadecimal digits name. -/
theorem ofNat_hexDigits {n : Nat} (h : n < 32) :
    hexValue (hexDigit (n / 16)) * 16 + hexValue (hexDigit (n % 16)) = n := by
  revert n
  decide

theorem unescape_escapeChar (c : Char) (r : List Char) :
    unescape (escapeChar c ++ r) = some (c, r) := by
  unfold escapeChar
  split_ifs with h1 h2 h3 h4 h5 h6 h7 h8
  · rw [h1]; rfl
  · rw [h2]; rfl
  · rw [h3]; rfl
  · rw [h4]; rfl
  · rw [h5]; rfl
  · rw [h6]; rfl
  · rw [h7]; rfl
  · have hc : c.toNat < 32 := h8
    show some (Char.ofNat _, r) = _
    rw [ofNat_hexDigits hc, Char.ofNat_toNat]
  · show unescape (c :: r) = _
    unfold unescape
    split <;> simp_all

/-- An escaped body is delimited by the first raw quote after it. -/
theorem escapeBody_cancel : ∀ {cs ds r q : List Char},
    escapeBody cs ++ '"' :: r = escapeBody ds ++ '"' :: q → cs = ds ∧ r = q
  | [], [], _, _, h => ⟨rfl, (List.cons.inj h).2⟩
  | [], d :: ds, r, q, h => by
      have hu := congrArg unescape h
      rw [escapeBody, escapeBody, List.flatMap_cons, List.append_assoc, unescape_escapeChar] at hu
      exact absurd hu (by simp [unescape])
  | c :: cs, [], r, q, h => by
      have hu := congrArg unescape h
      rw [escapeBody, escapeBody, List.flatMap_cons, List.append_assoc, unescape_escapeChar] at hu
      exact absurd hu (by simp [unescape])
  | c :: cs, d :: ds, r, q, h => by
      have hu := congrArg unescape h
      rw [escapeBody, escapeBody, List.flatMap_cons, List.flatMap_cons, List.append_assoc,
        List.append_assoc, unescape_escapeChar, unescape_escapeChar] at hu
      obtain ⟨rfl, hrest⟩ := Prod.mk.inj (Option.some.inj hu)
      obtain ⟨rfl, rfl⟩ := escapeBody_cancel hrest
      exact ⟨rfl, rfl⟩

theorem quote_cancel {s t : String} {r q : List Char} (h : quote s ++ r = quote t ++ q) :
    s = t ∧ r = q := by
  simp only [quote, List.cons_append, List.append_assoc, List.nil_append, List.cons.injEq,
    true_and] at h
  obtain ⟨hst, hrq⟩ := escapeBody_cancel h
  exact ⟨String.toList_inj.mp hst, hrq⟩

/-! ## Flat objects -/

/-- The member values the signed documents use. -/
inductive Scalar where
  | null
  | int (n : Int)
  | str (s : String)
  deriving DecidableEq, Repr

/-- `None` or a string. -/
def Scalar.ofOption : Option String → Scalar
  | none => .null
  | some s => .str s

@[simp] theorem Scalar.ofOption_inj {v w : Option String} :
    Scalar.ofOption v = Scalar.ofOption w ↔ v = w := by
  cases v <;> cases w <;> simp [Scalar.ofOption]

def Scalar.text : Scalar → List Char
  | .null => ['n', 'u', 'l', 'l']
  | .int n => (Int.repr n).toList
  | .str s => quote s

def member (f : String × Scalar) : List Char := quote f.1 ++ ':' :: f.2.text

/-- Members separated by commas. -/
def members : List (String × Scalar) → List Char
  | [] => []
  | [f] => member f
  | f :: g :: fs => member f ++ ',' :: members (g :: fs)

/-- `sort_keys=True`. -/
def sortKeys (fields : List (String × Scalar)) : List (String × Scalar) :=
  fields.insertionSort fun a b => a.1 ≤ b.1

/-- `json.dumps(dict(fields), sort_keys=True, ensure_ascii=False, separators=(",", ":"))`. -/
def dumps (fields : List (String × Scalar)) : String :=
  String.ofList ('{' :: members (sortKeys fields) ++ ['}'])

/-! ### Reading members back -/

/-- What may follow a member value inside an object. -/
def isDelim (c : Char) : Bool := c = ',' || c = '}'

/-- A text is delimited by the first delimiter after it. -/
theorem delim_cancel : ∀ {xs ys r q : List Char} {c d : Char},
    (∀ x ∈ xs, isDelim x = false) → (∀ y ∈ ys, isDelim y = false) → isDelim c = true →
    isDelim d = true → xs ++ c :: r = ys ++ d :: q → xs = ys ∧ c :: r = d :: q
  | [], [], _, _, _, _, _, _, _, _, h => ⟨rfl, h⟩
  | [], y :: ys, _, _, _, _, _, hys, hc, _, h => by
      have hy := hys y List.mem_cons_self
      rw [← (List.cons.inj h).1, hc] at hy
      cases hy
  | x :: xs, [], _, _, _, _, hxs, _, _, hd, h => by
      have hx := hxs x List.mem_cons_self
      rw [(List.cons.inj h).1, hd] at hx
      cases hx
  | x :: xs, y :: ys, r, q, c, d, hxs, hys, hc, hd, h => by
      obtain ⟨rfl, hrest⟩ := List.cons.inj h
      obtain ⟨rfl, htail⟩ := delim_cancel (fun z hz => hxs z (List.mem_cons_of_mem _ hz))
        (fun z hz => hys z (List.mem_cons_of_mem _ hz)) hc hd hrest
      exact ⟨rfl, htail⟩

/-- The characters of a decimal integer. -/
theorem isDigit_or_minus {n : Int} {c : Char} (h : c ∈ (Int.repr n).toList) :
    c.isDigit = true ∨ c = '-' := by
  have hnat : ∀ m : Nat, ∀ c ∈ (Nat.repr m).toList, c.isDigit = true := by
    intro m c hc
    rw [Nat.repr, String.toList_ofList] at hc
    exact Nat.isDigit_of_mem_toDigits (by decide) (by decide) hc
  cases n with
  | ofNat m => exact .inl (hnat m c h)
  | negSucc m =>
      rw [show Int.repr (Int.negSucc m) = "-" ++ Nat.repr (m + 1) from rfl,
        String.toList_append] at h
      rcases List.mem_append.mp h with h | h
      · exact .inr (by simpa using h)
      · exact .inl (hnat _ c h)

theorem int_not_delim {n : Int} {c : Char} (h : c ∈ (Int.repr n).toList) :
    isDelim c = false ∧ c ≠ 'n' ∧ c ≠ '"' := by
  rcases isDigit_or_minus h with hd | rfl
  · have hne : ∀ d : Char, d.isDigit = false → c ≠ d := by
      rintro d hfalse rfl
      rw [hd] at hfalse
      cases hfalse
    exact ⟨by simp [isDelim, hne ',' rfl, hne '}' rfl], hne 'n' rfl, hne '"' rfl⟩
  · decide

theorem int_start {n : Int} {r t : List Char} {c : Char} (hc : isDelim c = true)
    (h : (Int.repr n).toList ++ c :: t = r) : ∃ d u, r = d :: u ∧ d ≠ 'n' ∧ d ≠ '"' := by
  cases hn : (Int.repr n).toList with
  | nil =>
      have hne : ∀ d : Char, isDelim d = false → c ≠ d := by
        rintro d hfalse rfl
        rw [hc] at hfalse
        cases hfalse
      rw [hn] at h
      exact ⟨c, t, h.symm, hne 'n' rfl, hne '"' rfl⟩
  | cons d u =>
      rw [hn] at h
      exact ⟨d, u ++ c :: t, h.symm, (int_not_delim (hn ▸ List.mem_cons_self)).2⟩

/-- The text of a value, up to the delimiter that follows it, determines the value. -/
theorem text_cancel {v w : Scalar} {r q : List Char} {c d : Char} (hc : isDelim c = true)
    (hd : isDelim d = true) (h : v.text ++ c :: r = w.text ++ d :: q) :
    v = w ∧ c :: r = d :: q := by
  cases v with
  | null =>
      cases w with
      | null => exact ⟨rfl, by simpa [Scalar.text] using h⟩
      | int n =>
          obtain ⟨e, u, he, hne, -⟩ := int_start hd h.symm
          exact absurd (List.cons.inj he).1.symm hne
      | str s => simp [Scalar.text, quote] at h
  | int m =>
      cases w with
      | null =>
          obtain ⟨e, u, he, hne, -⟩ := int_start hc h
          exact absurd (List.cons.inj he).1.symm hne
      | int n =>
          obtain ⟨htext, hrest⟩ := delim_cancel (fun x hx => (int_not_delim hx).1)
            (fun x hx => (int_not_delim hx).1) hc hd h
          exact ⟨by rw [Int.repr_injective (String.toList_inj.mp htext)], hrest⟩
      | str s =>
          obtain ⟨e, u, he, -, hne⟩ := int_start hc h
          exact absurd (List.cons.inj he).1.symm hne
  | str s =>
      cases w with
      | null => simp [Scalar.text, quote] at h
      | int n =>
          obtain ⟨e, u, he, -, hne⟩ := int_start hd h.symm
          exact absurd (List.cons.inj he).1.symm hne
      | str t =>
          obtain ⟨rfl, hrest⟩ := quote_cancel h
          exact ⟨rfl, hrest⟩

/-- Objects with the same keys in the same order and equal texts have the same values. -/
theorem members_cancel : ∀ {fs gs : List (String × Scalar)} {r q : List Char},
    fs.map Prod.fst = gs.map Prod.fst →
    members fs ++ '}' :: r = members gs ++ '}' :: q → fs = gs
  | [], [], _, _, _, _ => rfl
  | [(k, v)], [(k', w)], r, q, hk, h => by
      simp only [List.map_cons, List.map_nil, List.cons.injEq, and_true] at hk
      subst hk
      simp only [members, member, List.append_assoc, List.cons_append] at h
      obtain ⟨-, hvalue⟩ := quote_cancel h
      obtain ⟨rfl, -⟩ := text_cancel rfl rfl (List.cons.inj hvalue).2
      rfl
  | (k, v) :: f :: fs, (k', w) :: g :: gs, r, q, hk, h => by
      simp only [List.map_cons, List.cons.injEq] at hk
      obtain ⟨rfl, hk⟩ := hk
      simp only [members, member, List.append_assoc, List.cons_append] at h
      obtain ⟨-, hcolon⟩ := quote_cancel h
      obtain ⟨rfl, hcomma⟩ := text_cancel rfl rfl (List.cons.inj hcolon).2
      have hrest : f :: fs = g :: gs :=
        members_cancel (by simpa using hk) (List.cons.inj hcomma).2
      rw [hrest]
  | [], _ :: _, _, _, hk, _ => by simp at hk
  | _ :: _, [], _, _, hk, _ => by simp at hk
  | [_], _ :: _ :: _, _, _, hk, _ => by simp at hk
  | _ :: _ :: _, [_], _, _, hk, _ => by simp at hk

/-- Two dictionaries with the same keys, already sorted, and one text have the same values. -/
theorem dumps_cancel {fs gs : List (String × Scalar)}
    (hk : (sortKeys fs).map Prod.fst = (sortKeys gs).map Prod.fst) (h : dumps fs = dumps gs) :
    sortKeys fs = sortKeys gs := by
  have ht := congrArg String.toList h
  rw [dumps, dumps, String.toList_ofList, String.toList_ofList, List.cons_append,
    List.cons_append] at ht
  exact members_cancel hk (List.cons.inj ht).2

/-! ## No object text restarts inside another

A three-state scanner follows a serialised object: outside every string, inside one, or just after
a backslash. Outside strings the texts contain neither `|` nor `a`, and no escape is followed by
`|`; so after a `|` the scanner is inside a string, the quote of `{"` closes it, and the next
character cannot be an `a`. -/

inductive LexState where
  | out
  | str
  | esc
  deriving DecidableEq, Repr

def LexState.step : LexState → Char → LexState
  | .out, c => if c = '"' then .str else .out
  | .str, c => if c = '"' then .out else if c = '\\' then .esc else .str
  | .esc, _ => .str

def LexState.after (st : LexState) (cs : List Char) : LexState := cs.foldl LexState.step st

/-- Whether a serialised object may have `c` in the given state. -/
def LexState.admits : LexState → Char → Prop
  | .out, c => c ≠ '|' ∧ c ≠ 'a'
  | .str, _ => True
  | .esc, c => c ≠ '|'

def Lexes : LexState → List Char → Prop
  | _, [] => True
  | st, c :: cs => st.admits c ∧ Lexes (st.step c) cs

theorem lexes_append {st : LexState} {cs ds : List Char} :
    Lexes st (cs ++ ds) ↔ Lexes st cs ∧ Lexes (st.after cs) ds := by
  induction cs generalizing st with
  | nil => simp [Lexes, LexState.after]
  | cons c cs ih => simp [Lexes, LexState.after, ih, and_assoc]

theorem after_append {st : LexState} {cs ds : List Char} :
    st.after (cs ++ ds) = (st.after cs).after ds := List.foldl_append

theorem hexDigit_plain {n : Nat} (h : n < 16) : hexDigit n ≠ '"' ∧ hexDigit n ≠ '\\' := by
  revert n
  decide

theorem lexes_escapeChar (c : Char) :
    Lexes .str (escapeChar c) ∧ LexState.str.after (escapeChar c) = .str := by
  have ha : c.val < 0x20 → hexDigit (c.toNat / 16) ≠ '"' ∧ hexDigit (c.toNat / 16) ≠ '\\' :=
    fun hc => hexDigit_plain (by have : c.toNat < 32 := hc; omega)
  have hb := hexDigit_plain (n := c.toNat % 16) (by omega)
  unfold escapeChar
  split_ifs <;> simp_all [Lexes, LexState.after, LexState.step, LexState.admits]

theorem lexes_escapeBody (cs : List Char) :
    Lexes .str (escapeBody cs) ∧ LexState.str.after (escapeBody cs) = .str := by
  induction cs with
  | nil => exact ⟨trivial, rfl⟩
  | cons c cs ih =>
      have hc := lexes_escapeChar c
      rw [escapeBody, List.flatMap_cons, lexes_append, after_append, hc.2]
      exact ⟨⟨hc.1, ih.1⟩, ih.2⟩

theorem lexes_quote (s : String) :
    Lexes .out (quote s) ∧ LexState.out.after (quote s) = .out := by
  have hb := lexes_escapeBody s.toList
  refine ⟨⟨by simp [LexState.admits], ?_⟩, ?_⟩
  · show Lexes .str (escapeBody s.toList ++ ['"'])
    exact lexes_append.mpr ⟨hb.1, by rw [hb.2]; simp [Lexes, LexState.admits]⟩
  · show LexState.str.after (escapeBody s.toList ++ ['"']) = .out
    rw [after_append, hb.2]
    rfl

/-- Plain characters keep the scanner outside strings. -/
theorem lexes_plain : ∀ {cs : List Char}, (∀ c ∈ cs, c ≠ '|' ∧ c ≠ 'a' ∧ c ≠ '"') →
    Lexes .out cs ∧ LexState.out.after cs = .out
  | [], _ => ⟨trivial, rfl⟩
  | c :: cs, h => by
      have hc := h c List.mem_cons_self
      have ih := lexes_plain fun d hd => h d (List.mem_cons_of_mem _ hd)
      have hstep : LexState.out.step c = .out := by simp [LexState.step, hc.2.2]
      refine ⟨⟨⟨hc.1, hc.2.1⟩, by rw [hstep]; exact ih.1⟩, ?_⟩
      show (LexState.out.step c).after cs = .out
      rw [hstep]
      exact ih.2

theorem lexes_text_ofOption (v : Option String) :
    Lexes .out (Scalar.ofOption v).text ∧ LexState.out.after (Scalar.ofOption v).text = .out := by
  cases v with
  | none => exact lexes_plain (by simp [Scalar.ofOption, Scalar.text])
  | some s => exact lexes_quote s

theorem lexes_member (f : String × Option String) :
    Lexes .out (member (f.1, Scalar.ofOption f.2)) ∧
      LexState.out.after (member (f.1, Scalar.ofOption f.2)) = .out := by
  have hq := lexes_quote f.1
  have hv := lexes_text_ofOption f.2
  have hcolon : LexState.out.step ':' = .out := rfl
  refine ⟨lexes_append.mpr ⟨hq.1, ?_⟩, ?_⟩
  · rw [hq.2]
    exact ⟨by simp [LexState.admits], by rw [hcolon]; exact hv.1⟩
  · rw [member, after_append, hq.2]
    exact hv.2

theorem lexes_members : ∀ fs : List (String × Option String),
    Lexes .out (members (fs.map fun f => (f.1, Scalar.ofOption f.2))) ∧
      LexState.out.after (members (fs.map fun f => (f.1, Scalar.ofOption f.2))) = .out
  | [] => ⟨trivial, rfl⟩
  | [f] => lexes_member f
  | f :: g :: fs => by
      have hf := lexes_member f
      have hrest := lexes_members (g :: fs)
      have hcomma : LexState.out.step ',' = .out := rfl
      simp only [List.map_cons, members] at hrest ⊢
      refine ⟨lexes_append.mpr ⟨hf.1, ?_⟩, ?_⟩
      · rw [hf.2]
        exact ⟨by simp [LexState.admits], by rw [hcomma]; exact hrest.1⟩
      · rw [after_append, hf.2]
        exact hrest.2

/-- A serialised object never contains `|{"a`. -/
theorem object_no_restart (fs : List (String × Option String)) (before rest : List Char) :
    '{' :: members (fs.map fun f => (f.1, Scalar.ofOption f.2)) ++ ['}'] ≠
      before ++ '|' :: '{' :: '"' :: 'a' :: rest := by
  intro h
  have hm := lexes_members fs
  have hlex : Lexes .out
      ('{' :: members (fs.map fun f => (f.1, Scalar.ofOption f.2)) ++ ['}']) := by
    refine ⟨by simp [LexState.admits], ?_⟩
    show Lexes .out (members _ ++ ['}'])
    exact lexes_append.mpr ⟨hm.1, by rw [hm.2]; simp [Lexes, LexState.admits]⟩
  rw [h, lexes_append] at hlex
  have hbar := hlex.2
  cases hst : LexState.out.after before <;>
    simp [hst, Lexes, LexState.admits, LexState.step] at hbar

end Scap.Py
