import Scap.Py.Value

/-!
# The JSON grammar

`IsJson cs v` says that a text is a JSON text of a value, by the grammar and whoever wrote it: with
white space around any token and with any way to write a character of a string. What `json.dumps`
writes is such a text (`isJson_text`).
-/

namespace Scap.Py.Json

/-- `ws`. -/
def IsSpace (cs : List Char) : Prop := ∀ c ∈ cs, c = ' ' ∨ c = '\t' ∨ c = '\n' ∨ c = '\r'

/-- The characters that a reverse solidus and one more character stand for. -/
def shortEscapes : List (Char × Char) :=
  [('"', '"'), ('\\', '\\'), ('/', '/'), ('b', '\x08'), ('f', '\x0c'), ('n', '\n'), ('r', '\r'),
    ('t', '\t')]

/-- `HEXDIG`, in either case. -/
def hexDig (c : Char) : Option Nat :=
  if '0' ≤ c ∧ c ≤ '9' then some (c.toNat - 48)
  else if 'A' ≤ c ∧ c ≤ 'F' then some (c.toNat - 55)
  else if 'a' ≤ c ∧ c ≤ 'f' then some (c.toNat - 87)
  else none

/-- The number that four hexadecimal digits stand for. -/
def IsHex4 (cs : List Char) (n : Nat) : Prop :=
  ∃ a b c d, cs.map hexDig = [some a, some b, some c, some d] ∧
    n = ((a * 16 + b) * 16 + c) * 16 + d

/-- `char`: what stands for one character of a string. A character beyond the basic plane may be
written as a surrogate pair. -/
inductive IsChar : List Char → Char → Prop
  | plain {c : Char} (hcontrol : 0x20 ≤ c.toNat) (hquote : c ≠ '"') (hescape : c ≠ '\\') :
      IsChar [c] c
  | short {x c : Char} (h : (x, c) ∈ shortEscapes) : IsChar ['\\', x] c
  | unicode {cs : List Char} {c : Char} (h : IsHex4 cs c.toNat) : IsChar ('\\' :: 'u' :: cs) c
  | pair {cs ds : List Char} {c : Char} {high low : Nat} (hhigh : IsHex4 cs high)
      (hlow : IsHex4 ds low) (hranges : 0xd800 ≤ high ∧ high < 0xdc00 ∧ 0xdc00 ≤ low ∧ low < 0xe000)
      (h : c.toNat = 0x10000 + (high - 0xd800) * 0x400 + (low - 0xdc00)) :
      IsChar ('\\' :: 'u' :: cs ++ '\\' :: 'u' :: ds) c

/-- `string`. -/
inductive IsString : List Char → String → Prop
  | mk {pieces : List (List Char)} {s : String} (h : List.Forall₂ IsChar pieces s.toList) :
      IsString ('"' :: pieces.flatten ++ ['"']) s

/-- `int`. -/
def IsDigits (cs : List Char) (n : Nat) : Prop := cs = Nat.toDigits 10 n

/-- Texts with `value-separator` between them. -/
def separated (texts : List (List Char)) : List Char := (texts.intersperse [',']).flatten

/-- `JSON-text`. -/
inductive IsJson : List Char → Value → Prop
  | null : IsJson ['n', 'u', 'l', 'l'] .null
  | true : IsJson ['t', 'r', 'u', 'e'] (.bool true)
  | false : IsJson ['f', 'a', 'l', 's', 'e'] (.bool false)
  | nat {cs : List Char} {n : Nat} (h : IsDigits cs n) : IsJson cs (.int n)
  | neg {cs : List Char} {n : Nat} (h : IsDigits cs n) : IsJson ('-' :: cs) (.int (-n))
  | str {cs : List Char} {s : String} (h : IsString cs s) : IsJson cs (.str s)
  | empty {ws : List Char} (h : IsSpace ws) : IsJson ('[' :: ws ++ [']']) (.arr [])
  | arr {texts : List (List Char)} {vs : List Value} (hne : vs ≠ [])
      (h : List.Forall₂ IsJson texts vs) : IsJson ('[' :: separated texts ++ [']']) (.arr vs)
  | emptyObj {ws : List Char} (h : IsSpace ws) : IsJson ('\x7b' :: ws ++ ['\x7d']) (.obj [])
  | obj {keys texts : List (List Char)} {fs : List (String × Value)} (hne : fs ≠ [])
      (hkeys : List.Forall₂ (fun cs f => ∃ before key after, IsSpace before ∧ IsString key f ∧
        IsSpace after ∧ cs = before ++ key ++ after) keys (fs.map Prod.fst))
      (h : List.Forall₂ IsJson texts (fs.map Prod.snd)) :
      IsJson ('\x7b' :: separated (List.zipWith (fun key text => key ++ ':' :: text) keys texts) ++
        ['\x7d']) (.obj fs)
  | space {before cs after : List Char} {v : Value} (hbefore : IsSpace before)
      (hafter : IsSpace after) (h : IsJson cs v) : IsJson (before ++ cs ++ after) v

/-! ## What `json.dumps` writes -/

theorem hexDig_hexDigit {n : Nat} (h : n < 16) : hexDig (hexDigit n) = some n := by
  revert n
  decide

theorem isChar_escapeChar (c : Char) : IsChar (escapeChar c) c := by
  unfold escapeChar
  split_ifs with hquote hbackslash hn hr ht hf hb hcontrol
  · subst hquote
    exact .short (by decide)
  · subst hbackslash
    exact .short (by decide)
  · subst hn
    exact .short (by decide)
  · subst hr
    exact .short (by decide)
  · subst ht
    exact .short (by decide)
  · subst hf
    exact .short (by decide)
  · subst hb
    exact .short (by decide)
  · have hlt : c.toNat < 0x20 := hcontrol
    refine .unicode ⟨0, 0, c.toNat / 16, c.toNat % 16, ?_, by omega⟩
    rw [List.map_cons, List.map_cons, List.map_cons, List.map_cons, List.map_nil,
      hexDig_hexDigit (by omega), hexDig_hexDigit (by omega)]
    rfl
  · have hge : 0x20 ≤ c.toNat := Nat.not_lt.mp hcontrol
    exact .plain hge hquote hbackslash

theorem isString_quote (s : String) : IsString (Escaping.utf8.quote s) s := by
  have h : List.Forall₂ IsChar (s.toList.map escapeChar) s.toList := by
    rw [List.forall₂_map_left_iff]
    exact List.forall₂_same.mpr fun c _ => isChar_escapeChar c
  exact .mk h

theorem isJson_int (n : Int) : IsJson (Int.repr n).toList (.int n) := by
  have hdigits : ∀ m : Nat, IsDigits (Nat.repr m).toList m := fun m => by
    rw [Nat.repr, String.toList_ofList]
    rfl
  cases n with
  | ofNat m => exact .nat (hdigits m)
  | negSucc m =>
      have htext : (Int.repr (Int.negSucc m)).toList = '-' :: (Nat.repr (m + 1)).toList := by
        simp [Int.repr]
      rw [htext]
      exact .neg (hdigits (m + 1))

theorem separated_cons (t : List Char) (texts : List (List Char)) :
    separated (t :: texts) = t ++ texts.flatMap fun u => ',' :: u := by
  induction texts generalizing t with
  | nil => simp [separated]
  | cons u texts ih =>
      have hsplit : separated (t :: u :: texts) = t ++ ',' :: separated (u :: texts) := by
        simp [separated, List.intersperse]
      rw [hsplit, ih, List.flatMap_cons, List.cons_append]

theorem elements_eq (vs : List Value) :
    Value.elements .utf8 vs = (vs.flatMap fun v => ',' :: v.text .utf8) ++ [']'] := by
  induction vs with
  | nil => rfl
  | cons v vs ih => rw [Value.elements, ih, List.flatMap_cons, List.append_assoc, List.cons_append]

/-- The text of a member. -/
def memberText (f : String × Value) : List Char :=
  Escaping.utf8.quote f.1 ++ ':' :: f.2.text .utf8

theorem members_eq (fs : List (String × Value)) :
    Value.members .utf8 fs = (fs.flatMap fun f => ',' :: memberText f) ++ ['\x7d'] := by
  induction fs with
  | nil => rfl
  | cons f fs ih =>
      obtain ⟨k, v⟩ := f
      rw [Value.members, ih, List.flatMap_cons, memberText]
      simp

theorem text_arr (vs : List Value) : Value.text .utf8 (.arr vs) =
    '[' :: separated (vs.map (Value.text .utf8)) ++ [']'] := by
  cases vs with
  | nil => rfl
  | cons v vs =>
      rw [Value.text, elements_eq, List.map_cons, separated_cons, List.flatMap_map]
      simp

theorem text_obj (fs : List (String × Value)) : Value.text .utf8 (.obj fs) =
    '\x7b' :: separated (fs.map memberText) ++ ['\x7d'] := by
  cases fs with
  | nil => rfl
  | cons f fs =>
      obtain ⟨k, v⟩ := f
      rw [Value.text, members_eq, List.map_cons, separated_cons, List.flatMap_map, memberText]
      simp

mutual

/-- **`json.dumps` writes JSON.** -/
theorem isJson_text (v : Value) : IsJson (v.text .utf8) v := by
  cases v with
  | null => exact .null
  | bool b =>
      cases b with
      | false => exact .false
      | true => exact .true
  | int n => exact isJson_int n
  | str s => exact .str (isString_quote s)
  | arr vs =>
      rw [text_arr]
      cases vs with
      | nil => exact IsJson.empty (show IsSpace [] by simp [IsSpace])
      | cons v vs => exact .arr (List.cons_ne_nil v vs) (isJson_elements (v :: vs))
  | obj fs =>
      rw [text_obj]
      cases fs with
      | nil => exact IsJson.emptyObj (show IsSpace [] by simp [IsSpace])
      | cons f fs =>
          have hzip : (f :: fs).map memberText = List.zipWith (fun key text => key ++ ':' :: text)
              ((f :: fs).map fun f => Escaping.utf8.quote f.1)
              ((f :: fs).map fun f => f.2.text .utf8) := by
            rw [List.zipWith_map, List.zipWith_self]
            rfl
          rw [hzip]
          refine .obj (List.cons_ne_nil f fs) ?_ ?_
          · rw [List.forall₂_map_left_iff, List.forall₂_map_right_iff]
            exact List.forall₂_same.mpr fun f _ => ⟨[], _, [], by simp [IsSpace],
              isString_quote f.1, by simp [IsSpace], by simp⟩
          · exact isJson_members (f :: fs)

theorem isJson_elements (vs : List Value) :
    List.Forall₂ IsJson (vs.map (Value.text .utf8)) vs := by
  cases vs with
  | nil => exact .nil
  | cons v vs => exact .cons (isJson_text v) (isJson_elements vs)

theorem isJson_members (fs : List (String × Value)) :
    List.Forall₂ IsJson (fs.map fun f => f.2.text .utf8) (fs.map Prod.snd) := by
  cases fs with
  | nil => exact .nil
  | cons f fs => exact .cons (isJson_text f.2) (isJson_members fs)

end

end Scap.Py.Json
