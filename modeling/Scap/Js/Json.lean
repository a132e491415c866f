import Mathlib.Data.List.Sort
import Scap.Js.Text

/-!
# `JSON.stringify` and `JSON.parse`

Values without a replacer or reviver, on code units. An object keeps its members in the order in
which they were created; written are those first whose key is an array index.

The value of a number literal and the text of a number are implementation-approximated beyond the
safe integers, so that both are a parameter (`Numbers`). `Numbers.Lawful` says what the standard
says of the safe integers.
-/

namespace Scap.Js

/-- The code unit of an ASCII character. -/
def code (c : Char) : CodeUnit := UInt16.ofNat c.toNat

/-! ## Values -/

inductive Value (ν : Type) where
  | null
  | bool (b : Bool)
  | num (n : ν)
  | str (s : Str)
  | arr (items : List (Value ν))
  | obj (members : List (Str × Value ν))

/-- `Number.MAX_SAFE_INTEGER`. -/
def maxSafeInteger : Nat := 2 ^ 53 - 1

/-- The decimal digits of a natural number. -/
def decimal (n : Nat) : Str := (Nat.toDigits 10 n).map code

structure Numbers (ν : Type) where
  /-- A natural number of the program. -/
  ofNat : Nat → ν
  /-- The value of a number literal. -/
  ofLiteral : Str → ν
  /-- How `JSON.stringify` writes a number. -/
  text : ν → Str
  /-- The integer that a number is if `Number.isSafeInteger` holds of it; 0 for -0. -/
  safeInteger : ν → Option Int

structure Numbers.Lawful {ν : Type} (N : Numbers ν) : Prop where
  safeInteger_ofNat : ∀ n ≤ maxSafeInteger, N.safeInteger (N.ofNat n) = some (n : Int)
  ofLiteral_decimal : ∀ n ≤ maxSafeInteger, N.ofLiteral (decimal n) = N.ofNat n
  text_of_safe : ∀ x (n : Nat), N.safeInteger x = some (n : Int) → N.text x = decimal n

/-! ## Writing -/

def hexDigit (n : Nat) : CodeUnit := code (Nat.digitChar n)

/-- `\uXXXX`. -/
def unicodeEscape (u : CodeUnit) : Str :=
  [code '\\', code 'u', hexDigit (u.toNat / 4096 % 16), hexDigit (u.toNat / 256 % 16),
    hexDigit (u.toNat / 16 % 16), hexDigit (u.toNat % 16)]

/-- A code unit of a string that is not half of a pair. -/
def quoteUnit (u : CodeUnit) : Str :=
  if u = code '"' then [code '\\', code '"']
  else if u = code '\\' then [code '\\', code '\\']
  else if u = 0x08 then [code '\\', code 'b']
  else if u = 0x09 then [code '\\', code 't']
  else if u = 0x0a then [code '\\', code 'n']
  else if u = 0x0c then [code '\\', code 'f']
  else if u = 0x0d then [code '\\', code 'r']
  else if u.toNat < 0x20 || isSurrogate u.toNat then unicodeEscape u
  else [u]

def quoteBody : Str → Str
  | u :: v :: s =>
    if isHigh u && isLow v then u :: v :: quoteBody s else quoteUnit u ++ quoteBody (v :: s)
  | [u] => quoteUnit u
  | [] => []

/-- `QuoteJSONString`. -/
def quote (s : Str) : Str := code '"' :: (quoteBody s ++ [code '"'])

def isDigit (u : CodeUnit) : Bool := (code '0').toNat ≤ u.toNat && u.toNat ≤ (code '9').toNat

def digitsValue (s : Str) : Nat := s.foldl (fun n u => n * 10 + (u.toNat - (code '0').toNat)) 0

/-- The array index that a key is. -/
def arrayIndex? (key : Str) : Option Nat :=
  if key ≠ [] ∧ key.all isDigit ∧ (key = [code '0'] ∨ key.head? ≠ some (code '0')) ∧
      digitsValue key < 2 ^ 32 - 1 then some (digitsValue key)
  else none

/-- `OrdinaryOwnPropertyKeys`: the array indices in ascending order, then the other keys. -/
def ownOrder {α : Type} (members : List (Str × α)) : List (Str × α) :=
  (members.filter fun m => (arrayIndex? m.1).isSome).insertionSort
      (fun m n => (arrayIndex? m.1).getD 0 ≤ (arrayIndex? n.1).getD 0) ++
    members.filter fun m => (arrayIndex? m.1).isNone

def commaSeparated : List Str → Str
  | [] => []
  | [t] => t
  | t :: ts => t ++ code ',' :: commaSeparated ts

/-- The text of a member. -/
def memberText (m : Str × Str) : Str := quote m.1 ++ code ':' :: m.2

variable {ν : Type}

mutual

/-- `JSON.stringify(value)`. -/
def stringify (N : Numbers ν) : Value ν → Str
  | .null => ofString "null"
  | .bool true => ofString "true"
  | .bool false => ofString "false"
  | .num n => N.text n
  | .str s => quote s
  | .arr items => code '[' :: (commaSeparated (itemTexts N items) ++ [code ']'])
  | .obj members =>
    code '{' :: (commaSeparated ((ownOrder (valueTexts N members)).map memberText) ++ [code '}'])

def itemTexts (N : Numbers ν) : List (Value ν) → List Str
  | [] => []
  | v :: vs => stringify N v :: itemTexts N vs

/-- The members of an object with the texts of their values. -/
def valueTexts (N : Numbers ν) : List (Str × Value ν) → List (Str × Str)
  | [] => []
  | (k, v) :: ms => (k, stringify N v) :: valueTexts N ms

end

/-! ## Reading -/

/-- The white space of the JSON grammar. -/
def isJsonSpace (u : CodeUnit) : Bool := u = 0x20 || u = 0x09 || u = 0x0a || u = 0x0d

def skipSpace (s : Str) : Str := s.dropWhile isJsonSpace

def hexValue (u : CodeUnit) : Option Nat :=
  let n := u.toNat
  if 48 ≤ n ∧ n ≤ 57 then some (n - 48)
  else if 65 ≤ n ∧ n ≤ 70 then some (n - 55)
  else if 97 ≤ n ∧ n ≤ 102 then some (n - 87)
  else none

/-- The unit that four hexadecimal digits stand for. -/
def hex4 (a b c d : CodeUnit) : Option CodeUnit := do
  let a ← hexValue a
  let b ← hexValue b
  let c ← hexValue c
  let d ← hexValue d
  return UInt16.ofNat (((a * 16 + b) * 16 + c) * 16 + d)

/-- The unit that an escape of one character stands for. -/
def simpleEscape (e : CodeUnit) : Option CodeUnit :=
  if e = code '"' ∨ e = code '\\' ∨ e = code '/' then some e
  else if e = code 'b' then some 0x08
  else if e = code 'f' then some 0x0c
  else if e = code 'n' then some 0x0a
  else if e = code 'r' then some 0x0d
  else if e = code 't' then some 0x09
  else none

/-- A string after its opening quote, and what follows its closing quote. -/
def stringBody : Str → Option (Str × Str)
  | [] => none
  | c :: s =>
    if c = code '"' then some ([], s)
    else if c = code '\\' then
      match s with
      | [] => none
      | e :: s =>
        if e = code 'u' then
          match s with
          | h₁ :: h₂ :: h₃ :: h₄ :: s =>
            (hex4 h₁ h₂ h₃ h₄).bind fun u => (stringBody s).map fun p => (u :: p.1, p.2)
          | _ => none
        else (simpleEscape e).bind fun u => (stringBody s).map fun p => (u :: p.1, p.2)
    else if c.toNat < 0x20 then none
    else (stringBody s).map fun p => (c :: p.1, p.2)

/-- The digits a text starts with, and what follows. -/
def spanDigits (s : Str) : Str × Str := (s.takeWhile isDigit, s.dropWhile isDigit)

/-- The sign that a text may start with. -/
def spanSign (p : CodeUnit → Bool) : Str → Str × Str
  | [] => ([], [])
  | c :: s => if p c then ([c], s) else ([], c :: s)

def integerPart : Str → Option (Str × Str)
  | [] => none
  | c :: s =>
    if c = code '0' then some ([c], s)
    else if isDigit c then some (c :: (spanDigits s).1, (spanDigits s).2)
    else none

def fractionPart : Str → Option (Str × Str)
  | [] => some ([], [])
  | c :: s =>
    if c = code '.' then
      if (spanDigits s).1 = [] then none else some (c :: (spanDigits s).1, (spanDigits s).2)
    else some ([], c :: s)

def exponentPart : Str → Option (Str × Str)
  | [] => some ([], [])
  | c :: s =>
    if c = code 'e' ∨ c = code 'E' then
      let (sign, s) := spanSign (fun u => u = code '+' || u = code '-') s
      if (spanDigits s).1 = [] then none
      else some (c :: sign ++ (spanDigits s).1, (spanDigits s).2)
    else some ([], c :: s)

/-- A number literal, and what follows it. -/
def numberLiteral (s : Str) : Option (Str × Str) := do
  let (sign, s) := spanSign (fun u => u = code '-') s
  let (integer, s) ← integerPart s
  let (fraction, s) ← fractionPart s
  let (exponent, s) ← exponentPart s
  return (sign ++ integer ++ fraction ++ exponent, s)

/-- Items separated by commas, up to the closing unit. -/
def separated {α : Type} (close : CodeUnit) (item : Str → Option (α × Str)) :
    Nat → Str → Option (List α × Str)
  | 0, _ => none
  | n + 1, s =>
    (item s).bind fun (a, s) =>
      match skipSpace s with
      | [] => none
      | c :: s =>
        if c = code ',' then (separated close item n s).map fun p => (a :: p.1, p.2)
        else if c = close then some ([a], s)
        else none

/-- A key with its colon. -/
def memberKey (s : Str) : Option (Str × Str) :=
  match skipSpace s with
  | [] => none
  | c :: s =>
    if c = code '"' then
      (stringBody s).bind fun (key, s) =>
        match skipSpace s with
        | [] => none
        | c :: s => if c = code ':' then some (key, s) else none
    else none

/-- A member of an object. -/
def member (value : Str → Option (Value ν × Str)) (s : Str) : Option ((Str × Value ν) × Str) :=
  (memberKey s).bind fun (key, s) => (value s).map fun p => ((key, p.1), p.2)

/-- `CreateDataProperty`: a key that is there keeps its place. -/
def setMember (ms : List (Str × Value ν)) (m : Str × Value ν) : List (Str × Value ν) :=
  if ms.any fun n => n.1 = m.1 then ms.map fun n => if n.1 = m.1 then m else n else ms ++ [m]

/-- What follows a text at the beginning. -/
def afterPrefix : Str → Str → Option Str
  | [], s => some s
  | _ :: _, [] => none
  | c :: p, d :: s => if c = d then afterPrefix p s else none

/-- A literal name or a number. -/
def scalarValue (N : Numbers ν) (s : Str) : Option (Value ν × Str) :=
  match afterPrefix (ofString "null") s with
  | some s => some (.null, s)
  | none =>
    match afterPrefix (ofString "true") s with
    | some s => some (.bool true, s)
    | none =>
      match afterPrefix (ofString "false") s with
      | some s => some (.bool false, s)
      | none => (numberLiteral s).map fun p => (.num (N.ofLiteral p.1), p.2)

/-- A value that is nested less deeply than `fuel`, and what follows it. -/
def parseValue (N : Numbers ν) : Nat → Str → Option (Value ν × Str)
  | 0, _ => none
  | fuel + 1, s =>
    match skipSpace s with
    | [] => none
    | c :: s =>
      if c = code '"' then (stringBody s).map fun p => (.str p.1, p.2)
      else if c = code '[' then
        match skipSpace s with
        | [] => none
        | d :: r =>
          if d = code ']' then some (.arr [], r)
          else (separated (code ']') (parseValue N fuel) s.length s).map fun p => (.arr p.1, p.2)
      else if c = code '{' then
        match skipSpace s with
        | [] => none
        | d :: r =>
          if d = code '}' then some (.obj [], r)
          else (separated (code '}') (member (parseValue N fuel)) s.length s).map
            fun p => (.obj (p.1.foldl setMember []), p.2)
      else scalarValue N (c :: s)

/-- `JSON.parse(text)`, or `none` for the `SyntaxError`. A value is nested less deeply than its text
is long. -/
def jsonParse (N : Numbers ν) (text : Str) : Option (Value ν) :=
  (parseValue N (text.length + 1) text).bind fun (v, s) =>
    if skipSpace s = [] then some v else none

end Scap.Js
