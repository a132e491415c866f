import Scap.Js.Json

/-!
# What was written is read

`jsonParse_stringify`: a value whose numbers are safe natural numbers and whose objects have
distinct keys in writing order is what is read from its text. Strings may be any, also with lone
surrogates.
-/

namespace Scap.Js

variable {ν : Type} {N : Numbers ν} {s t r : Str} {u v : CodeUnit}

/-! ## Strings -/

theorem hexValue_hexDigit {n : Nat} (h : n < 16) : hexValue (hexDigit n) = some n := by
  revert n
  decide

theorem hex4_digits (u : CodeUnit) :
    hex4 (hexDigit (u.toNat / 4096 % 16)) (hexDigit (u.toNat / 256 % 16))
      (hexDigit (u.toNat / 16 % 16)) (hexDigit (u.toNat % 16)) = some u := by
  have hlt : ∀ m : Nat, m % 16 < 16 := fun m => Nat.mod_lt m (by omega)
  have hu := u.toNat_lt
  have hvalue : ((u.toNat / 4096 % 16 * 16 + u.toNat / 256 % 16) * 16 + u.toNat / 16 % 16) * 16 +
      u.toNat % 16 = u.toNat := by omega
  unfold hex4
  rw [hexValue_hexDigit (hlt _), hexValue_hexDigit (hlt _), hexValue_hexDigit (hlt _),
    hexValue_hexDigit (hlt _)]
  show some (UInt16.ofNat _) = some u
  rw [hvalue, UInt16.ofNat_toNat]

/-- A unit that stands for itself in a string. -/
def Raw (u : CodeUnit) : Prop := u ≠ code '"' ∧ u ≠ code '\\' ∧ 0x20 ≤ u.toNat

theorem raw_of_surrogate (h : 0xd800 ≤ u.toNat) : Raw u := by
  refine ⟨?_, ?_, by omega⟩
  · rintro rfl
    exact absurd h (by decide)
  · rintro rfl
    exact absurd h (by decide)

theorem stringBody_raw (h : Raw u) :
    stringBody (u :: s) = (stringBody s).map fun p => (u :: p.1, p.2) := by
  obtain ⟨hquote, hbackslash, hcontrol⟩ := h
  rw [stringBody.eq_def]
  simp only
  rw [if_neg hquote, if_neg hbackslash, if_neg (by omega)]

theorem stringBody_escape {e : CodeUnit} (he : e ≠ code 'u') (h : simpleEscape e = some u) :
    stringBody (code '\\' :: e :: s) = (stringBody s).map fun p => (u :: p.1, p.2) := by
  rw [stringBody.eq_def]
  simp only
  rw [if_neg (by decide), if_pos trivial, if_neg he, h]
  rfl

theorem stringBody_unicodeEscape :
    stringBody (unicodeEscape u ++ s) = (stringBody s).map fun p => (u :: p.1, p.2) := by
  rw [stringBody.eq_def]
  simp only [unicodeEscape, List.cons_append, List.nil_append]
  rw [if_neg (by decide), if_pos trivial, if_pos trivial, hex4_digits]
  rfl

theorem stringBody_quoteUnit (u : CodeUnit) (s : Str) :
    stringBody (quoteUnit u ++ s) = (stringBody s).map fun p => (u :: p.1, p.2) := by
  unfold quoteUnit
  split_ifs with hquote hbackslash hb ht hn hf hr hescape
  · subst hquote
    exact stringBody_escape (by decide) (by decide)
  · subst hbackslash
    exact stringBody_escape (by decide) (by decide)
  · subst hb
    exact stringBody_escape (by decide) (by decide)
  · subst ht
    exact stringBody_escape (by decide) (by decide)
  · subst hn
    exact stringBody_escape (by decide) (by decide)
  · subst hf
    exact stringBody_escape (by decide) (by decide)
  · subst hr
    exact stringBody_escape (by decide) (by decide)
  · exact stringBody_unicodeEscape
  · simp only [Bool.or_eq_true, decide_eq_true_eq, not_or] at hescape
    exact stringBody_raw ⟨hquote, hbackslash, by omega⟩

theorem stringBody_quoteBody (s r : Str) :
    stringBody (quoteBody s ++ code '"' :: r) = some (s, r) := by
  have hend : stringBody (code '"' :: r) = some ([], r) := by
    rw [stringBody.eq_def]
    rfl
  induction s using quoteBody.induct with
  | case1 u v s hpair ih =>
      have hboth := hpair
      simp only [Bool.and_eq_true] at hboth
      have hu : Raw u := raw_of_surrogate (isHigh_iff.mp hboth.1).1
      have hv : Raw v := raw_of_surrogate (by have := (isLow_iff.mp hboth.2).1; omega)
      rw [quoteBody, if_pos hpair]
      show stringBody (u :: v :: (quoteBody s ++ code '"' :: r)) = _
      rw [stringBody_raw hu, stringBody_raw hv, ih]
      rfl
  | case2 u v s hpair ih =>
      rw [quoteBody, if_neg hpair, List.append_assoc, stringBody_quoteUnit, ih]
      rfl
  | case3 u =>
      rw [quoteBody, stringBody_quoteUnit, hend]
      rfl
  | case4 => exact hend

/-! ## Numbers -/

/-- A unit that may follow a value: a number ends before it. -/
def Ends (s : Str) : Prop := ∀ u ∈ s.head?, u = code ',' ∨ u = code ']' ∨ u = code '}'

theorem isDigit_code {n : Nat} (h : n < 10) : isDigit (code n.digitChar) = true := by
  revert n
  decide

theorem isDigit_of_mem_decimal {n : Nat} (h : u ∈ decimal n) : isDigit u = true := by
  induction n using Nat.strongRecOn with
  | ind n ih =>
      by_cases hn : n < 10
      · rw [decimal, Nat.toDigits_of_lt_base hn] at h
        obtain rfl : u = code n.digitChar := by simpa using h
        exact isDigit_code hn
      · rw [decimal, Nat.toDigits_of_base_le (by omega) (by omega), List.map_append,
          List.mem_append] at h
        rcases h with h | h
        · exact ih (n / 10) (by omega) h
        · obtain rfl : u = code (n % 10).digitChar := by simpa using h
          exact isDigit_code (Nat.mod_lt n (by omega))

theorem eq_zero_of_code {n : Nat} (h : n < 10) (hzero : code n.digitChar = code '0') : n = 0 := by
  revert n
  decide

/-- Only zero is written with a zero at the beginning. -/
theorem decimal_cons (n : Nat) : ∃ d ds, decimal n = d :: ds ∧ (d = code '0' → n = 0) := by
  induction n using Nat.strongRecOn with
  | ind n ih =>
      by_cases hn : n < 10
      · exact ⟨code n.digitChar, [], by rw [decimal, Nat.toDigits_of_lt_base hn]; rfl,
          eq_zero_of_code hn⟩
      · obtain ⟨d, ds, hd, hzero⟩ := ih (n / 10) (by omega)
        refine ⟨d, ds ++ [code (n % 10).digitChar], ?_, ?_⟩
        · rw [decimal, Nat.toDigits_of_base_le (by omega) (by omega), List.map_append]
          show decimal (n / 10) ++ _ = _
          rw [hd]
          rfl
        · intro h
          have := hzero h
          omega

theorem Ends.isDigit_eq_false (h : Ends (u :: r)) : isDigit u = false := by
  rcases h u rfl with rfl | rfl | rfl
  · decide
  · decide
  · decide

theorem spanDigits_append (hs : ∀ u ∈ s, isDigit u = true) (hr : Ends r) :
    spanDigits (s ++ r) = (s, r) := by
  unfold spanDigits
  rw [List.takeWhile_append_of_pos hs, List.dropWhile_append_of_pos hs]
  cases r with
  | nil => simp
  | cons u r =>
      rw [List.takeWhile_cons, List.dropWhile_cons, hr.isDigit_eq_false]
      simp

theorem integerPart_decimal (n : Nat) (hr : Ends r) :
    integerPart (decimal n ++ r) = some (decimal n, r) := by
  obtain ⟨d, ds, hdecimal, hzero⟩ := decimal_cons n
  have hdigits : ∀ u ∈ d :: ds, isDigit u = true := by
    intro u hu
    rw [← hdecimal] at hu
    exact isDigit_of_mem_decimal hu
  by_cases hd : d = code '0'
  · have hn := hzero hd
    subst hn
    rfl
  · rw [hdecimal]
    show integerPart (d :: (ds ++ r)) = _
    rw [integerPart, if_neg hd, if_pos (hdigits d (by simp)),
      spanDigits_append (fun u hu => hdigits u (by simp [hu])) hr]

theorem numberLiteral_decimal (n : Nat) (hr : Ends r) :
    numberLiteral (decimal n ++ r) = some (decimal n, r) := by
  obtain ⟨d, ds, hdecimal, -⟩ := decimal_cons n
  have hdigit : isDigit d = true := isDigit_of_mem_decimal (n := n) (by rw [hdecimal]; simp)
  have hminus : d ≠ code '-' := by
    rintro rfl
    exact absurd hdigit (by decide)
  have hsign : spanSign (fun u => u = code '-') (decimal n ++ r) = ([], decimal n ++ r) := by
    rw [hdecimal]
    show (if decide (d = code '-') = true then _ else _) = _
    rw [if_neg (by simpa using hminus)]
    rfl
  have hfraction : fractionPart r = some ([], r) := by
    cases r with
    | nil => rfl
    | cons u r =>
        have hu : u ≠ code '.' := by
          rcases hr u rfl with rfl | rfl | rfl <;> decide
        rw [fractionPart, if_neg hu]
  have hexponent : exponentPart r = some ([], r) := by
    cases r with
    | nil => rfl
    | cons u r =>
        have hu : ¬(u = code 'e' ∨ u = code 'E') := by
          rcases hr u rfl with rfl | rfl | rfl <;> decide
        rw [exponentPart, if_neg hu]
  unfold numberLiteral
  rw [hsign]
  show (integerPart (decimal n ++ r)).bind _ = _
  rw [integerPart_decimal n hr]
  show (fractionPart r).bind _ = _
  rw [hfraction]
  show (exponentPart r).bind _ = _
  rw [hexponent]
  show some ([] ++ decimal n ++ [] ++ [], r) = _
  simp

theorem digitsValue_append (s : Str) (u : CodeUnit) :
    digitsValue (s ++ [u]) = digitsValue s * 10 + (u.toNat - (code '0').toNat) := by
  rw [digitsValue, List.foldl_append]
  rfl

theorem digitsValue_decimal (n : Nat) : digitsValue (decimal n) = n := by
  have hdigit : ∀ d < 10, (code d.digitChar).toNat - (code '0').toNat = d := by decide
  induction n using Nat.strongRecOn with
  | ind n ih =>
      by_cases hn : n < 10
      · have hlast := digitsValue_append [] (code n.digitChar)
        rw [decimal, Nat.toDigits_of_lt_base hn]
        show digitsValue ([] ++ [code n.digitChar]) = n
        rw [hlast, hdigit n hn]
        show 0 * 10 + n = n
        omega
      · have hrest := ih (n / 10) (by omega)
        have hlast := digitsValue_append (decimal (n / 10)) (code (n % 10).digitChar)
        rw [decimal, Nat.toDigits_of_base_le (by omega) (by omega), List.map_append]
        show digitsValue (decimal (n / 10) ++ [code (n % 10).digitChar]) = n
        rw [hlast, hrest, hdigit _ (Nat.mod_lt n (by omega))]
        omega

/-- The natural numbers, and `none` for all others. -/
def naturals : Numbers (Option Nat) where
  ofNat := some
  ofLiteral s := if s.all isDigit then some (digitsValue s) else none
  text x := x.elim (ofString "null") decimal
  safeInteger x := x.bind fun n => if n ≤ maxSafeInteger then some (n : Int) else none

theorem lawful_naturals : naturals.Lawful where
  safeInteger_ofNat n h := by
    show (if n ≤ maxSafeInteger then some (n : Int) else none) = _
    rw [if_pos h]
  ofLiteral_decimal n h := by
    have hdigits : (decimal n).all isDigit = true :=
      List.all_eq_true.mpr fun u hu => isDigit_of_mem_decimal hu
    show (if (decimal n).all isDigit = true then some (digitsValue (decimal n)) else none) = _
    rw [if_pos hdigits, digitsValue_decimal]
    rfl
  text_of_safe x n h := by
    obtain ⟨m, rfl, hm⟩ := Option.bind_eq_some_iff.mp h
    split at hm
    · obtain rfl : m = n := Int.ofNat.inj (Option.some.inj hm)
      rfl
    · cases hm

/-! ## Values -/

/-- A value that is read from its text. -/
inductive Readable (N : Numbers ν) : Value ν → Prop where
  | null : Readable N .null
  | bool (b : Bool) : Readable N (.bool b)
  | num (n : Nat) (h : n ≤ maxSafeInteger) : Readable N (.num (N.ofNat n))
  | str (s : Str) : Readable N (.str s)
  | arr (vs : List (Value ν)) (h : ∀ v ∈ vs, Readable N v) : Readable N (.arr vs)
  | obj (ms : List (Str × Value ν)) (h : ∀ m ∈ ms, Readable N m.2) (hkeys : (ms.map Prod.fst).Nodup)
      (hindex : ∀ m ∈ ms, arrayIndex? m.1 = none) : Readable N (.obj ms)

theorem itemTexts_eq (vs : List (Value ν)) : itemTexts N vs = vs.map (stringify N) := by
  induction vs with
  | nil => rfl
  | cons v vs ih => rw [itemTexts, ih, List.map_cons]

theorem valueTexts_eq (ms : List (Str × Value ν)) :
    valueTexts N ms = ms.map fun m => (m.1, stringify N m.2) := by
  induction ms with
  | nil => rfl
  | cons m ms ih => rw [valueTexts, ih, List.map_cons]

/-- Keys that are no array indices stand as they were created. -/
theorem ownOrder_eq_self {α : Type} {ms : List (Str × α)} (h : ∀ m ∈ ms, arrayIndex? m.1 = none) :
    ownOrder ms = ms := by
  have hindices : (ms.filter fun m => (arrayIndex? m.1).isSome) = [] := by
    rw [List.filter_eq_nil_iff]
    intro m hm
    simp [h m hm]
  have hothers : (ms.filter fun m => (arrayIndex? m.1).isNone) = ms := by
    rw [List.filter_eq_self]
    intro m hm
    simp [h m hm]
  unfold ownOrder
  rw [hindices, hothers]
  rfl

/-- The text of an object with such keys. -/
theorem stringify_obj {ms : List (Str × Value ν)} (h : ∀ m ∈ ms, arrayIndex? m.1 = none) :
    stringify N (.obj ms) = code '{' ::
      (commaSeparated (ms.map fun m => memberText (m.1, stringify N m.2)) ++ [code '}']) := by
  rw [stringify, valueTexts_eq, ownOrder_eq_self, List.map_map]
  · rfl
  · intro m hm
    obtain ⟨n, hn, rfl⟩ := List.mem_map.mp hm
    exact h n hn

theorem commaSeparated_cons {ts : List Str} (h : ts ≠ []) :
    commaSeparated (t :: ts) = t ++ code ',' :: commaSeparated ts := by
  cases ts with
  | nil => exact absurd rfl h
  | cons u ts => rfl

theorem length_le_commaSeparated {ts : List Str} (h : t ∈ ts) :
    t.length ≤ (commaSeparated ts).length := by
  induction ts with
  | nil => cases h
  | cons u ts ih =>
      by_cases hts : ts = []
      · subst hts
        rw [List.mem_singleton.mp h]
        exact Nat.le_refl _
      · rw [commaSeparated_cons hts, List.length_append, List.length_cons]
        rcases List.mem_cons.mp h with rfl | h
        · omega
        · have := ih h
          omega

theorem count_le_commaSeparated (ts : List Str) : ts.length ≤ (commaSeparated ts).length + 1 := by
  induction ts with
  | nil => simp
  | cons u ts ih =>
      by_cases hts : ts = []
      · subst hts
        simp
      · rw [commaSeparated_cons hts, List.length_append, List.length_cons, List.length_cons]
        omega

theorem Numbers.Lawful.text_ofNat (hN : N.Lawful) {n : Nat} (h : n ≤ maxSafeInteger) :
    N.text (N.ofNat n) = decimal n :=
  hN.text_of_safe _ n (hN.safeInteger_ofNat n h)

theorem skipSpace_cons (h : isJsonSpace u = false) : skipSpace (u :: s) = u :: s := by
  rw [skipSpace, List.dropWhile_cons, h]
  rfl

theorem isJsonSpace_of_isDigit (h : isDigit u = true) : isJsonSpace u = false := by
  rw [Bool.eq_false_iff]
  intro hspace
  simp only [isJsonSpace, Bool.or_eq_true, decide_eq_true_eq] at hspace
  rcases hspace with ((rfl | rfl) | rfl) | rfl <;> exact absurd h (by decide)

/-- A text begins with its value. -/
theorem stringify_cons (hN : N.Lawful) {v : Value ν} (h : Readable N v) :
    ∃ c t, stringify N v = c :: t ∧ isJsonSpace c = false ∧ c ≠ code ']' := by
  cases h with
  | null => exact ⟨_, _, rfl, by decide, by decide⟩
  | bool b =>
      cases b with
      | true => exact ⟨_, _, rfl, by decide, by decide⟩
      | false => exact ⟨_, _, rfl, by decide, by decide⟩
  | num n hn =>
      obtain ⟨d, ds, hdecimal, -⟩ := decimal_cons n
      have hdigit : isDigit d = true := isDigit_of_mem_decimal (n := n) (by rw [hdecimal]; simp)
      refine ⟨d, ds, ?_, isJsonSpace_of_isDigit hdigit, ?_⟩
      · rw [stringify, hN.text_ofNat hn, hdecimal]
      · rintro rfl
        exact absurd hdigit (by decide)
  | str s => exact ⟨_, _, rfl, by decide, by decide⟩
  | arr vs => exact ⟨_, _, rfl, by decide, by decide⟩
  | obj ms => exact ⟨_, _, rfl, by decide, by decide⟩

/-- A list of items is read if each item is. -/
theorem separated_commaSeparated {α : Type} {close : CodeUnit} {item : Str → Option (α × Str)}
    {text : α → Str} {as : List α} {n : Nat} (hclose : close = code ']' ∨ close = code '}')
    (hne : as ≠ []) (hitem : ∀ a ∈ as, ∀ r, Ends r → item (text a ++ r) = some (a, r))
    (hn : as.length ≤ n) (r : Str) :
    separated close item n (commaSeparated (as.map text) ++ close :: r) = some (as, r) := by
  have hend : Ends (close :: r) := by
    intro u hu
    obtain rfl : close = u := by simpa using hu
    exact .inr hclose
  induction as generalizing n with
  | nil => exact absurd rfl hne
  | cons a as ih =>
      cases n with
      | zero => simp at hn
      | succ n =>
          by_cases has : as = []
          · subst has
            have ha := hitem a (by simp) (close :: r) hend
            show separated close item (n + 1) (text a ++ close :: r) = _
            rw [separated, ha]
            rcases hclose with rfl | rfl
            · rfl
            · rfl
          · have hrest := ih has (fun x hx => hitem x (List.mem_cons_of_mem _ hx))
              (Nat.le_of_succ_le_succ hn)
            have ha := hitem a (by simp) (code ',' :: (commaSeparated (as.map text) ++ close :: r))
              (by intro u hu; exact .inl (by simpa using hu.symm))
            rw [List.map_cons, commaSeparated_cons (by simpa using has), List.append_assoc,
              List.cons_append, separated, ha]
            show (separated close item n (commaSeparated (as.map text) ++ close :: r)).map _ = _
            rw [hrest]
            rfl

theorem memberKey_quote (key r : Str) : memberKey (quote key ++ code ':' :: r) = some (key, r) := by
  have hbody := stringBody_quoteBody key (code ':' :: r)
  have htext : quote key ++ code ':' :: r =
      code '"' :: (quoteBody key ++ code '"' :: code ':' :: r) := by
    simp [quote]
  rw [htext, memberKey, skipSpace_cons (by decide)]
  show (stringBody (quoteBody key ++ code '"' :: code ':' :: r)).bind _ = _
  rw [hbody]
  rfl

theorem foldl_setMember {ms ns : List (Str × Value ν)} (h : ((ms ++ ns).map Prod.fst).Nodup) :
    ns.foldl setMember ms = ms ++ ns := by
  induction ns generalizing ms with
  | nil => simp
  | cons n ns ih =>
      have hnew : (ms.any fun m => m.1 = n.1) = false := by
        rw [List.any_eq_false]
        intro m hm hkey
        rw [List.map_append, List.nodup_append] at h
        exact h.2.2 m.1 (List.mem_map_of_mem hm) n.1 (by simp) (by simpa using hkey)
      have hset : setMember ms n = ms ++ [n] := by
        rw [setMember, hnew]
        rfl
      rw [List.foldl_cons, hset, ih (by simpa using h)]
      simp

/-- What is read as a scalar when no bracket and no quote stands at the beginning. -/
theorem parseValue_scalar {c : CodeUnit} {fuel : Nat} (hspace : isJsonSpace c = false)
    (hquote : c ≠ code '"') (hbracket : c ≠ code '[') (hbrace : c ≠ code '{') :
    parseValue N (fuel + 1) (c :: s) = scalarValue N (c :: s) := by
  rw [parseValue, skipSpace_cons hspace]
  show (if c = code '"' then _ else _) = _
  rw [if_neg hquote, if_neg hbracket, if_neg hbrace]

theorem scalarValue_decimal (hN : N.Lawful) {n : Nat} (h : n ≤ maxSafeInteger) (hr : Ends r) :
    scalarValue N (decimal n ++ r) = some (.num (N.ofNat n), r) := by
  obtain ⟨d, ds, hdecimal, -⟩ := decimal_cons n
  have hdigit : isDigit d = true := isDigit_of_mem_decimal (n := n) (by rw [hdecimal]; simp)
  have hname : ∀ c p, isDigit c = false → afterPrefix (c :: p) (decimal n ++ r) = none := by
    intro c p hc
    rw [hdecimal]
    show (if c = d then _ else none) = none
    rw [if_neg]
    rintro rfl
    rw [hdigit] at hc
    cases hc
  unfold scalarValue
  have hnull : afterPrefix (ofString "null") (decimal n ++ r) = none := hname _ _ (by decide)
  have htrue : afterPrefix (ofString "true") (decimal n ++ r) = none := hname _ _ (by decide)
  have hfalse : afterPrefix (ofString "false") (decimal n ++ r) = none := hname _ _ (by decide)
  rw [hnull, htrue, hfalse, numberLiteral_decimal n hr]
  show some (Value.num (N.ofLiteral (decimal n)), r) = _
  rw [hN.ofLiteral_decimal n h]

theorem commaSeparated_head {c : CodeUnit} (ts : List Str) (h : t = c :: s) :
    ∃ u, commaSeparated (t :: ts) ++ r = c :: u := by
  subst h
  cases ts with
  | nil => exact ⟨s ++ r, rfl⟩
  | cons t ts => exact ⟨_, rfl⟩

theorem parseValue_arr {c : CodeUnit} {fuel : Nat} (hs : skipSpace s = c :: t)
    (hc : c ≠ code ']') : parseValue N (fuel + 1) (code '[' :: s) =
      (separated (code ']') (parseValue N fuel) s.length s).map fun p => (.arr p.1, p.2) := by
  rw [parseValue, skipSpace_cons (by decide)]
  simp only [hs]
  exact if_neg hc

theorem parseValue_obj {c : CodeUnit} {fuel : Nat} (hs : skipSpace s = c :: t)
    (hc : c ≠ code '}') : parseValue N (fuel + 1) (code '{' :: s) =
      (separated (code '}') (member (parseValue N fuel)) s.length s).map
        fun p => (.obj (p.1.foldl setMember []), p.2) := by
  rw [parseValue, skipSpace_cons (by decide)]
  simp only [hs]
  exact if_neg hc

theorem parseValue_items (hN : N.Lawful) {vs : List (Value ν)} {fuel : Nat}
    (hvs : ∀ v ∈ vs, Readable N v)
    (hread : ∀ v ∈ vs, ∀ r, Ends r → parseValue N fuel (stringify N v ++ r) = some (v, r))
    (r : Str) : parseValue N (fuel + 1) (stringify N (.arr vs) ++ r) = some (.arr vs, r) := by
  have hcount := count_le_commaSeparated (vs.map (stringify N))
  rw [List.length_map] at hcount
  rw [stringify, itemTexts_eq, List.cons_append, List.append_assoc]
  by_cases hne : vs = []
  · subst hne
    rfl
  · have hitems := separated_commaSeparated (.inl rfl) hne hread
      (n := (commaSeparated (vs.map (stringify N)) ++ ([code ']'] ++ r)).length)
      (by simp only [List.length_append, List.length_cons]; omega) r
    have hhead : ∃ c u, skipSpace (commaSeparated (vs.map (stringify N)) ++ ([code ']'] ++ r)) =
        c :: u ∧ c ≠ code ']' := by
      obtain ⟨v, ws, rfl⟩ := List.exists_cons_of_ne_nil hne
      obtain ⟨c, t, hc, hspace, hbracket⟩ := stringify_cons hN (hvs v (by simp))
      obtain ⟨u, hu⟩ := commaSeparated_head (ws.map (stringify N)) hc
      exact ⟨c, u, by rw [List.map_cons, hu, skipSpace_cons hspace], hbracket⟩
    obtain ⟨c, u, hskip, hbracket⟩ := hhead
    rw [parseValue_arr hskip hbracket]
    show (separated _ _ _ (_ ++ code ']' :: r)).map _ = _
    rw [hitems]
    rfl

theorem parseValue_members {ms : List (Str × Value ν)} {fuel : Nat}
    (hkeys : (ms.map Prod.fst).Nodup) (hindex : ∀ m ∈ ms, arrayIndex? m.1 = none)
    (hread : ∀ m ∈ ms, ∀ r, Ends r → parseValue N fuel (stringify N m.2 ++ r) = some (m.2, r))
    (r : Str) : parseValue N (fuel + 1) (stringify N (.obj ms) ++ r) = some (.obj ms, r) := by
  have hcount := count_le_commaSeparated (ms.map fun m => memberText (m.1, stringify N m.2))
  rw [List.length_map] at hcount
  rw [stringify_obj hindex, List.cons_append, List.append_assoc]
  by_cases hne : ms = []
  · subst hne
    rfl
  · have hmember : ∀ m ∈ ms, ∀ r, Ends r →
        member (parseValue N fuel) (memberText (m.1, stringify N m.2) ++ r) = some (m, r) := by
      intro m hm r hr
      rw [member, memberText, List.append_assoc, List.cons_append, memberKey_quote]
      show (parseValue N fuel (stringify N m.2 ++ r)).map _ = _
      rw [hread m hm r hr]
      rfl
    have hitems := separated_commaSeparated (.inr rfl) hne hmember (n := (commaSeparated
        (ms.map fun m => memberText (m.1, stringify N m.2)) ++ ([code '}'] ++ r)).length)
      (by simp only [List.length_append, List.length_cons]; omega) r
    have hhead : ∃ u, skipSpace (commaSeparated
        (ms.map fun m => memberText (m.1, stringify N m.2)) ++ ([code '}'] ++ r)) =
        code '"' :: u := by
      obtain ⟨m, ns, rfl⟩ := List.exists_cons_of_ne_nil hne
      obtain ⟨u, hu⟩ := commaSeparated_head (t := memberText (m.1, stringify N m.2))
        (r := [code '}'] ++ r) (ns.map fun m => memberText (m.1, stringify N m.2)) rfl
      exact ⟨u, by rw [List.map_cons, hu, skipSpace_cons (by decide)]⟩
    obtain ⟨u, hskip⟩ := hhead
    rw [parseValue_obj hskip (by decide)]
    show (separated _ _ _ (_ ++ code '}' :: r)).map _ = _
    rw [hitems]
    show some (Value.obj (ms.foldl setMember []), r) = _
    rw [foldl_setMember (by simpa using hkeys)]
    rfl

/-- **A value is read from its text**, whatever comes after it. -/
theorem parseValue_stringify (hN : N.Lawful) {v : Value ν} (h : Readable N v) :
    ∀ fuel r, (stringify N v).length ≤ fuel → Ends r →
      parseValue N fuel (stringify N v ++ r) = some (v, r) := by
  -- By induction on the value; the fuel that its text needs is left for each text within it.
  induction h with
  | null =>
      intro fuel r hfuel hr
      cases fuel with
      | zero => simp [stringify, ofString, ofChars, charUnits] at hfuel
      | succ fuel => rfl
  | bool b =>
      intro fuel r hfuel hr
      cases fuel with
      | zero => cases b <;> simp [stringify, ofString, ofChars, charUnits] at hfuel
      | succ fuel => cases b <;> rfl
  | num n hn =>
      intro fuel r hfuel hr
      have htext : stringify N (.num (N.ofNat n)) = decimal n := by
        rw [stringify, hN.text_ofNat hn]
      have hscalar := scalarValue_decimal hN hn hr
      rw [htext] at hfuel ⊢
      obtain ⟨d, ds, hdecimal, -⟩ := decimal_cons n
      have hdigit : isDigit d = true := isDigit_of_mem_decimal (n := n) (by rw [hdecimal]; simp)
      -- a digit is none of the characters that the other kinds of value begin with
      have hother : ∀ c, isDigit c = false → d ≠ c := by
        rintro c hc rfl
        rw [hdigit] at hc
        cases hc
      rw [hdecimal] at hfuel hscalar ⊢
      cases fuel with
      | zero => simp at hfuel
      | succ fuel =>
          exact (parseValue_scalar (isJsonSpace_of_isDigit hdigit) (hother _ (by decide))
            (hother _ (by decide)) (hother _ (by decide))).trans hscalar
  | str s =>
      intro fuel r hfuel hr
      have hbody := stringBody_quoteBody s r
      cases fuel with
      | zero => simp [stringify, quote] at hfuel
      | succ fuel =>
          show parseValue N (fuel + 1) (code '"' :: (quoteBody s ++ [code '"'] ++ r)) = _
          rw [parseValue, skipSpace_cons (by decide), List.append_assoc]
          show (stringBody (quoteBody s ++ code '"' :: r)).map _ = _
          rw [hbody]
          rfl
  | arr vs hvs ih =>
      intro fuel r hfuel hr
      have hlength : (stringify N (.arr vs)).length =
          (commaSeparated (vs.map (stringify N))).length + 2 := by
        rw [stringify, itemTexts_eq]
        simp
      cases fuel with
      | zero => omega
      | succ fuel =>
          apply parseValue_items hN hvs
          intro v hv r hr
          have := length_le_commaSeparated (List.mem_map_of_mem (f := stringify N) hv)
          exact ih v hv fuel r (by omega) hr
  | obj ms hms hkeys hindex ih =>
      intro fuel r hfuel hr
      have hlength : (stringify N (.obj ms)).length =
          (commaSeparated (ms.map fun m => memberText (m.1, stringify N m.2))).length + 2 := by
        rw [stringify_obj hindex]
        simp
      cases fuel with
      | zero => omega
      | succ fuel =>
          apply parseValue_members hkeys hindex
          intro m hm r hr
          have := length_le_commaSeparated
            (List.mem_map_of_mem (f := fun m => memberText (m.1, stringify N m.2)) hm)
          have hvalue : (stringify N m.2).length ≤ (memberText (m.1, stringify N m.2)).length := by
            simp only [memberText, List.length_append, List.length_cons]
            omega
          exact ih m hm fuel r (by omega) hr

/-- **`JSON.parse(JSON.stringify(v))` is `v`.** -/
theorem jsonParse_stringify (hN : N.Lawful) {v : Value ν} (h : Readable N v) :
    jsonParse N (stringify N v) = some v := by
  have hread := parseValue_stringify hN h ((stringify N v).length + 1) []
    (Nat.le_succ _) (by intro u hu; cases hu)
  rw [List.append_nil] at hread
  rw [jsonParse, hread]
  rfl

end Scap.Js
