import Scap.Js.Reading

/-!
# Texts that `JSON.stringify` writes

They have no lone surrogates (`wellFormed_stringify`), since a lone surrogate is escaped, and
quoting makes a text at most six times as long (`length_encode_quote_le`).
-/

namespace Scap.Js

variable {ν : Type} {N : Numbers ν} {s t : Str} {u v : CodeUnit}

/-! ## No lone surrogates -/

theorem Ascii.append (hs : Ascii s) (ht : Ascii t) : Ascii (s ++ t) := by
  intro u hu
  rcases List.mem_append.mp hu with hu | hu
  · exact hs u hu
  · exact ht u hu

theorem Ascii.cons (hu : u.toNat < 0x80) (hs : Ascii s) : Ascii (u :: s) := by
  intro x hx
  rcases List.mem_cons.mp hx with rfl | hx
  · exact hu
  · exact hs x hx

theorem hexDigit_lt {n : Nat} (h : n < 16) : (hexDigit n).toNat < 0x80 := by
  revert n
  decide

theorem ascii_unicodeEscape (u : CodeUnit) : Ascii (unicodeEscape u) := by
  have hlt : ∀ m : Nat, m % 16 < 16 := fun m => Nat.mod_lt m (by omega)
  refine .cons (by decide) (.cons (by decide) ?_)
  refine .cons (hexDigit_lt (hlt _)) (.cons (hexDigit_lt (hlt _)) ?_)
  refine .cons (hexDigit_lt (hlt _)) (.cons (hexDigit_lt (hlt _)) ?_)
  intro x hx
  cases hx

/-- An escape is ASCII and has at most six units; what is not escaped stands alone. -/
theorem quoteUnit_cases (u : CodeUnit) :
    Ascii (quoteUnit u) ∧ (quoteUnit u).length ≤ 6 ∨
      quoteUnit u = [u] ∧ isSurrogate u.toNat = false := by
  unfold quoteUnit
  split_ifs with hquote hbackslash hb ht hn hf hr hescape
  · exact .inl ⟨by decide, by decide⟩
  · exact .inl ⟨by decide, by decide⟩
  · exact .inl ⟨by decide, by decide⟩
  · exact .inl ⟨by decide, by decide⟩
  · exact .inl ⟨by decide, by decide⟩
  · exact .inl ⟨by decide, by decide⟩
  · exact .inl ⟨by decide, by decide⟩
  · exact .inl ⟨ascii_unicodeEscape u, Nat.le_refl 6⟩
  · simp only [Bool.or_eq_true, decide_eq_true_eq, not_or, Bool.not_eq_true] at hescape
    exact .inr ⟨rfl, hescape.2⟩

theorem wellFormed_quoteUnit (u : CodeUnit) : WellFormed (quoteUnit u) := by
  rcases quoteUnit_cases u with ⟨hascii, -⟩ | ⟨hself, hu⟩
  · exact hascii.wellFormed
  · rw [hself]
    intro c hc
    rwa [List.mem_singleton.mp hc]

theorem wellFormed_pair (hu : isHigh u = true) (hv : isLow v = true) : WellFormed [u, v] := by
  intro c hc
  rw [codePoints_pair hu hv] at hc
  rw [List.mem_singleton.mp hc]
  obtain ⟨-, hlarge⟩ := toNat_scalar_pair hu hv
  exact isSurrogate_eq_false.mpr (.inr (by omega))

theorem wellFormed_quoteBody (s : Str) : WellFormed (quoteBody s) := by
  induction s using quoteBody.induct with
  | case1 u v s hpair ih =>
      rw [quoteBody, if_pos hpair]
      simp only [Bool.and_eq_true] at hpair
      exact (wellFormed_pair hpair.1 hpair.2).append ih
  | case2 u v s hpair ih =>
      rw [quoteBody, if_neg hpair]
      exact (wellFormed_quoteUnit u).append ih
  | case3 u => exact wellFormed_quoteUnit u
  | case4 => exact wellFormed_nil

theorem wellFormed_quote (s : Str) : WellFormed (quote s) := by
  have hquote : WellFormed [code '"'] := by decide
  exact hquote.append ((wellFormed_quoteBody s).append hquote)

theorem wellFormed_commaSeparated {ts : List Str} (h : ∀ t ∈ ts, WellFormed t) :
    WellFormed (commaSeparated ts) := by
  induction ts with
  | nil => exact wellFormed_nil
  | cons t ts ih =>
      by_cases hts : ts = []
      · subst hts
        exact h t (by simp)
      · have hcomma : WellFormed [code ','] := by decide
        rw [commaSeparated_cons hts]
        have hrest := ih fun x hx => h x (List.mem_cons_of_mem _ hx)
        exact (h t (by simp)).append (hcomma.append hrest)

theorem ascii_decimal (n : Nat) : Ascii (decimal n) := by
  intro u hu
  have hdigit := isDigit_of_mem_decimal hu
  simp only [isDigit, Bool.and_eq_true, decide_eq_true_eq] at hdigit
  have hnine : (code '9').toNat = 57 := by decide
  omega

/-- **A text has no lone surrogates.** -/
theorem wellFormed_stringify (hN : N.Lawful) {v : Value ν} (h : Readable N v) :
    WellFormed (stringify N v) := by
  have hbracket : WellFormed [code '['] ∧ WellFormed [code ']'] := by decide
  have hbrace : WellFormed [code '{'] ∧ WellFormed [code '}'] := by decide
  have hcolon : WellFormed [code ':'] := by decide
  induction h with
  | null =>
      have : WellFormed (ofString "null") := by decide
      simpa [stringify] using this
  | bool b =>
      have : WellFormed (ofString "true") ∧ WellFormed (ofString "false") := by decide
      cases b with
      | true => simpa [stringify] using this.1
      | false => simpa [stringify] using this.2
  | num n hn =>
      rw [stringify, hN.text_ofNat hn]
      exact (ascii_decimal n).wellFormed
  | str s =>
      rw [stringify]
      exact wellFormed_quote s
  | arr vs hvs ih =>
      rw [stringify, itemTexts_eq]
      refine hbracket.1.append ((wellFormed_commaSeparated ?_).append hbracket.2)
      intro t ht
      obtain ⟨v, hv, rfl⟩ := List.mem_map.mp ht
      exact ih v hv
  | obj ms hms hkeys hindex ih =>
      rw [stringify_obj hindex]
      refine hbrace.1.append ((wellFormed_commaSeparated ?_).append hbrace.2)
      intro t ht
      obtain ⟨m, hm, rfl⟩ := List.mem_map.mp ht
      exact (wellFormed_quote m.1).append (hcolon.append (ih m hm))

/-! ## Sizes -/

theorem length_encode_single (u : CodeUnit) : (encode [u]).length = (scalar u.toNat).utf8Size := by
  rw [length_encode_codePoints]
  simp

theorem length_encode_quoteUnit_le (u : CodeUnit) :
    (encode (quoteUnit u)).length ≤ 6 * (scalar u.toNat).utf8Size := by
  have hpos := (scalar u.toNat).utf8Size_pos
  rcases quoteUnit_cases u with ⟨hascii, hlength⟩ | ⟨hself, -⟩
  · rw [length_encode_ascii hascii]
    omega
  · rw [hself, length_encode_single]
    omega

/-- Without control characters at most two bytes are written for one. -/
theorem length_encode_quoteUnit_le_two (h : 0x20 ≤ u.toNat) :
    (encode (quoteUnit u)).length ≤ 2 * (scalar u.toNat).utf8Size := by
  have hpos := (scalar u.toNat).utf8Size_pos
  have hne : ∀ c : CodeUnit, c.toNat < 0x20 → u ≠ c := by
    rintro c hc rfl
    omega
  unfold quoteUnit
  rw [if_neg (hne 0x08 (by decide)), if_neg (hne 0x09 (by decide)), if_neg (hne 0x0a (by decide)),
    if_neg (hne 0x0c (by decide)), if_neg (hne 0x0d (by decide))]
  split_ifs with hquote hbackslash hescape
  · rw [length_encode_ascii (by decide)]
    simp only [List.length_cons, List.length_nil]
    omega
  · rw [length_encode_ascii (by decide)]
    simp only [List.length_cons, List.length_nil]
    omega
  · have hplane : isSurrogate u.toNat = true := by
      have hcontrol : ¬u.toNat < 0x20 := by omega
      simpa [hcontrol] using hescape
    have hscalar : scalar u.toNat = '\uFFFD' := by
      simp only [isSurrogate, Bool.and_eq_true, decide_eq_true_eq] at hplane
      rw [scalar, if_neg]
      unfold Nat.isValidChar
      omega
    have hsize : ('\uFFFD' : Char).utf8Size = 3 := by decide
    rw [length_encode_ascii (ascii_unicodeEscape u), hscalar, hsize]
    exact Nat.le_refl 6
  · rw [length_encode_single]
    omega

/-- What holds of every unit holds of the text. -/
theorem length_encode_quoteBody_le {k : Nat} (hk : 1 ≤ k)
    (h : ∀ u ∈ s, (encode (quoteUnit u)).length ≤ k * (scalar u.toNat).utf8Size) :
    (encode (quoteBody s)).length ≤ k * (encode s).length := by
  induction s using quoteBody.induct with
  | case1 u v s hpair ih =>
      have hrest := ih fun x hx => h x (by simp [hx])
      rw [quoteBody, if_pos hpair]
      simp only [Bool.and_eq_true] at hpair
      have hwell := wellFormed_pair hpair.1 hpair.2
      have hquoted : encode (u :: v :: quoteBody s) = encode [u, v] ++ encode (quoteBody s) :=
        encode_append hwell
      have hplain : encode (u :: v :: s) = encode [u, v] ++ encode s := encode_append hwell
      rw [hquoted, hplain, List.length_append, List.length_append, Nat.mul_add]
      exact Nat.add_le_add (Nat.le_mul_of_pos_left _ hk) hrest
  | case2 u v s hpair ih =>
      have hrest := ih fun x hx => h x (List.mem_cons_of_mem _ hx)
      have hplain : (encode (u :: v :: s)).length =
          (scalar u.toNat).utf8Size + (encode (v :: s)).length := by
        rw [length_encode_codePoints, codePoints_other hpair, length_encode_codePoints]
        rfl
      rw [quoteBody, if_neg hpair, encode_append (wellFormed_quoteUnit u), List.length_append,
        hplain, Nat.mul_add]
      exact Nat.add_le_add (h u (by simp)) hrest
  | case3 u =>
      rw [length_encode_single]
      exact h u (by simp)
  | case4 => exact Nat.zero_le _

theorem length_encode_quote_eq (s : Str) :
    (encode (quote s)).length = (encode (quoteBody s)).length + 2 := by
  have hquote : Ascii [code '"'] := by decide
  have hone : (encode [code '"']).length = 1 := length_encode_ascii hquote
  show (encode ([code '"'] ++ (quoteBody s ++ [code '"']))).length = _
  rw [encode_append hquote.wellFormed, encode_append (wellFormed_quoteBody s), List.length_append,
    List.length_append]
  omega

/-- The worst case is a text of control characters. -/
theorem length_encode_quote_le (s : Str) :
    (encode (quote s)).length ≤ 6 * (encode s).length + 2 := by
  have hbody := length_encode_quoteBody_le (s := s) (k := 6) (by omega)
    fun u _ => length_encode_quoteUnit_le u
  rw [length_encode_quote_eq]
  omega

theorem length_encode_quote_le_two (h : ∀ u ∈ s, 0x20 ≤ u.toNat) :
    (encode (quote s)).length ≤ 2 * (encode s).length + 2 := by
  have hbody := length_encode_quoteBody_le (s := s) (k := 2) (by omega)
    fun u hu => length_encode_quoteUnit_le_two (h u hu)
  rw [length_encode_quote_eq]
  omega

/-- A text in which nothing is escaped. -/
def Unescaped (s : Str) : Prop :=
  ∀ u ∈ s, 0x20 ≤ u.toNat ∧ u.toNat < 0x80 ∧ u ≠ code '"' ∧ u ≠ code '\\'

instance (s : Str) : Decidable (Unescaped s) :=
  List.decidableBAll
    (fun u : UInt16 => 0x20 ≤ u.toNat ∧ u.toNat < 0x80 ∧ u ≠ code '"' ∧ u ≠ code '\\') s

theorem Unescaped.ascii (h : Unescaped s) : Ascii s := fun u hu => (h u hu).2.1

theorem quoteUnit_of_unescaped (h : Unescaped [u]) : quoteUnit u = [u] := by
  obtain ⟨hlow, hhigh, hquote, hbackslash⟩ := h u (by simp)
  have hne : ∀ c : CodeUnit, c.toNat < 0x20 → u ≠ c := by
    rintro c hc rfl
    omega
  have hplain : ¬(decide (u.toNat < 0x20) || isSurrogate u.toNat) = true := by
    have hplane : isSurrogate u.toNat = false := isSurrogate_eq_false.mpr (by omega)
    simp only [hplane, Bool.or_false, decide_eq_true_eq]
    omega
  unfold quoteUnit
  rw [if_neg hquote, if_neg hbackslash, if_neg (hne _ (by decide)), if_neg (hne _ (by decide)),
    if_neg (hne _ (by decide)), if_neg (hne _ (by decide)), if_neg (hne _ (by decide)),
    if_neg hplain]

theorem quoteBody_of_unescaped (h : Unescaped s) : quoteBody s = s := by
  induction s using quoteBody.induct with
  | case1 u v s hpair ih =>
      simp only [Bool.and_eq_true] at hpair
      have hhigh := (isHigh_iff.mp hpair.1).1
      have hu := (h u (by simp)).2.1
      omega
  | case2 u v s hpair ih =>
      have hu := quoteUnit_of_unescaped (u := u) fun x hx => h x (by simp_all)
      have hrest := ih fun x hx => h x (List.mem_cons_of_mem _ hx)
      rw [quoteBody, if_neg hpair, hu, hrest]
      rfl
  | case3 u => exact quoteUnit_of_unescaped h
  | case4 => rfl

theorem length_encode_quote (h : Unescaped s) : (encode (quote s)).length = s.length + 2 := by
  have hascii : Ascii (quote s) := by
    rw [quote, quoteBody_of_unescaped h]
    exact .cons (by decide) (h.ascii.append (by decide))
  rw [length_encode_ascii hascii, quote, quoteBody_of_unescaped h]
  simp

theorem length_encode_commaSeparated_le {ts : List Str} (h : ∀ t ∈ ts, WellFormed t) :
    (encode (commaSeparated ts)).length ≤ (ts.map fun t => (encode t).length + 1).sum := by
  induction ts with
  | nil => exact Nat.le_refl 0
  | cons t ts ih =>
      have hrest := ih fun x hx => h x (List.mem_cons_of_mem _ hx)
      by_cases hts : ts = []
      · subst hts
        simp [commaSeparated]
      · rw [commaSeparated_cons hts, encode_append (h t (by simp)),
          encode_ascii_cons (by decide), List.map_cons, List.sum_cons, List.length_append,
          List.length_append, length_encode_ascii (s := [code ',']) (by decide)]
        simp only [List.length_cons, List.length_nil]
        omega

/-- The bytes of a member and a comma, at most. -/
def memberSize (N : Numbers ν) (m : Str × Value ν) : Nat :=
  (encode (quote m.1)).length + (encode (stringify N m.2)).length + 2

/-- The size of an object from the sizes of its members. -/
theorem length_encode_obj_le (hN : N.Lawful) {ms : List (Str × Value ν)}
    (h : Readable N (.obj ms)) :
    (encode (stringify N (.obj ms))).length ≤ (ms.map (memberSize N)).sum + 2 := by
  obtain ⟨hvalues, hkeys, hindex⟩ : (∀ m ∈ ms, Readable N m.2) ∧ (ms.map Prod.fst).Nodup ∧
      ∀ m ∈ ms, arrayIndex? m.1 = none := by
    cases h with
    | obj _ hvalues hkeys hindex => exact ⟨hvalues, hkeys, hindex⟩
  have hwell : ∀ m ∈ ms, WellFormed (memberText (m.1, stringify N m.2)) := by
    intro m hm
    have hcolon : WellFormed [code ':'] := by decide
    exact (wellFormed_quote m.1).append (hcolon.append (wellFormed_stringify hN (hvalues m hm)))
  have htexts : ∀ t ∈ ms.map fun m => memberText (m.1, stringify N m.2), WellFormed t := by
    intro t ht
    obtain ⟨m, hm, rfl⟩ := List.mem_map.mp ht
    exact hwell m hm
  have hsizes : ((ms.map fun m => memberText (m.1, stringify N m.2)).map fun t =>
      (encode t).length + 1).sum =
      (ms.map (memberSize N)).sum := by
    rw [List.map_map]
    apply congrArg List.sum
    apply List.map_congr_left
    intro m hm
    show (encode (quote m.1 ++ code ':' :: stringify N m.2)).length + 1 = memberSize N m
    rw [memberSize, encode_append (wellFormed_quote m.1), encode_ascii_cons (by decide),
      List.length_append,
      List.length_append, length_encode_ascii (s := [code ':']) (by decide)]
    simp only [List.length_cons, List.length_nil]
    omega
  have hlist := length_encode_commaSeparated_le htexts
  rw [hsizes] at hlist
  rw [stringify_obj hindex, encode_ascii_cons (by decide),
    encode_append (wellFormed_commaSeparated htexts), List.length_append, List.length_append,
    length_encode_ascii (s := [code '{']) (by decide),
    length_encode_ascii (s := [code '}']) (by decide)]
  simp only [List.length_cons, List.length_nil]
  omega

end Scap.Js
