import Scap.Workbench.Checks

/-!
# The scan accepts what was written

`scan_stringify`: over the text of a value the scan for duplicate keys ends where it started, by
induction on the value. So `parse` reads every value whose text is short enough (`parse_stringify`).
-/

namespace Scap.Workbench

open Scap.Js

variable {ν : Type} {N : Numbers ν} {s t r : Str} {u : CodeUnit}
  {containers : List (Option (List Str))}

/-! ## Literals -/

theorem skipLiteral_raw (h : Raw u) (s : Str) :
    skipLiteral (u :: s) = (u :: (skipLiteral s).1, (skipLiteral s).2) :=
  skipLiteral_plain s h.2.1 h.1

theorem raw_hexDigit {n : Nat} (h : n < 16) : hexDigit n ≠ code '\\' ∧ hexDigit n ≠ code '"' := by
  revert n
  decide

theorem skipLiteral_quoteUnit (u : CodeUnit) (s : Str) :
    skipLiteral (quoteUnit u ++ s) = (quoteUnit u ++ (skipLiteral s).1, (skipLiteral s).2) := by
  have hlt : ∀ m : Nat, m % 16 < 16 := fun m => Nat.mod_lt m (by omega)
  unfold quoteUnit
  split_ifs with hquote hbackslash hb ht hn hf hr hescape
  · exact skipLiteral_escape _ s
  · exact skipLiteral_escape _ s
  · exact skipLiteral_escape _ s
  · exact skipLiteral_escape _ s
  · exact skipLiteral_escape _ s
  · exact skipLiteral_escape _ s
  · exact skipLiteral_escape _ s
  · unfold unicodeEscape
    simp only [List.cons_append, List.nil_append]
    rw [skipLiteral_escape]
    obtain ⟨h₁, h₁'⟩ := raw_hexDigit (hlt (u.toNat / 4096))
    obtain ⟨h₂, h₂'⟩ := raw_hexDigit (hlt (u.toNat / 256))
    obtain ⟨h₃, h₃'⟩ := raw_hexDigit (hlt (u.toNat / 16))
    obtain ⟨h₄, h₄'⟩ := raw_hexDigit (hlt u.toNat)
    rw [skipLiteral_plain _ h₁ h₁', skipLiteral_plain _ h₂ h₂', skipLiteral_plain _ h₃ h₃',
      skipLiteral_plain _ h₄ h₄']
  · exact skipLiteral_plain s hbackslash hquote

/-- A literal ends with its closing quote. -/
theorem skipLiteral_quoteBody (s r : Str) :
    skipLiteral (quoteBody s ++ code '"' :: r) = (quoteBody s ++ [code '"'], r) := by
  induction s using quoteBody.induct with
  | case1 u v s hpair ih =>
      have hboth := hpair
      simp only [Bool.and_eq_true] at hboth
      have hu : Raw u := raw_of_surrogate (isHigh_iff.mp hboth.1).1
      have hv : Raw v := raw_of_surrogate (by have := (isLow_iff.mp hboth.2).1; omega)
      rw [quoteBody, if_pos hpair]
      show skipLiteral (u :: v :: (quoteBody s ++ code '"' :: r)) = _
      rw [skipLiteral_raw hu, skipLiteral_raw hv, ih]
      rfl
  | case2 u v s hpair ih =>
      rw [quoteBody, if_neg hpair, List.append_assoc, skipLiteral_quoteUnit, ih, List.append_assoc]
  | case3 u =>
      rw [quoteBody, skipLiteral_quoteUnit, skipLiteral_quote]
  | case4 => exact skipLiteral_quote r

/-! ## One step of the scan -/

/-- A unit that the scan passes over. -/
def Passed (u : CodeUnit) : Prop :=
  u ≠ code '{' ∧ u ≠ code '[' ∧ u ≠ code '}' ∧ u ≠ code ']' ∧ u ≠ code '"'

instance (u : CodeUnit) : Decidable (Passed u) := by
  unfold Passed
  infer_instance

instance (s : Str) : Decidable (∀ u ∈ s, Passed u) := List.decidableBAll Passed s

theorem scan_passed (h : Passed u) (s : Str) :
    scan N containers (u :: s) = scan N containers s := by
  obtain ⟨hbrace, hbracket, hbrace', hbracket', hquote⟩ := h
  rw [scan.eq_def]
  simp only
  rw [if_neg hbrace, if_neg hbracket, if_neg (not_or.mpr ⟨hbrace', hbracket'⟩), if_neg hquote]

theorem scan_append (h : ∀ u ∈ t, Passed u) (s : Str) :
    scan N containers (t ++ s) = scan N containers s := by
  induction t with
  | nil => rfl
  | cons u t ih =>
      rw [List.cons_append, scan_passed (h u (by simp)), ih fun x hx => h x (by simp [hx])]

theorem scan_openBrace (s : Str) :
    scan N containers (code '{' :: s) = scan N (some [] :: containers) s := by
  rw [scan.eq_def]
  exact if_pos rfl

theorem scan_openBracket (s : Str) :
    scan N containers (code '[' :: s) = scan N (none :: containers) s := by
  rw [scan.eq_def]
  exact (if_neg (by decide)).trans (if_pos rfl)

theorem scan_close (h : u = code '}' ∨ u = code ']') (s : Str) :
    scan N containers (u :: s) = scan N containers.tail s := by
  have hopen : u ≠ code '{' ∧ u ≠ code '[' := by
    rcases h with rfl | rfl
    · decide
    · decide
  rw [scan.eq_def]
  simp only
  rw [if_neg hopen.1, if_neg hopen.2, if_pos h]

theorem colonFollows_eq_false (h : Ends r) : colonFollows r = false := by
  cases r with
  | nil => rfl
  | cons u r =>
      have hu : isSpace u = false ∧ u ≠ code ':' := by
        rcases h u rfl with rfl | rfl | rfl
        · decide
        · decide
        · decide
      rw [colonFollows, List.dropWhile_cons, hu.1]
      simp [hu.2]

theorem quote_append (s r : Str) : quote s ++ r = code '"' :: (quoteBody s ++ code '"' :: r) := by
  simp [quote]

/-- A string that is no key. -/
theorem scan_quote (s : Str) (h : Ends r) :
    scan N containers (quote s ++ r) = scan N containers r := by
  have hcolon : ¬colonFollows r = true := Bool.eq_false_iff.mp (colonFollows_eq_false h)
  rw [quote_append, scan.eq_def]
  simp only
  rw [if_neg (by decide), if_neg (by decide), if_neg (by decide), if_pos trivial,
    skipLiteral_quoteBody, if_neg hcolon]

/-- A key that is new in its object. -/
theorem scan_key (hN : N.Lawful) {key : Str} {keys : List Str} (h : key ∉ keys) (r : Str) :
    scan N (some keys :: containers) (quote key ++ code ':' :: r) =
      scan N (some (key :: keys) :: containers) r := by
  have hcolon : colonFollows (code ':' :: r) = true := by
    rw [colonFollows, List.dropWhile_cons]
    rfl
  have hread : jsonParse N (code '"' :: (quoteBody key ++ [code '"'])) = some (.str key) := by
    have htext := jsonParse_stringify hN (.str key)
    rw [stringify] at htext
    exact htext
  rw [quote_append, scan.eq_def]
  simp only
  rw [if_neg (by decide), if_neg (by decide), if_neg (by decide), if_pos trivial,
    skipLiteral_quoteBody, if_pos hcolon, hread]
  show (if key ∈ keys then false else scan N (some (key :: keys) :: containers) (code ':' :: r)) = _
  rw [if_neg h, scan_passed (by decide)]

/-! ## Whole texts -/

theorem passed_of_isDigit (h : isDigit u = true) : Passed u := by
  refine ⟨?_, ?_, ?_, ?_, ?_⟩
  all_goals
    rintro rfl
    exact absurd h (by decide)

theorem scan_items {ts : List Str} (h : ∀ t ∈ ts, ∀ containers r, Ends r →
    scan N containers (t ++ r) = scan N containers r) (r : Str) :
    scan N containers (commaSeparated ts ++ code ']' :: r) = scan N containers.tail r := by
  have hend : Ends (code ']' :: r) := by
    intro u hu
    exact .inr (.inl (by simpa using hu.symm))
  induction ts with
  | nil => exact scan_close (.inr rfl) r
  | cons t ts ih =>
      by_cases hts : ts = []
      · subst hts
        show scan N containers (t ++ code ']' :: r) = _
        rw [h t (by simp) _ _ hend, scan_close (.inr rfl)]
      · have hcomma : Ends (code ',' :: (commaSeparated ts ++ code ']' :: r)) := by
          intro u hu
          exact .inl (by simpa using hu.symm)
        rw [commaSeparated_cons hts, List.append_assoc, List.cons_append, h t (by simp) _ _ hcomma,
          scan_passed (by decide), ih fun x hx => h x (List.mem_cons_of_mem _ hx)]

theorem scan_members (hN : N.Lawful) {ms : List (Str × Value ν)} {keys : List Str}
    (hkeys : (ms.map Prod.fst).Nodup) (hnew : ∀ m ∈ ms, m.1 ∉ keys)
    (h : ∀ m ∈ ms, ∀ containers r, Ends r →
      scan N containers (stringify N m.2 ++ r) = scan N containers r) (r : Str) :
    scan N (some keys :: containers)
      (commaSeparated (ms.map fun m => memberText (m.1, stringify N m.2)) ++ code '}' :: r) =
      scan N containers r := by
  have hend : Ends (code '}' :: r) := by
    intro u hu
    exact .inr (.inr (by simpa using hu.symm))
  induction ms generalizing keys with
  | nil => exact scan_close (.inl rfl) r
  | cons m ms ih =>
      obtain ⟨hfirst, hrest⟩ := List.nodup_cons.mp hkeys
      have hread : ∀ q, Ends q →
          scan N (some keys :: containers) (memberText (m.1, stringify N m.2) ++ q) =
            scan N (some (m.1 :: keys) :: containers) q := by
        intro q hq
        rw [memberText, List.append_assoc, List.cons_append, scan_key hN (hnew m (by simp)),
          h m (by simp) _ _ hq]
      by_cases hms : ms = []
      · subst hms
        show scan N _ (memberText (m.1, stringify N m.2) ++ code '}' :: r) = _
        rw [hread _ hend, scan_close (.inl rfl), List.tail_cons]
      · have hcomma : Ends (code ',' :: (commaSeparated
            (ms.map fun m => memberText (m.1, stringify N m.2)) ++ code '}' :: r)) := by
          intro u hu
          exact .inl (by simpa using hu.symm)
        have hlater : ∀ n ∈ ms, n.1 ∉ m.1 :: keys := by
          intro n hn hmem
          rcases List.mem_cons.mp hmem with hsame | hmem
          · exact hfirst (hsame ▸ List.mem_map_of_mem hn)
          · exact hnew n (List.mem_cons_of_mem _ hn) hmem
        rw [List.map_cons, commaSeparated_cons (by simpa using hms), List.append_assoc,
          List.cons_append, hread _ hcomma, scan_passed (by decide),
          ih hrest hlater fun n hn => h n (List.mem_cons_of_mem _ hn)]

/-- **The scan passes over the text of a value.** -/
theorem scan_stringify (hN : N.Lawful) {v : Value ν} (h : Readable N v) :
    ∀ containers r, Ends r → scan N containers (stringify N v ++ r) = scan N containers r := by
  induction h with
  | null =>
      intro containers r hr
      rw [stringify]
      exact scan_append (by decide) r
  | bool b =>
      intro containers r hr
      cases b with
      | true =>
          rw [stringify]
          exact scan_append (by decide) r
      | false =>
          rw [stringify]
          exact scan_append (by decide) r
  | num n hn =>
      intro containers r hr
      rw [stringify, hN.text_ofNat hn]
      exact scan_append (fun u hu => passed_of_isDigit (isDigit_of_mem_decimal hu)) r
  | str s =>
      intro containers r hr
      rw [stringify]
      exact scan_quote s hr
  | arr vs hvs ih =>
      intro containers r hr
      have hitems : ∀ t ∈ vs.map (stringify N), ∀ containers r, Ends r →
          scan N containers (t ++ r) = scan N containers r := by
        intro t ht
        obtain ⟨v, hv, rfl⟩ := List.mem_map.mp ht
        exact ih v hv
      rw [stringify, itemTexts_eq, List.cons_append, List.append_assoc, scan_openBracket]
      exact scan_items hitems r
  | obj ms hms hkeys hindex ih =>
      intro containers r hr
      rw [stringify_obj hindex, List.cons_append, List.append_assoc, scan_openBrace]
      exact scan_members hN hkeys (fun m hm hmem => by cases hmem) ih r

/-- **What was written is parsed.** -/
theorem parse_stringify (hN : N.Lawful) {v : Value ν} (h : Readable N v) {limit : Nat}
    (hlimit : (encode (stringify N v)).length ≤ limit) :
    parse N (.str (stringify N v)) limit = some v := by
  have hunits := length_le_encode (stringify N v)
  have hscan : scan N [] (stringify N v) = true := by
    have hend := scan_stringify hN h [] [] (by intro u hu; cases hu)
    rw [List.append_nil] at hend
    rw [hend, scan]
  simp only [parse]
  rw [if_neg (by omega), jsonParse_stringify hN h]
  show (if scan N [] (stringify N v) = true then some v else none) = _
  rw [if_pos hscan]

end Scap.Workbench
