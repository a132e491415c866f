import Scap.Py.Object

/-!
# Normalising a text

`normalize_text` strips the invisible characters from the NFKC of a text, and does not normalise
what that leaves. An invisible character can keep a base letter and a combining mark apart until it
is stripped, so the result is a normal form just when normalising the visible pieces of the text one
by one gives the same as normalising them together (`normalize_normal_form_iff`).
-/

namespace Scap.Dlp

open Scap.Py

/-- What the code asks of `unicodedata`. -/
structure Unicode where
  category : CodePoint → String
  nfkc : Str → Str

variable (U : Unicode)

/-- `_VARIATION_SELECTOR_RANGES`. -/
def variationSelectorRanges : List (Nat × Nat) := [(0xFE00, 0xFE0F), (0xE0100, 0xE01EF)]

/-- `_is_invisible_format_character`. -/
def isInvisibleFormatCharacter (c : CodePoint) : Bool :=
  U.category c == "Cf" || variationSelectorRanges.any fun r => r.1 ≤ c.val && c.val ≤ r.2

/-- `normalize_text`. -/
def normalizeText (text : Str) : Str :=
  (U.nfkc text).filter fun c => !isInvisibleFormatCharacter U c

/-- What Unicode says of NFKC and of these characters: they are stable, neither decompose nor
compose nor move, and no other character decomposes to one of them. -/
structure Unicode.Lawful : Prop where
  idempotent : ∀ s, U.nfkc (U.nfkc s) = U.nfkc s
  append : ∀ s t, U.nfkc (U.nfkc s ++ U.nfkc t) = U.nfkc (s ++ t)
  boundary : ∀ s c t, isInvisibleFormatCharacter U c = true →
    U.nfkc (s ++ c :: t) = U.nfkc s ++ c :: U.nfkc t
  visible : ∀ s, (∀ c ∈ s, isInvisibleFormatCharacter U c = false) →
    ∀ c ∈ U.nfkc s, isInvisibleFormatCharacter U c = false

variable {U} {s t text : Str} {c : CodePoint}

/-- The pieces of a text between its invisible characters. -/
def visiblePieces (U : Unicode) (text : Str) : List Str :=
  text.splitOnP (isInvisibleFormatCharacter U)

/-- The text without its invisible characters. -/
def visibleText (U : Unicode) (text : Str) : Str := (visiblePieces U text).flatten

theorem normalizeText_visible (hU : U.Lawful)
    (h : ∀ c ∈ s, isInvisibleFormatCharacter U c = false) : normalizeText U s = U.nfkc s := by
  apply List.filter_eq_self.mpr
  intro c hc
  simp [hU.visible s h c hc]

theorem normalizeText_boundary (hU : U.Lawful) (hc : isInvisibleFormatCharacter U c = true) :
    normalizeText U (s ++ c :: t) = normalizeText U s ++ normalizeText U t := by
  rw [normalizeText, hU.boundary s c t hc, List.filter_append, List.filter_cons_of_neg (by simp [hc])]
  rfl

/-- The pieces are normalised one by one. -/
theorem normalizeText_pieces (hU : U.Lawful) :
    normalizeText U text = ((visiblePieces U text).map U.nfkc).flatten := by
  have hpre : ∀ s, (∀ c ∈ s, isInvisibleFormatCharacter U c = false) →
      normalizeText U (s ++ text) = ((visiblePieces U (s ++ text)).map U.nfkc).flatten := by
    induction text with
    | nil =>
        intro s hs
        rw [List.append_nil, normalizeText_visible hU hs, visiblePieces,
          List.splitOnP_eq_singleton hs]
        simp
    | cons c text ih =>
        intro s hs
        cases hc : isInvisibleFormatCharacter U c with
        | true =>
            have hrest := ih [] (by simp)
            rw [List.nil_append] at hrest
            have hsplit : visiblePieces U (s ++ c :: text) = s :: visiblePieces U text :=
              List.splitOnP_append_cons_of_forall_mem hs c hc text
            rw [normalizeText_boundary hU hc, normalizeText_visible hU hs, hrest, hsplit,
              List.map_cons, List.flatten_cons]
        | false =>
            have hmore := ih (s ++ [c]) fun x hx => by
              rcases List.mem_append.mp hx with hx | hx
              · exact hs x hx
              · rwa [List.mem_singleton.mp hx]
            rwa [List.append_assoc, List.singleton_append] at hmore
  exact hpre [] (by simp)

/-- Normalising pieces before they are put together makes no difference. -/
theorem nfkc_flatten (hU : U.Lawful) (pieces : List Str) :
    U.nfkc (pieces.map U.nfkc).flatten = U.nfkc pieces.flatten := by
  induction pieces with
  | nil => rfl
  | cons s pieces ih =>
      rw [List.map_cons, List.flatten_cons, List.flatten_cons, ← hU.append, hU.idempotent, ih,
        hU.append]

/-- What a normal form of a text is: it is in NFKC, nothing in it is invisible, normalising it again
changes nothing, and it is what the visible text normalises to. -/
structure NormalForm (U : Unicode) (text : Str) : Prop where
  nfkc_eq : U.nfkc (normalizeText U text) = normalizeText U text
  visible : ∀ c ∈ normalizeText U text, isInvisibleFormatCharacter U c = false
  idempotent : normalizeText U (normalizeText U text) = normalizeText U text
  spelling : normalizeText U text = U.nfkc (visibleText U text)

theorem visible_normalizeText (h : c ∈ normalizeText U text) :
    isInvisibleFormatCharacter U c = false := by
  simpa using (List.mem_filter.mp h).2

/-- **The normal form.** -/
theorem normalize_normal_form_iff (hU : U.Lawful) (text : Str) :
    NormalForm U text ↔
      U.nfkc (visiblePieces U text).flatten = ((visiblePieces U text).map U.nfkc).flatten := by
  have hpieces : normalizeText U text = ((visiblePieces U text).map U.nfkc).flatten :=
    normalizeText_pieces hU
  constructor
  · intro h
    rw [← hpieces]
    exact h.spelling.symm
  · intro h
    have hstable : U.nfkc (normalizeText U text) = normalizeText U text := by
      rw [hpieces, nfkc_flatten hU, h]
    refine ⟨hstable, fun c hc => visible_normalizeText hc, ?_, ?_⟩
    · rw [normalizeText_visible hU fun c hc => visible_normalizeText hc, hstable]
    · rw [hpieces, visibleText, h]

/-! ## A database of three characters -/

/-- `e` and an acute accent compose. -/
def composeAcute (c : CodePoint) (rest : Str) : Str :=
  if c = 0x65 ∧ rest.head? = some 0x301 then 0xE9 :: rest.tail else c :: rest

def sampleUnicode : Unicode where
  category c := if c = 0x200B then "Cf" else if c = 0x301 then "Mn" else "Ll"
  nfkc s := s.foldr composeAcute []

theorem foldr_composeAcute (s r : Str) :
    (s.foldr composeAcute []).foldr composeAcute r = s.foldr composeAcute r := by
  induction s with
  | nil => rfl
  | cons c s ih =>
      rw [List.foldr_cons, List.foldr_cons, ← ih, composeAcute]
      split
      · next hacute =>
        obtain ⟨rfl, hhead⟩ := hacute
        obtain ⟨rest, hrest⟩ : ∃ rest, s.foldr composeAcute [] = 0x301 :: rest := by
          cases hs : s.foldr composeAcute [] with
          | nil => simp [hs] at hhead
          | cons x rest => exact ⟨rest, by simpa [hs] using hhead⟩
        rw [hrest]
        simp [composeAcute]
      · rfl

theorem foldr_composeAcute_append (hc : c ≠ 0x301) (r : Str) :
    s.foldr composeAcute (c :: r) = s.foldr composeAcute [] ++ c :: r := by
  induction s with
  | nil => rfl
  | cons x s ih =>
      rw [List.foldr_cons, List.foldr_cons, ih]
      cases hs : s.foldr composeAcute [] with
      | nil => simp [composeAcute, hc]
      | cons y rest =>
          by_cases hacute : x = 0x65 ∧ y = 0x301
          · simp [composeAcute, hacute]
          · simp [composeAcute, hacute]

theorem mem_foldr_composeAcute (h : c ∈ s.foldr composeAcute []) : c = 0xE9 ∨ c ∈ s := by
  induction s with
  | nil => cases h
  | cons x s ih =>
      rw [List.foldr_cons, composeAcute] at h
      split at h
      · rcases List.mem_cons.mp h with rfl | h
        · exact .inl rfl
        · exact (ih (List.mem_of_mem_tail h)).imp_right (List.mem_cons_of_mem x)
      · rcases List.mem_cons.mp h with rfl | h
        · exact .inr (by simp)
        · exact (ih h).imp_right (List.mem_cons_of_mem x)

theorem lawful_sampleUnicode : sampleUnicode.Lawful where
  idempotent s := foldr_composeAcute s []
  append s t := by
    show (s.foldr composeAcute [] ++ t.foldr composeAcute []).foldr composeAcute [] = _
    rw [List.foldr_append, foldr_composeAcute t, foldr_composeAcute s]
    exact List.foldr_append.symm
  boundary s c t hc := by
    have hletter : c ≠ 0x65 := by
      rintro rfl
      exact absurd hc (by decide)
    have hmark : c ≠ 0x301 := by
      rintro rfl
      exact absurd hc (by decide)
    have hfirst : composeAcute c (t.foldr composeAcute []) = c :: t.foldr composeAcute [] :=
      if_neg fun h => hletter h.1
    show (s ++ c :: t).foldr composeAcute [] = _
    rw [List.foldr_append, List.foldr_cons, hfirst, foldr_composeAcute_append hmark]
    rfl
  visible s hs c hc := by
    rcases mem_foldr_composeAcute hc with rfl | hc
    · decide
    · exact hs c hc

/-- `e`, an invisible character and `f`. -/
theorem normalize_normal_form_iff_sample : NormalForm sampleUnicode [0x65, 0x200B, 0x66] :=
  (normalize_normal_form_iff lawful_sampleUnicode [0x65, 0x200B, 0x66]).mpr (by decide)

/-- `e`, a zero-width space and an acute accent: the letter and the accent are left side by side,
and normalising once more composes them. -/
theorem separated_accent_not_normal : ¬ NormalForm sampleUnicode [0x65, 0x200B, 0x301] ∧
    normalizeText sampleUnicode [0x65, 0x200B, 0x301] = [0x65, 0x301] ∧
    normalizeText sampleUnicode [0x65, 0x301] = [0xE9] := by
  refine ⟨fun h => ?_, by decide, by decide⟩
  exact absurd h.idempotent (by decide)

end Scap.Dlp
