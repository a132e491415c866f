import Scap.Dlp.Scanner

/-!
# Sanitised copies

`sanitize_external_projection` redacts twice. Redaction is not idempotent (`not_idempotent`), and so
the function gives out a copy only where the second redaction leaves it as it is
(`sanitize_eq_ok_iff`): what it gives out, it gives out again (`sanitized_is_stable`). A placeholder
of the scanner's own is no secret where it is the whole value of an assignment
(`placeholder_not_assigned`).
-/

namespace Scap.Dlp

open Scap.Lib Scap.Lib.Regex Scap.Py

/-- `DLPPolicyViolation`, without its message. -/
structure DLPPolicyViolation where
  action : DLPAction
  categories : List String
  deriving DecidableEq, Repr

/-- `DLPPolicyViolation(action, categories)`. -/
def DLPPolicyViolation.make (action : DLPAction) (categories : List String) : DLPPolicyViolation :=
  ⟨action, categories.eraseDups⟩

/-- `_DLP_LABELS`. -/
def dlpLabel : FindingType → String
  | .secret => "mật khẩu"
  | .jwt => "JWT"
  | .bearerToken => "token Bearer"
  | .privateKey => "khóa riêng tư"
  | .apiKey => "API key / token"
  | .email => "email"
  | .phone => "số điện thoại"
  | .paymentCard => "số thẻ"
  | .cccd => "CCCD"
  | .taxId => "mã số thuế"
  | .healthData => "dữ liệu sức khỏe"
  | .customDictionary => "dữ liệu nội bộ"
  | .inspectionLimit => "dữ liệu vượt giới hạn kiểm tra"

/-- `[_DLP_LABELS[item.finding_type] for item in findings]`. -/
def labelsOf (findings : List DLPFinding) : List String :=
  findings.map fun item => dlpLabel item.findingType

/-- `any(item.finding_type is FindingType.INSPECTION_LIMIT for item in findings)`. -/
def limited (findings : List DLPFinding) : Bool :=
  findings.any fun item => item.findingType = .inspectionLimit

namespace Scanner

variable (S : Scanner)

/-- `sanitize_external_projection`. -/
def sanitizeExternalProjection (content : Str) : Except DLPPolicyViolation (Str × List String) :=
  let (sanitized, findings) := S.redact content
  let labels := labelsOf findings
  if limited findings then .error (.make .block labels)
  else
    let (verified, residualFindings) := S.redact sanitized
    if verified ≠ sanitized ∨ limited residualFindings then
      .error (.make .block (labels ++ labelsOf residualFindings))
    else .ok (sanitized, labels.eraseDups)

variable {S} {content s : Str} {labels : List String}

/-- What a copy is. -/
theorem sanitize_eq_ok_iff : S.sanitizeExternalProjection content = .ok (s, labels) ↔
    s = (S.redact content).1 ∧ limited (S.redact content).2 = false ∧ (S.redact s).1 = s ∧
      limited (S.redact s).2 = false ∧ labels = (labelsOf (S.redact content).2).eraseDups := by
  unfold sanitizeExternalProjection
  obtain ⟨⟨sanitized, findings⟩, hfirst⟩ : ∃ r, S.redact content = r := ⟨_, rfl⟩
  obtain ⟨⟨verified, residual⟩, hsecond⟩ : ∃ r, S.redact sanitized = r := ⟨_, rfl⟩
  simp only [hfirst, hsecond]
  constructor
  · intro h
    split at h
    · cases h
    · next hlimit =>
      split at h
      · cases h
      · next hstable =>
        obtain ⟨hverified, hresidual⟩ := not_or.mp hstable
        obtain ⟨rfl, rfl⟩ := Prod.mk.inj (Except.ok.inj h)
        rw [hsecond]
        exact ⟨rfl, by simpa using hlimit, not_not.mp hverified, by simpa using hresidual, rfl⟩
  · rintro ⟨rfl, hlimit, hverified, hresidual, rfl⟩
    rw [hsecond] at hverified hresidual
    have hstable : ¬ (verified ≠ s ∨ limited residual = true) := by
      rintro (hne | hlimited)
      · exact hne hverified
      · rw [hresidual] at hlimited
        cases hlimited
    rw [if_neg (by simp [hlimit]), if_neg hstable]

/-- Everything else is blocked. -/
theorem sanitize_eq_error {e : DLPPolicyViolation}
    (h : S.sanitizeExternalProjection content = .error e) : e.action = .block := by
  unfold sanitizeExternalProjection at h
  split at h
  simp only at h
  split at h
  · obtain rfl := Except.error.inj h
    rfl
  · split at h
    · obtain rfl := Except.error.inj h
      rfl
    · cases h

/-- A copy is its own copy. -/
theorem sanitize_again (h : S.sanitizeExternalProjection content = .ok (s, labels)) :
    S.sanitizeExternalProjection s = .ok (s, (labelsOf (S.redact s).2).eraseDups) := by
  obtain ⟨-, -, hstable, hresidual, -⟩ := sanitize_eq_ok_iff.mp h
  exact sanitize_eq_ok_iff.mpr ⟨hstable.symm, hresidual, hstable, hresidual, rfl⟩

end Scanner

/-! ## The scanner's own placeholders -/

section Placeholders

variable {types : Finset FindingType} {c : CodePoint} {text : Str} {C : Characters}

/-- `[A-Z_+]`. -/
def categoryCharacter (c : CodePoint) : Bool := upper c || among "_+" c

theorem mem_joinPlus {words : List Str} (h : c ∈ joinPlus words) :
    c = 0x2B ∨ ∃ word ∈ words, c ∈ word := by
  obtain ⟨word, hword, hc⟩ := List.mem_flatten.mp h
  induction words with
  | nil => cases hword
  | cons w words ih =>
      cases words with
      | nil =>
          obtain rfl := List.mem_singleton.mp hword
          exact .inr ⟨word, List.mem_singleton.mpr rfl, hc⟩
      | cons w' words =>
          rw [List.intersperse_cons_cons] at hword
          rcases List.mem_cons.mp hword with rfl | hword
          · exact .inr ⟨word, List.mem_cons_self, hc⟩
          · rcases List.mem_cons.mp hword with rfl | hword
            · exact .inl (List.mem_singleton.mp hc)
            · have hrest := ih (List.mem_flatten.mpr ⟨word, hword, hc⟩) hword
              exact hrest.imp_right fun ⟨v, hv, hcv⟩ => ⟨v, List.mem_cons_of_mem w hv, hcv⟩

theorem joinPlus_ne_nil {words : List Str} (h : words ≠ []) (hwords : ∀ word ∈ words, word ≠ []) :
    joinPlus words ≠ [] := by
  cases words with
  | nil => exact absurd rfl h
  | cons w words =>
      intro hnil
      exact hwords w List.mem_cons_self
        (List.flatten_eq_nil_iff.mp hnil w (by cases words <;> simp))

theorem upper_value (t : FindingType) : (Str.ofString t.value.toUpper).isEmpty = false ∧
    (Str.ofString t.value.toUpper).all categoryCharacter = true := by
  cases t <;> decide +kernel

theorem category_spec (h : types.Nonempty) :
    category types ≠ [] ∧ ∀ c ∈ category types, categoryCharacter c = true := by
  have hwords : ∀ word ∈ ((FindingType.all.filter fun t => t ∈ types).map fun t : FindingType =>
      Str.ofString t.value.toUpper).insertionSort fun a b => a ≤ b,
      ∃ t : FindingType, word = Str.ofString t.value.toUpper := by
    intro word hword
    rw [List.mem_insertionSort] at hword
    obtain ⟨t, -, rfl⟩ := List.mem_map.mp hword
    exact ⟨t, rfl⟩
  constructor
  · obtain ⟨t, ht⟩ := h
    have hmem : Str.ofString t.value.toUpper ∈ ((FindingType.all.filter fun t => t ∈ types).map
        fun t : FindingType => Str.ofString t.value.toUpper).insertionSort fun a b => a ≤ b := by
      rw [List.mem_insertionSort]
      exact List.mem_map_of_mem (List.mem_filter.mpr ⟨t.mem_all, by simpa using ht⟩)
    refine joinPlus_ne_nil (List.ne_nil_of_mem hmem) fun word hword => ?_
    obtain ⟨t, rfl⟩ := hwords word hword
    exact List.isEmpty_eq_false_iff.mp (upper_value t).1
  · intro c hc
    rcases mem_joinPlus hc with rfl | ⟨word, hword, hc⟩
    · decide
    · obtain ⟨t, rfl⟩ := hwords word hword
      exact List.all_eq_true.mp (upper_value t).2 c hc

theorem matches_lit {a : Point GroupName CodePoint} {word : String} {rest : Str}
    (h : a.rest = Str.ofString word ++ rest) :
    (Dlp.lit word).Matches a (a.along (Str.ofString word)) := by
  have hclasses : Dlp.lit word =
      seqs (((Str.ofString word).map fun x c => decide (c = x)).map .char) := by
    rw [Dlp.lit, List.map_map]
    rfl
  rw [hclasses]
  refine Matches.word h ?_
  rw [List.forall₂_map_left_iff]
  exact List.forall₂_same.mpr fun x _ => by simp

/-- `_PLACEHOLDER_RE` knows what the scanner writes. -/
theorem placeholderRe_placeholder (h : types.Nonempty) :
    placeholderRe.fullmatch (placeholder types) = true := by
  obtain ⟨hne, hcategory⟩ := category_spec h
  have hrest₀ : (Point.init (placeholder types) : Point GroupName CodePoint).rest =
      Str.ofString "[REDACTED" ++
        (Str.ofString ":" ++ (category types ++ (Str.ofString "]" ++ []))) := by
    have hsplit : Str.ofString "[REDACTED:" = Str.ofString "[REDACTED" ++ Str.ofString ":" := by
      decide
    show placeholder types = _
    rw [placeholder, hsplit]
    simp
  have hrest₁ := Point.along_rest hrest₀
  have hrest₂ := Point.along_rest hrest₁
  have hrest₃ := Point.along_rest hrest₂
  have hrest₄ := Point.along_rest hrest₃
  have hfirst := matches_lit hrest₀
  have hcolon := matches_lit hrest₁
  have hword := Matches.plus hrest₂ hne hcategory
  have hlast := matches_lit hrest₃
  have hmiddle : (seqs [Dlp.lit ":", plus (one categoryCharacter)]).Matches _ _ :=
    ⟨_, hcolon, hword⟩
  have hopt := hmiddle.opt (hmiddle.lt (by decide))
  exact fullmatch_iff.mpr ⟨_, .inr (.inr (.inr (.inr ⟨_, hfirst, _, hopt, hlast⟩))), hrest₄⟩

theorem placeholder_eq (types : Finset FindingType) :
    ∃ middle, placeholder types = 0x5B :: (middle ++ [0x5D]) :=
  ⟨Str.ofString "REDACTED:" ++ category types, by
    have hopen : Str.ofString "[REDACTED:" = 0x5B :: Str.ofString "REDACTED:" := by decide
    have hclose : Str.ofString "]" = [0x5D] := by decide
    rw [placeholder, hopen, hclose]
    rfl⟩

/-- A text that begins with an opening and ends with a closing bracket is not stripped. -/
theorem strip_brackets (middle : Str) :
    Str.strip (0x5B :: (middle ++ [0x5D])) = 0x5B :: (middle ++ [0x5D]) := by
  rw [Str.strip, List.dropWhile_cons_of_neg (by decide), ← List.cons_append,
    List.rdropWhile_concat_neg _ _ _ (by decide)]

/-- A placeholder is no secret, bare or between two quotation marks. -/
theorem not_isLiteralSecret_placeholder (h : types.Nonempty) {value : Str}
    (hvalue : value = placeholder types ∨
      ∃ mark, among "\"'" mark = true ∧ value = mark :: (placeholder types ++ [mark])) :
    C.isLiteralSecret value = false := by
  obtain ⟨middle, hmiddle⟩ := placeholder_eq types
  have hstrip : Str.strip (placeholder types) = placeholder types := by
    rw [hmiddle, strip_brackets]
  have hinner : Str.strip (if value.head?.any (among "\"'") then value.tail.dropLast else value) =
      placeholder types := by
    rcases hvalue with rfl | ⟨mark, hmark, rfl⟩
    · have hbare : ((placeholder types).head?.any (among "\"'")) = false := by
        rw [hmiddle]
        rfl
      rw [hbare]
      exact hstrip
    · have hquoted : ((mark :: (placeholder types ++ [mark])).head?.any (among "\"'")) = true := hmark
      rw [hquoted, if_pos rfl, List.tail_cons, List.dropLast_concat, hstrip]
  rw [Characters.isLiteralSecret]
  simp only [hinner, placeholderRe_placeholder h, Bool.true_or, if_true]

/-- The detectors of assigned values. -/
def assignmentDetectors : List String :=
  ["secret.assignment", "api_key.assignment", "api_key.env_token"]

/-- What such a detector reports is a literal secret. -/
theorem literal_of_assignment {s : DetectedSpan} (hs : s ∈ regexSpans C text)
    (hdetector : s.detectorId ∈ assignmentDetectors) :
    C.isLiteralSecret (slice text s.start s.stop) = true := by
  obtain ⟨rule, hrule, hs⟩ := List.mem_flatMap.mp hs
  obtain ⟨m, hm, hs⟩ := List.mem_filterMap.mp hs
  simp only [Option.bind_eq_bind, Option.bind_eq_some_iff] at hs
  obtain ⟨c, hc, _, hguard, hs⟩ := hs
  obtain rfl := Option.some.inj hs
  have hvalid : rule.validator c.text = true := (Option.guard_eq_some' _).mp hguard
  have htext : c.text = slice text c.start c.stop := ((mem_finditer hm).group hc).text_eq
  have hvalidator : rule.validator = C.isLiteralSecret := by
    simp only [Characters.regexRules, List.mem_cons, List.not_mem_nil, or_false] at hrule
    revert hdetector
    show rule.detectorId ∈ assignmentDetectors → _
    rcases hrule with rfl | rfl | rfl | rfl | rfl | rfl | rfl | rfl | rfl | rfl | rfl | rfl | rfl | rfl
    case inl => exact fun _ => rfl
    case inr.inr.inr.inr.inl => exact fun _ => rfl
    case inr.inr.inr.inr.inr.inl => exact fun _ => rfl
    all_goals
      intro h
      exact absurd h (by simp [assignmentDetectors, Characters.tokenBearer, Characters.tokenJwt,
        Characters.keyPrivatePem, Characters.apiKeyKnownFormat, Characters.piiEmail,
        Characters.piiVnPhone, Characters.paymentCardLuhn, Characters.vnCccdContext,
        Characters.vnCccdStructure, Characters.vnTaxIdContext, Characters.vnTaxIdChecksum])
  rwa [hvalidator, htext] at hvalid

/-- No such detector reports a placeholder. -/
theorem placeholder_not_assigned {s : DetectedSpan} (hs : s ∈ regexSpans C text)
    (hdetector : s.detectorId ∈ assignmentDetectors) (h : types.Nonempty) :
    slice text s.start s.stop ≠ placeholder types ∧
      ∀ mark, among "\"'" mark = true →
        slice text s.start s.stop ≠ mark :: (placeholder types ++ [mark]) := by
  have hliteral := literal_of_assignment hs hdetector
  constructor
  · intro hvalue
    rw [not_isLiteralSecret_placeholder h (.inl hvalue)] at hliteral
    cases hliteral
  · intro mark hmark hvalue
    rw [not_isLiteralSecret_placeholder h (.inr ⟨mark, hmark, hvalue⟩)] at hliteral
    cases hliteral

end Placeholders

/-- **Sanitised copies.** A copy is given out exactly where a second redaction leaves it as it is and
both inspections reach the end; everything else is blocked, and a copy is its own copy. Nor is a
value that the scanner wrote itself assigned as a secret. -/
theorem sanitized_is_stable (S : Scanner) :
    (∀ content s labels, S.sanitizeExternalProjection content = .ok (s, labels) ↔
      s = (S.redact content).1 ∧ limited (S.redact content).2 = false ∧ (S.redact s).1 = s ∧
        limited (S.redact s).2 = false ∧ labels = (labelsOf (S.redact content).2).eraseDups) ∧
      (∀ content e, S.sanitizeExternalProjection content = .error e → e.action = .block) ∧
      (∀ content s labels, S.sanitizeExternalProjection content = .ok (s, labels) →
        S.sanitizeExternalProjection s = .ok (s, (labelsOf (S.redact s).2).eraseDups)) ∧
      ∀ text, ∀ span ∈ regexSpans S.characters text, span.detectorId ∈ assignmentDetectors →
        ∀ types : Finset FindingType, types.Nonempty →
          slice text span.start span.stop ≠ placeholder types ∧
            ∀ mark, among "\"'" mark = true →
              slice text span.start span.stop ≠ mark :: (placeholder types ++ [mark]) :=
  ⟨fun _ _ _ => Scanner.sanitize_eq_ok_iff, fun _ _ h => Scanner.sanitize_eq_error h,
    fun _ _ _ h => Scanner.sanitize_again h,
    fun _ _ hspan hdetector _ htypes => placeholder_not_assigned hspan hdetector htypes⟩

/-- A telephone number behind a password that is too short to be one. -/
def shortPassword : Str := Str.ofString "password=x0 912345678"

/-- The placeholder makes it long enough. -/
def longPassword : Str := Str.ofString "password=x[REDACTED:PHONE]"

theorem redact_shortPassword :
    (sampleScanner.redact shortPassword).1 = longPassword ∧
      labelsOf (sampleScanner.redact shortPassword).2 = [dlpLabel .phone] ∧
      limited (sampleScanner.redact shortPassword).2 = false := by
  decide +kernel

theorem redact_longPassword :
    (sampleScanner.redact longPassword).1 = Str.ofString "password=[REDACTED:SECRET]" ∧
      labelsOf (sampleScanner.redact longPassword).2 = [dlpLabel .secret] := by
  decide +kernel

/-- A second redaction takes the first one's placeholder for a secret, and the copy is blocked. -/
theorem not_idempotent :
    (¬ ∀ (S : Scanner) (text : Str), limited (S.redact text).2 = false →
      (S.redact (S.redact text).1).1 = (S.redact text).1) ∧
      sampleScanner.sanitizeExternalProjection shortPassword =
        .error ⟨.block, [dlpLabel .phone, dlpLabel .secret]⟩ := by
  obtain ⟨hfirst, hlabels, hlimit⟩ := redact_shortPassword
  obtain ⟨hsecond, hresidual⟩ := redact_longPassword
  have hne : (sampleScanner.redact longPassword).1 ≠ longPassword := by
    rw [hsecond]
    decide
  constructor
  · intro h
    have hagain := h sampleScanner shortPassword hlimit
    rw [hfirst] at hagain
    exact hne hagain
  · simp only [Scanner.sanitizeExternalProjection, hfirst, hlabels, hlimit, hresidual]
    rw [if_neg (by decide), if_pos (.inl hne)]
    decide

end Scap.Dlp
