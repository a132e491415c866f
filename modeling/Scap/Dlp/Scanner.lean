import Scap.Dlp.Dictionary
import Scap.Dlp.Views
import Scap.Lib.Exploration
import Scap.Py.OrderedDict

/-!
# The scanner

The detectors on one text, the search through decoded views with its budgets, and what the scanner
does with the spans: aggregated findings, the redacted text and the policy decision.

`inText_detectSpans`: every span that is detected is a non-empty part of the text.
-/

namespace Scap.Dlp

open Scap.Lib Scap.Lib.Regex Scap.Py
open Scap.Sessions (DataClass)

inductive DLPAction where
  | allow
  | redact
  | confirm
  | block
  | localOnly
  deriving DecidableEq, Repr

/-- `DLPScanner`. A policy has an action for each class. -/
structure Scanner where
  characters : Characters
  customDictionaries : List CustomDictionary
  policy : DataClass → DLPAction

/-! ## The detectors -/

/-- `_regex_spans`. -/
def regexSpans (C : Characters) (text : Str) : List DetectedSpan :=
  C.regexRules.flatMap fun rule => (rule.pattern.finditer text).filterMap fun m => do
    let c ← m.group? rule.group
    guard (rule.validator c.text)
    return ⟨c.start, c.stop, rule.findingType, rule.detectorId, rule.dataClass⟩

/-- `_health_spans`. -/
def healthSpans (C : Characters) (text : Str) : List DetectedSpan :=
  ((C.healthField.finditer text).filterMap fun m => (m.group? .value).map fun c =>
    ⟨c.start, c.stop, .healthData, "health.structured_context", .highlyConfidential⟩) ++
  (C.healthTerm.finditer text).filterMap fun m =>
    -- the subject is looked for near the term
    let window := slice text (m.start - 96) (min text.length (m.stop + 96))
    if C.personalHealthContext.search window then
      some ⟨m.start, m.stop, .healthData, "health.personal_context", .highlyConfidential⟩
    else none

namespace Scanner

variable (S : Scanner)

/-- `_detect_plain_spans`. -/
def detectPlainSpans (text : Str) : List DetectedSpan :=
  let C := S.characters
  deduplicateAndDisambiguate (regexSpans C text ++ healthSpans C text ++
    dictionarySpans C.fold C.isAlnum C.sha256 S.customDictionaries text)

/-! ## The views -/

def maxScanCharacters : Nat := 65536

def maxDecodeDepth : Nat := 3

def maxDecodedCharacters : Nat := 262144

def maxDecodedViews : Nat := 512

/-- `limit_span`. -/
def limitSpan (start stop : Nat) : DetectedSpan :=
  ⟨start, stop, .inspectionLimit, "inspection.budget", .highlyConfidential⟩

/-- A span of a view as a span of the source. -/
def sourceOf (view : InspectionView) (found : DetectedSpan) : DetectedSpan :=
  let source := view.sourceSpan found.start found.stop
  ⟨source.1, source.2, found.findingType,
    (if view.depth = 0 then "" else "encoded.") ++ found.detectorId, found.dataClass⟩

/-- The search through the views: the loop body of `_detect_spans`. -/
def exploration : Exploration InspectionView (Str × List (Nat × Nat)) DetectedSpan where
  visit view := (S.detectPlainSpans view.text).map (sourceOf view)
  children view := decodedViews S.characters view
  identity view := (view.text, view.origins)
  weight view := view.text.length
  fits seen total decoded := decoded.depth ≤ maxDecodeDepth && seen < maxDecodedViews &&
    total + decoded.text.length ≤ maxDecodedCharacters
  refuse decoded :=
    let source := decoded.sourceSpan 0 decoded.text.length
    limitSpan source.1 source.2

/-- The view of the text itself. -/
def initialView (text : Str) : InspectionView :=
  ⟨text, (List.range text.length).map fun index => (index, index + 1), 0⟩

/-- The views that are searched. There are no more turns than views that fit. -/
def exploredViews (text : Str) : List InspectionView :=
  S.exploration.visits maxDecodedViews (S.exploration.start (initialView text))

/-- `_detect_spans`. -/
def detectSpans (text : Str) : List DetectedSpan :=
  if maxScanCharacters < text.length then [limitSpan 0 text.length]
  else if text.isEmpty then []
  else deduplicateAndDisambiguate
    (S.exploration.explore maxDecodedViews (S.exploration.start (initialView text))).out

/-! ## Spans lie in the text -/

section Spans

variable {C : Characters} {S : Scanner} {text : Str} {s : DetectedSpan} {view d : InspectionView}
  {size : Nat}

theorem stop_le_regexSpans (h : s ∈ regexSpans C text) : s.stop ≤ text.length := by
  obtain ⟨rule, -, h⟩ := List.mem_flatMap.mp h
  obtain ⟨m, hm, hs⟩ := List.mem_filterMap.mp h
  simp only [Option.bind_eq_bind, Option.bind_eq_some_iff] at hs
  obtain ⟨c, hc, _, -, hs⟩ := hs
  obtain rfl := Option.some.inj hs
  have hof := mem_finditer hm
  exact (hof.group hc).stop_le.trans hof.stop_le

theorem stop_le_healthSpans (h : s ∈ healthSpans C text) : s.stop ≤ text.length := by
  rcases List.mem_append.mp h with h | h
  · obtain ⟨m, hm, hs⟩ := List.mem_filterMap.mp h
    obtain ⟨c, hc, rfl⟩ := Option.map_eq_some_iff.mp hs
    have hof := mem_finditer hm
    exact (hof.group hc).stop_le.trans hof.stop_le
  · obtain ⟨m, hm, hs⟩ := List.mem_filterMap.mp h
    simp only [Option.ite_none_right_eq_some] at hs
    obtain rfl := Option.some.inj hs.2
    exact (mem_finditer hm).stop_le

theorem stop_le_dictionarySpans {fold : CodePoint → Str} {isAlnum : CodePoint → Bool}
    {sha256 : Bytes → Digest} {dictionaries : List CustomDictionary} (hne : text ≠ [])
    (h : s ∈ dictionarySpans fold isAlnum sha256 dictionaries text) : s.stop ≤ text.length := by
  obtain ⟨dictionary, -, h⟩ := List.mem_flatMap.mp h
  obtain ⟨term, -, h⟩ := List.mem_flatMap.mp h
  obtain ⟨start, -, rfl⟩ := List.mem_map.mp h
  have hpos := List.length_pos_iff.mpr hne
  have horigin : ∀ i, (foldedOrigins fold text).getD i 0 < text.length := by
    intro i
    rw [List.getD_eq_getElem?_getD]
    cases hi : (foldedOrigins fold text)[i]? with
    | none => exact hpos
    | some j =>
        obtain ⟨⟨c, k⟩, hmem, hj⟩ := List.mem_flatMap.mp (List.mem_of_getElem? hi)
        obtain ⟨-, -, rfl⟩ := List.mem_map.mp hj
        have hbound := (List.mem_zipIdx hmem).2.1
        simpa using hbound
  exact horigin _

theorem inText_detectPlainSpans (hne : text ≠ []) (h : s ∈ S.detectPlainSpans text) :
    s.InText text := by
  obtain ⟨hmem, hlt, -⟩ := mem_deduplicateAndDisambiguate.mp h
  refine ⟨hlt, ?_⟩
  rcases List.mem_append.mp hmem with hmem | hmem
  · rcases List.mem_append.mp hmem with hmem | hmem
    · exact stop_le_regexSpans hmem
    · exact stop_le_healthSpans hmem
  · exact stop_le_dictionarySpans hne hmem

theorem traced_initialView (text : Str) : (initialView text).Traced text.length where
  length_eq := by simp [initialView]
  ordered := by
    rw [initialView, List.pairwise_map]
    refine List.pairwise_lt_range.imp fun {a b} hlt => ?_
    exact ⟨hlt.le, Nat.succ_le_succ hlt.le⟩
  inside := by
    intro o ho
    obtain ⟨i, hi, rfl⟩ := List.mem_map.mp ho
    exact ⟨Nat.lt_succ_self i, List.mem_range.mp hi⟩

/-- What every view that is searched is. -/
structure Inspected (size : Nat) (view : InspectionView) : Prop where
  traced : view.Traced size
  ne_nil : view.text ≠ []

theorem Inspected.child (h : Inspected size view) (hd : d ∈ decodedViews S.characters view) :
    Inspected size d := by
  obtain ⟨ps, hreads⟩ := reads_decodedViews h.traced hd
  exact ⟨hreads.traced h.traced, ne_nil_decodedViews hd⟩

theorem inspected_exploredViews (hne : text ≠ []) (h : view ∈ S.exploredViews text) :
    Inspected text.length view := by
  refine Exploration.visits_inv (P := Inspected text.length) ?_ ?_ view h
  · exact fun v hv s d hd _ => hv.child hd
  · intro v hv
    rw [List.mem_singleton.mp hv]
    exact ⟨traced_initialView text, hne⟩

theorem Inspected.sourceOf_bounds (h : Inspected size view) (hs : s.InText view.text) :
    (sourceOf view s).start < (sourceOf view s).stop ∧ (sourceOf view s).stop ≤ size := by
  obtain ⟨hlt, hle, -⟩ := h.traced.sourceSpan_spec hs.start_lt hs.stop_le
  exact ⟨hlt, hle⟩

theorem Inspected.refuse_bounds (h : Inspected size view) :
    (S.exploration.refuse view).start < (S.exploration.refuse view).stop ∧
      (S.exploration.refuse view).stop ≤ size := by
  obtain ⟨hlt, hle, -⟩ := h.traced.sourceSpan_spec (List.length_pos_iff.mpr h.ne_nil) le_rfl
  exact ⟨hlt, hle⟩

/-- What the loop of `_detect_spans` collects. -/
theorem mem_out_exploration
    (h : s ∈ (S.exploration.explore maxDecodedViews (S.exploration.start (initialView text))).out) :
    ∃ view ∈ S.exploredViews text, (∃ found ∈ S.detectPlainSpans view.text, s = sourceOf view found) ∨
      ∃ d ∈ decodedViews S.characters view, s = S.exploration.refuse d := by
  rcases Exploration.mem_out h with hstart | ⟨view, hview, hfrom⟩
  · cases hstart
  · refine ⟨view, hview, hfrom.imp_left fun hvisit => ?_⟩
    obtain ⟨found, hfound, hs⟩ := List.mem_map.mp hvisit
    exact ⟨found, hfound, hs.symm⟩

/-- **Every span that is detected is a non-empty part of the text.** -/
theorem inText_detectSpans (h : s ∈ S.detectSpans text) : s.InText text := by
  unfold detectSpans at h
  split at h
  · next hlong =>
    rw [List.mem_singleton.mp h]
    exact ⟨(Nat.zero_le _).trans_lt hlong, le_rfl⟩
  · split at h
    · cases h
    · next hempty =>
      have hne : text ≠ [] := fun hnil => hempty (by rw [hnil]; rfl)
      obtain ⟨hmem, -⟩ := mem_deduplicateAndDisambiguate.mp h
      obtain ⟨view, hview, hfrom⟩ := mem_out_exploration hmem
      have hinspected := inspected_exploredViews hne hview
      rcases hfrom with ⟨found, hfound, rfl⟩ | ⟨d, hd, rfl⟩
      · obtain ⟨hlt, hle⟩ :=
          hinspected.sourceOf_bounds (inText_detectPlainSpans hinspected.ne_nil hfound)
        exact ⟨hlt, hle⟩
      · obtain ⟨hlt, hle⟩ := (hinspected.child hd).refuse_bounds (S := S)
        exact ⟨hlt, hle⟩

/-! ## The text itself is searched -/

theorem initialView_mem : initialView text ∈ S.exploredViews text :=
  List.mem_cons_self

theorem sourceOf_initialView (hs : s.InText text) : sourceOf (initialView text) s = s := by
  have hlt := hs.start_lt
  have hle := hs.stop_le
  have hspan := (traced_initialView text).sourceSpan_eq hs.start_lt hs.stop_le
  obtain ⟨start, stop, type, detector, dataClass⟩ := s
  simp only at hlt hspan
  have hlast : stop - 1 + 1 = stop := by omega
  simp only [sourceOf, hspan]
  simp [initialView, hlast]

/-- What is found in a view is detected, unless it is a phone number. -/
theorem mem_detectSpans (hlength : text.length ≤ maxScanCharacters)
    (hview : view ∈ S.exploredViews text) (hs : s ∈ S.detectPlainSpans view.text)
    (htype : s.findingType ≠ .phone) (hne : text ≠ []) :
    sourceOf view s ∈ S.detectSpans text := by
  have hinspected := inspected_exploredViews hne hview
  have hbounds := hinspected.sourceOf_bounds (inText_detectPlainSpans hinspected.ne_nil hs)
  have hempty : ¬ text.isEmpty = true := by simpa using hne
  rw [detectSpans, if_neg (Nat.not_lt.mpr hlength), if_neg hempty, mem_deduplicateAndDisambiguate]
  refine ⟨Exploration.visit_subset_out hview (List.mem_map_of_mem hs), hbounds.1, ?_⟩
  rintro ⟨hphone, -⟩
  exact htype hphone

/-- What a rule finds in the text is detected, unless it is a phone number. -/
theorem rule_detected {rule : RegexRule} {m : Match GroupName CodePoint} {c : Capture CodePoint}
    (hlength : text.length ≤ maxScanCharacters) (hrule : rule ∈ S.characters.regexRules)
    (hm : m ∈ rule.pattern.finditer text) (hc : m.group? rule.group = some c)
    (hvalid : rule.validator c.text = true) (hlt : c.start < c.stop)
    (htype : rule.findingType ≠ .phone) :
    ⟨c.start, c.stop, rule.findingType, rule.detectorId, rule.dataClass⟩ ∈ S.detectSpans text := by
  have hregex : ⟨c.start, c.stop, rule.findingType, rule.detectorId, rule.dataClass⟩ ∈
      regexSpans S.characters text := by
    refine List.mem_flatMap.mpr ⟨rule, hrule, List.mem_filterMap.mpr ⟨m, hm, ?_⟩⟩
    simp [hc, hvalid]
  have hplain : ⟨c.start, c.stop, rule.findingType, rule.detectorId, rule.dataClass⟩ ∈
      S.detectPlainSpans text := by
    refine mem_deduplicateAndDisambiguate.mpr ⟨?_, hlt, fun h => htype h.1⟩
    exact List.mem_append_left _ (List.mem_append_left _ hregex)
  have hstop := stop_le_regexSpans hregex
  have hne : text ≠ [] := by
    rintro rfl
    exact absurd hlt (by simp at hstop; omega)
  have hmem := mem_detectSpans hlength initialView_mem hplain htype hne
  rwa [sourceOf_initialView ⟨hlt, hstop⟩] at hmem

end Spans

end Scanner

/-! ## Findings -/

inductive FindingSeverity where
  | low
  | medium
  | high
  | critical
  deriving DecidableEq, Repr

/-- `_SEVERITY_BY_CLASS`. -/
def severityByClass : DataClass → FindingSeverity
  | .publicData => .low
  | .internal => .low
  | .confidential => .high
  | .highlyConfidential => .critical
  | .e2eePrivate => .critical

/-- `_SAFE_LABELS`. -/
def safeLabel : FindingType → String
  | .secret => "Mật khẩu hoặc bí mật"
  | .jwt => "JWT"
  | .bearerToken => "Bearer token"
  | .privateKey => "Khóa riêng tư"
  | .apiKey => "API key hoặc access token"
  | .email => "Địa chỉ email"
  | .phone => "Số điện thoại"
  | .paymentCard => "Số thẻ thanh toán"
  | .cccd => "Số căn cước công dân"
  | .taxId => "Mã số thuế Việt Nam"
  | .healthData => "Dữ liệu sức khỏe"
  | .customDictionary => "Từ điển dữ liệu tùy chỉnh"
  | .inspectionLimit => "Dữ liệu vượt giới hạn kiểm tra"

structure DLPFinding where
  findingType : FindingType
  detectorId : String
  label : String
  dataClass : DataClass
  severity : FindingSeverity
  count : Nat
  deriving DecidableEq, Repr

/-- `-_CLASS_RANK[item.data_class], item.finding_type.value, item.detector_id`. -/
def DLPFinding.key (f : DLPFinding) : Int ×ₗ String ×ₗ String :=
  toLex (-(f.dataClass.rank : Int), toLex (f.findingType.value, f.detectorId))

/-- `occurrences`: detectors that agree on a span are one occurrence. -/
def occurrences (spans : List DetectedSpan) :
    OrderedDict (Nat × Nat × FindingType × DataClass) DetectedSpan :=
  spans.foldl (fun d item => d.set (item.start, item.stop, item.findingType, item.dataClass) item)
    .empty

/-- The findings of one type and class. -/
def findingOf (items : List DetectedSpan) (kind : FindingType × DataClass) : DLPFinding :=
  let same := items.filter fun item => (item.findingType, item.dataClass) = kind
  { findingType := kind.1
    detectorId := match (same.map DetectedSpan.detectorId).eraseDups with
      | [id] => id
      | _ => kind.1.value ++ ".multiple"
    label := safeLabel kind.1
    dataClass := kind.2
    severity := severityByClass kind.2
    count := same.length }

/-- `_safe_findings`. -/
def safeFindings (spans : List DetectedSpan) : List DLPFinding :=
  let items := (occurrences spans).values
  (((items.map fun item => (item.findingType, item.dataClass)).eraseDups).map
    (findingOf items)).insertionSort fun a b => a.key ≤ b.key

/-! ## Redaction and policy -/

/-- `DLPDecision`. -/
structure DLPDecision where
  action : DLPAction
  declaredDataClass : DataClass
  effectiveDataClass : DataClass
  findings : List DLPFinding
  outputText : Option Str
  confirmed : Bool

/-- The greater of two classes, the first one where they are the same. -/
def maxClass (a b : DataClass) : DataClass := if a.rank < b.rank then b else a

namespace Scanner

variable (S : Scanner)

def normalize (text : Str) : Str := normalizeText S.characters.toUnicode text

/-- `redact`. -/
def redact (text : Str) : Str × List DLPFinding :=
  let normalized := S.normalize text
  let spans := S.detectSpans normalized
  (redactSpans normalized spans, safeFindings spans)

/-- `evaluate`. -/
def evaluate (text : Str) (dataClass : DataClass) (confirmed : Bool)
    (redactTypes : List FindingType) : DLPDecision :=
  let normalized := S.normalize text
  let spans := S.detectSpans normalized
  let findings := safeFindings spans
  let inferred := ((findings.filter fun item => !redactTypes.contains item.findingType).map
    DLPFinding.dataClass).foldl maxClass .publicData
  let effective := maxClass dataClass inferred
  let action := S.policy effective
  let action := if action = .confirm ∧ confirmed then .allow else action
  { action
    declaredDataClass := dataClass
    effectiveDataClass := effective
    findings
    outputText := match action with
      | .allow => some (redactSpans normalized
          (spans.filter fun item => redactTypes.contains item.findingType))
      | .redact => some (redactSpans normalized spans)
      | _ => none
    confirmed }

end Scanner

/-! ## A character database for ASCII -/

def sampleCharacters : Characters where
  category c := if c.val < 32 then "Cc" else "Ll"
  nfkc s := s
  nfkc_nil := rfl
  isAlnum := alphanumeric
  decimal c := if asciiDigit c then some (Fin.ofNat 10 (c.val - 48)) else none
  variants c := if upper c then [c + 32] else if range 'a' 'z' c then [c - 32] else []
  fold := sampleFold
  unescape s := s
  sha256 := sampleSha256

/-- The scanner without dictionaries, under the default policy. -/
def sampleScanner : Scanner where
  characters := sampleCharacters
  customDictionaries := []
  policy
    | .publicData => .allow
    | .internal => .confirm
    | .confidential => .redact
    | .highlyConfidential => .block
    | .e2eePrivate => .localOnly

end Scap.Dlp
