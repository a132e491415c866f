import Scap.Lib.Intervals
import Scap.Sessions.Policy

/-!
# Resolving and redacting spans

`_deduplicate_and_disambiguate` drops a phone number that overlaps a tax id, also where it reaches
beyond it; `resolution_exact` says when nothing is lost by that. What remains is blacked out:
`redactSpans_eq` compares `_redact_spans` with the walk through the text that keeps every character
outside the spans and writes one placeholder for each run of characters inside.
-/

namespace Scap.Dlp

open Scap.Lib Scap.Py
open Scap.Sessions (DataClass)

inductive FindingType where
  | secret
  | jwt
  | bearerToken
  | privateKey
  | apiKey
  | email
  | phone
  | paymentCard
  | cccd
  | taxId
  | healthData
  | customDictionary
  | inspectionLimit
  deriving DecidableEq, Repr

namespace FindingType

def value : FindingType → String
  | secret => "secret"
  | jwt => "jwt"
  | bearerToken => "bearer_token"
  | privateKey => "private_key"
  | apiKey => "api_key"
  | email => "email"
  | phone => "phone"
  | paymentCard => "payment_card"
  | cccd => "cccd"
  | taxId => "tax_id"
  | healthData => "health_data"
  | customDictionary => "custom_dictionary"
  | inspectionLimit => "inspection_limit"

/-- The enumeration in the order of its definition. -/
def all : List FindingType :=
  [secret, jwt, bearerToken, privateKey, apiKey, email, phone, paymentCard, cccd, taxId, healthData,
    customDictionary, inspectionLimit]

theorem mem_all (t : FindingType) : t ∈ all := by
  cases t <;> decide

end FindingType

/-- `_DetectedSpan`; `stop` is its `end`. -/
structure DetectedSpan where
  start : Nat
  stop : Nat
  findingType : FindingType
  detectorId : String
  dataClass : DataClass
  deriving DecidableEq, Repr

namespace DetectedSpan

def Covers (s : DetectedSpan) (i : Nat) : Prop := s.start ≤ i ∧ i < s.stop

/-- The span is not empty, and it lies in the text. -/
structure InText (s : DetectedSpan) (text : Str) : Prop where
  start_lt : s.start < s.stop
  stop_le : s.stop ≤ text.length

/-- `item.start, item.end`. -/
def bounds (s : DetectedSpan) : Nat ×ₗ Nat := toLex (s.start, s.stop)

/-- `item.start, item.end, item.finding_type.value`. -/
def key (s : DetectedSpan) : Nat ×ₗ Nat ×ₗ String :=
  toLex (s.start, toLex (s.stop, s.findingType.value))

def interval (s : DetectedSpan) : Interval FindingType := ⟨s.start, s.stop, {s.findingType}⟩

end DetectedSpan

variable {spans : List DetectedSpan} {s t : DetectedSpan} {i : Nat} {text : Str}

/-- `_overlap`. -/
def overlap (first second : DetectedSpan) : Bool :=
  first.start < second.stop && second.start < first.stop

/-! ## The functions -/

/-- `_deduplicate_and_disambiguate`. The keys of `unique` are all the fields of a span. -/
def deduplicateAndDisambiguate (spans : List DetectedSpan) : List DetectedSpan :=
  let result := (spans.filter fun item => item.start < item.stop).eraseDups
  let taxSpans := result.filter fun item => item.findingType = .taxId
  let result := result.filter fun item =>
    !(item.findingType = .phone && taxSpans.any fun taxSpan => overlap item taxSpan)
  result.insertionSort fun a b => a.key ≤ b.key

/-- `"+".join(words)`. -/
def joinPlus (words : List Str) : Str := (words.intersperse (Str.ofString "+")).flatten

/-- `"+".join(sorted(item.value.upper() for item in types))`. -/
def category (types : Finset FindingType) : Str :=
  joinPlus (((FindingType.all.filter fun t => t ∈ types).map fun t =>
    Str.ofString t.value.toUpper).insertionSort fun a b => a ≤ b)

/-- `f"[REDACTED:{category}]"`. -/
def placeholder (types : Finset FindingType) : Str :=
  Str.ofString "[REDACTED:" ++ category types ++ Str.ofString "]"

/-- `_redact_spans`. -/
def redactSpans (text : Str) (spans : List DetectedSpan) : Str :=
  let ordered := spans.insertionSort fun a b => a.bounds ≤ b.bounds
  splice placeholder text 0 (Interval.merge (ordered.map DetectedSpan.interval))

/-! ## Redaction -/

theorem sorted_intervals : Interval.Sorted
    ((spans.insertionSort fun a b => a.bounds ≤ b.bounds).map DetectedSpan.interval) := by
  have : Std.Total fun a b : DetectedSpan => a.bounds ≤ b.bounds := ⟨fun a b => le_total _ _⟩
  have : IsTrans DetectedSpan fun a b => a.bounds ≤ b.bounds := ⟨fun a b c => le_trans⟩
  have hsorted := List.pairwise_insertionSort (fun a b : DetectedSpan => a.bounds ≤ b.bounds) spans
  rw [Interval.Sorted, List.pairwise_map]
  refine hsorted.imp fun {a b} h => ?_
  show a.start ≤ b.start
  rcases Prod.Lex.toLex_le_toLex.mp h with hlt | ⟨heq, -⟩
  · exact hlt.le
  · exact heq.le

/-- `_redact_spans` by what it does to each position of the text. -/
def blackOutSpans (text : Str) (spans : List DetectedSpan) : Str :=
  let intervals := spans.map DetectedSpan.interval
  blackOut (Interval.covered intervals)
    (fun i => placeholder (Interval.marksFrom intervals i)) false 0 text

theorem covered_spans :
    Interval.covered (spans.map DetectedSpan.interval) i = true ↔ ∃ s ∈ spans, s.Covers i := by
  rw [Interval.covered_iff]
  constructor
  · rintro ⟨_, hmem, hi⟩
    obtain ⟨s, hs, rfl⟩ := List.mem_map.mp hmem
    exact ⟨s, hs, hi⟩
  · rintro ⟨s, hs, hi⟩
    exact ⟨_, List.mem_map_of_mem hs, hi⟩

theorem redactSpans_eq (h : ∀ s ∈ spans, s.InText text) :
    redactSpans text spans = blackOutSpans text spans := by
  have hmem : ∀ r, r ∈ (spans.insertionSort fun a b => a.bounds ≤ b.bounds).map
      DetectedSpan.interval ↔ r ∈ spans.map DetectedSpan.interval := by
    intro r
    simp only [List.mem_map, List.mem_insertionSort]
  have hin : ∀ r ∈ (spans.insertionSort fun a b => a.bounds ≤ b.bounds).map
      DetectedSpan.interval, r.start < r.stop ∧ r.stop ≤ text.length := by
    intro r hr
    obtain ⟨s, hs, rfl⟩ := List.mem_map.mp ((hmem r).mp hr)
    exact ⟨(h s hs).start_lt, (h s hs).stop_le⟩
  rw [redactSpans, splice_merge sorted_intervals (fun r hr => (hin r hr).1) fun r hr =>
    (hin r hr).2, Interval.covered_congr hmem]
  simp only [Interval.marksFrom_congr hmem]
  rfl

/-! ## Resolution -/

theorem mem_unique :
    s ∈ (spans.filter fun item => item.start < item.stop).eraseDups ↔
      s ∈ spans ∧ s.start < s.stop := by
  rw [List.mem_eraseDups, List.mem_filter, decide_eq_true_iff]

/-- A phone number that overlaps a tax id. -/
def Outvoted (spans : List DetectedSpan) (s : DetectedSpan) : Prop :=
  s.findingType = .phone ∧
    ∃ t ∈ spans, t.findingType = .taxId ∧ t.start < t.stop ∧ overlap s t = true

theorem mem_deduplicateAndDisambiguate :
    s ∈ deduplicateAndDisambiguate spans ↔
      s ∈ spans ∧ s.start < s.stop ∧ ¬ Outvoted spans s := by
  have hvoted : ((spans.filter fun item => item.start < item.stop).eraseDups.filter fun item =>
      item.findingType = .taxId).any (fun taxSpan => overlap s taxSpan) = true ↔
        ∃ t ∈ spans, t.findingType = .taxId ∧ t.start < t.stop ∧ overlap s t = true := by
    simp only [List.any_eq_true, List.mem_filter, mem_unique, decide_eq_true_iff]
    constructor
    · rintro ⟨t, ⟨⟨ht, hlt⟩, htype⟩, hover⟩
      exact ⟨t, ht, htype, hlt, hover⟩
    · rintro ⟨t, ht, htype, hlt, hover⟩
      exact ⟨t, ⟨⟨ht, hlt⟩, htype⟩, hover⟩
  rw [deduplicateAndDisambiguate, List.mem_insertionSort, List.mem_filter, mem_unique, and_assoc,
    Bool.not_eq_true', ← Bool.not_eq_true, Bool.and_eq_true, decide_eq_true_iff, hvoted]
  rfl

theorem DetectedSpan.Covers.start_lt (h : s.Covers i) : s.start < s.stop := h.1.trans_lt h.2

/-- Each character that a span covers, a span that remains covers. -/
def LosesNothing (spans : List DetectedSpan) : Prop :=
  ∀ i, (∃ s ∈ spans, s.Covers i) → ∃ s ∈ deduplicateAndDisambiguate spans, s.Covers i

/-- What a redaction of given spans has to be. -/
def RedactsExactly (given : List DetectedSpan) : Prop :=
  ∀ text, (∀ s ∈ given, s.InText text) → redactSpans text given = blackOutSpans text given

/-- **Span resolution.** Nothing is lost, and the spans are redacted exactly, just when each
character of a phone number that overlaps a tax id lies in a span that is not such a number. -/
theorem resolution_exact (spans : List DetectedSpan) :
    (LosesNothing spans ∧ ∀ given, RedactsExactly given) ↔
      ∀ p ∈ spans, Outvoted spans p → ∀ i, p.Covers i →
        ∃ s ∈ spans, s.Covers i ∧ ¬ Outvoted spans s := by
  constructor
  · rintro ⟨hkept, -⟩ p hp - i hi
    obtain ⟨s, hs, hsi⟩ := hkept i ⟨p, hp, hi⟩
    obtain ⟨hmem, -, hnot⟩ := mem_deduplicateAndDisambiguate.mp hs
    exact ⟨s, hmem, hsi, hnot⟩
  · intro hcondition
    refine ⟨?_, fun given text h => redactSpans_eq h⟩
    rintro i ⟨s, hs, hsi⟩
    by_cases hvoted : Outvoted spans s
    · obtain ⟨t, ht, hti, hnot⟩ := hcondition s hs hvoted i hsi
      exact ⟨t, mem_deduplicateAndDisambiguate.mpr ⟨ht, hti.start_lt, hnot⟩, hti⟩
    · exact ⟨s, mem_deduplicateAndDisambiguate.mpr ⟨hs, hsi.start_lt, hvoted⟩, hsi⟩

/-- The spans of `0281234000 5`: the first ten digits are a tax id with a valid checksum, all
eleven a phone number. -/
def sampleSpans : List DetectedSpan :=
  [⟨0, 12, .phone, "pii.vn_phone", .confidential⟩,
    ⟨0, 10, .taxId, "vn.tax_id.checksum", .highlyConfidential⟩]

/-- The last digit of the phone number is in no span that remains, and the redacted text shows
it. -/
theorem tail_of_phone_lost : ¬ LosesNothing sampleSpans ∧
    redactSpans (Str.ofString "0281234000 5") (deduplicateAndDisambiguate sampleSpans) =
      Str.ofString "[REDACTED:TAX_ID] 5" := by
  have hresolved : deduplicateAndDisambiguate sampleSpans =
      [⟨0, 10, .taxId, "vn.tax_id.checksum", .highlyConfidential⟩] := by decide +kernel
  constructor
  · intro h
    obtain ⟨s, hs, hsi⟩ := h 11 ⟨_, List.mem_cons_self, by decide, by decide⟩
    rw [hresolved] at hs
    obtain rfl := List.mem_singleton.mp hs
    exact absurd hsi.2 (by decide)
  · rw [hresolved]
    decide +kernel

end Scap.Dlp
