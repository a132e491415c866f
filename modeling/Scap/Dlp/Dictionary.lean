import Scap.Dlp.Spans
import Scap.Lib.Occurrences
import Scap.Py.Hmac

/-!
# Custom dictionaries

`_dictionary_spans` searches the folded text and maps what it finds back to the source. The cursor
goes on behind each candidate, whether it counts or not, and so passes over occurrences that overlap
one another: `dictionary_complete_iff` says when every occurrence is nevertheless covered.
-/

namespace Scap.Dlp

open Scap.Lib Scap.Py
open Scap.Sessions (DataClass)

/-- A dictionary as the constructor leaves it. -/
structure CustomDictionary where
  name : String
  terms : List Str
  dataClass : DataClass
  wholeWord : Bool
  term_ne_nil : ∀ term ∈ terms, term ≠ []

variable (fold : CodePoint → Str) (isAlnum : CodePoint → Bool) (sha256 : Bytes → Digest)

/-- `text.casefold()`, which goes by the characters. -/
def casefold (text : Str) : Str := text.flatMap fold

/-- `[index for index, char in enumerate(text) for _ in char.casefold()]`, counted from `k`. -/
def foldedOriginsFrom (k : Nat) (text : Str) : List Nat :=
  (text.zipIdx k).flatMap fun c => (fold c.1).map fun _ => c.2

def foldedOrigins (text : Str) : List Nat := foldedOriginsFrom fold 0 text

/-- `char.isalnum() or char == "_"` of the character at a position. -/
def isWordAt (folded : Str) (i : Nat) : Bool :=
  (folded[i]?).any fun c => isAlnum c || c = 0x5F

def leftWord (folded : Str) (start : Nat) : Bool := 0 < start && isWordAt isAlnum folded (start - 1)

def rightWord (folded : Str) (stop : Nat) : Bool :=
  stop < folded.length && isWordAt isAlnum folded stop

def detectorId (d : CustomDictionary) : String :=
  "custom_dictionary." ++
    String.ofList ((hexdigest (sha256 (utf8 d.name))).toList.take 12)

/-- The source characters of a candidate that begins at `start` of the folded text. -/
def termSpan (text : Str) (d : CustomDictionary) (term : Str) (start : Nat) : DetectedSpan :=
  let origins := foldedOrigins fold text
  let stop := start + (casefold fold term).length
  ⟨origins.getD start 0, origins.getD (stop - 1) 0 + 1, .customDictionary, detectorId sha256 d,
    d.dataClass⟩

/-- The spans that the inner loop appends for a term. -/
def termSpans (text : Str) (d : CustomDictionary) (term : Str) : List DetectedSpan :=
  let folded := casefold fold text
  let foldedTerm := casefold fold term
  ((picks folded foldedTerm 0).filter fun start =>
    !(d.wholeWord && (leftWord isAlnum folded start ||
      rightWord isAlnum folded (start + foldedTerm.length)))).map (termSpan fold sha256 text d term)

/-- `_dictionary_spans`. -/
def dictionarySpans (dictionaries : List CustomDictionary) (text : Str) : List DetectedSpan :=
  dictionaries.flatMap fun d => d.terms.flatMap fun term => termSpans fold isAlnum sha256 text d term

variable {fold isAlnum sha256} {text term : Str} {d : CustomDictionary} {i j p q k : Nat}
  {dictionaries : List CustomDictionary}

/-! ## Back to the source -/

@[simp] theorem casefold_nil : casefold fold [] = [] := rfl

@[simp] theorem casefold_cons {c : CodePoint} :
    casefold fold (c :: text) = fold c ++ casefold fold text := List.flatMap_cons

@[simp] theorem foldedOriginsFrom_nil : foldedOriginsFrom fold k [] = [] := rfl

@[simp] theorem foldedOriginsFrom_cons {c : CodePoint} : foldedOriginsFrom fold k (c :: text) =
    (fold c).map (fun _ => k) ++ foldedOriginsFrom fold (k + 1) text := by
  simp [foldedOriginsFrom, List.zipIdx_cons]

theorem length_foldedOriginsFrom :
    (foldedOriginsFrom fold k text).length = (casefold fold text).length := by
  induction text generalizing k with
  | nil => rfl
  | cons c text ih =>
      rw [foldedOriginsFrom_cons, casefold_cons, List.length_append, List.length_append,
        List.length_map, ih]

theorem le_foldedOriginsFrom (h : i ∈ foldedOriginsFrom fold k text) : k ≤ i := by
  obtain ⟨⟨c, j⟩, hmem, hi⟩ := List.mem_flatMap.mp h
  obtain ⟨-, -, rfl⟩ := List.mem_map.mp hi
  exact (List.mem_zipIdx hmem).1

/-- The positions of the source do not go back. -/
theorem pairwise_foldedOriginsFrom : (foldedOriginsFrom fold k text).Pairwise (· ≤ ·) := by
  induction text generalizing k with
  | nil => exact List.Pairwise.nil
  | cons c text ih =>
      rw [foldedOriginsFrom_cons, List.pairwise_append]
      refine ⟨?_, ih, ?_⟩
      · rw [List.pairwise_map]
        exact List.pairwise_of_forall fun _ _ => le_rfl
      · intro a ha b hb
        obtain ⟨-, -, rfl⟩ := List.mem_map.mp ha
        have hle := le_foldedOriginsFrom hb
        omega

/-- The source position of a position in the folded text. -/
def origin (fold : CodePoint → Str) (text : Str) (i : Nat) : Nat :=
  (foldedOrigins fold text).getD i 0

theorem origin_mono (h : i ≤ j) (hj : j < (casefold fold text).length) :
    origin fold text i ≤ origin fold text j := by
  rw [← length_foldedOriginsFrom (k := 0)] at hj
  have hi : i < (foldedOriginsFrom fold 0 text).length := by omega
  simp only [origin, foldedOrigins, List.getD_eq_getElem?_getD, List.getElem?_eq_getElem hi,
    List.getElem?_eq_getElem hj, Option.getD_some]
  rcases Nat.eq_or_lt_of_le h with rfl | hlt
  · exact le_rfl
  · exact List.pairwise_iff_getElem.mp pairwise_foldedOriginsFrom i j hi hj hlt

/-! ## Completeness -/

/-- The folded term occurs at `p`, and if whole words count, no word character is next to it. -/
def Counts (fold : CodePoint → Str) (isAlnum : CodePoint → Bool) (text : Str)
    (d : CustomDictionary) (term : Str) (p : Nat) : Prop :=
  Occurs (casefold fold text) (casefold fold term) p ∧
    (d.wholeWord = true → leftWord isAlnum (casefold fold text) p = false ∧
      rightWord isAlnum (casefold fold text) (p + (casefold fold term).length) = false)

/-- A span covers every source character of the occurrence at `p`. -/
def CoversAt (fold : CodePoint → Str) (text term : Str) (p : Nat) (s : DetectedSpan) : Prop :=
  ∀ i, p ≤ i → i < p + (casefold fold term).length → s.Covers (origin fold text i)

/-- Each occurrence that counts lies in a span returned for its term. -/
def Complete (fold : CodePoint → Str) (isAlnum : CodePoint → Bool) (sha256 : Bytes → Digest)
    (dictionaries : List CustomDictionary) (text : Str) : Prop :=
  ∀ d ∈ dictionaries, ∀ term ∈ d.terms, ∀ p, Counts fold isAlnum text d term p →
    ∃ s ∈ termSpans fold isAlnum sha256 text d term,
      s ∈ dictionarySpans fold isAlnum sha256 dictionaries text ∧ CoversAt fold text term p s

theorem mem_termSpans (hterm : casefold fold term ≠ []) {s : DetectedSpan} :
    s ∈ termSpans fold isAlnum sha256 text d term ↔
      ∃ q, Picked (casefold fold text) (casefold fold term) q ∧ Counts fold isAlnum text d term q ∧
        s = termSpan fold sha256 text d term q := by
  simp only [termSpans, List.mem_map, List.mem_filter, mem_picks_zero hterm]
  constructor
  · rintro ⟨q, ⟨hq, hword⟩, rfl⟩
    refine ⟨q, hq, ⟨hq.occurs, ?_⟩, rfl⟩
    intro hwhole
    simpa [hwhole] using hword
  · rintro ⟨q, hq, ⟨-, hword⟩, rfl⟩
    refine ⟨q, ⟨hq, ?_⟩, rfl⟩
    cases hwhole : d.wholeWord with
    | false => simp
    | true => simp [hword hwhole]

/-- The span of a candidate covers a position of the source just when the positions of its ends do
not lie beyond it. -/
theorem covers_termSpan :
    (termSpan fold sha256 text d term q).Covers i ↔ origin fold text q ≤ i ∧
      i ≤ origin fold text (q + (casefold fold term).length - 1) := by
  show origin fold text q ≤ i ∧ i < origin fold text _ + 1 ↔ _
  rw [Nat.lt_succ_iff]

theorem coversAt_termSpan (hterm : casefold fold term ≠ [])
    (hp : Occurs (casefold fold text) (casefold fold term) p) :
    CoversAt fold text term p (termSpan fold sha256 text d term q) ↔
      origin fold text q ≤ origin fold text p ∧
        origin fold text (p + (casefold fold term).length - 1) ≤
          origin fold text (q + (casefold fold term).length - 1) := by
  have hpos : 0 < (casefold fold term).length := List.length_pos_iff.mpr hterm
  have hfits := hp.add_le
  constructor
  · intro h
    refine ⟨(covers_termSpan.mp (h p le_rfl (by omega))).1, ?_⟩
    exact (covers_termSpan.mp (h _ (by omega) (by omega))).2
  · rintro ⟨hfirst, hlast⟩ i hpi hip
    rw [covers_termSpan]
    refine ⟨hfirst.trans (origin_mono hpi (by omega)), ?_⟩
    exact (origin_mono (by omega) (by omega)).trans hlast

theorem coversAt_self (hterm : casefold fold term ≠ [])
    (hp : Occurs (casefold fold text) (casefold fold term) p) :
    CoversAt fold text term p (termSpan fold sha256 text d term p) :=
  (coversAt_termSpan hterm hp).mpr ⟨le_rfl, le_rfl⟩

/-- An occurrence that counts and that an earlier picked one overlaps is inside a picked one that
counts, in the characters of the source. -/
def OverlapsCovered (fold : CodePoint → Str) (isAlnum : CodePoint → Bool) (text : Str)
    (d : CustomDictionary) (term : Str) : Prop :=
  ∀ p q, Counts fold isAlnum text d term p → Picked (casefold fold text) (casefold fold term) q →
    q < p → p < q + (casefold fold term).length →
      ∃ r, Picked (casefold fold text) (casefold fold term) r ∧ Counts fold isAlnum text d term r ∧
        origin fold text r ≤ origin fold text p ∧
          origin fold text (p + (casefold fold term).length - 1) ≤
            origin fold text (r + (casefold fold term).length - 1)

theorem casefold_ne_nil (hfold : ∀ c, fold c ≠ []) (h : text ≠ []) : casefold fold text ≠ [] := by
  cases text with
  | nil => exact absurd rfl h
  | cons c text => simp [hfold c]

/-- **Dictionary completeness.** Every occurrence is covered just when no occurrence is lost inside
an earlier candidate. -/
theorem dictionary_complete_iff (hfold : ∀ c, fold c ≠ []) :
    Complete fold isAlnum sha256 dictionaries text ↔
      ∀ d ∈ dictionaries, ∀ term ∈ d.terms, OverlapsCovered fold isAlnum text d term := by
  constructor
  · intro h d hd term hterm p q hp hq hlt hover
    have hne := casefold_ne_nil hfold (d.term_ne_nil term hterm)
    obtain ⟨s, hs, -, hcovers⟩ := h d hd term hterm p hp
    obtain ⟨r, hr, hcounts, rfl⟩ := (mem_termSpans hne).mp hs
    obtain ⟨hfirst, hlast⟩ := (coversAt_termSpan hne hp.1).mp hcovers
    exact ⟨r, hr, hcounts, hfirst, hlast⟩
  · intro h d hd term hterm p hp
    have hne := casefold_ne_nil hfold (d.term_ne_nil term hterm)
    have hfound : ∃ r, Picked (casefold fold text) (casefold fold term) r ∧
        Counts fold isAlnum text d term r ∧
          CoversAt fold text term p (termSpan fold sha256 text d term r) := by
      by_cases hpicked : Picked (casefold fold text) (casefold fold term) p
      · exact ⟨p, hpicked, hp, coversAt_self hne hp.1⟩
      · -- something that was picked before `p` overlaps it
        have hblocked : ∃ q, q < p ∧ Picked (casefold fold text) (casefold fold term) q ∧
            p < q + (casefold fold term).length := by
          by_contra hnone
          apply hpicked
          refine picked_iff.mpr ⟨hp.1, ?_⟩
          intro q hlt hq
          by_contra hover
          exact hnone ⟨q, hlt, hq, Nat.not_le.mp hover⟩
        obtain ⟨q, hlt, hq, hover⟩ := hblocked
        obtain ⟨r, hr, hcounts, hfirst, hlast⟩ := h d hd term hterm p q hp hq hlt hover
        exact ⟨r, hr, hcounts, (coversAt_termSpan hne hp.1).mpr ⟨hfirst, hlast⟩⟩
    obtain ⟨r, hr, hcounts, hcovers⟩ := hfound
    have hmem : termSpan fold sha256 text d term r ∈ termSpans fold isAlnum sha256 text d term :=
      (mem_termSpans hne).mpr ⟨r, hr, hcounts, rfl⟩
    refine ⟨_, hmem, ?_, hcovers⟩
    exact List.mem_flatMap.mpr ⟨d, hd, List.mem_flatMap.mpr ⟨term, hterm, hmem⟩⟩

/-- ASCII letters are folded to lower case. -/
def sampleFold (c : CodePoint) : Str := if 0x41 ≤ c.val ∧ c.val ≤ 0x5A then [c + 0x20] else [c]

def sampleIsAlnum (c : CodePoint) : Bool :=
  (0x30 ≤ c.val && c.val ≤ 0x39) || (0x41 ≤ c.val && c.val ≤ 0x5A) || (0x61 ≤ c.val && c.val ≤ 0x7A)

def sampleSha256 (_ : Bytes) : Digest := ⟨List.replicate 32 0, List.length_replicate⟩

theorem sampleFold_ne_nil (c : CodePoint) : sampleFold c ≠ [] := by
  unfold sampleFold
  split <;> simp

/-- A dictionary of one term. -/
def sampleDictionary (term : String) (h : Str.ofString term ≠ []) (wholeWord : Bool) :
    CustomDictionary :=
  ⟨"codenames", [Str.ofString term], .confidential, wholeWord, by simpa using h⟩

/-- The occurrences of the term are apart, so none is lost. -/
theorem dictionary_complete_iff_sample :
    Complete sampleFold sampleIsAlnum sampleSha256 [sampleDictionary "ab" (by decide) true]
      (Str.ofString "xab Ab") := by
  refine (dictionary_complete_iff sampleFold_ne_nil).mpr ?_
  intro d hd term hterm p q hp hq hlt hover
  obtain rfl := List.mem_singleton.mp hd
  obtain rfl := List.mem_singleton.mp hterm
  have hapart : ∀ p ≤ 4, ∀ q < p,
      Occurs (casefold sampleFold (Str.ofString "xab Ab")) (casefold sampleFold (Str.ofString "ab"))
        p → Occurs (casefold sampleFold (Str.ofString "xab Ab"))
          (casefold sampleFold (Str.ofString "ab")) q → q + 2 ≤ p := by decide +kernel
  have htext : (casefold sampleFold (Str.ofString "xab Ab")).length = 6 := by decide +kernel
  have htwo : (casefold sampleFold (Str.ofString "ab")).length = 2 := by decide +kernel
  have hfits := hp.1.add_le
  rw [htext, htwo] at hfits
  rw [htwo] at hover
  exact absurd (hapart p (by omega) q hlt hp.1 hq.occurs) (not_le.mpr hover)

/-- One candidate is found, and the occurrence at `p` reaches beyond it. -/
theorem not_complete {d : CustomDictionary} (hterm : term ∈ d.terms)
    (hpicks : picks (casefold fold text) (casefold fold term) 0 = [q])
    (hp : Counts fold isAlnum text d term p)
    (hbeyond : origin fold text (q + (casefold fold term).length - 1) <
      origin fold text (p + (casefold fold term).length - 1))
    (hne : casefold fold term ≠ []) : ¬ Complete fold isAlnum sha256 [d] text := by
  intro h
  obtain ⟨s, hs, -, hcovers⟩ := h d (by simp) term hterm p hp
  obtain ⟨r, hr, -, rfl⟩ := (mem_termSpans hne).mp hs
  rw [← mem_picks_zero hne, hpicks, List.mem_singleton] at hr
  subst hr
  exact absurd ((coversAt_termSpan hne hp.1).mp hcovers).2 (Nat.not_le.mpr hbeyond)

/-- `aa` occurs in `aaa` at 0 and at 1, and the word `a a` in `a a a` at 0 and at 2; the second
occurrence is not looked at. -/
theorem overlapping_occurrence_lost :
    ¬ Complete sampleFold sampleIsAlnum sampleSha256 [sampleDictionary "aa" (by decide) false]
        (Str.ofString "aaa") ∧
      ¬ Complete sampleFold sampleIsAlnum sampleSha256 [sampleDictionary "a a" (by decide) true]
        (Str.ofString "a a a") := by
  constructor
  · refine not_complete (q := 0) (p := 1) (List.mem_singleton.mpr rfl) ?_ ⟨by decide, by decide⟩
      (by decide) (by decide)
    exact picks_single (by decide) (by decide)
  · refine not_complete (q := 0) (p := 2) (List.mem_singleton.mpr rfl) ?_ ⟨by decide, by decide⟩
      (by decide) (by decide)
    exact picks_single (by decide) (by decide)

end Scap.Dlp
