import Scap.Dlp.Scanner

/-!
# Where decoded text comes from

`Derived` follows the characters of a view back to the text, decoder by decoder, without the spans
that the code keeps for them. These spans enclose what it finds (`Derived.encloses`), so that a span
of a view becomes a span of the text around all that its characters encode
(`Derived.sourceOf_covers`). The search stays within its budgets and ends with an empty queue, and
what it does not search it marks (`searched_or_marked`); `provenance` puts these together.
-/

namespace Scap.Dlp

open Scap.Lib Scap.Py

/-- The piece that a character is read from. -/
def pieceAt (ps : List Piece) (i : Nat) : Option Piece :=
  (ps.flatMap fun p => List.replicate p.text.length p)[i]?

/-- Which characters of the text the characters of a view encode: those of the text itself
themselves, and a decoded one all that the characters of its piece do. -/
inductive Derived (C : Characters) (text : Str) : InspectionView → (Nat → Nat → Prop) → Prop
  | initial : Derived C text (Scanner.initialView text) fun i k => i < text.length ∧ k = i
  | decoded {view d : InspectionView} {source : Nat → Nat → Prop} {ps : List Piece}
      (derived : Derived C text view source) (child : d ∈ decodedViews C view)
      (reads : Reads C view d ps) :
      Derived C text d fun i k =>
        ∃ p, pieceAt ps i = some p ∧ ∃ j, p.start ≤ j ∧ j < p.stop ∧ source j k

variable {C : Characters} {S : Scanner} {text : Str} {view d : InspectionView} {ps : List Piece}
  {source : Nat → Nat → Prop} {s : DetectedSpan} {i k : Nat}

/-! ## One decoder -/

theorem Reads.origins_getElem? (h : Reads C view d ps) :
    d.origins[i]? = (pieceAt ps i).map fun p => view.sourceSpan p.start p.stop := by
  have horigins : d.origins =
      (ps.flatMap fun p => List.replicate p.text.length p).map fun p =>
        view.sourceSpan p.start p.stop := by
    rw [h.origins_eq, List.map_flatMap]
    simp only [List.map_replicate]
    rfl
  rw [horigins, List.getElem?_map]
  rfl

theorem mem_of_pieceAt {p : Piece} (h : pieceAt ps i = some p) : p ∈ ps := by
  obtain ⟨q, hq, hp⟩ := List.mem_flatMap.mp (List.mem_of_getElem? h)
  rwa [List.eq_of_mem_replicate hp]

/-- Each character is read from a piece. -/
theorem Reads.exists_pieceAt (h : Reads C view d ps) (hi : i < d.text.length) :
    ∃ p, pieceAt ps i = some p := by
  have hlength : (ps.flatMap fun p => List.replicate p.text.length p).length = d.text.length := by
    rw [h.text_eq, List.length_flatMap, List.length_flatMap]
    simp
  exact ⟨_, List.getElem?_eq_getElem (hlength ▸ hi)⟩

/-! ## All of them -/

namespace Derived

theorem traced (h : Derived C text view source) : view.Traced text.length := by
  induction h with
  | initial => exact Scanner.traced_initialView text
  | decoded derived child reads ih => exact reads.traced ih

/-- Each character encodes something. -/
theorem exists_source (h : Derived C text view source) (hi : i < view.text.length) :
    ∃ k, source i k := by
  induction h generalizing i with
  | initial => exact ⟨i, hi, rfl⟩
  | decoded derived child reads ih =>
      obtain ⟨p, hp⟩ := reads.exists_pieceAt hi
      obtain ⟨lo, stop, htiled, hstop⟩ := reads.tiled
      obtain ⟨-, hlt, hle⟩ := htiled.bounds (mem_of_pieceAt hp)
      obtain ⟨k, hk⟩ := ih (i := p.start) (hlt.trans_le (hle.trans hstop))
      exact ⟨k, p, hp, p.start, le_rfl, hlt, hk⟩

/-- The span that the code keeps for a character encloses what the character encodes. -/
theorem encloses (h : Derived C text view source) (hk : source i k) :
    ∃ o, view.origins[i]? = some o ∧ o.1 ≤ k ∧ k < o.2 := by
  induction h generalizing i k with
  | initial =>
      obtain ⟨hi, rfl⟩ := hk
      refine ⟨(k, k + 1), ?_, le_rfl, Nat.lt_succ_self k⟩
      simp [Scanner.initialView, hi]
  | @decoded view d source ps derived child reads ih =>
      obtain ⟨p, hp, j, hstart, hstop, hj⟩ := hk
      obtain ⟨lo, hi, htiled, hle⟩ := reads.tiled
      obtain ⟨-, hlt, hpstop⟩ := htiled.bounds (mem_of_pieceAt hp)
      obtain ⟨o, ho, hlower, hupper⟩ := ih hj
      obtain ⟨hlength, rfl⟩ := List.getElem?_eq_some_iff.mp ho
      obtain ⟨-, -, hwithin⟩ := derived.traced.sourceSpan_spec hlt (hpstop.trans hle)
      obtain ⟨hbelow, habove⟩ := hwithin j hlength hstart hstop
      refine ⟨view.sourceSpan p.start p.stop, ?_, hbelow.trans hlower, hupper.trans_le habove⟩
      rw [reads.origins_getElem?, hp]
      rfl

/-- So does the source span of several characters. -/
theorem sourceSpan_encloses (h : Derived C text view source) {a b : Nat} (hab : a < b)
    (hb : b ≤ view.text.length) (hai : a ≤ i) (hib : i < b) (hk : source i k) :
    (view.sourceSpan a b).1 ≤ k ∧ k < (view.sourceSpan a b).2 := by
  obtain ⟨o, ho, hlower, hupper⟩ := h.encloses hk
  obtain ⟨hlength, rfl⟩ := List.getElem?_eq_some_iff.mp ho
  obtain ⟨-, -, hwithin⟩ := h.traced.sourceSpan_spec hab hb
  obtain ⟨hbelow, habove⟩ := hwithin i hlength hai hib
  exact ⟨hbelow.trans hlower, hupper.trans_le habove⟩

theorem sourceOf_covers (h : Derived C text view source) (hs : s.InText view.text)
    (hi : s.Covers i) (hk : source i k) : (Scanner.sourceOf view s).Covers k :=
  h.sourceSpan_encloses hs.start_lt hs.stop_le hi.1 hi.2 hk

theorem refuse_covers (h : Derived C text view source) (hi : i < view.text.length)
    (hk : source i k) : (S.exploration.refuse view).Covers k :=
  h.sourceSpan_encloses ((Nat.zero_le i).trans_lt hi) le_rfl (Nat.zero_le i) hi hk

end Derived

namespace Scanner

/-! ## The search -/

/-- The views that `_detect_spans` searches. -/
def searchedViews (S : Scanner) (text : Str) : List InspectionView :=
  if maxScanCharacters < text.length ∨ text.isEmpty then [] else S.exploredViews text

theorem mem_searchedViews : view ∈ S.searchedViews text ↔
    text.length ≤ maxScanCharacters ∧ text ≠ [] ∧ view ∈ S.exploredViews text := by
  unfold searchedViews
  split
  · next h =>
    constructor
    · intro hview
      cases hview
    · rintro ⟨hlength, hne, -⟩
      rcases h with hlong | hempty
      · exact absurd hlong (Nat.not_lt.mpr hlength)
      · exact absurd (List.isEmpty_iff.mp hempty) hne
  · next h =>
    obtain ⟨hlength, hne⟩ := not_or.mp h
    constructor
    · exact fun hview => ⟨Nat.not_lt.mp hlength, fun hnil => hne (by rw [hnil]; rfl), hview⟩
    · exact fun hview => hview.2.2

/-- What every view that is searched is, and how it was reached. -/
structure Reached (C : Characters) (text : Str) (view : InspectionView) : Prop where
  inspected : Inspected text.length view
  derived : ∃ source, Derived C text view source
  depth_le : view.depth ≤ maxDecodeDepth

theorem exists_derived (h : ∃ source, Derived C text view source) (hd : d ∈ decodedViews C view) :
    ∃ source, Derived C text d source := by
  obtain ⟨source, hderived⟩ := h
  obtain ⟨ps, hreads⟩ := reads_decodedViews hderived.traced hd
  exact ⟨_, .decoded hderived hd hreads⟩

theorem reached_searchedViews (h : view ∈ S.searchedViews text) :
    Reached S.characters text view := by
  obtain ⟨-, hne, hview⟩ := mem_searchedViews.mp h
  refine Exploration.visits_inv (P := Reached S.characters text) ?_ ?_ view hview
  · intro v hv s d hd hfits
    simp only [exploration, Bool.and_eq_true, decide_eq_true_iff] at hfits
    exact ⟨hv.inspected.child hd, exists_derived hv.derived hd, hfits.1.1⟩
  · intro v hv
    rw [List.mem_singleton.mp hv]
    exact ⟨⟨traced_initialView text, hne⟩, ⟨_, .initial⟩, Nat.zero_le _⟩

/-- What has been seen and what it weighs stay within the budgets. -/
theorem budget (hlength : text.length ≤ maxScanCharacters) :
    (S.exploration.explore maxDecodedViews (S.exploration.start (initialView text))).seen.length ≤
        maxDecodedViews ∧
      (S.exploration.explore maxDecodedViews (S.exploration.start (initialView text))).total ≤
        maxDecodedCharacters := by
  refine Exploration.explore_budget (B := fun k total => k ≤ maxDecodedViews ∧
    total ≤ maxDecodedCharacters) ?_ ?_
  · intro k total d hfits
    simp only [exploration, Bool.and_eq_true, decide_eq_true_iff] at hfits
    exact ⟨hfits.1.2, hfits.2⟩
  · exact ⟨(by decide : 1 ≤ maxDecodedViews), hlength.trans (by decide)⟩

/-- The turns suffice: nothing is left in the queue. -/
theorem queue_empty (hlength : text.length ≤ maxScanCharacters) :
    (S.exploration.explore maxDecodedViews (S.exploration.start (initialView text))).pending =
      [] := by
  apply Exploration.pending_eq_nil
  have hseen := (budget (S := S) hlength).1
  simp only [Exploration.start, List.length_singleton] at hseen ⊢
  omega

/-- The views that are searched, and all their characters together. -/
theorem searched_budget :
    (S.searchedViews text).length ≤ maxDecodedViews ∧
      ((S.searchedViews text).map fun view => view.text.length).sum ≤ maxDecodedCharacters := by
  unfold searchedViews
  split
  · exact ⟨Nat.zero_le _, Nat.zero_le _⟩
  · next h =>
    have hlength := Nat.not_lt.mp (not_or.mp h).1
    obtain ⟨hseen, htotal⟩ := budget (S := S) hlength
    have hcount := Exploration.visits_length (E := S.exploration) (n := maxDecodedViews)
      (s := S.exploration.start (initialView text))
    have hweight := Exploration.visits_weight (E := S.exploration) (n := maxDecodedViews)
      (s := S.exploration.start (initialView text))
    have hempty : (S.exploration.explore maxDecodedViews
        (S.exploration.start (initialView text))).pending = [] := queue_empty hlength
    have hstart : (S.exploration.start (initialView text)).pending.length = 1 ∧
        (S.exploration.start (initialView text)).seen.length = 1 ∧
          ((S.exploration.start (initialView text)).pending.map S.exploration.weight).sum =
            (S.exploration.start (initialView text)).total := ⟨rfl, rfl, rfl⟩
    rw [hempty, List.length_nil, hstart.1, hstart.2.1] at hcount
    rw [hempty, hstart.2.2, List.map_nil, List.sum_nil] at hweight
    constructor
    · show (S.exploration.visits _ _).length ≤ _
      omega
    · show ((S.exploration.visits _ _).map S.exploration.weight).sum ≤ _
      omega

/-- **No candidate is lost.** A decoded view is searched, or it has left its mark. -/
theorem searched_or_marked (hview : view ∈ S.searchedViews text)
    (hd : d ∈ decodedViews S.characters view) :
    (∃ w ∈ S.searchedViews text, w.text = d.text ∧ w.origins = d.origins) ∨
      S.exploration.refuse d ∈ S.detectSpans text := by
  obtain ⟨hlength, hne, hexplored⟩ := mem_searchedViews.mp hview
  rcases Exploration.explored hexplored hd with hseen | hout
  · left
    have hstart : initialView text ∈ S.exploredViews text := initialView_mem
    rcases Exploration.seen_visited hseen with hfirst | ⟨w, hw, hidentity⟩
    · obtain ⟨htext, horigins⟩ := Prod.mk.inj (List.mem_singleton.mp hfirst)
      exact ⟨_, mem_searchedViews.mpr ⟨hlength, hne, hstart⟩, htext.symm, horigins.symm⟩
    · rw [queue_empty hlength, List.append_nil] at hw
      obtain ⟨htext, horigins⟩ := Prod.mk.inj hidentity
      exact ⟨w, mem_searchedViews.mpr ⟨hlength, hne, hw⟩, htext, horigins⟩
  · right
    have hempty : ¬ text.isEmpty = true := by simpa using hne
    have hinspected := (reached_searchedViews hview).inspected.child hd
    rw [detectSpans, if_neg (Nat.not_lt.mpr hlength), if_neg hempty, mem_deduplicateAndDisambiguate]
    refine ⟨hout, hinspected.refuse_bounds.1, ?_⟩
    rintro ⟨hphone, -⟩
    cases hphone

end Scanner

/-- **Provenance of decoded views.** -/
theorem provenance (S : Scanner) (text : Str) :
    (∀ view ∈ S.searchedViews text, view.Traced text.length ∧
      (∃ source, Derived S.characters text view source) ∧
      ∀ source, Derived S.characters text view source →
        (∀ i < view.text.length, ∃ k, source i k) ∧
        ∀ s ∈ S.detectPlainSpans view.text,
          (Scanner.sourceOf view s).start < (Scanner.sourceOf view s).stop ∧
          (Scanner.sourceOf view s).stop ≤ text.length ∧
          ∀ i k, s.Covers i → source i k → (Scanner.sourceOf view s).Covers k) ∧
    ((S.searchedViews text).length ≤ Scanner.maxDecodedViews ∧
      (∀ view ∈ S.searchedViews text, view.depth ≤ Scanner.maxDecodeDepth) ∧
      ((S.searchedViews text).map fun view => view.text.length).sum ≤
        Scanner.maxDecodedCharacters ∧
      (text.length ≤ Scanner.maxScanCharacters →
        (S.exploration.explore Scanner.maxDecodedViews
          (S.exploration.start (Scanner.initialView text))).pending = [])) ∧
    (∀ view ∈ S.searchedViews text, ∀ d ∈ decodedViews S.characters view,
      (∃ w ∈ S.searchedViews text, w.text = d.text ∧ w.origins = d.origins) ∨
      ∃ limit ∈ S.detectSpans text, limit.findingType = .inspectionLimit ∧
        ∀ source, Derived S.characters text d source →
          ∀ i < d.text.length, ∀ k, source i k → limit.Covers k) ∧
    (Scanner.maxScanCharacters < text.length →
      ∃ limit ∈ S.detectSpans text, limit.findingType = .inspectionLimit ∧
        ∀ k < text.length, limit.Covers k) := by
  refine ⟨?_, ⟨Scanner.searched_budget.1, ?_, Scanner.searched_budget.2,
    Scanner.queue_empty⟩, ?_, ?_⟩
  · intro view hview
    have hreached := Scanner.reached_searchedViews hview
    refine ⟨hreached.inspected.traced, hreached.derived, ?_⟩
    intro source hderived
    refine ⟨fun i hi => hderived.exists_source hi, ?_⟩
    intro s hs
    have hin := Scanner.inText_detectPlainSpans hreached.inspected.ne_nil hs
    obtain ⟨hlt, hle⟩ := hreached.inspected.sourceOf_bounds hin
    exact ⟨hlt, hle, fun i k hi hk => hderived.sourceOf_covers hin hi hk⟩
  · exact fun view hview => (Scanner.reached_searchedViews hview).depth_le
  · intro view hview d hd
    refine (Scanner.searched_or_marked hview hd).imp_right fun hmark => ?_
    exact ⟨_, hmark, rfl, fun source hderived i hi k hk => hderived.refuse_covers hi hk⟩
  · intro hlong
    refine ⟨Scanner.limitSpan 0 text.length, ?_, rfl, fun k hk => ⟨Nat.zero_le k, hk⟩⟩
    rw [Scanner.detectSpans, if_pos hlong]
    exact List.mem_singleton.mpr rfl

end Scap.Dlp
