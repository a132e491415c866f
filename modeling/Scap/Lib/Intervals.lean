import Mathlib.Data.Finset.Basic
import Mathlib.Data.List.Pairwise

/-!
# Marked intervals of a text

`merge` joins intervals, sorted by their starts, that overlap or touch; `splice` writes something
for each joined interval and keeps the text between them. `blackOut` says what that amounts to
without naming an interval: walking through the text, a position that is not covered keeps its
character, and where a maximal run of covered positions begins the marks of the intervals in that
run are written once. `splice_merge` is the agreement of the two.
-/

namespace Scap.Lib

/-- The positions from `start` to before `stop`. -/
structure Interval (τ : Type*) where
  start : Nat
  stop : Nat
  marks : Finset τ

namespace Interval

variable {τ : Type*} {r s t : Interval τ} {ss rs : List (Interval τ)} {i : Nat}

def Covers (r : Interval τ) (i : Nat) : Prop := r.start ≤ i ∧ i < r.stop

instance (r : Interval τ) (i : Nat) : Decidable (r.Covers i) := inferInstanceAs (Decidable (_ ∧ _))

/-- `s` lies in `r`, and its marks are among those of `r`. -/
structure Within (s r : Interval τ) : Prop where
  start_le : r.start ≤ s.start
  stop_le : s.stop ≤ r.stop
  marks_subset : s.marks ⊆ r.marks

theorem Within.refl (r : Interval τ) : Within r r := ⟨le_rfl, le_rfl, Finset.Subset.refl _⟩

theorem Within.trans (h : Within r s) (h' : Within s t) : Within r t :=
  ⟨h'.start_le.trans h.start_le, h.stop_le.trans h'.stop_le, h.marks_subset.trans h'.marks_subset⟩

theorem Within.covers (h : Within s r) (hi : s.Covers i) : r.Covers i :=
  ⟨h.start_le.trans hi.1, hi.2.trans_le h.stop_le⟩

/-- `i` is covered. -/
def covered (ss : List (Interval τ)) (i : Nat) : Bool := ss.any fun s => s.start ≤ i && i < s.stop

theorem covered_iff : covered ss i = true ↔ ∃ s ∈ ss, s.Covers i := by
  simp [covered, Covers]

/-- The intervals are sorted by their starts. -/
def Sorted (ss : List (Interval τ)) : Prop := ss.Pairwise fun r s => r.start ≤ s.start

/-- The intervals lie apart from each other. -/
def Apart (rs : List (Interval τ)) : Prop := rs.Pairwise fun r s => r.stop < s.start

/-- Two intervals that lie apart do not share a position, not even an end. -/
theorem Apart.eq_of_covers (h : Apart rs) (hr : r ∈ rs) (hs : s ∈ rs) (hri : r.Covers i)
    (hstart : s.start ≤ i) (hstop : i ≤ s.stop) : r = s := by
  rcases List.Pairwise.forall_of_forall_of_flip (R := fun a b => a = b ∨ a.stop < b.start ∨
      b.stop < a.start) (fun _ _ => .inl rfl) (h.imp fun hab => .inr (.inl hab))
      (h.imp fun hab => .inr (.inr hab)) hr hs with heq | hlt | hlt
  · exact heq
  · have hi := hri.2
    omega
  · have hi := hri.1
    omega

/-- `s` begins in the run of covered positions that begins at `i`. -/
def reached (ss : List (Interval τ)) (i : Nat) (s : Interval τ) : Bool :=
  i ≤ s.start && (List.range' i (s.start + 1 - i)).all (covered ss)

theorem covered_congr {ss' : List (Interval τ)} (h : ∀ s, s ∈ ss ↔ s ∈ ss') :
    covered ss = covered ss' := by
  funext i
  rw [Bool.eq_iff_iff, covered_iff, covered_iff]
  simp only [h]

theorem reached_iff : reached ss i s = true ↔
    i ≤ s.start ∧ ∀ j, i ≤ j → j ≤ s.start → covered ss j = true := by
  simp only [reached, Bool.and_eq_true, decide_eq_true_eq, List.all_eq_true, List.mem_range'_1]
  constructor
  · rintro ⟨hle, hall⟩
    exact ⟨hle, fun j hij hjs => hall j ⟨hij, by omega⟩⟩
  · rintro ⟨hle, hall⟩
    exact ⟨hle, fun j hj => hall j hj.1 (by omega)⟩

/-- What a joined interval covers, one of the given ones in it covers, and each of its marks is a
mark of one in it. -/
structure MadeOf (ss : List (Interval τ)) (t : Interval τ) : Prop where
  covered : ∀ i, t.Covers i → ∃ s ∈ ss, s.Covers i
  marked : ∀ m ∈ t.marks, ∃ s ∈ ss, m ∈ s.marks ∧ Within s t
  start_lt : (∀ s ∈ ss, s.start < s.stop) → t.start < t.stop
  stop_le : ∀ n, (∀ s ∈ ss, s.stop ≤ n) → t.stop ≤ n

theorem madeOf_self (h : r ∈ ss) : MadeOf ss r where
  covered := fun _ hi => ⟨r, h, hi⟩
  marked := fun _ hm => ⟨r, h, hm, Within.refl r⟩
  start_lt := fun hall => hall r h
  stop_le := fun _ hall => hall r h

theorem MadeOf.mono {ss' : List (Interval τ)} (h : MadeOf ss t) (hsub : ss ⊆ ss') :
    MadeOf ss' t where
  covered := fun i hi => (h.covered i hi).imp fun _ hs => ⟨hsub hs.1, hs.2⟩
  marked := fun m hm => (h.marked m hm).imp fun _ hs => ⟨hsub hs.1, hs.2⟩
  start_lt := fun hall => h.start_lt fun s hs => hall s (hsub hs)
  stop_le := fun n hall => h.stop_le n fun s hs => hall s (hsub hs)

/-! ## Merging -/

variable [DecidableEq τ]

/-- What `r` becomes when `s` overlaps or touches it. -/
def extend (r s : Interval τ) : Interval τ := ⟨r.start, max r.stop s.stop, r.marks ∪ s.marks⟩

def mergeFrom (r : Interval τ) : List (Interval τ) → List (Interval τ)
  | [] => [r]
  | s :: ss => if r.stop < s.start then r :: mergeFrom s ss else mergeFrom (r.extend s) ss

/-- The joined intervals of a list sorted by its starts. -/
def merge : List (Interval τ) → List (Interval τ)
  | [] => []
  | s :: ss => mergeFrom s ss

theorem within_extend_left : Within r (r.extend s) :=
  ⟨le_rfl, le_max_left .., Finset.subset_union_left⟩

theorem within_extend_right (h : r.start ≤ s.start) : Within s (r.extend s) :=
  ⟨h, le_max_right .., Finset.subset_union_right⟩

theorem Sorted.extend (h : Sorted (r :: s :: ss)) : Sorted (r.extend s :: ss) := by
  obtain ⟨hr, hss⟩ := List.pairwise_cons.mp h
  refine List.pairwise_cons.mpr ⟨?_, hss.tail⟩
  intro x hx
  exact hr x (by simp [hx])

theorem start_le_mergeFrom (h : Sorted (r :: ss)) :
    ∀ t ∈ mergeFrom r ss, r.start ≤ t.start := by
  induction ss generalizing r with
  | nil => simp [mergeFrom]
  | cons s ss ih =>
      obtain ⟨hr, hss⟩ := List.pairwise_cons.mp h
      intro t ht
      rw [mergeFrom] at ht
      split at ht
      · rcases List.mem_cons.mp ht with rfl | ht
        · exact le_rfl
        · exact (hr s (by simp)).trans (ih hss t ht)
      · exact ih (Sorted.extend h) t ht

theorem apart_mergeFrom (h : Sorted (r :: ss)) :
    Apart (mergeFrom r ss) := by
  induction ss generalizing r with
  | nil => exact List.pairwise_singleton _ r
  | cons s ss ih =>
      obtain ⟨-, hss⟩ := List.pairwise_cons.mp h
      rw [mergeFrom]
      split
      · next hgap =>
        apply List.pairwise_cons.mpr
        refine ⟨?_, ih hss⟩
        intro t ht
        exact hgap.trans_le (start_le_mergeFrom hss t ht)
      · exact ih (Sorted.extend h)

theorem within_mergeFrom (h : Sorted (r :: ss)) :
    ∀ s ∈ r :: ss, ∃ t ∈ mergeFrom r ss, Within s t := by
  induction ss generalizing r with
  | nil =>
      intro s hs
      obtain rfl := List.mem_singleton.mp hs
      exact ⟨s, by simp [mergeFrom], Within.refl s⟩
  | cons x ss ih =>
      obtain ⟨hr, hss⟩ := List.pairwise_cons.mp h
      intro s hs
      rw [mergeFrom]
      split
      · rcases List.mem_cons.mp hs with rfl | hs
        · exact ⟨s, by simp, Within.refl s⟩
        · obtain ⟨t, ht, hst⟩ := ih hss s hs
          exact ⟨t, by simp [ht], hst⟩
      · have hsorted := Sorted.extend h
        have hthrough : ∀ y, Within y (r.extend x) → ∃ t ∈ mergeFrom (r.extend x) ss,
            Within y t := by
          intro y hy
          obtain ⟨t, ht, hwithin⟩ := ih hsorted (r.extend x) (by simp)
          exact ⟨t, ht, hy.trans hwithin⟩
        rcases List.mem_cons.mp hs with rfl | hs
        · exact hthrough s within_extend_left
        rcases List.mem_cons.mp hs with rfl | hs
        · exact hthrough s (within_extend_right (hr s (by simp)))
        · exact ih hsorted s (by simp [hs])

/-- One joined interval is taken apart into the two it was joined from. -/
theorem MadeOf.of_extend (h : MadeOf (r.extend s :: ss) t) (htouch : s.start ≤ r.stop)
    (hle : r.start ≤ s.start) : MadeOf (r :: s :: ss) t where
  covered := by
    intro i hi
    obtain ⟨x, hx, hcovers⟩ := h.covered i hi
    rcases List.mem_cons.mp hx with rfl | hx
    · by_cases hr : i < r.stop
      · exact ⟨r, by simp, hcovers.1, hr⟩
      · refine ⟨s, by simp, by omega, ?_⟩
        exact (lt_max_iff.mp hcovers.2).resolve_left hr
    · exact ⟨x, by simp [hx], hcovers⟩
  marked := by
    intro m hm
    obtain ⟨x, hx, hmark, hwithin⟩ := h.marked m hm
    rcases List.mem_cons.mp hx with rfl | hx
    · rcases Finset.mem_union.mp hmark with hmark | hmark
      · exact ⟨r, by simp, hmark, within_extend_left.trans hwithin⟩
      · exact ⟨s, by simp, hmark, (within_extend_right hle).trans hwithin⟩
    · exact ⟨x, by simp [hx], hmark, hwithin⟩
  start_lt := by
    intro hall
    apply h.start_lt
    intro x hx
    rcases List.mem_cons.mp hx with rfl | hx
    · exact (hall r (by simp)).trans_le (le_max_left ..)
    · exact hall x (by simp [hx])
  stop_le := by
    intro n hall
    apply h.stop_le
    intro x hx
    rcases List.mem_cons.mp hx with rfl | hx
    · exact max_le (hall r (by simp)) (hall s (by simp))
    · exact hall x (by simp [hx])

theorem madeOf_mergeFrom (h : Sorted (r :: ss)) :
    ∀ t ∈ mergeFrom r ss, MadeOf (r :: ss) t := by
  induction ss generalizing r with
  | nil =>
      intro t ht
      obtain rfl := List.mem_singleton.mp ht
      exact madeOf_self (by simp)
  | cons s ss ih =>
      obtain ⟨hr, hss⟩ := List.pairwise_cons.mp h
      intro t ht
      rw [mergeFrom] at ht
      split at ht
      · rcases List.mem_cons.mp ht with rfl | ht
        · exact madeOf_self (by simp)
        · exact (ih hss t ht).mono fun x hx => by simp [hx]
      · next htouch =>
        exact (ih (Sorted.extend h) t ht).of_extend (by omega) (hr s (by simp))

/-! ## The joined intervals of a sorted list -/

theorem apart_merge (h : Sorted ss) : Apart (merge ss) := by
  cases ss with
  | nil => exact List.Pairwise.nil
  | cons s ss => exact apart_mergeFrom h

theorem within_merge (h : Sorted ss) (hs : s ∈ ss) : ∃ t ∈ merge ss, Within s t := by
  cases ss with
  | nil => cases hs
  | cons x ss => exact within_mergeFrom h s hs

theorem madeOf_merge (h : Sorted ss) (ht : t ∈ merge ss) : MadeOf ss t := by
  cases ss with
  | nil => cases ht
  | cons x ss => exact madeOf_mergeFrom h t ht

theorem covered_merge (h : Sorted ss) : covered (merge ss) i = covered ss i := by
  rw [Bool.eq_iff_iff, covered_iff, covered_iff]
  constructor
  · rintro ⟨t, ht, hi⟩
    exact (madeOf_merge h ht).covered i hi
  · rintro ⟨s, hs, hi⟩
    obtain ⟨t, ht, hst⟩ := within_merge h hs
    exact ⟨t, ht, hst.covers hi⟩

/-! ## Blacking out -/

/-- The marks of the intervals in the run of covered positions that begins at `i`. -/
def marksFrom (ss : List (Interval τ)) (i : Nat) : Finset τ :=
  ((ss.filter (reached ss i)).map marks).foldr (· ∪ ·) ∅

theorem mem_foldr_union {m : τ} {fs : List (Finset τ)} :
    m ∈ fs.foldr (· ∪ ·) ∅ ↔ ∃ f ∈ fs, m ∈ f := by
  induction fs with
  | nil => simp
  | cons f fs ih => simp [ih]

theorem mem_marksFrom {m : τ} :
    m ∈ marksFrom ss i ↔ ∃ s ∈ ss, reached ss i s = true ∧ m ∈ s.marks := by
  rw [marksFrom, mem_foldr_union]
  simp only [List.mem_map, List.mem_filter]
  constructor
  · rintro ⟨_, ⟨s, ⟨hs, hreached⟩, rfl⟩, hm⟩
    exact ⟨s, hs, hreached, hm⟩
  · rintro ⟨s, hs, hreached, hm⟩
    exact ⟨_, ⟨s, ⟨hs, hreached⟩, rfl⟩, hm⟩

/-- Neither the order of the intervals nor a repetition matters. -/
theorem marksFrom_congr {ss' : List (Interval τ)} (h : ∀ s, s ∈ ss ↔ s ∈ ss') :
    marksFrom ss i = marksFrom ss' i := by
  ext m
  rw [mem_marksFrom, mem_marksFrom]
  simp only [h, reached, covered_congr h]

/-- The marks of a joined interval are those of its run. -/
theorem marksFrom_merge (h : Sorted ss) (hne : ∀ s ∈ ss, s.start < s.stop) (ht : t ∈ merge ss) :
    marksFrom ss t.start = t.marks := by
  have hmade := madeOf_merge h ht
  ext m
  rw [mem_marksFrom]
  constructor
  · rintro ⟨s, hs, hreached, hm⟩
    obtain ⟨hle, hall⟩ := reached_iff.mp hreached
    obtain ⟨t', ht', hst⟩ := within_merge h hs
    have hcovers : t'.Covers s.start := hst.covers ⟨le_rfl, hne s hs⟩
    by_cases hstop : s.start ≤ t.stop
    · obtain rfl := (apart_merge h).eq_of_covers ht' ht hcovers hle hstop
      exact hst.marks_subset hm
    · -- the end of `t` would be covered, by an interval that is not apart from `t`
      have hend := hall t.stop (hmade.start_lt hne).le (by omega)
      rw [← covered_merge h, covered_iff] at hend
      obtain ⟨x, hx, hxcovers⟩ := hend
      obtain rfl := (apart_merge h).eq_of_covers hx ht hxcovers (hmade.start_lt hne).le le_rfl
      exact absurd hxcovers.2 (lt_irrefl _)
  · intro hm
    obtain ⟨s, hs, hmark, hst⟩ := hmade.marked m hm
    refine ⟨s, hs, reached_iff.mpr ⟨hst.start_le, ?_⟩, hmark⟩
    intro j hj hjs
    rw [← covered_merge h, covered_iff]
    exact ⟨t, ht, hj, (hjs.trans_lt (hne s hs)).trans_le hst.stop_le⟩

end Interval

section Texts

variable {τ α : Type*} {covered : Nat → Bool} {label : Nat → List α} {text : List α} {i n : Nat}
  {inside : Bool}

/-- The text from position `i` on without what is covered, and a label where a run of covered
positions begins. `inside` says that the position before `i` is covered. -/
def blackOut (covered : Nat → Bool) (label : Nat → List α) (inside : Bool) (i : Nat) :
    List α → List α
  | [] => []
  | c :: text =>
      if covered i then
        (if inside then [] else label i) ++ blackOut covered label true (i + 1) text
      else
        c :: blackOut covered label false (i + 1) text

/-- What is written for each interval, and the text between the intervals. -/
def splice (render : Finset τ → List α) (text : List α) : Nat → List (Interval τ) → List α
  | cursor, [] => text.drop cursor
  | cursor, r :: rs =>
      (text.take r.start).drop cursor ++ (render r.marks ++ splice render text r.stop rs)

/-- Outside a run it does not matter what came before. -/
theorem blackOut_outside (h : covered i = false) :
    blackOut covered label inside i text = blackOut covered label false i text := by
  cases text with
  | nil => rfl
  | cons c text => simp [blackOut, h]

theorem blackOut_plain (h : ∀ j, i ≤ j → j < i + n → covered j = false) (hn : n ≤ text.length) :
    blackOut covered label false i text =
      text.take n ++ blackOut covered label false (i + n) (text.drop n) := by
  induction n generalizing i text with
  | zero => simp
  | succ n ih =>
      cases text with
      | nil => simp at hn
      | cons c text =>
          have hi := h i le_rfl (by omega)
          have hrest : blackOut covered label false (i + 1) text =
              text.take n ++ blackOut covered label false (i + 1 + n) (text.drop n) :=
            ih (fun j hj hjn => h j (by omega) (by omega)) (by simpa using hn)
          rw [blackOut, if_neg (by simp [hi]), hrest]
          simp [Nat.add_assoc, Nat.add_comm 1 n]

theorem blackOut_run (h : ∀ j, i ≤ j → j < i + n → covered j = true) (hn : n ≤ text.length) :
    blackOut covered label true i text = blackOut covered label true (i + n) (text.drop n) := by
  induction n generalizing i text with
  | zero => simp
  | succ n ih =>
      cases text with
      | nil => simp at hn
      | cons c text =>
          have hi := h i le_rfl (by omega)
          have hrest : blackOut covered label true (i + 1) text =
              blackOut covered label true (i + 1 + n) (text.drop n) :=
            ih (fun j hj hjn => h j (by omega) (by omega)) (by simpa using hn)
          rw [blackOut, if_pos hi, if_pos rfl, hrest]
          simp [Nat.add_assoc, Nat.add_comm 1 n]

/-- A run of covered positions from its beginning on. -/
theorem blackOut_label (h : ∀ j, i ≤ j → j < i + n → covered j = true) (hpos : 0 < n)
    (hn : n ≤ text.length) (hend : covered (i + n) = false) :
    blackOut covered label false i text =
      label i ++ blackOut covered label false (i + n) (text.drop n) := by
  have hfirst : blackOut covered label false i text =
      label i ++ blackOut covered label true i text := by
    cases text with
    | nil => simp at hn; omega
    | cons c text =>
        have hi := h i le_rfl (by omega)
        simp [blackOut, hi]
  rw [hfirst, blackOut_run h hn, blackOut_outside hend]

/-- When the intervals are apart, writing them one by one blacks out character by character. -/
theorem splice_eq_blackOut {render : Finset τ → List α} {rs : List (Interval τ)} {cursor : Nat}
    (hapart : Interval.Apart rs) (hne : ∀ r ∈ rs, r.start < r.stop)
    (hin : ∀ r ∈ rs, r.stop ≤ text.length) (hcursor : ∀ r ∈ rs, cursor ≤ r.start)
    (hcovered : ∀ i, cursor ≤ i → covered i = Interval.covered rs i)
    (hlabel : ∀ r ∈ rs, label r.start = render r.marks) :
    splice render text cursor rs = blackOut covered label false cursor (text.drop cursor) := by
  induction rs generalizing cursor with
  | nil =>
      have houtside : ∀ j, cursor ≤ j → j < cursor + (text.drop cursor).length →
          covered j = false := fun j hj _ => hcovered j hj
      rw [blackOut_plain houtside le_rfl, List.take_length, List.drop_length, blackOut, List.append_nil]
      rfl
  | cons r rs ih =>
      obtain ⟨hafter, hapart⟩ := List.pairwise_cons.mp hapart
      have hstart := hcursor r (by simp)
      have hlt := hne r (by simp)
      have hstop := hin r (by simp)
      have hiff : ∀ i, cursor ≤ i → (covered i = true ↔ ∃ s ∈ r :: rs, s.Covers i) := by
        intro i hi
        rw [hcovered i hi, Interval.covered_iff]
      -- plain text up to the interval, then the interval, and behind it a gap
      have hbefore : ∀ j, cursor ≤ j → j < cursor + (r.start - cursor) → covered j = false := by
        intro j hj hjr
        rw [Bool.eq_false_iff]
        intro htrue
        obtain ⟨s, hs, hsj⟩ := (hiff j hj).mp htrue
        have hsj := hsj.1
        rcases List.mem_cons.mp hs with rfl | hs
        · omega
        · have hgap := hafter s hs
          omega
      have hrun : ∀ j, r.start ≤ j → j < r.start + (r.stop - r.start) → covered j = true := by
        intro j hj hjr
        exact (hiff j (by omega)).mpr ⟨r, by simp, hj, by omega⟩
      -- behind the first interval only the others cover anything
      have hend : ∀ i, r.stop ≤ i → covered i = Interval.covered rs i := by
        intro i hi
        rw [Bool.eq_iff_iff, hiff i (by omega), Interval.covered_iff]
        constructor
        · rintro ⟨s, hs, hsi⟩
          rcases List.mem_cons.mp hs with rfl | hs
          · exact absurd hsi.2 (by omega)
          · exact ⟨s, hs, hsi⟩
        · rintro ⟨s, hs, hsi⟩
          exact ⟨s, by simp [hs], hsi⟩
      have hgap : covered r.stop = false := by
        rw [hend r.stop le_rfl, Bool.eq_false_iff]
        intro htrue
        obtain ⟨s, hs, hsi⟩ := Interval.covered_iff.mp htrue
        exact absurd hsi.1 (by have hlater := hafter s hs; omega)
      rw [splice, blackOut_plain hbefore (by simp; omega), Nat.add_sub_cancel' hstart,
        List.drop_drop, Nat.add_sub_cancel' hstart, List.drop_take]
      rw [blackOut_label hrun (by omega) (by simp; omega) (by rwa [Nat.add_sub_cancel' hlt.le]),
        Nat.add_sub_cancel' hlt.le, List.drop_drop, Nat.add_sub_cancel' hlt.le,
        hlabel r (by simp)]
      rw [ih hapart (fun s hs => hne s (by simp [hs])) (fun s hs => hin s (by simp [hs]))
        (fun s hs => (hafter s hs).le) hend fun s hs => hlabel s (by simp [hs])]

/-- What is written for the joined intervals blacks out what they cover, no more and no less. -/
theorem splice_merge [DecidableEq τ] {render : Finset τ → List α} {ss : List (Interval τ)}
    (hsorted : Interval.Sorted ss) (hne : ∀ s ∈ ss, s.start < s.stop)
    (hin : ∀ s ∈ ss, s.stop ≤ text.length) :
    splice render text 0 (Interval.merge ss) =
      blackOut (Interval.covered ss) (fun i => render (Interval.marksFrom ss i)) false 0 text := by
  have hmade : ∀ r ∈ Interval.merge ss, Interval.MadeOf ss r := fun r hr =>
    Interval.madeOf_merge hsorted hr
  apply splice_eq_blackOut (Interval.apart_merge hsorted)
  · intro r hr
    exact (hmade r hr).start_lt hne
  · intro r hr
    exact (hmade r hr).stop_le _ hin
  · intro r hr
    exact Nat.zero_le _
  · intro i hi
    exact (Interval.covered_merge hsorted).symm
  · intro r hr
    rw [Interval.marksFrom_merge hsorted hne hr]

/-! ### Where the characters come from -/

variable {β : Type*} {c : α} {k : Nat}

theorem map_blackOut (f : α → β) :
    (blackOut covered label inside i text).map f =
      blackOut covered (fun j => (label j).map f) inside i (text.map f) := by
  induction text generalizing inside i with
  | nil => rfl
  | cons c text ih =>
      simp only [blackOut, List.map_cons]
      split
      · rw [List.map_append, ih]
        split <;> rfl
      · rw [List.map_cons, ih]

/-- The characters with their positions, counted from `i`. -/
def placed (i : Nat) (text : List α) : List (α × Option Nat) :=
  (text.zipIdx i).map fun c => (c.1, some c.2)

/-- `blackOut`, with the position of each character that is kept; what a label says has none. -/
def blackOutPlaced (covered : Nat → Bool) (label : Nat → List α) (inside : Bool) (i : Nat)
    (text : List α) : List (α × Option Nat) :=
  blackOut covered (fun j => (label j).map fun c => (c, none)) inside i (placed i text)

theorem map_fst_placed : (placed i text).map Prod.fst = text := by
  rw [placed, List.map_map]
  simp [Function.comp_def]

theorem map_fst_blackOutPlaced :
    (blackOutPlaced covered label inside i text).map Prod.fst = blackOut covered label inside i text := by
  rw [blackOutPlaced, map_blackOut, map_fst_placed]
  simp [Function.comp_def]

/-- A character stands behind what the text before it has become. -/
theorem getElem?_blackOutPlaced {j : Nat} :
    (blackOutPlaced covered label inside i text)[k]? = some (c, some j) ↔
      covered j = false ∧ ∃ d, j = i + d ∧ text[d]? = some c ∧
        k = (blackOut covered label inside i (text.take d)).length := by
  induction text generalizing inside i k with
  | nil => simp [blackOutPlaced, placed, blackOut]
  | cons x text ih =>
      have hplaced : placed i (x :: text) = (x, some i) :: placed (i + 1) text := by
        simp [placed, List.zipIdx_cons]
      rw [blackOutPlaced, hplaced, blackOut]
      split
      · next hcovered =>
        -- the label comes first, and its characters have no positions
        have hlength : ((if inside then [] else (label i).map fun c => (c, none)) :
            List (α × Option Nat)).length = (if inside then [] else label i).length := by
          split <;> simp
        have hcons : ∀ d, (blackOut covered label inside i ((x :: text).take (d + 1))).length =
            (if inside then [] else label i).length +
              (blackOut covered label true (i + 1) (text.take d)).length := by
          intro d
          rw [List.take_succ_cons, blackOut, if_pos hcovered, List.length_append]
        by_cases hlabel : k < (if inside then [] else label i).length
        · rw [List.getElem?_append_left (hlength ▸ hlabel),
            List.getElem?_eq_getElem (hlength ▸ hlabel)]
          constructor
          · intro heq
            have hmem := List.getElem_mem (hlength ▸ hlabel)
            rw [Option.some.inj heq] at hmem
            split at hmem
            · cases hmem
            · simp at hmem
          · rintro ⟨hj, d, rfl, -, hk⟩
            cases d with
            | zero => exact absurd hcovered (by simp_all)
            | succ d =>
                rw [hcons] at hk
                omega
        · rw [List.getElem?_append_right (hlength ▸ Nat.not_lt.mp hlabel), hlength]
          refine ih.trans (and_congr_right fun hj => ?_)
          constructor
          · rintro ⟨d, rfl, hget, hk⟩
            refine ⟨d + 1, by omega, hget, ?_⟩
            rw [hcons]
            omega
          · rintro ⟨d, rfl, hget, hk⟩
            cases d with
            | zero => exact absurd hcovered (by simp_all)
            | succ d =>
                rw [hcons] at hk
                exact ⟨d, by omega, hget, by omega⟩
      · next hcovered =>
        have hcons : ∀ d, (blackOut covered label inside i ((x :: text).take (d + 1))).length =
            (blackOut covered label false (i + 1) (text.take d)).length + 1 := by
          intro d
          rw [List.take_succ_cons, blackOut, if_neg hcovered, List.length_cons]
        cases k with
        | zero =>
            constructor
            · intro heq
              obtain ⟨rfl, hj⟩ := Prod.mk.inj (Option.some.inj heq)
              obtain rfl := Option.some.inj hj
              exact ⟨Bool.eq_false_iff.mpr hcovered, 0, rfl, rfl, rfl⟩
            · rintro ⟨-, d, rfl, hget, hk⟩
              cases d with
              | zero =>
                  obtain rfl := Option.some.inj hget
                  rfl
              | succ d =>
                  rw [hcons] at hk
                  omega
        | succ k =>
            rw [List.getElem?_cons_succ]
            refine ih.trans (and_congr_right fun _ => ?_)
            constructor
            · rintro ⟨d, rfl, hget, hk⟩
              exact ⟨d + 1, by omega, hget, by rw [hcons, ← hk]⟩
            · rintro ⟨d, rfl, hget, hk⟩
              cases d with
              | zero => simp [blackOut] at hk
              | succ d =>
                  rw [hcons] at hk
                  exact ⟨d, by omega, hget, Nat.succ.inj hk⟩

end Texts

end Scap.Lib
