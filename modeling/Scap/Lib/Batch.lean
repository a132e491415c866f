import Mathlib.Algebra.BigOperators.Group.List.Basic
import Mathlib.Algebra.GroupWithZero.Nat
import Mathlib.Data.List.Sort

/-!
# The first rows in an order

`ORDER BY key LIMIT n`: `firstBy key n rows` sorts by a key and takes the first `n`. A row is among
them just when fewer than `n` rows come before it (`mem_firstBy`), so that what a batch carries is a
sum over such rows (`sum_firstBy`), and two batches carry the same just when what only the one has
weighs as much as what only the other has (`sum_filter_eq_iff`).
-/

namespace Scap.Lib

variable {α κ : Type*} [LinearOrder κ] {key : α → κ} {n : Nat} {l : List α} {a : α}

/-- How many rows come before `a`. -/
def rank (key : α → κ) (l : List α) (a : α) : Nat := l.countP fun b => key b < key a

/-- `ORDER BY key LIMIT n`. -/
def firstBy (key : α → κ) (n : Nat) (l : List α) : List α :=
  (l.insertionSort fun a b => key a ≤ key b).take n

theorem rank_lt_length (h : a ∈ l) : rank key l a < l.length := by
  apply lt_of_le_of_ne List.countP_le_length
  intro hall
  -- `a` would come before itself
  simpa using List.countP_eq_length.mp hall a h

theorem mem_take_of_pairwise (h : l.Pairwise fun a b => key a < key b) :
    a ∈ l.take n ↔ a ∈ l ∧ rank key l a < n := by
  induction l generalizing n with
  | nil => simp
  | cons b l ih =>
      obtain ⟨hb, hl⟩ := List.pairwise_cons.mp h
      cases n with
      | zero => simp
      | succ n =>
          have hfirst : rank key (b :: l) b = 0 := by
            apply List.countP_eq_zero.mpr
            intro c hc
            rcases List.mem_cons.mp hc with rfl | hc
            · simp
            · simpa using (hb c hc).le
          have hlater : ∀ c ∈ l, rank key (b :: l) c = rank key l c + 1 := by
            intro c hc
            exact List.countP_cons_of_pos (by simpa using hb c hc)
          rw [List.take_succ_cons, List.mem_cons, List.mem_cons, ih hl]
          constructor
          · rintro (rfl | ⟨hmem, hrank⟩)
            · exact ⟨.inl rfl, by omega⟩
            · exact ⟨.inr hmem, by rw [hlater a hmem]; omega⟩
          · rintro ⟨rfl | hmem, hrank⟩
            · exact .inl rfl
            · rw [hlater a hmem] at hrank
              exact .inr ⟨hmem, by omega⟩

/-- Rows with different keys are in strict order once they are sorted. -/
theorem pairwise_insertionSort_lt (h : (l.map key).Nodup) :
    (l.insertionSort fun a b => key a ≤ key b).Pairwise fun a b => key a < key b := by
  have hsorted : (l.insertionSort fun a b => key a ≤ key b).Pairwise fun a b => key a ≤ key b := by
    have : Std.Total fun a b : α => key a ≤ key b := ⟨fun a b => le_total (key a) (key b)⟩
    have : IsTrans α fun a b => key a ≤ key b := ⟨fun _ _ _ => le_trans⟩
    exact List.pairwise_insertionSort _ l
  have hdistinct : ((l.insertionSort fun a b => key a ≤ key b).map key).Nodup :=
    ((List.perm_insertionSort _ l).map key).nodup_iff.mpr h
  exact hsorted.imp₂ (fun _ _ hle hne => lt_of_le_of_ne hle hne) (List.pairwise_map.mp hdistinct)

/-- A row is in the batch when fewer than `n` come before it. -/
theorem mem_firstBy (h : (l.map key).Nodup) : a ∈ firstBy key n l ↔ a ∈ l ∧ rank key l a < n := by
  have hperm := List.perm_insertionSort (fun a b => key a ≤ key b) l
  unfold firstBy
  rw [mem_take_of_pairwise (pairwise_insertionSort_lt h), hperm.mem_iff, rank, hperm.countP_eq]
  rfl

theorem nodup_firstBy (h : (l.map key).Nodup) : (firstBy key n l).Nodup := by
  have hperm := List.perm_insertionSort (fun a b => key a ≤ key b) l
  exact (hperm.nodup_iff.mpr h.of_map).sublist (List.take_sublist n _)

theorem length_firstBy : (firstBy key n l).length = min n l.length := by
  rw [firstBy, List.length_take, List.length_insertionSort]

theorem firstBy_subset : firstBy key n l ⊆ l := by
  intro a ha
  exact (List.perm_insertionSort _ l).mem_iff.mp (List.mem_of_mem_take ha)

/-- A batch of images is the image of a batch. -/
theorem firstBy_map {β : Type*} (f : β → α) (rows : List β) :
    firstBy key n (rows.map f) = (firstBy (fun b => key (f b)) n rows).map f := by
  unfold firstBy
  rw [List.map_take, List.map_insertionSort (r := fun a b => key (f a) ≤ key (f b))
    (s := fun a b => key a ≤ key b)]
  intro a _ b _
  exact Iff.rfl

/-- Only the order of the keys matters. -/
theorem firstBy_congr {κ' : Type*} [LinearOrder κ'] {key' : α → κ'}
    (h : ∀ a b, key a ≤ key b ↔ key' a ≤ key' b) : firstBy key n l = firstBy key' n l := by
  have hsame := List.map_insertionSort (r := fun a b => key a ≤ key b)
    (s := fun a b => key' a ≤ key' b) id l fun a _ b _ => h a b
  rw [List.map_id, List.map_id] at hsame
  rw [firstBy, firstBy, hsame]

/-! ## What a batch carries -/

variable {w : α → Nat} {p q : α → Bool}

theorem sum_firstBy (h : (l.map key).Nodup) :
    ((firstBy key n l).map w).sum = ((l.filter fun a => rank key l a < n).map w).sum := by
  have hperm : (firstBy key n l).Perm (l.filter fun a => rank key l a < n) := by
    apply (List.perm_ext_iff_of_nodup (nodup_firstBy h) (h.of_map.filter _)).mpr
    intro a
    rw [mem_firstBy h, List.mem_filter, decide_eq_true_eq]
  exact (hperm.map w).sum_eq

theorem sum_filter_split : ((l.filter p).map w).sum =
    ((l.filter fun a => p a && q a).map w).sum + ((l.filter fun a => p a && !q a).map w).sum := by
  induction l with
  | nil => rfl
  | cons a l ih =>
      cases hp : p a <;> cases hq : q a <;> simp [hp, hq, ih]
      · omega
      · omega

/-- Two selections carry the same when what only the one has weighs as much as what only the other
has. -/
theorem sum_filter_eq_iff : ((l.filter p).map w).sum = ((l.filter q).map w).sum ↔
    ((l.filter fun a => p a && !q a).map w).sum = ((l.filter fun a => q a && !p a).map w).sum := by
  have hcommon : (l.filter fun a => p a && q a) = l.filter fun a => q a && p a := by
    apply List.filter_congr
    intro a _
    exact Bool.and_comm _ _
  rw [sum_filter_split (p := p) (q := q), sum_filter_split (p := q) (q := p), hcommon]
  omega

end Scap.Lib
