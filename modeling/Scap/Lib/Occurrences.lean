import Mathlib.Data.List.Infix

/-!
# Occurrences of a word

`find` is the first occurrence from a cursor on, and `picks` goes on behind each occurrence that it
finds. It finds the occurrences that no earlier one it has found overlaps (`mem_picks`): an
occurrence that begins inside another one can be passed over.

A word that does not overlap itself is found where it is put in (`find_first`).
-/

namespace Scap.Lib

variable {α : Type*} {text word : List α} {cursor i p q : Nat}

/-- `word` stands in `text` at position `i`. -/
def Occurs (text word : List α) (i : Nat) : Prop := i ≤ text.length ∧ word <+: text.drop i

instance [DecidableEq α] : Decidable (Occurs text word i) :=
  inferInstanceAs (Decidable (_ ∧ _))

theorem Occurs.add_le (h : Occurs text word i) : i + word.length ≤ text.length := by
  have hlength := h.2.length_le
  rw [List.length_drop] at hlength
  have hle := h.1
  omega

/-- An occurrence that no picked one before it overlaps. -/
def Picked (text word : List α) (p : Nat) : Prop :=
  Occurs text word p ∧ ∀ q, q < p → Picked text word q → q + word.length ≤ p
termination_by p

theorem picked_iff : Picked text word p ↔
    Occurs text word p ∧ ∀ q, q < p → Picked text word q → q + word.length ≤ p := by
  rw [Picked]

theorem Picked.occurs (h : Picked text word p) : Occurs text word p := (picked_iff.mp h).1

section Search

variable [DecidableEq α]

/-- `text.find(word, cursor)`. -/
def find (text word : List α) (cursor : Nat) : Option Nat :=
  (List.range' cursor (text.length + 1 - cursor)).find? fun i => Occurs text word i

theorem find_eq_some (h : find text word cursor = some i) :
    cursor ≤ i ∧ Occurs text word i ∧ ∀ j, cursor ≤ j → j < i → ¬ Occurs text word j := by
  obtain ⟨hoccurs, before, after, heq, hbefore⟩ := List.find?_eq_some_iff_append.mp h
  have hlength : (List.range' cursor (text.length + 1 - cursor))[before.length]? = some i := by
    rw [heq, List.getElem?_append_right le_rfl, Nat.sub_self]
    rfl
  obtain ⟨hlt, hi⟩ := List.getElem?_eq_some_iff.mp hlength
  rw [List.getElem_range', Nat.one_mul] at hi
  have hoccurs : Occurs text word i := by simpa using hoccurs
  have hle := hoccurs.1
  refine ⟨by omega, hoccurs, ?_⟩
  intro j hj hji
  have hmem : j ∈ before := by
    have hj' : (before ++ i :: after)[j - cursor]? = some j := by
      rw [← heq, List.getElem?_range' (by omega), Nat.one_mul, Nat.add_sub_cancel' hj]
    rw [List.getElem?_append_left (by omega)] at hj'
    exact List.mem_of_getElem? hj'
  simpa using hbefore j hmem

theorem find_eq_none (h : find text word cursor = none) (hi : cursor ≤ i) :
    ¬ Occurs text word i := by
  intro hoccurs
  have hle := hoccurs.1
  have hnone := List.find?_eq_none.mp h i (List.mem_range'_1.mpr ⟨hi, by omega⟩)
  exact hnone (by simpa using hoccurs)

theorem find_le (h : find text word cursor = some i) : cursor ≤ i ∧ i ≤ text.length :=
  ⟨(find_eq_some h).1, (find_eq_some h).2.1.1⟩

/-- The loop `start = text.find(word, cursor); end = start + len(word);
cursor = max(end, start + 1)`. -/
def picks (text word : List α) (cursor : Nat) : List Nat :=
  match h : find text word cursor with
  | none => []
  | some start => start :: picks text word (max (start + word.length) (start + 1))
termination_by text.length + 1 - cursor
decreasing_by
  have hbounds := find_le h
  omega

theorem picks_of_none (h : find text word cursor = none) : picks text word cursor = [] := by
  rw [picks.eq_def]
  split
  · rfl
  · next start hsome =>
    rw [h] at hsome
    cases hsome

theorem picks_of_some (h : find text word cursor = some i) :
    picks text word cursor = i :: picks text word (max (i + word.length) (i + 1)) := by
  rw [picks.eq_def]
  split
  · next hnone =>
    rw [h] at hnone
    cases hnone
  · next start hsome =>
    obtain rfl : i = start := Option.some.inj (h.symm.trans hsome)
    rfl

theorem picks_single (h : find text word cursor = some i)
    (hrest : find text word (max (i + word.length) (i + 1)) = none) :
    picks text word cursor = [i] := by
  rw [picks_of_some h, picks_of_none hrest]

theorem mem_picks (hword : word ≠ [])
    (hcursor : ∀ q, q < cursor → Picked text word q → q + word.length ≤ cursor) :
    p ∈ picks text word cursor ↔ cursor ≤ p ∧ Picked text word p := by
  have hpos : 0 < word.length := List.length_pos_iff.mpr hword
  induction cursor using picks.induct text word with
  | case1 cursor hnone =>
      rw [picks_of_none hnone]
      constructor
      · intro hmem
        cases hmem
      · rintro ⟨hle, hp⟩
        exact absurd hp.occurs (find_eq_none hnone hle)
  | case2 cursor start hfind ih =>
      obtain ⟨hle, hoccurs, hleast⟩ := find_eq_some hfind
      -- before `start` nothing is picked that was not picked before the cursor
      have hstart : Picked text word start := by
        refine picked_iff.mpr ⟨hoccurs, ?_⟩
        intro q hq hpicked
        have hbefore : q < cursor := by
          by_contra hnot
          exact hleast q (by omega) hq hpicked.occurs
        exact (hcursor q hbefore hpicked).trans hle
      have hnext : ∀ q, q < max (start + word.length) (start + 1) → Picked text word q →
          q + word.length ≤ max (start + word.length) (start + 1) := by
        intro q hq hpicked
        rcases Nat.lt_trichotomy q start with hlt | rfl | hgt
        · have hfits := (picked_iff.mp hstart).2 q hlt hpicked
          omega
        · omega
        · have hfits := (picked_iff.mp hpicked).2 start hgt hstart
          omega
      have hrest : p ∈ picks text word (max (start + word.length) (start + 1)) ↔
          max (start + word.length) (start + 1) ≤ p ∧ Picked text word p := ih hnext
      rw [picks_of_some hfind, List.mem_cons, hrest]
      constructor
      · rintro (rfl | ⟨hp, hpicked⟩)
        · exact ⟨hle, hstart⟩
        · exact ⟨by omega, hpicked⟩
      · rintro ⟨hp, hpicked⟩
        rcases Nat.lt_trichotomy p start with hlt | rfl | hgt
        · exact absurd hpicked.occurs (hleast p hp hlt)
        · exact .inl rfl
        · have hfits := (picked_iff.mp hpicked).2 start hgt hstart
          exact .inr ⟨by omega, hpicked⟩

theorem mem_picks_zero (hword : word ≠ []) : p ∈ picks text word 0 ↔ Picked text word p := by
  rw [mem_picks hword fun q hq => absurd hq (Nat.not_lt_zero q)]
  simp

/-! ## The first occurrence -/

theorem find_eq_some_iff : find text word cursor = some i ↔
    cursor ≤ i ∧ Occurs text word i ∧ ∀ j, cursor ≤ j → j < i → ¬ Occurs text word j := by
  refine ⟨find_eq_some, ?_⟩
  rintro ⟨hle, hoccurs, hleast⟩
  cases h : find text word cursor with
  | none => exact absurd hoccurs (find_eq_none h hle)
  | some k =>
      obtain ⟨hk, hkoccurs, hkleast⟩ := find_eq_some h
      rcases Nat.lt_trichotomy i k with hlt | rfl | hgt
      · exact absurd hoccurs (hkleast i hle hlt)
      · rfl
      · exact absurd hkoccurs (hleast k hk hgt)

omit [DecidableEq α] in
theorem infix_iff : word <:+: text ↔ ∃ i, Occurs text word i := by
  constructor
  · rintro ⟨before, after, rfl⟩
    refine ⟨before.length, by simp, ?_⟩
    rw [List.append_assoc, List.drop_left]
    exact List.prefix_append _ _
  · rintro ⟨i, -, hpre⟩
    exact hpre.isInfix.trans (List.drop_suffix i text).isInfix

omit [DecidableEq α] in
theorem Occurs.append_left {before : List α} (h : Occurs text word i) :
    Occurs (before ++ text) word (before.length + i) := by
  refine ⟨by simpa using h.1, ?_⟩
  rw [List.drop_length_add_append]
  exact h.2

omit [DecidableEq α] in
theorem Occurs.of_append_left {before : List α} (h : Occurs (before ++ text) word cursor)
    (hle : before.length ≤ cursor) : Occurs text word (cursor - before.length) := by
  obtain ⟨i, rfl⟩ := Nat.exists_eq_add_of_le hle
  refine ⟨by simpa using h.1, ?_⟩
  have hpre := h.2
  rw [List.drop_length_add_append] at hpre
  rwa [Nat.add_sub_cancel_left]

/-- No part of the word at its end is one at its beginning. -/
def Unbordered (word : List α) : Prop :=
  ∀ k, 0 < k → k < word.length → ¬ word.drop k <+: word

omit [DecidableEq α] in
theorem unbordered_pair {x y : α} (h : x ≠ y) : Unbordered [x, y] := by
  intro k hpos hlt hborder
  obtain rfl : k = 1 := by
    simp only [List.length_cons, List.length_nil] at hlt
    omega
  exact h (List.cons_prefix_cons.mp hborder).1.symm

theorem find_eq_none_of_not_infix (before : List α) (h : ¬ word <:+: text) :
    find (before ++ text) word before.length = none := by
  cases hfind : find (before ++ text) word before.length with
  | none => rfl
  | some i =>
      obtain ⟨hle, hoccurs, -⟩ := find_eq_some hfind
      exact absurd (infix_iff.mpr ⟨_, hoccurs.of_append_left hle⟩) h

/-- **The first occurrence** of a word behind a text that it does not occur in. -/
theorem find_first (before : List α) {p r : List α} (hword : Unbordered word) (hp : ¬ word <:+: p) :
    find (before ++ (p ++ word ++ r)) word before.length = some (before.length + p.length) := by
  apply find_eq_some_iff.mpr
  refine ⟨Nat.le_add_right .., ?_, ?_⟩
  · apply Occurs.append_left
    refine ⟨by simp, ?_⟩
    rw [List.append_assoc, List.drop_left]
    exact List.prefix_append _ _
  · intro j hj hlt hoccurs
    obtain ⟨i, rfl⟩ := Nat.exists_eq_add_of_le hj
    have hi : Occurs (p ++ word ++ r) word i := by
      simpa using hoccurs.of_append_left (Nat.le_add_right ..)
    have hip : i < p.length := by omega
    have hpre := hi.2
    rw [List.append_assoc, List.drop_append_of_le_length hip.le] at hpre
    by_cases hinside : word.length ≤ (p.drop i).length
    · -- it would occur in `p`
      have hbefore : word <+: p.drop i :=
        List.prefix_of_prefix_length_le hpre (List.prefix_append _ _) hinside
      exact hp (hbefore.isInfix.trans (List.drop_suffix i p).isInfix)
    · -- it would overlap itself
      have hpos : 0 < (p.drop i).length := by
        rw [List.length_drop]
        omega
      have hoverlap : word.drop (p.drop i).length <+: word ++ r := by
        have hdrop := hpre.drop (p.drop i).length
        rwa [List.drop_left] at hdrop
      apply hword _ hpos (by omega)
      exact List.prefix_of_prefix_length_le hoverlap (List.prefix_append _ _) (by simp)

/-- Every text in which a word occurs has a first occurrence. -/
theorem exists_first (hword : word ≠ []) (h : word <:+: text) :
    ∃ p r, text = p ++ word ++ r ∧ ¬ word <:+: p := by
  cases hfind : find text word 0 with
  | none =>
      obtain ⟨i, hi⟩ := infix_iff.mp h
      exact absurd hi (find_eq_none hfind (Nat.zero_le i))
  | some i =>
      obtain ⟨-, ⟨hle, r, hr⟩, hleast⟩ := find_eq_some hfind
      refine ⟨text.take i, r, ?_, ?_⟩
      · rw [List.append_assoc, hr, List.take_append_drop]
      · rintro hinfix
        obtain ⟨j, hj⟩ := infix_iff.mp hinfix
        have hadd := hj.add_le
        have hpos := List.length_pos_iff.mpr hword
        rw [List.length_take, Nat.min_eq_left hle] at hadd
        apply hleast j (Nat.zero_le j) (by omega)
        refine ⟨by omega, ?_⟩
        rw [← List.take_append_drop i text]
        rw [List.drop_append_of_le_length (by rw [List.length_take]; omega)]
        exact hj.2.trans (List.prefix_append _ _)

omit [DecidableEq α] in
/-- A letter that is not in the word keeps its occurrences apart. -/
theorem infix_append_cons {p q : List α} {x : α} (hx : x ∉ word) (h : word <:+: p ++ x :: q) :
    word <:+: p ∨ word <:+: q := by
  induction p with
  | nil =>
      rcases List.infix_cons_iff.mp h with hpre | hinfix
      · cases word with
        | nil => exact .inl (List.nil_infix)
        | cons y word =>
            obtain rfl := (List.cons_prefix_cons.mp hpre).1
            exact absurd List.mem_cons_self hx
      · exact .inr hinfix
  | cons y p ih =>
      rcases List.infix_cons_iff.mp h with hpre | hinfix
      · left
        have hshort : word.length ≤ (y :: p).length := by
          by_contra hlong
          obtain ⟨rest, rfl⟩ := List.prefix_of_prefix_length_le
            (List.prefix_append (y :: p) (x :: q)) hpre (by omega)
          cases rest with
          | nil => simp at hlong
          | cons z rest =>
              obtain rfl := (List.cons_prefix_cons.mp
                ((List.prefix_append_right_inj _).mp hpre)).1
              exact hx (by simp)
        exact (List.prefix_of_prefix_length_le hpre (List.prefix_append (y :: p) (x :: q))
          hshort).isInfix
      · rcases ih hinfix with hp | hq
        · exact .inl (List.infix_cons hp)
        · exact .inr hq

end Search

end Scap.Lib
