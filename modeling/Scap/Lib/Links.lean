import Mathlib.Data.List.Basic

/-!
# Following links

A partial function as links from one thing to the next. `follow` goes along them for a number of
steps at most, `Path` is what it goes along, and a `Chain` is a path to something without a link.

* `follow_path` — whatever the links, a path of at most so many steps is gone;
* `Chain.unique`, `Chain.path_le` — where a chain ends, everything on the way does;
* `Chain.follow_eq_iff` — the end of a chain is found just when there are steps enough.
-/

namespace Scap.Lib.Links

variable {α : Type*} {next next' : α → Option α} {a b c : α} {n k : Nat}

/-- Go to the next one, at most `n` times. -/
def follow (next : α → Option α) : Nat → α → α
  | 0, a => a
  | n + 1, a =>
    match next a with
    | none => a
    | some b => follow next n b

/-- `n` links lead from one to the other. -/
inductive Path (next : α → Option α) : Nat → α → α → Prop
  | refl (a : α) : Path next 0 a a
  | cons {n : Nat} {a b c : α} : next a = some b → Path next n b c → Path next (n + 1) a c

/-- `n` links lead to something without a link. -/
def Chain (next : α → Option α) (n : Nat) (a c : α) : Prop := Path next n a c ∧ next c = none

/-- Go to the next one `n` times. -/
def walk (next : α → Option α) : Nat → α → Option α
  | 0, a => some a
  | n + 1, a => (next a).bind (walk next n)

theorem walk_eq_some : walk next n a = some c ↔ Path next n a c := by
  induction n generalizing a with
  | zero =>
      constructor
      · rintro ⟨rfl⟩
        exact .refl _
      · intro h
        cases h
        rfl
  | succ n ih =>
      rw [walk, Option.bind_eq_some_iff]
      constructor
      · rintro ⟨b, hnext, hwalk⟩
        exact .cons hnext (ih.mp hwalk)
      · intro h
        cases h with
        | cons hnext hrest => exact ⟨_, hnext, ih.mpr hrest⟩

instance [DecidableEq α] : Decidable (Path next n a c) := decidable_of_iff _ walk_eq_some

instance [DecidableEq α] : Decidable (Chain next n a c) := inferInstanceAs (Decidable (_ ∧ _))

/-- A path of at most so many links is gone, also around a circle. -/
theorem follow_path (next : α → Option α) (n : Nat) (a : α) :
    ∃ k ≤ n, Path next k a (follow next n a) := by
  induction n generalizing a with
  | zero => exact ⟨0, Nat.le_refl 0, .refl a⟩
  | succ n ih =>
      unfold follow
      cases hnext : next a with
      | none => exact ⟨0, Nat.zero_le _, .refl a⟩
      | some b =>
          obtain ⟨k, hk, hpath⟩ := ih b
          exact ⟨k + 1, Nat.succ_le_succ hk, .cons hnext hpath⟩

/-- Where it stops early, there is no link. -/
theorem follow_stop (n : Nat) (a : α) :
    Path next n a (follow next n a) ∨ next (follow next n a) = none := by
  induction n generalizing a with
  | zero => exact .inl (.refl a)
  | succ n ih =>
      unfold follow
      cases hnext : next a with
      | none => exact .inr hnext
      | some b => exact (ih b).imp_left fun hpath => .cons hnext hpath

/-- Links that agree on what is passed are followed alike. -/
theorem follow_congr {P : α → Prop} (ha : P a) (hclosed : ∀ a b, P a → next a = some b → P b)
    (hsame : ∀ a, P a → next' a = next a) : follow next' n a = follow next n a := by
  induction n generalizing a with
  | zero => rfl
  | succ n ih =>
      unfold follow
      rw [hsame a ha]
      cases hnext : next a with
      | none => rfl
      | some b => exact ih (hclosed a b ha hnext)

/-- A path cannot go beyond the end of a chain. -/
theorem Chain.path_le (h : Chain next n a c) (hpath : Path next k a b) :
    k ≤ n ∧ Chain next (n - k) b c := by
  obtain ⟨hchain, hend⟩ := h
  induction hpath generalizing n with
  | refl a => exact ⟨Nat.zero_le n, hchain, hend⟩
  | cons hnext _ ih =>
      cases hchain with
      | refl => rw [hend] at hnext; cases hnext
      | cons hfirst hrest =>
          rw [hnext] at hfirst
          obtain rfl := Option.some.inj hfirst
          obtain ⟨hle, hchain⟩ := ih hrest
          exact ⟨Nat.succ_le_succ hle, by rwa [Nat.add_sub_add_right]⟩

/-- Two chains from one place are one chain. -/
theorem Chain.unique (h : Chain next n a c) (h' : Chain next k a b) : n = k ∧ c = b := by
  obtain ⟨hle, hchain⟩ := h.path_le h'.1
  have hge := (h'.path_le h.1).1
  obtain rfl : n = k := by omega
  rw [Nat.sub_self] at hchain
  cases hchain.1
  exact ⟨rfl, rfl⟩

/-- **The end of a chain** is found if and only if there are steps enough. -/
theorem Chain.follow_eq_iff (h : Chain next n a c) : follow next k a = c ↔ n ≤ k := by
  obtain ⟨j, hj, hpath⟩ := follow_path next k a
  constructor
  · intro heq
    rw [heq] at hpath
    obtain ⟨rfl, -⟩ := h.unique ⟨hpath, h.2⟩
    exact hj
  · intro hle
    have hstops : Path next k a (follow next k a) ∨ next (follow next k a) = none := follow_stop k a
    rcases hstops with hfull | hstop
    · obtain ⟨hkn, hrest⟩ := h.path_le hfull
      obtain rfl : k = n := by omega
      rw [Nat.sub_self] at hrest
      cases hrest.1
      rfl
    · exact (h.unique ⟨hpath, hstop⟩).2.symm

end Scap.Lib.Links
