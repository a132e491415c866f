import Mathlib.Data.List.Induction
import Mathlib.Data.Set.Function

/-!
# Hash chains

A `Link` carries a body, its own tag and the tag of the link before it. `Linked tagOf g links` says
that the links chain up from the start value `g`, every tag being `tagOf prev body`.

* `linked_append` — a chain is a chain over an initial segment, continued from that segment's head;
* `Linked.unique` — where `tagOf` is collision free and never yields the start value on the pairs
  concerned, the head alone determines the whole chain.
-/

namespace Scap.Lib

/-- One entry of a hash chain. -/
structure Link (τ β : Type*) where
  prev : τ
  body : β
  tag : τ
  deriving DecidableEq, Repr

/-- The tag the next link has to carry as its `prev`. -/
def headAfter {τ β : Type*} : τ → List (Link τ β) → τ
  | g, [] => g
  | _, l :: ls => headAfter l.tag ls

section Linked

variable {τ β : Type*} {tagOf : τ → β → τ} {g : τ} {xs ys : List (Link τ β)}

@[simp] theorem headAfter_append : headAfter g (xs ++ ys) = headAfter (headAfter g xs) ys := by
  induction xs generalizing g with
  | nil => rfl
  | cons x xs ih => exact ih

/-- The links chain up from `g`. -/
def Linked (tagOf : τ → β → τ) : τ → List (Link τ β) → Prop
  | _, [] => True
  | g, l :: ls => l.prev = g ∧ l.tag = tagOf l.prev l.body ∧ Linked tagOf l.tag ls

theorem linked_append :
    Linked tagOf g (xs ++ ys) ↔ Linked tagOf g xs ∧ Linked tagOf (headAfter g xs) ys := by
  induction xs generalizing g with
  | nil => simp [Linked, headAfter]
  | cons x xs ih => simp [Linked, headAfter, ih, and_assoc]

/-- A link inside a chain continues the head of what precedes it. -/
theorem Linked.at {l : Link τ β} (h : Linked tagOf g (xs ++ l :: ys)) :
    l.prev = headAfter g xs ∧ l.tag = tagOf l.prev l.body := by
  obtain ⟨hprev, htag, -⟩ := (linked_append.mp h).2
  exact ⟨hprev, htag⟩

/-- On the pairs `asked`, `tagOf` has no collision and never yields the start value. -/
structure Ideal (tagOf : τ → β → τ) (g : τ) (asked : Set (τ × β)) : Prop where
  collisionFree : asked.InjOn fun p => tagOf p.1 p.2
  neStart : ∀ p ∈ asked, tagOf p.1 p.2 ≠ g

/-- **The head determines the chain.** -/
theorem Linked.unique {asked : Set (τ × β)} (ideal : Ideal tagOf g asked) :
    ∀ {xs ys : List (Link τ β)}, Linked tagOf g xs → Linked tagOf g ys →
      (∀ l ∈ xs, (l.prev, l.body) ∈ asked) → (∀ l ∈ ys, (l.prev, l.body) ∈ asked) →
      headAfter g xs = headAfter g ys → xs = ys := by
  intro xs
  induction xs using List.reverseRecOn with
  | nil =>
      intro ys _ hys _ hmem hhead
      cases ys using List.reverseRecOn with
      | nil => rfl
      | append_singleton ys y _ =>
          obtain ⟨-, htag⟩ := hys.at
          rw [headAfter_append] at hhead
          exact absurd (htag.symm.trans hhead.symm) (ideal.neStart _ (hmem y (by simp)))
  | append_singleton xs x ih =>
      intro ys hxs hys hmemx hmemy hhead
      obtain ⟨hxprev, hxtag⟩ := hxs.at
      rw [headAfter_append] at hhead
      cases ys using List.reverseRecOn with
      | nil => exact absurd (hxtag.symm.trans hhead) (ideal.neStart _ (hmemx x (by simp)))
      | append_singleton ys y _ =>
          obtain ⟨hyprev, hytag⟩ := hys.at
          rw [headAfter_append] at hhead
          have htags : x.tag = y.tag := hhead
          have hpair := ideal.collisionFree (hmemx x (by simp)) (hmemy y (by simp))
            (hxtag.symm.trans (htags.trans hytag))
          obtain ⟨hprev, hbody⟩ := Prod.mk.inj hpair
          have hrest := ih (linked_append.mp hxs).1 (linked_append.mp hys).1
            (fun l hl => hmemx l (by simp [hl])) (fun l hl => hmemy l (by simp [hl]))
            (hxprev.symm.trans (hprev.trans hyprev))
          have hlink : x = y := by
            cases x
            cases y
            simp_all
          rw [hrest, hlink]

end Linked

end Scap.Lib
