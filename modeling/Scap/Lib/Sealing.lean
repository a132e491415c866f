import Mathlib.Data.List.Basic
import Mathlib.Data.List.Induction
import Mathlib.Data.Set.Function

/-!
# Sealed payloads

A payload is written as a message, and a code of the message is made with a key that nobody has but
those who seal and who check. `Sealing.accepts_iff_mem` says what an accepted code is worth: the
payload itself was sealed, if no code was forged and the writing of payloads is injective. For
payloads of several fields `delimited_inj` is what the second condition takes.
-/

namespace Scap.Lib

/-! ## Fields behind a head -/

section Delimited

variable {α : Type*} {sep : α} {xs ys f g : List α} {fs gs : List (List α)}

/-- A head and some fields, each behind a separator. -/
def delimited (sep : α) (head : List α) (fields : List (List α)) : List α :=
  head ++ fields.flatMap (sep :: ·)

@[simp] theorem delimited_nil : delimited sep xs [] = xs := by
  simp [delimited]

theorem delimited_concat : delimited sep xs (fs ++ [f]) = delimited sep xs fs ++ sep :: f := by
  simp [delimited]

/-- The last separator of a text can be told from what is behind it. -/
theorem append_cons_inj_of_last (hf : sep ∉ f) (hg : sep ∉ g)
    (h : xs ++ sep :: f = ys ++ sep :: g) : xs = ys ∧ f = g := by
  rcases List.append_eq_append_iff.mp h with ⟨as, rfl, hrest⟩ | ⟨as, rfl, hrest⟩
  · cases as with
    | nil => exact ⟨(List.append_nil _).symm, (List.cons.inj hrest).2⟩
    | cons a as =>
        apply absurd _ hf
        rw [(List.cons.inj hrest).2]
        simp
  · cases as with
    | nil => exact ⟨List.append_nil _, (List.cons.inj hrest).2.symm⟩
    | cons a as =>
        apply absurd _ hg
        rw [(List.cons.inj hrest).2]
        simp

/-- The first separator of a text can be told from what is before it. -/
theorem append_cons_inj_of_first (hxs : sep ∉ xs) (hys : sep ∉ ys)
    (h : xs ++ sep :: f = ys ++ sep :: g) : xs = ys ∧ f = g := by
  -- backwards, it is the last one
  have hreverse : f.reverse ++ sep :: xs.reverse = g.reverse ++ sep :: ys.reverse := by
    simpa using congrArg List.reverse h
  obtain ⟨hback, hfront⟩ :=
    append_cons_inj_of_last (by simpa using hxs) (by simpa using hys) hreverse
  exact ⟨List.reverse_injective hfront, List.reverse_injective hback⟩

/-- The head may have separators in it, but the fields may not. -/
theorem delimited_inj (hf : ∀ f ∈ fs, sep ∉ f) (hg : ∀ g ∈ gs, sep ∉ g)
    (hlength : fs.length = gs.length) (h : delimited sep xs fs = delimited sep ys gs) :
    xs = ys ∧ fs = gs := by
  induction fs using List.reverseRecOn generalizing gs with
  | nil =>
      obtain rfl := List.length_eq_zero_iff.mp hlength.symm
      simpa using h
  | append_singleton fs f ih =>
      cases gs using List.reverseRecOn with
      | nil => simp at hlength
      | append_singleton gs g =>
          rw [delimited_concat, delimited_concat] at h
          obtain ⟨hfront, rfl⟩ := append_cons_inj_of_last (hf f (by simp)) (hg g (by simp)) h
          obtain ⟨rfl, rfl⟩ := ih (fun x hx => hf x (List.mem_append_left _ hx))
            (fun x hx => hg x (List.mem_append_left _ hx)) (by simpa using hlength) hfront
          exact ⟨rfl, rfl⟩

end Delimited

/-! ## Codes -/

/-- How payloads `π` are written as messages `μ`, and the code `τ` of a message. -/
structure Sealing (π μ τ : Type*) where
  message : π → μ
  code : μ → τ

namespace Sealing

variable {π μ τ : Type*} {S : Sealing π μ τ} {p : π} {tag : τ} {made : List π} {D : Set π}

/-- The code of a payload. -/
def tagOf (S : Sealing π μ τ) (p : π) : τ := S.code (S.message p)

/-- Whoever shows the code of a message has it from somebody who made it for that message. -/
def Unforged (S : Sealing π μ τ) (made : List π) (p : π) (tag : τ) : Prop :=
  tag = S.tagOf p → ∃ q ∈ made, S.message q = S.message p

/-- A code that was made is no forgery. -/
theorem unforged_of_mem (h : p ∈ made) : S.Unforged made p tag := fun _ => ⟨p, h, rfl⟩

/-- **What is accepted was sealed**, if no two payloads are written alike. -/
theorem mem_of_accepts (hinj : D.InjOn S.message) (hmade : ∀ q ∈ made, q ∈ D) (hp : p ∈ D)
    (hreal : S.Unforged made p tag) (h : tag = S.tagOf p) : p ∈ made := by
  obtain ⟨q, hq, hmessage⟩ := hreal h
  rw [← hinj (hmade q hq) hp hmessage]
  exact hq

end Sealing

end Scap.Lib
