import Mathlib.Data.List.Basic

/-!
# Labelled transition systems and their runs

A `System` is a set of initial states together with a labelled step relation. Everything the
development proves about "every run" is an instance of three rules stated here once:

* `Reachable.induct` — an invariant that holds initially and survives a step holds everywhere;
* `Run.preserves` — the same along one run, from any state;
* `Run.mono` — a preorder that every step climbs is climbed by the whole run.

`Run.exists_step` goes the other way and finds the step in which a property begins to hold.

`ofFun` turns an executable step function into a system; `run_of_exec` then produces a concrete run
by evaluation.
-/

namespace Scap.Lib

/-- Where a system may start, and what each labelled step may do. -/
structure System (σ α : Type*) where
  init : σ → Prop
  step : σ → α → σ → Prop

/-- A step behind a guard that refuses. -/
theorem of_guarded {σ : Type*} {p : Prop} [Decidable p] {s t : σ}
    (h : (if p then none else some s) = some t) : ¬p ∧ s = t := by
  simpa using h

/-- A step behind a condition. -/
theorem of_allowed {σ : Type*} {p : Prop} [Decidable p] {s t : σ}
    (h : (if p then some s else none) = some t) : p ∧ s = t := by
  simpa using h

namespace System

variable {σ α : Type*}

/-- `S.Run s as t`: performing the actions `as` in order leads from `s` to `t`. -/
inductive Run (S : System σ α) (s : σ) : List α → σ → Prop
  | nil : Run S s [] s
  | snoc {as : List α} {a : α} {t u : σ} :
      Run S s as t → S.step t a u → Run S s (as ++ [a]) u

variable {S : System σ α} {s t u : σ} {a : α} {as bs : List α}

/-- A state some run from an initial state ends in. -/
def Reachable (S : System σ α) (t : σ) : Prop := ∃ s as, S.init s ∧ S.Run s as t

theorem Run.single (h : S.step s a t) : S.Run s [a] t := Run.snoc Run.nil h

theorem Run.append (h₁ : S.Run s as t) (h₂ : S.Run t bs u) : S.Run s (as ++ bs) u := by
  induction h₂ with
  | nil => simpa using h₁
  | snoc _ hstep ih => rw [← List.append_assoc]; exact Run.snoc ih hstep

theorem Run.cons (h₁ : S.step s a t) (h₂ : S.Run t as u) : S.Run s (a :: as) u :=
  (Run.single h₁).append h₂

/-- What one step preserves, a whole run preserves. -/
theorem Run.preserves {I : σ → Prop} (hstep : ∀ s a t, I s → S.step s a t → I t)
    (h : S.Run s as t) (hs : I s) : I t := by
  induction h with
  | nil => exact hs
  | snoc _ hlast ih => exact hstep _ _ _ ih hlast

/-- What one step climbs, a whole run climbs. -/
theorem Run.mono {r : σ → σ → Prop} (hrefl : ∀ s, r s s)
    (htrans : ∀ s t u, r s t → r t u → r s u) (hstep : ∀ s a t, S.step s a t → r s t)
    (h : S.Run s as t) : r s t := by
  induction h with
  | nil => exact hrefl _
  | snoc _ hlast ih => exact htrans _ _ _ ih (hstep _ _ _ hlast)

/-- What holds at the end of a run but not at its start begins to hold in one of its steps. -/
theorem Run.exists_step {P : σ → Prop} (h : S.Run s as t) (hs : ¬ P s) (ht : P t) :
    ∃ bs p a q cs, as = bs ++ a :: cs ∧ S.Run s bs p ∧ S.step p a q ∧ S.Run q cs t ∧
      ¬ P p ∧ P q := by
  induction h with
  | nil => exact absurd ht hs
  | @snoc as a t u hrun hlast ih =>
      by_cases hmid : P t
      · obtain ⟨bs, p, b, q, cs, rfl, hbefore, hstep, hafter, hp, hq⟩ := ih hmid
        exact ⟨bs, p, b, q, cs ++ [a], by simp, hbefore, hstep, hafter.snoc hlast, hp, hq⟩
      · exact ⟨as, t, a, u, [], rfl, hrun, hlast, Run.nil, hmid, ht⟩

/-- A run whose steps are steps of another system is a run of that system. -/
theorem Run.of_step {S' : System σ α} (h : S.Run s as t)
    (hstep : ∀ s a t, S.step s a t → S'.step s a t) : S'.Run s as t := by
  induction h with
  | nil => exact Run.nil
  | snoc _ hlast ih => exact ih.snoc (hstep _ _ _ hlast)

theorem Reachable.of_step {S' : System σ α} (h : S.Reachable t)
    (hinit : ∀ s, S.init s → S'.init s) (hstep : ∀ s a t, S.step s a t → S'.step s a t) :
    S'.Reachable t := by
  obtain ⟨s, as, hs, hrun⟩ := h
  exact ⟨s, as, hinit s hs, hrun.of_step hstep⟩

theorem Reachable.of_init (h : S.init s) : S.Reachable s := ⟨s, [], h, Run.nil⟩

theorem Reachable.step (h : S.Reachable s) (hst : S.step s a t) : S.Reachable t := by
  obtain ⟨s₀, as, h₀, hrun⟩ := h
  exact ⟨s₀, as ++ [a], h₀, hrun.snoc hst⟩

theorem Reachable.run (h : S.Reachable s) (hr : S.Run s as t) : S.Reachable t := by
  obtain ⟨s₀, bs, h₀, hrun⟩ := h
  exact ⟨s₀, bs ++ as, h₀, hrun.append hr⟩

/-- **The invariant rule.** The step case may use that the state it leaves is reachable. -/
theorem Reachable.induct {I : σ → Prop} (hinit : ∀ s, S.init s → I s)
    (hstep : ∀ s a t, S.Reachable s → I s → S.step s a t → I t) (h : S.Reachable t) : I t := by
  obtain ⟨s, as, hs, hrun⟩ := h
  induction hrun with
  | nil => exact hinit _ hs
  | snoc hpre hlast ih => exact hstep _ _ _ ⟨s, _, hs, hpre⟩ ih hlast

/-! ## Executable systems -/

/-- The system of a partial step function. -/
def ofFun (init : σ → Prop) (f : σ → α → Option σ) : System σ α where
  init := init
  step s a t := f s a = some t

/-- Run a partial step function over a list of actions. -/
def exec (f : σ → α → Option σ) : σ → List α → Option σ
  | s, [] => some s
  | s, a :: as => (f s a).bind fun t => exec f t as

theorem run_of_exec {init : σ → Prop} {f : σ → α → Option σ} :
    ∀ {as : List α} {s t : σ}, exec f s as = some t → (ofFun init f).Run s as t
  | [], s, t, h => by
      cases h
      exact Run.nil
  | a :: as, s, t, h => by
      obtain ⟨m, hm, hrest⟩ := Option.bind_eq_some_iff.mp h
      exact Run.cons (S := ofFun init f) hm (run_of_exec hrest)

theorem ofFun_deterministic {init : σ → Prop} {f : σ → α → Option σ} (s : σ) (a : α) (t u : σ)
    (h : (ofFun init f).step s a t) (h' : (ofFun init f).step s a u) : t = u :=
  Option.some.inj (Eq.trans (Eq.symm h) h')

/-! ## Restricting the steps -/

/-- The same system with only those steps that meet a condition on the state they leave and on
their label. -/
def restrict (S : System σ α) (C : σ → α → Prop) : System σ α where
  init := S.init
  step s a t := S.step s a t ∧ C s a

theorem Run.of_restrict {C : σ → α → Prop} (h : (S.restrict C).Run s as t) : S.Run s as t := by
  induction h with
  | nil => exact Run.nil
  | snoc _ hlast ih => exact ih.snoc hlast.1

/-- A run whose last step is known. -/
theorem Run.snoc_inv {as : List α} (h : S.Run s (as ++ [a]) u) :
    ∃ t, S.Run s as t ∧ S.step t a u := by
  generalize has : as ++ [a] = bs at h
  cases h with
  | nil => exact absurd has (List.append_ne_nil_of_right_ne_nil _ (List.cons_ne_nil _ _))
  | snoc hrun hlast =>
      obtain ⟨rfl, hsame⟩ := List.append_inj' has rfl
      obtain rfl := List.singleton_inj.mp hsame
      exact ⟨_, hrun, hlast⟩

/-- Where a label determines its step, the labels determine the run. -/
theorem Run.deterministic (hdet : ∀ s a t u, S.step s a t → S.step s a u → t = u)
    (h : S.Run s as t) (h' : S.Run s as u) : t = u := by
  induction h generalizing u with
  | nil =>
      generalize has : ([] : List α) = bs at h'
      cases h' with
      | nil => rfl
      | snoc => exact absurd has.symm (List.append_ne_nil_of_right_ne_nil _ (List.cons_ne_nil _ _))
  | snoc _ hlast ih =>
      obtain ⟨m, hrun, hstep⟩ := h'.snoc_inv
      obtain rfl := ih hrun
      exact hdet _ _ _ _ hlast hstep

/-- Whether a run that goes on for a step was and still is one of the restricted system. -/
theorem Run.restrict_snoc {C : σ → α → Prop}
    (hdet : ∀ s a t u, S.step s a t → S.step s a u → t = u) (h : S.Run s as t)
    (hstep : S.step t a u) :
    (S.restrict C).Run s (as ++ [a]) u ↔ (S.restrict C).Run s as t ∧ C t a := by
  constructor
  · intro hrun
    obtain ⟨m, hbefore, -, hC⟩ := hrun.snoc_inv
    obtain rfl := h.deterministic hdet hbefore.of_restrict
    exact ⟨hbefore, hC⟩
  · intro ⟨hrun, hC⟩
    exact hrun.snoc ⟨hstep, hC⟩

/-- Where a step keeps a property just when it meets the condition, the property holds all along a
run just when every step of the run meets the condition. -/
theorem Run.restrict_iff {C : σ → α → Prop} {P : σ → Prop}
    (hdet : ∀ s a t u, S.step s a t → S.step s a u → t = u) (hs : P s)
    (hstep : ∀ s a t, P s → S.step s a t → (P t ↔ C s a)) (h : S.Run s as t) :
    (∀ bs u, bs <+: as → S.Run s bs u → P u) ↔ (S.restrict C).Run s as t := by
  induction h with
  | nil =>
      constructor
      · intro _
        exact Run.nil
      · intro _ bs u hbs hrun
        obtain rfl := List.prefix_nil.mp hbs
        obtain rfl := hrun.deterministic hdet Run.nil
        exact hs
  | @snoc as a t u hrun hlast ih =>
      rw [hrun.restrict_snoc hdet hlast, ← ih]
      constructor
      · intro hall
        have ht : P t := hall as t (List.prefix_append _ _) hrun
        have hu : P u := hall _ u (List.prefix_refl _) (hrun.snoc hlast)
        refine ⟨fun bs v hbs hv => hall bs v (hbs.trans (List.prefix_append _ _)) hv, ?_⟩
        exact (hstep t a u ht hlast).mp hu
      · rintro ⟨hall, hC⟩ bs v hbs hv
        rcases List.prefix_concat_iff.mp hbs with rfl | hbs
        · obtain rfl := hv.deterministic hdet (hrun.snoc hlast)
          exact (hstep t a v (hall as t (List.prefix_refl _) hrun) hlast).mpr hC
        · exact hall bs v hbs hv

/-- A step that has to pass a check first. -/
def checked (c : σ → α → Bool) (f : σ → α → Option σ) (s : σ) (a : α) : Option σ :=
  if c s a then f s a else none

theorem run_of_exec_checked {init : σ → Prop} {f : σ → α → Option σ} {c : σ → α → Bool}
    {C : σ → α → Prop} (hc : ∀ s a, c s a = true → C s a) (h : exec (checked c f) s as = some t) :
    ((ofFun init f).restrict C).Run s as t := by
  induction as generalizing s with
  | nil =>
      cases h
      exact Run.nil
  | cons a as ih =>
      obtain ⟨m, hm, hrest⟩ := Option.bind_eq_some_iff.mp h
      unfold checked at hm
      split at hm
      · next hpass =>
        have hstep : ((ofFun init f).restrict C).step s a m := ⟨hm, hc s a hpass⟩
        exact Run.cons hstep (ih hrest)
      · cases hm

theorem Reachable.of_restrict {C : σ → α → Prop} (h : (S.restrict C).Reachable t) :
    S.Reachable t := by
  obtain ⟨s, as, hs, hrun⟩ := h
  exact ⟨s, as, hs, hrun.of_restrict⟩

end System

end Scap.Lib
