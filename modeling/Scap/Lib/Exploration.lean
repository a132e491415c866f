import Mathlib.Algebra.BigOperators.Group.List.Basic
import Mathlib.Algebra.GroupWithZero.Nat

/-!
# Exploring with a budget

A queue of nodes, each of which is visited and offers its children. A child that has been seen is
passed over, one that fits the budget is put at the end of the queue, and what is refused leaves a
mark.

* `visits_inv`: what the children of a node keep, all visited nodes have;
* `visits_length`, `visits_weight`: each place in the budget is spent on a node that is visited, so
  that the queue runs empty (`pending_eq_nil`);
* `explored`: a child of a visited node has been seen or has left its mark;
* `mem_out`: nothing else is put out.
-/

namespace Scap.Lib

/-- What to do at a node, and which nodes fit when so many have been seen and so much is spent. -/
structure Exploration (ν ι ο : Type) where
  visit : ν → List ο
  children : ν → List ν
  identity : ν → ι
  weight : ν → Nat
  fits : Nat → Nat → ν → Bool
  refuse : ν → ο

namespace Exploration

variable {ν ι ο : Type}

structure State (ν ι ο : Type) where
  pending : List ν
  seen : List ι
  total : Nat
  out : List ο

/-- Nothing that was seen or put out is taken back. -/
structure Grows (s t : State ν ι ο) : Prop where
  seen : s.seen ⊆ t.seen
  out : s.out ⊆ t.out

variable {s t u : State ν ι ο}

theorem Grows.refl (s : State ν ι ο) : Grows s s :=
  ⟨List.Subset.refl _, List.Subset.refl _⟩

theorem Grows.trans (h : Grows s t) (h' : Grows t u) : Grows s u :=
  ⟨List.Subset.trans h.seen h'.seen, List.Subset.trans h.out h'.out⟩

variable [DecidableEq ι] (E : Exploration ν ι ο)

def start (v : ν) : State ν ι ο := ⟨[v], [E.identity v], E.weight v, []⟩

/-- A child is offered. -/
def offer (s : State ν ι ο) (d : ν) : State ν ι ο :=
  if E.identity d ∈ s.seen then s
  else if E.fits s.seen.length s.total d then
    { s with pending := s.pending ++ [d], seen := E.identity d :: s.seen,
             total := s.total + E.weight d }
  else { s with out := s.out ++ [E.refuse d] }

/-- The node is visited, and the others are `rest`. -/
def expand (s : State ν ι ο) (v : ν) (rest : List ν) : State ν ι ο :=
  (E.children v).foldl E.offer { s with pending := rest, out := s.out ++ E.visit v }

def explore : Nat → State ν ι ο → State ν ι ο
  | 0, s => s
  | n + 1, s =>
      match s.pending with
      | [] => s
      | v :: rest => explore n (E.expand s v rest)

/-- The nodes that are visited, in their order. -/
def visits : Nat → State ν ι ο → List ν
  | 0, _ => []
  | n + 1, s =>
      match s.pending with
      | [] => []
      | v :: rest => v :: visits n (E.expand s v rest)

variable {E} {s t : State ν ι ο} {v d : ν} {ds rest : List ν} {n : Nat}

/-- What can become of a child that is offered. -/
theorem offer_cases : (E.identity d ∈ s.seen ∧ E.offer s d = s) ∨
    (E.fits s.seen.length s.total d = true ∧ E.offer s d =
      ⟨s.pending ++ [d], E.identity d :: s.seen, s.total + E.weight d, s.out⟩) ∨
    (E.identity d ∉ s.seen ∧ E.offer s d = ⟨s.pending, s.seen, s.total, s.out ++ [E.refuse d]⟩) := by
  unfold offer
  split
  · next h => exact .inl ⟨h, rfl⟩
  · next h =>
    split
    · next hfits => exact .inr (.inl ⟨hfits, rfl⟩)
    · exact .inr (.inr ⟨h, rfl⟩)

/-! ## What a run keeps -/

/-- What each offer preserves, visiting a node preserves. -/
theorem expand_preserves {I : State ν ι ο → Prop}
    (hoffer : ∀ s, I s → ∀ d ∈ E.children v, I (E.offer s d))
    (h : I { s with pending := rest, out := s.out ++ E.visit v }) : I (E.expand s v rest) := by
  unfold expand
  revert hoffer h
  generalize { s with pending := rest, out := s.out ++ E.visit v } = t
  generalize E.children v = ds
  intro hoffer h
  induction ds generalizing t with
  | nil => exact h
  | cons d ds ih =>
      exact ih _ (fun s hs d hd => hoffer s hs d (List.mem_cons_of_mem _ hd))
        (hoffer t h d List.mem_cons_self)

/-- What the children of a node keep, all visited nodes have. -/
theorem visits_inv {P : ν → Prop}
    (hchildren : ∀ v, P v → ∀ s : State ν ι ο, ∀ d ∈ E.children v,
      E.fits s.seen.length s.total d = true → P d)
    (h : ∀ v ∈ s.pending, P v) : ∀ v ∈ E.visits n s, P v := by
  induction n generalizing s with
  | zero => simp [visits]
  | succ n ih =>
      unfold visits
      split
      · simp
      · next v rest hpending =>
        have hv : P v := h v (by simp [hpending])
        have hnext : ∀ w ∈ (E.expand s v rest).pending, P w := by
          refine expand_preserves (I := fun s => ∀ w ∈ s.pending, P w) ?_ ?_
          · intro t ht d hd
            rcases offer_cases (E := E) (s := t) (d := d) with ⟨-, heq⟩ | ⟨hfits, heq⟩ | ⟨-, heq⟩
            · rwa [heq]
            · rw [heq]
              intro w hw
              rcases List.mem_append.mp hw with hw | hw
              · exact ht w hw
              · rw [List.mem_singleton.mp hw]
                exact hchildren v hv t d hd hfits
            · rw [heq]
              exact ht
          · intro w hw
            exact h w (by rw [hpending]; exact List.mem_cons_of_mem _ hw)
        intro w hw
        rcases List.mem_cons.mp hw with rfl | hw
        · exact hv
        · exact ih hnext w hw

/-- What visiting a node preserves, a run preserves. -/
theorem explore_preserves {I : State ν ι ο → Prop}
    (hexpand : ∀ s v rest, I s → s.pending = v :: rest → I (E.expand s v rest)) (h : I s) :
    I (E.explore n s) := by
  induction n generalizing s with
  | zero => exact h
  | succ n ih =>
      unfold explore
      split
      · exact h
      · next v rest hpending => exact ih (hexpand s v rest h hpending)

/-! ## The budget -/

theorem expand_length :
    (E.expand s v rest).pending.length + s.seen.length =
      rest.length + (E.expand s v rest).seen.length := by
  refine expand_preserves
    (I := fun t => t.pending.length + s.seen.length = rest.length + t.seen.length) ?_ rfl
  intro t ht d _
  rcases offer_cases (E := E) (s := t) (d := d) with ⟨-, heq⟩ | ⟨-, heq⟩ | ⟨-, heq⟩
  · rwa [heq]
  · simp only [heq, List.length_append, List.length_cons, List.length_nil]
    omega
  · rwa [heq]

theorem expand_weight :
    ((E.expand s v rest).pending.map E.weight).sum + s.total =
      (rest.map E.weight).sum + (E.expand s v rest).total := by
  refine expand_preserves
    (I := fun t => (t.pending.map E.weight).sum + s.total = (rest.map E.weight).sum + t.total) ?_ rfl
  intro t ht d _
  rcases offer_cases (E := E) (s := t) (d := d) with ⟨-, heq⟩ | ⟨-, heq⟩ | ⟨-, heq⟩
  · rwa [heq]
  · simp only [heq, List.map_append, List.sum_append, List.map_cons, List.map_nil, List.sum_cons,
      List.sum_nil]
    omega
  · rwa [heq]

/-- Each node that is seen is visited or waits. -/
theorem visits_length :
    (E.visits n s).length + (E.explore n s).pending.length + s.seen.length =
      s.pending.length + (E.explore n s).seen.length := by
  induction n generalizing s with
  | zero => simp [visits, explore]
  | succ n ih =>
      unfold visits explore
      split
      · simp [*]
      · next v rest hpending =>
        have hlater := ih (s := E.expand s v rest)
        have hnow : _ = rest.length + (E.expand s v rest).seen.length := expand_length
        rw [hpending, List.length_cons, List.length_cons]
        omega

theorem visits_weight :
    ((E.visits n s).map E.weight).sum + ((E.explore n s).pending.map E.weight).sum + s.total =
      (s.pending.map E.weight).sum + (E.explore n s).total := by
  induction n generalizing s with
  | zero => simp [visits, explore]
  | succ n ih =>
      unfold visits explore
      split
      · simp [*]
      · next v rest hpending =>
        have hlater := ih (s := E.expand s v rest)
        have hnow : _ = (rest.map E.weight).sum + (E.expand s v rest).total := expand_weight
        rw [hpending, List.map_cons, List.map_cons, List.sum_cons, List.sum_cons]
        omega

/-- What each child that fits respects, the whole run respects. -/
theorem explore_budget {B : Nat → Nat → Prop}
    (hfits : ∀ k total d, E.fits k total d = true → B (k + 1) (total + E.weight d))
    (h : B s.seen.length s.total) : B (E.explore n s).seen.length (E.explore n s).total := by
  refine explore_preserves (I := fun t => B t.seen.length t.total) ?_ h
  intro s v rest hs _
  refine expand_preserves (I := fun t => B t.seen.length t.total) ?_ hs
  intro t ht d _
  rcases offer_cases (E := E) (s := t) (d := d) with ⟨-, heq⟩ | ⟨hd, heq⟩ | ⟨-, heq⟩
  · rwa [heq]
  · rw [heq]
    exact hfits _ _ d hd
  · rwa [heq]

theorem visits_length_eq (h : (E.explore n s).pending ≠ []) : (E.visits n s).length = n := by
  induction n generalizing s with
  | zero => rfl
  | succ n ih =>
      unfold explore at h
      unfold visits
      split at h
      · exact absurd (by assumption) h
      · next v rest hpending =>
        exact congrArg Nat.succ (ih h)

/-- With as many turns as there are places, the queue runs empty. -/
theorem pending_eq_nil (hroom : s.pending.length + (E.explore n s).seen.length ≤ n + s.seen.length) :
    (E.explore n s).pending = [] := by
  by_contra hne
  have hlength := visits_length (E := E) (n := n) (s := s)
  have hpos := List.length_pos_iff.mpr hne
  rw [visits_length_eq hne] at hlength
  omega

/-! ## Nothing is lost -/

theorem grows_offer : Grows s (E.offer s d) := by
  rcases offer_cases (E := E) (s := s) (d := d) with ⟨-, heq⟩ | ⟨-, heq⟩ | ⟨-, heq⟩
  · rw [heq]
    exact .refl s
  · rw [heq]
    exact ⟨List.subset_cons_self _ _, List.Subset.refl _⟩
  · rw [heq]
    exact ⟨List.Subset.refl _, List.subset_append_left _ _⟩

theorem grows_expand : Grows { s with pending := rest, out := s.out ++ E.visit v }
    (E.expand s v rest) :=
  expand_preserves (fun _ h _ _ => h.trans grows_offer) (.refl _)

theorem grows_explore : Grows s (E.explore n s) := by
  refine explore_preserves (I := Grows s) (fun t v rest h _ => h.trans ?_) (.refl s)
  have hexpand : Grows _ (E.expand t v rest) := grows_expand
  exact ⟨hexpand.seen, List.Subset.trans (List.subset_append_left _ _) hexpand.out⟩

theorem visit_expand (h : d ∈ E.children v) :
    E.identity d ∈ (E.expand s v rest).seen ∨ E.refuse d ∈ (E.expand s v rest).out := by
  have hoffer : ∀ t : State ν ι ο, E.identity d ∈ (E.offer t d).seen ∨
      E.refuse d ∈ (E.offer t d).out := by
    intro t
    rcases offer_cases (E := E) (s := t) (d := d) with ⟨hseen, heq⟩ | ⟨-, heq⟩ | ⟨-, heq⟩
    · rw [heq]
      exact .inl hseen
    · rw [heq]
      exact .inl List.mem_cons_self
    · rw [heq]
      exact .inr (by simp)
  obtain ⟨before, after, hsplit⟩ := List.append_of_mem h
  have hgrows : ∀ (ds : List ν) (t : State ν ι ο), Grows t (ds.foldl E.offer t) := by
    intro ds
    induction ds with
    | nil => exact Grows.refl
    | cons d ds ih => exact fun t => grows_offer.trans (ih _)
  unfold expand
  rw [hsplit, List.foldl_append, List.foldl_cons]
  exact (hoffer _).imp (fun hseen => (hgrows after _).seen hseen) fun hout =>
    (hgrows after _).out hout

/-- **Every child is accounted for.** -/
theorem explored (hv : v ∈ E.visits n s) (hd : d ∈ E.children v) :
    E.identity d ∈ (E.explore n s).seen ∨ E.refuse d ∈ (E.explore n s).out := by
  induction n generalizing s with
  | zero => simp [visits] at hv
  | succ n ih =>
      unfold visits at hv
      unfold explore
      split at hv
      · simp at hv
      · next w rest hpending =>
        rcases List.mem_cons.mp hv with rfl | hv
        · exact (visit_expand hd).imp (fun h => grows_explore.seen h) fun h => grows_explore.out h
        · exact ih hv

/-- What waits is visited or goes on waiting. -/
theorem pending_kept {w : ν} (hw : w ∈ s.pending) :
    w ∈ E.visits n s ++ (E.explore n s).pending := by
  induction n generalizing s with
  | zero => exact hw
  | succ n ih =>
      unfold visits explore
      split
      · simpa using hw
      · next v rest hpending =>
        rw [hpending] at hw
        rcases List.mem_cons.mp hw with rfl | hw
        · exact List.mem_cons_self
        · have hstays : w ∈ (E.expand s v rest).pending := by
            refine expand_preserves (I := fun t => w ∈ t.pending) ?_ hw
            intro t ht d _
            rcases offer_cases (E := E) (s := t) (d := d) with ⟨-, heq⟩ | ⟨-, heq⟩ | ⟨-, heq⟩
            · rwa [heq]
            · rw [heq]
              exact List.mem_append_left _ ht
            · rwa [heq]
          exact List.mem_cons_of_mem _ (ih hstays)

/-- What is seen is visited, once nothing waits. -/
theorem seen_visited {i : ι} (hi : i ∈ (E.explore n s).seen) :
    i ∈ s.seen ∨ ∃ w ∈ E.visits n s ++ (E.explore n s).pending, E.identity w = i := by
  induction n generalizing s with
  | zero => exact .inl hi
  | succ n ih =>
      unfold explore at hi ⊢
      unfold visits
      split at hi
      · exact .inl hi
      · next v rest hpending =>
        rcases ih hi with hseen | ⟨w, hw, hid⟩
        · -- it was seen before, or this visit has put it in the queue
          have hqueued : i ∈ s.seen ∨ ∃ w ∈ (E.expand s v rest).pending, E.identity w = i := by
            revert hseen
            refine expand_preserves (I := fun t => i ∈ t.seen →
              i ∈ s.seen ∨ ∃ w ∈ t.pending, E.identity w = i) ?_ fun h => .inl h
            intro t ht d _ hmem
            rcases offer_cases (E := E) (s := t) (d := d) with ⟨-, heq⟩ | ⟨-, heq⟩ | ⟨-, heq⟩
            · rw [heq] at hmem ⊢
              exact ht hmem
            · rw [heq] at hmem ⊢
              rcases List.mem_cons.mp hmem with rfl | hmem
              · exact .inr ⟨d, by simp, rfl⟩
              · obtain h | ⟨w, hw, hid⟩ := ht hmem
                · exact .inl h
                · exact .inr ⟨w, List.mem_append_left _ hw, hid⟩
            · rw [heq] at hmem ⊢
              exact ht hmem
          refine hqueued.imp_right ?_
          rintro ⟨w, hw, hid⟩
          exact ⟨w, List.mem_cons_of_mem _ (pending_kept hw), hid⟩
        · exact .inr ⟨w, List.mem_cons_of_mem _ hw, hid⟩

/-! ## What is put out -/

theorem visit_subset_out (hv : v ∈ E.visits n s) : E.visit v ⊆ (E.explore n s).out := by
  induction n generalizing s with
  | zero => simp [visits] at hv
  | succ n ih =>
      unfold visits at hv
      unfold explore
      split at hv
      · simp at hv
      · next w rest hpending =>
        rcases List.mem_cons.mp hv with rfl | hv
        · intro o ho
          exact grows_explore.out (grows_expand.out (List.mem_append_right _ ho))
        · exact ih hv

/-- Everything that is put out comes from a node that is visited or from a child of one. -/
theorem mem_out {o : ο} (h : o ∈ (E.explore n s).out) :
    o ∈ s.out ∨ ∃ v ∈ E.visits n s, o ∈ E.visit v ∨ ∃ d ∈ E.children v, o = E.refuse d := by
  induction n generalizing s with
  | zero => exact .inl h
  | succ n ih =>
      unfold explore at h
      unfold visits
      split at h
      · exact .inl h
      · next v rest hpending =>
        rcases ih h with hout | ⟨w, hw, hfrom⟩
        · have hhere : o ∈ s.out ∨ o ∈ E.visit v ∨ ∃ d ∈ E.children v, o = E.refuse d := by
            revert hout
            refine expand_preserves (I := fun t => o ∈ t.out →
              o ∈ s.out ∨ o ∈ E.visit v ∨ ∃ d ∈ E.children v, o = E.refuse d) ?_ ?_
            · intro t ht d hd hmem
              rcases offer_cases (E := E) (s := t) (d := d) with ⟨-, heq⟩ | ⟨-, heq⟩ | ⟨-, heq⟩
              · exact ht (heq ▸ hmem)
              · rw [heq] at hmem
                exact ht hmem
              · rw [heq] at hmem
                rcases List.mem_append.mp hmem with hmem | hmem
                · exact ht hmem
                · exact .inr (.inr ⟨d, hd, List.mem_singleton.mp hmem⟩)
            · intro hmem
              rcases List.mem_append.mp hmem with hmem | hmem
              · exact .inl hmem
              · exact .inr (.inl hmem)
          exact hhere.imp_right fun hv => ⟨v, List.mem_cons_self, hv⟩
        · exact .inr ⟨w, List.mem_cons_of_mem _ hw, hfrom⟩

end Exploration

end Scap.Lib
