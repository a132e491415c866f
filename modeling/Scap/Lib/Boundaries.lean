import Scap.Lib.Durable

/-!
# Items that are saved one by one

A program that goes through items, changes its memory by each as a whole and saves it, is between
two items whenever it stops: `Chain` are the memories between items, and `durable` is the copy
then.

`Prog.under` is a weakest precondition under answers that are known to satisfy a predicate, with an
invariant of the copy. `Between.item` is its rule for one item, `Between.items` the one for a loop
over a list, which stops at the first item that is refused.
-/

namespace Scap.Lib

variable {μ ν Req Ans ε α β ι ρ σ : Type}

/-! ## Under the answers that are given -/

namespace Prog

variable (snap : μ → ν) (inv : ν → Prop) (given : Ans → Prop)

/-- The copy satisfies `inv` whenever the program waits, and what it ends with satisfies `Q`. -/
def under (Q : World ν Req → Except ε α → μ → Prop) : Prog μ Req Ans ε α → World ν Req → Prop
  | done m r, w => Q w r m
  | save m good bad, w =>
      inv w.disk ∧ inv (snap m) ∧ good.under Q { w with disk := snap m } ∧
      ∀ replaced : Bool,
        bad.under Q { w with disk := if replaced then snap m else w.disk, broken := true }
  | ask _ q k, w =>
      inv w.disk ∧ ∀ a, given a → (k a).under Q { w with asked := q :: w.asked }

variable {snap inv given} {w : World ν Req} {m : μ}

theorem under_mono {inv' : ν → Prop} {P Q : World ν Req → Except ε α → μ → Prop}
    {p : Prog μ Req Ans ε α} (h : p.under snap inv given P w) (hinv : ∀ d, inv d → inv' d)
    (hPQ : ∀ w r m, P w r m → Q w r m) : p.under snap inv' given Q w := by
  induction p generalizing w with
  | done m r => exact hPQ _ _ _ h
  | save m good bad ihgood ihbad =>
      obtain ⟨hdisk, hsnap, hgood, hbad⟩ := h
      exact ⟨hinv _ hdisk, hinv _ hsnap, ihgood hgood, fun replaced => ihbad (hbad replaced)⟩
  | ask m q k ih =>
      obtain ⟨hdisk, hk⟩ := h
      exact ⟨hinv _ hdisk, fun a ha => ih a (hk a ha)⟩

/-- Sequencing. -/
theorem under_bind {Q : World ν Req → Except ε β → μ → Prop} {p : Prog μ Req Ans ε α}
    {f : α → Proc μ Req Ans ε β} :
    (p.bind f).under snap inv given Q w ↔ p.under snap inv given (fun w r m => match r with
      | .ok a => (f a m).under snap inv given Q w
      | .error e => Q w (.error e) m) w := by
  induction p generalizing w with
  | done m r => cases r <;> rfl
  | save m good bad ihgood ihbad => simp only [bind, under, ihgood, ihbad]
  | ask m q k ih => simp only [bind, under, ih]

theorem under_attempt {Q : World ν Req → Except ε (Except ε α) → μ → Prop}
    {p : Prog μ Req Ans ε α} :
    p.attempt.under snap inv given Q w ↔
      p.under snap inv given (fun w r m => Q w (.ok r) m) w := by
  induction p generalizing w with
  | done m r => rfl
  | save m good bad ihgood ihbad => simp only [attempt, under, ihgood, ihbad]
  | ask m q k ih => simp only [attempt, under, ih]

end Prog

namespace Proc

variable {snap : μ → ν} {inv : ν → Prop} {given : Ans → Prop} {w : World ν Req} {m : μ}

theorem under_bind {Q : World ν Req → Except ε β → μ → Prop} {x : Proc μ Req Ans ε α}
    {f : α → Proc μ Req Ans ε β} :
    ((x >>= f) m).under snap inv given Q w ↔ (x m).under snap inv given (fun w r m => match r with
      | .ok a => (f a m).under snap inv given Q w
      | .error e => Q w (.error e) m) w := Prog.under_bind

theorem under_attempt {Q : World ν Req → Except ε (Except ε α) → μ → Prop}
    {x : Proc μ Req Ans ε α} :
    ((attempt x) m).under snap inv given Q w ↔
      (x m).under snap inv given (fun w r m => Q w (.ok r) m) w := Prog.under_attempt

theorem under_ofExcept {Q : World ν Req → Except ε α → μ → Prop} {r : Except ε α} :
    ((ofExcept r : Proc μ Req Ans ε α) m).under snap inv given Q w ↔ Q w r m := by
  cases r <;> rfl

/-- Each item of a list, up to the first that raises; `shown` is what one contributes. -/
def each (x : ι → Proc μ Req Ans ε ρ) (shown : ρ → List σ) :
    List ι → Proc μ Req Ans ε (List σ × Option ε)
  | [] => pure ([], none)
  | i :: is => do
      match ← attempt (x i) with
      | .error e => pure ([], some e)
      | .ok a => do
          let (more, stop) ← each x shown is
          pure (shown a ++ more, stop)

end Proc

namespace Software

variable {Op : Type} {S : Software μ ν Req Ans ε α Op} {s t : Machine μ ν Req Ans ε α} {blank : ν}
  {inv : ν → Prop} {given : Ans → Prop}

/-- **One operation under the answers of a run.** -/
theorem under_of_run {Q : World ν Req → Except ε α → μ → Prop} {ls : List (Label Op Ans)}
    {p : Prog μ Req Ans ε α} (hls : ∀ l ∈ ls, l.inner = true)
    (hgiven : ∀ a, Label.answered a ∈ ls → given a) (hs : inv s.world.disk)
    (hp : s.proc = some p) (hunder : p.under S.snap inv given Q s.world)
    (h : (S.system blank).Run s ls t) :
    inv t.world.disk ∧ ∃ p', t.proc = some p' ∧ p'.under S.snap inv given Q t.world := by
  induction h with
  | nil => exact ⟨hs, p, hp, hunder⟩
  | @snoc ls l u t hrun hstep ih =>
      obtain ⟨hdisk, p', hp', hunder'⟩ := ih (fun l hl => hls l (List.mem_append_left _ hl))
        fun a ha => hgiven a (List.mem_append_left _ ha)
      obtain ⟨w, proc⟩ := u
      obtain rfl : proc = some p' := hp'
      have hinner := hls l (by simp)
      have hnext := hstep.1
      cases l with
      | saved =>
          cases p' with
          | save m good bad =>
              obtain rfl := Option.some.inj hnext
              exact ⟨hunder'.2.1, good, rfl, hunder'.2.2.1⟩
          | _ => cases hnext
      | lost replaced =>
          cases p' with
          | save m good bad =>
              obtain rfl := Option.some.inj hnext
              refine ⟨?_, bad, rfl, hunder'.2.2.2 replaced⟩
              cases replaced with
              | true => exact hunder'.2.1
              | false => exact hdisk
          | _ => cases hnext
      | answered a =>
          cases p' with
          | ask m q k =>
              obtain rfl := Option.some.inj hnext
              exact ⟨hdisk, k a, rfl, hunder'.2 a (hgiven a (by simp))⟩
          | _ => cases hnext
      | _ => cases hinner

end Software

/-! ## The memories between two items -/

section Boundaries

variable (accept : μ → ι → Except ε (μ × ρ)) (snap : μ → ν) (d₀ : ν) (m₀ : μ)

/-- The memories between two items, with the items accepted so far and what they have given. -/
inductive Chain : List (ι × ρ) → μ → Prop
  | start : Chain [] m₀
  | item {done m m' i r} (h : Chain done m) (hi : accept m i = .ok (m', r)) :
      Chain (done ++ [(i, r)]) m'

/-- The copy between two items: as it was, until an item has been saved. -/
def durable (done : List (ι × ρ)) (m : μ) : ν := if done = [] then d₀ else snap m

/-- The copy of some memory between two items. -/
def AtBoundary (d : ν) : Prop := ∃ done m, Chain accept m₀ done m ∧ d = durable snap d₀ done m

structure Between (done : List (ι × ρ)) (w : World ν Req) (m : μ) : Prop where
  chain : Chain accept m₀ done m
  disk : w.disk = durable snap d₀ done m

/-- The save of an item has failed. -/
structure Unsaved (mark : μ → μ) (done : List (ι × ρ)) (w : World ν Req) (m : μ) : Prop where
  item : ∃ m' m'' i r, Chain accept m₀ done m' ∧ accept m' i = .ok (m'', r) ∧ m = mark m'' ∧
    (w.disk = durable snap d₀ done m' ∨ w.disk = snap m'')

/-- Where a loop over items stops; `slip` is what an item may do that is neither accepted nor
refused. -/
inductive Halted (mark : μ → μ) (slip : μ → μ → Prop) (done : List (ι × ρ)) (w : World ν Req)
    (m : μ) : Prop
  | between (h : Between accept snap d₀ m₀ done w m)
  | unsaved (h : Unsaved accept snap d₀ m₀ mark done w m)
  | slipped {m' : μ} (h : Between accept snap d₀ m₀ done w m') (hslip : slip m' m)

end Boundaries

/-- An item that is accepted is saved, any other leaves the memory as it is. -/
def saveOr (mark : μ → μ) (failure : ε) (m : μ) : Except ε (μ × α) → Prog μ Req Ans ε α
  | .error e => .done m (.error e)
  | .ok (m', a) => .save m' (.done m' (.ok a)) (.done (mark m') (.error failure))

section Rules

variable {accept : μ → ι → Except ε (μ × ρ)} {snap : μ → ν} {d₀ : ν} {m₀ : μ} {mark : μ → μ}
  {slip : μ → μ → Prop} {failure : ε} {given : Ans → Prop} {w : World ν Req} {m : μ}
  {done : List (ι × ρ)}

theorem durable_append_singleton (p : ι × ρ) (m : μ) :
    durable snap d₀ (done ++ [p]) m = snap m :=
  if_neg (by simp)

theorem Between.boundary (h : Between accept snap d₀ m₀ done w m) :
    AtBoundary accept snap d₀ m₀ w.disk :=
  ⟨done, m, h.chain, h.disk⟩

/-- What an accepted item keeps, and what is then known of the item. -/
theorem Chain.induct {I : μ → Prop} {P : ι → ρ → Prop} (h : Chain accept m₀ done m) (hm₀ : I m₀)
    (hstep : ∀ m i m' r, I m → accept m i = .ok (m', r) → I m' ∧ P i r) :
    I m ∧ ∀ p ∈ done, P p.1 p.2 := by
  induction h with
  | start => exact ⟨hm₀, by simp⟩
  | item _ hi ih =>
      obtain ⟨hm, hdone⟩ := ih
      obtain ⟨hm', hp⟩ := hstep _ _ _ _ hm hi
      refine ⟨hm', ?_⟩
      intro p hmem
      rcases List.mem_append.mp hmem with hmem | hmem
      · exact hdone p hmem
      · obtain rfl := List.mem_singleton.mp hmem
        exact hp

/-- The rule for one item. -/
theorem Between.item (h : Between accept snap d₀ m₀ done w m) {i : ι}
    {p : Prog μ Req Ans ε ρ} (hp : p = saveOr mark failure m (accept m i) ∨
      ∃ m' e, p = .done m' (.error e) ∧ slip m m') :
    p.under snap (AtBoundary accept snap d₀ m₀) given (fun w r m' => match r with
      | .ok a => Between accept snap d₀ m₀ (done ++ [(i, a)]) w m'
      | .error _ => Halted accept snap d₀ m₀ mark slip done w m') w := by
  rcases hp with rfl | ⟨m', e, rfl, hslip⟩
  · cases haccept : accept m i with
    | error e => exact .between h
    | ok q =>
        obtain ⟨m', a⟩ := q
        have hchain := h.chain.item haccept
        have hsnap : AtBoundary accept snap d₀ m₀ (snap m') :=
          ⟨_, m', hchain, (durable_append_singleton _ _).symm⟩
        refine ⟨h.boundary, hsnap, ⟨hchain, (durable_append_singleton _ _).symm⟩, ?_⟩
        intro replaced
        refine .unsaved ⟨m, m', i, a, h.chain, haccept, rfl, ?_⟩
        cases replaced with
        | true => exact .inr rfl
        | false => exact .inl h.disk
  · exact .slipped h hslip

/-- **The rule for a loop over a list.** -/
theorem Between.items (h : Between accept snap d₀ m₀ done w m) (slip : μ → μ → Prop)
    {x : ι → Proc μ Req Ans ε ρ} (shown : ρ → List σ)
    (hx : ∀ i m, x i m = saveOr mark failure m (accept m i) ∨
      ∃ m' e, x i m = .done m' (.error e) ∧ slip m m') (is : List ι) :
    (Proc.each x shown is m).under snap (AtBoundary accept snap d₀ m₀) given (fun w r m' =>
      ∃ new stop, r = .ok (new.flatMap (fun p => shown p.2), stop) ∧ (∀ p ∈ new, p.1 ∈ is) ∧
        (stop = none → Between accept snap d₀ m₀ (done ++ new) w m') ∧
        Halted accept snap d₀ m₀ mark slip (done ++ new) w m') w := by
  induction is generalizing done w m with
  | nil =>
      have hdone : Between accept snap d₀ m₀ (done ++ []) w m := by simpa using h
      exact ⟨[], none, rfl, by simp, fun _ => hdone, .between hdone⟩
  | cons i is ih =>
      apply Proc.under_bind.mpr
      apply Proc.under_attempt.mpr
      refine Prog.under_mono (h.item (hx i m)) (fun _ hd => hd) ?_
      intro w r m' hr
      cases r with
      | error e =>
          have hdone : Halted accept snap d₀ m₀ mark slip (done ++ []) w m' := by simpa using hr
          exact ⟨[], some e, rfl, by simp, nofun, hdone⟩
      | ok a =>
          apply Proc.under_bind.mpr
          refine Prog.under_mono (ih hr) (fun _ hd => hd) ?_
          rintro w r m₂ ⟨new, stop, rfl, hmem, hbetween, hhalted⟩
          rw [List.append_assoc] at hbetween hhalted
          refine ⟨(i, a) :: new, stop, rfl, ?_, hbetween, hhalted⟩
          intro p hp
          rcases List.mem_cons.mp hp with rfl | hp
          · exact List.mem_cons_self
          · exact List.mem_cons_of_mem _ (hmem p hp)

end Rules

end Scap.Lib
