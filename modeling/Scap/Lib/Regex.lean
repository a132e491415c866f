import Mathlib.Data.List.DropRight

/-!
# Regular expressions

Expressions over an alphabet `α` whose classes are predicates, with alternatives in the order of
preference, greedy and lazy repetition, groups with names in `γ`, references back to a group and
assertions without width. `Matches` says which matches there are, and `run` looks for the preferred
one by going on with a continuation.

* `adequate_run`: the search finds a match just when there is one;
* `Matches.at_text`: a match goes forward in the text, and so do its groups;
* `mem_finditer`, `pairwise_finditer`: what `finditer` yields are matches, one behind the other.
-/

namespace Scap.Lib

namespace Regex

/-- What a group has caught, and where. -/
structure Capture (α : Type) where
  start : Nat
  stop : Nat
  text : List α

/-- A place in a text with the groups of the match that has come this far. -/
structure Point (γ α : Type) where
  pos : Nat
  before : Option α
  rest : List α
  captures : List (γ × Capture α)

end Regex

inductive Regex (γ α : Type)
  | empty
  | char (p : α → Bool)
  | seq (r t : Regex γ α)
  | alt (r t : Regex γ α)
  | rep (greedy : Bool) (least : Nat) (most : Option Nat) (r : Regex γ α)
  | group (name : γ) (r : Regex γ α)
  | backref (name : γ) (same : α → α → Bool)
  | assert (p : Option α → Option α → Bool)
  | notAhead (r : Regex γ α)

namespace Regex

variable {γ α σ : Type} {text w rest : List α} {c : α}

/-! ## Places in a text -/

namespace Point

/-- Behind the next character. -/
def step (s : Point γ α) (c : α) (rest : List α) : Point γ α :=
  ⟨s.pos + 1, some c, rest, s.captures⟩

/-- A group that began at `s` and ends at `e`. -/
def capture (name : γ) (s e : Point γ α) : Point γ α :=
  { e with captures := (name, ⟨s.pos, e.pos, s.rest.take (e.pos - s.pos)⟩) :: e.captures }

def init (text : List α) : Point γ α := ⟨0, none, text, []⟩

/-- The same place, for a new match. -/
def fresh (s : Point γ α) : Point γ α := { s with captures := [] }

/-- Behind the characters of a word. -/
def along (s : Point γ α) (w : List α) : Point γ α :=
  w.foldl (fun s c => s.step c s.rest.tail) s

variable {s e : Point γ α}

@[simp] theorem step_pos : (s.step c rest).pos = s.pos + 1 := rfl

@[simp] theorem step_rest : (s.step c rest).rest = rest := rfl

@[simp] theorem capture_pos {name : γ} : (Point.capture name s e).pos = e.pos := rfl

@[simp] theorem capture_rest {name : γ} : (Point.capture name s e).rest = e.rest := rfl

@[simp] theorem fresh_pos : s.fresh.pos = s.pos := rfl

@[simp] theorem fresh_rest : s.fresh.rest = s.rest := rfl

end Point

/-- The part of a text that a group caught. -/
structure Capture.InText (text : List α) (stop : Nat) (c : Capture α) : Prop where
  le : c.start ≤ c.stop
  stop_le : c.stop ≤ stop
  text_eq : c.text = (text.drop c.start).take (c.stop - c.start)

/-- A place that does belong to the text. -/
structure Point.At (text : List α) (s : Point γ α) : Prop where
  le : s.pos ≤ text.length
  rest_eq : s.rest = text.drop s.pos
  before_eq : s.before = (text.take s.pos).getLast?
  captures : ∀ c ∈ s.captures, c.2.InText text s.pos

namespace Point.At

variable {s e : Point γ α}

theorem init (text : List α) : (Point.init text : Point γ α).At text where
  le := Nat.zero_le _
  rest_eq := rfl
  before_eq := rfl
  captures := by simp [Point.init]

theorem fresh (h : s.At text) : s.fresh.At text :=
  ⟨h.le, h.rest_eq, h.before_eq, by simp [Point.fresh]⟩

theorem length_rest (h : s.At text) : s.pos + s.rest.length = text.length := by
  have hle := h.le
  rw [h.rest_eq, List.length_drop]
  omega

theorem step (h : s.At text) (hrest : s.rest = c :: rest) : (s.step c rest).At text := by
  have hlength := h.length_rest
  have hdrop : text.drop s.pos = c :: rest := h.rest_eq ▸ hrest
  have hget : text[s.pos]? = some c := by
    rw [← List.head?_drop, hdrop]
    rfl
  constructor
  · rw [hrest, List.length_cons] at hlength
    rw [Point.step_pos]
    omega
  · rw [Point.step_pos, Point.step_rest, ← List.tail_drop, hdrop]
    rfl
  · rw [Point.step_pos, List.take_add_one, hget]
    simp [Point.step]
  · intro d hd
    have hin := h.captures d hd
    exact ⟨hin.le, hin.stop_le.trans (Nat.le_succ _), hin.text_eq⟩

theorem capture {name : γ} (hs : s.At text) (he : e.At text) (hle : s.pos ≤ e.pos) :
    (Point.capture name s e).At text where
  le := he.le
  rest_eq := he.rest_eq
  before_eq := he.before_eq
  captures := by
    intro d hd
    rcases List.mem_cons.mp hd with rfl | hd
    · exact ⟨hle, le_rfl, by rw [hs.rest_eq]⟩
    · exact he.captures d hd

end Point.At

/-- `n` steps of a relation. -/
def Times (R : σ → σ → Prop) : Nat → σ → σ → Prop
  | 0, s, e => e = s
  | n + 1, s, e => ∃ m, R s m ∧ Times R n m e

variable {R : σ → σ → Prop} {I : σ → Prop} {n : Nat}

theorem Times.preserves (hR : ∀ a b, I a → R a b → I b) {s e : σ} (h : Times R n s e) (hs : I s) :
    I e := by
  induction n generalizing s with
  | zero => exact h ▸ hs
  | succ n ih =>
      obtain ⟨m, hm, htimes⟩ := h
      exact ih htimes (hR s m hs hm)

/-! ## Searching with a continuation -/

/-- What is done with the place that a match reaches. -/
abbrev Cont (γ α : Type) := Point γ α → Option (Point γ α)

def exactly (m : Cont γ α → Cont γ α) : Nat → Cont γ α → Cont γ α
  | 0, k, s => k s
  | n + 1, k, s => m (exactly m n k) s

def upTo (greedy : Bool) (m : Cont γ α → Cont γ α) : Nat → Cont γ α → Cont γ α
  | 0, k, s => k s
  | n + 1, k, s =>
      if greedy then
        match m (fun e => if s.pos < e.pos then upTo greedy m n k e else none) s with
        | some e => some e
        | none => k s
      else
        match k s with
        | some e => some e
        | none => m (fun e => if s.pos < e.pos then upTo greedy m n k e else none) s

def again (same : α → α → Bool) : List α → Cont γ α → Cont γ α
  | [], k, s => k s
  | c :: w, k, s =>
      match s.rest with
      | [] => none
      | d :: rest => if same c d then again same w k (s.step d rest) else none

variable {s e : Point γ α}

/-- A search for the steps of a relation. -/
structure Adequate (m : Cont γ α → Cont γ α) (R : Point γ α → Point γ α → Prop) : Prop where
  sound : ∀ {k : Cont γ α} {s e}, m k s = some e → ∃ s', R s s' ∧ k s' = some e
  complete : ∀ {k : Cont γ α} {s s'}, R s s' → (k s').isSome → (m k s).isSome

section Repetition

variable {m : Cont γ α → Cont γ α} {R : Point γ α → Point γ α → Prop} {k : Cont γ α}
  {s' : Point γ α} {greedy : Bool} {j : Nat}

theorem adequate_exactly (h : Adequate m R) (n : Nat) : Adequate (exactly m n) (Times R n) := by
  induction n with
  | zero => exact ⟨fun hk => ⟨_, rfl, hk⟩, fun hs hk => hs ▸ hk⟩
  | succ n ih =>
      constructor
      · intro k s e hrun
        obtain ⟨a, ha, hrest⟩ := h.sound hrun
        obtain ⟨s', hs', hk⟩ := ih.sound hrest
        exact ⟨s', ⟨a, ha, hs'⟩, hk⟩
      · rintro k s s' ⟨a, ha, hs'⟩ hk
        exact h.complete ha (ih.complete hs' hk)

/-- A step that goes forward. -/
abbrev Forward (R : Point γ α → Point γ α → Prop) (a b : Point γ α) : Prop := R a b ∧ a.pos < b.pos

theorem upTo_sound (h : Adequate m R) (hrun : upTo greedy m n k s = some e) :
    ∃ j, j ≤ n ∧ ∃ s', Times (Forward R) j s s' ∧ k s' = some e := by
  induction n generalizing s with
  | zero => exact ⟨0, le_rfl, s, rfl, hrun⟩
  | succ n ih =>
      have hmore : m (fun b => if s.pos < b.pos then upTo greedy m n k b else none) s = some e →
          ∃ j, j ≤ n + 1 ∧ ∃ s', Times (Forward R) j s s' ∧ k s' = some e := by
        intro hm
        obtain ⟨a, ha, hrest⟩ := h.sound hm
        split at hrest
        · next hlt =>
          obtain ⟨j, hj, s', hs', hk⟩ := ih hrest
          exact ⟨j + 1, Nat.succ_le_succ hj, s', ⟨a, ⟨ha, hlt⟩, hs'⟩, hk⟩
        · cases hrest
      have hnow : k s = some e → ∃ j, j ≤ n + 1 ∧ ∃ s', Times (Forward R) j s s' ∧ k s' = some e :=
        fun hk => ⟨0, Nat.zero_le _, s, rfl, hk⟩
      unfold upTo at hrun
      split at hrun
      · split at hrun
        · next hm => exact hmore (hm.trans hrun)
        · exact hnow hrun
      · split at hrun
        · next hk => exact hnow (hk.trans hrun)
        · exact hmore hrun

theorem upTo_complete (h : Adequate m R) (htimes : Times (Forward R) j s s') (hj : j ≤ n)
    (hk : (k s').isSome) : (upTo greedy m n k s).isSome := by
  induction n generalizing s j with
  | zero =>
      obtain rfl := Nat.le_zero.mp hj
      exact htimes ▸ hk
  | succ n ih =>
      have hsome : (m (fun b => if s.pos < b.pos then upTo greedy m n k b else none) s).isSome ∨
          (k s).isSome := by
        cases j with
        | zero => exact .inr (htimes ▸ hk)
        | succ j =>
            obtain ⟨a, ⟨ha, hlt⟩, hrest⟩ := htimes
            refine .inl (h.complete ha ?_)
            rw [if_pos hlt]
            exact ih hrest (Nat.le_of_succ_le_succ hj)
      unfold upTo
      split
      · split
        · rfl
        · next hm => simpa [hm] using hsome
      · split
        · rfl
        · next hnone => simpa [hnone] using hsome

end Repetition

theorem again_iff {same : α → α → Bool} {k : Cont γ α} {word : List α} :
    again same word k s = some e ↔ ∃ w rest, s.rest = w ++ rest ∧
      List.Forall₂ (fun x y => same x y = true) word w ∧ k (s.along w) = some e := by
  induction word generalizing s with
  | nil =>
      constructor
      · intro h
        exact ⟨[], s.rest, rfl, .nil, h⟩
      · rintro ⟨w, rest, -, hw, hk⟩
        cases hw
        exact hk
  | cons c word ih =>
      constructor
      · intro h
        unfold again at h
        split at h
        · cases h
        · next d rest hrest =>
          split at h
          · next hsame =>
            obtain ⟨w, rest', hrest', hw, hk⟩ := ih.mp h
            refine ⟨d :: w, rest', ?_, .cons hsame hw, ?_⟩
            · rw [hrest]
              exact congrArg (d :: ·) hrest'
            · rw [Point.along, List.foldl_cons, hrest]
              exact hk
          · cases h
      · rintro ⟨w, rest, hrest, hw, hk⟩
        cases hw with
        | cons hsame hw =>
            next d w =>
            unfold again
            rw [hrest]
            show (if same c d = true then again same word k (s.step d (w ++ rest)) else none) = _
            rw [if_pos hsame]
            refine ih.mpr ⟨w, rest, rfl, hw, ?_⟩
            rw [Point.along, List.foldl_cons, hrest] at hk
            exact hk

/-! ## The matches of an expression -/

variable [DecidableEq γ]

/-- The match of an expression from `s` to `e`. A repetition beyond the least number of times has to
go forward. -/
def Matches : Regex γ α → Point γ α → Point γ α → Prop
  | empty, s, e => e = s
  | char p, s, e => ∃ c rest, s.rest = c :: rest ∧ p c = true ∧ e = s.step c rest
  | seq r t, s, e => ∃ m, Matches r s m ∧ Matches t m e
  | alt r t, s, e => Matches r s e ∨ Matches t s e
  | rep _ least most r, s, e => ∃ m, Times (Matches r) least s m ∧
      ∃ n, (∀ u ∈ most, n ≤ u - least) ∧ Times (fun a b => Matches r a b ∧ a.pos < b.pos) n m e
  | group name r, s, e => ∃ m, Matches r s m ∧ e = Point.capture name s m
  | backref name same, s, e => ∃ c, s.captures.lookup name = some c ∧
      ∃ w rest, s.rest = w ++ rest ∧ List.Forall₂ (fun x y => same x y = true) c.text w ∧
        e = s.along w
  | assert p, s, e => p s.before s.rest.head? = true ∧ e = s
  | notAhead r, s, e => (¬ ∃ m, Matches r s m) ∧ e = s

def run : Regex γ α → Cont γ α → Cont γ α
  | empty, k, s => k s
  | char p, k, s =>
      match s.rest with
      | [] => none
      | c :: rest => if p c then k (s.step c rest) else none
  | seq r t, k, s => run r (run t k) s
  | alt r t, k, s =>
      match run r k s with
      | some e => some e
      | none => run t k s
  | rep greedy least most r, k, s =>
      exactly (run r) least (fun m => upTo greedy (run r)
        (match most with
          | some u => u - least
          | none => m.rest.length) k m) s
  | group name r, k, s => run r (fun e => k (Point.capture name s e)) s
  | backref name same, k, s =>
      match s.captures.lookup name with
      | none => none
      | some c => again same c.text k s
  | assert p, k, s => if p s.before s.rest.head? then k s else none
  | notAhead r, k, s =>
      match run r some s with
      | some _ => none
      | none => k s

/-! ## Where a match goes -/

variable {r : Regex γ α}

/-- What stepping forward and catching a group preserve, a match preserves, and it does not go
back. -/
theorem Matches.preserves {I : Point γ α → Prop}
    (hstep : ∀ {a : Point γ α} {c rest}, I a → a.rest = c :: rest → I (a.step c rest))
    (hcapture : ∀ {a b : Point γ α} {name}, I a → I b → a.pos ≤ b.pos → I (.capture name a b))
    (h : Matches r s e) (hs : I s) : I e ∧ s.pos ≤ e.pos := by
  induction r generalizing s e with
  | empty =>
      obtain rfl := h
      exact ⟨hs, le_rfl⟩
  | char p =>
      obtain ⟨c, rest, hrest, -, rfl⟩ := h
      exact ⟨hstep hs hrest, Nat.le_succ _⟩
  | seq r t ihr iht =>
      obtain ⟨m, hm, he⟩ := h
      have hfirst := ihr hm hs
      have hsecond := iht he hfirst.1
      exact ⟨hsecond.1, hfirst.2.trans hsecond.2⟩
  | alt r t ihr iht =>
      rcases h with h | h
      · exact ihr h hs
      · exact iht h hs
  | rep greedy least most r ih =>
      obtain ⟨m, hm, n, -, he⟩ := h
      have hkeeps : ∀ a b, (I a ∧ s.pos ≤ a.pos) → Matches r a b → I b ∧ s.pos ≤ b.pos := by
        intro a b ha hab
        have hb := ih hab ha.1
        exact ⟨hb.1, ha.2.trans hb.2⟩
      have hmiddle := hm.preserves hkeeps ⟨hs, le_rfl⟩
      exact he.preserves (fun a b ha hab => hkeeps a b ha hab.1) hmiddle
  | group name r ih =>
      obtain ⟨m, hm, rfl⟩ := h
      have hmiddle := ih hm hs
      exact ⟨hcapture hs hmiddle.1 hmiddle.2, hmiddle.2⟩
  | backref name same =>
      obtain ⟨-, -, w, rest, hrest, -, rfl⟩ := h
      induction w generalizing s with
      | nil => exact ⟨hs, le_rfl⟩
      | cons c w ih =>
          have htail : s.rest.tail = w ++ rest := by rw [hrest]; rfl
          have hnext : I (s.step c s.rest.tail) := hstep hs (by rw [htail, hrest]; rfl)
          have hmore := ih hnext htail
          exact ⟨hmore.1, (Nat.le_succ _).trans hmore.2⟩
  | assert p =>
      obtain ⟨-, rfl⟩ := h
      exact ⟨hs, le_rfl⟩
  | notAhead r =>
      obtain ⟨-, rfl⟩ := h
      exact ⟨hs, le_rfl⟩

theorem Matches.at_text (h : Matches r s e) (hs : s.At text) : e.At text ∧ s.pos ≤ e.pos :=
  h.preserves (fun ha hrest => ha.step hrest) (fun ha hb hle => ha.capture hb hle) hs

theorem Matches.length_rest (h : Matches r s e) :
    e.pos + e.rest.length = s.pos + s.rest.length := by
  refine (h.preserves (I := fun a => a.pos + a.rest.length = s.pos + s.rest.length) ?_ ?_ rfl).1
  · intro a c rest ha hrest
    rw [hrest, List.length_cons] at ha
    rw [Point.step_pos, Point.step_rest]
    omega
  · intro a b name _ hb _
    exact hb

theorem length_le_of_times {n : Nat} (h : Times (fun a b => Matches r a b ∧ a.pos < b.pos) n s e) :
    n ≤ s.rest.length := by
  induction n generalizing s with
  | zero => exact Nat.zero_le _
  | succ n ih =>
      obtain ⟨m, ⟨hm, hlt⟩, hrest⟩ := h
      have hle := ih hrest
      have hlength := hm.length_rest
      omega

/-- **The search.** -/
theorem adequate_run (r : Regex γ α) : Adequate (run r) (Matches r) := by
  induction r with
  -- by induction on the expression: each case turns one match of `run` into one of `Matches`
  | empty => exact ⟨fun hk => ⟨_, rfl, hk⟩, fun hs hk => hs ▸ hk⟩
  | char p =>
      constructor
      · intro k s e hrun
        unfold run at hrun
        split at hrun
        · cases hrun
        · next c rest hrest =>
          split at hrun
          · next hc => exact ⟨_, ⟨c, rest, hrest, hc, rfl⟩, hrun⟩
          · cases hrun
      · rintro k s s' ⟨c, rest, hrest, hc, rfl⟩ hk
        unfold run
        rw [hrest]
        show (if p c = true then k (s.step c rest) else none).isSome
        rwa [if_pos hc]
  | seq r t ihr iht =>
      constructor
      · intro k s e hrun
        obtain ⟨m, hm, hrest⟩ := ihr.sound hrun
        obtain ⟨s', hs', hk⟩ := iht.sound hrest
        exact ⟨s', ⟨m, hm, hs'⟩, hk⟩
      · rintro k s s' ⟨m, hm, hs'⟩ hk
        exact ihr.complete hm (iht.complete hs' hk)
  | alt r t ihr iht =>
      constructor
      · intro k s e hrun
        unfold run at hrun
        split at hrun
        · next hr =>
          obtain ⟨s', hs', hk⟩ := ihr.sound hr
          exact ⟨s', .inl hs', hk.trans hrun⟩
        · obtain ⟨s', hs', hk⟩ := iht.sound hrun
          exact ⟨s', .inr hs', hk⟩
      · intro k s s' hs' hk
        unfold run
        split
        · rfl
        · next hr =>
          rcases hs' with hs' | hs'
          · have hsome := ihr.complete hs' hk
            rw [hr] at hsome
            cases hsome
          · exact iht.complete hs' hk
  -- without a bound the fuel is the rest of the input: it never cuts a repetition short
  | rep greedy least most r ih =>
      constructor
      · intro k s e hrun
        obtain ⟨m, hm, hrest⟩ := (adequate_exactly ih least).sound hrun
        obtain ⟨n, hn, s', hs', hk⟩ := upTo_sound ih hrest
        refine ⟨s', ⟨m, hm, n, ?_, hs'⟩, hk⟩
        intro u hu
        rw [Option.mem_def.mp hu] at hn
        exact hn
      · rintro k s s' ⟨m, hm, n, hn, hs'⟩ hk
        refine (adequate_exactly ih least).complete hm (upTo_complete ih hs' ?_ hk)
        cases most with
        | some u => exact hn u rfl
        | none => exact length_le_of_times hs'
  | group name r ih =>
      constructor
      · intro k s e hrun
        obtain ⟨m, hm, hk⟩ := ih.sound hrun
        exact ⟨_, ⟨m, hm, rfl⟩, hk⟩
      · rintro k s s' ⟨m, hm, rfl⟩ hk
        exact ih.complete hm hk
  | backref name same =>
      constructor
      · intro k s e hrun
        unfold run at hrun
        split at hrun
        · cases hrun
        · next c hc =>
          obtain ⟨w, rest, hrest, hw, hk⟩ := again_iff.mp hrun
          exact ⟨_, ⟨c, hc, w, rest, hrest, hw, rfl⟩, hk⟩
      · rintro k s s' ⟨c, hc, w, rest, hrest, hw, rfl⟩ hk
        obtain ⟨e, he⟩ := Option.isSome_iff_exists.mp hk
        have hagain := again_iff.mpr ⟨w, rest, hrest, hw, he⟩
        unfold run
        rw [hc]
        show (again same c.text k s).isSome
        rw [hagain]
        rfl
  | assert p =>
      constructor
      · intro k s e hrun
        unfold run at hrun
        split at hrun
        · next hp => exact ⟨s, ⟨hp, rfl⟩, hrun⟩
        · cases hrun
      · rintro k s s' ⟨hp, rfl⟩ hk
        unfold run
        rwa [if_pos hp]
  -- soundness of a look-ahead needs completeness of its body, and the other way round
  | notAhead r ih =>
      constructor
      · intro k s e hrun
        unfold run at hrun
        split at hrun
        · cases hrun
        · next hnone =>
          refine ⟨s, ⟨?_, rfl⟩, hrun⟩
          rintro ⟨m, hm⟩
          have hsome := ih.complete (k := some) hm rfl
          rw [hnone] at hsome
          cases hsome
      · rintro k s s' ⟨hnot, rfl⟩ hk
        unfold run
        split
        · next hr =>
          obtain ⟨m, hm, -⟩ := ih.sound hr
          exact absurd ⟨m, hm⟩ hnot
        · exact hk

/-! ## Shorthands -/

section Shorthands

omit [DecidableEq γ]

def seqs : List (Regex γ α) → Regex γ α
  | [] => empty
  | [r] => r
  | r :: rs => seq r (seqs rs)

def alts : List (Regex γ α) → Regex γ α
  | [] => notAhead empty
  | [r] => r
  | r :: rs => alt r (alts rs)

/-- `r?`. -/
def opt (r : Regex γ α) : Regex γ α := rep true 0 (some 1) r

/-- `r*`. -/
def star (r : Regex γ α) : Regex γ α := rep true 0 none r

/-- `r*?`. -/
def lazyStar (r : Regex γ α) : Regex γ α := rep false 0 none r

/-- `r+`. -/
def plus (r : Regex γ α) : Regex γ α := rep true 1 none r

/-- `r{n,}`. -/
def atLeast (n : Nat) (r : Regex γ α) : Regex γ α := rep true n none r

/-- `r{n,u}`. -/
def within (n u : Nat) (r : Regex γ α) : Regex γ α := rep true n (some u) r

end Shorthands

/-! ## Expressions that match no empty text -/

omit [DecidableEq γ] in
/-- Whether an expression can match without going forward, as far as its form tells. -/
def nullable : Regex γ α → Bool
  | char _ => false
  | seq r t => nullable r && nullable t
  | alt r t => nullable r || nullable t
  | rep _ least _ r => least = 0 || nullable r
  | group _ r => nullable r
  | _ => true

theorem Matches.le (h : Matches r s e) : s.pos ≤ e.pos :=
  (h.preserves (I := fun _ => True) (fun _ _ => trivial) (fun _ _ _ => trivial) trivial).2

omit [DecidableEq γ] in
theorem le_of_times {R : Point γ α → Point γ α → Prop} {n : Nat}
    (hR : ∀ a b, R a b → a.pos ≤ b.pos) (h : Times R n s e) : s.pos ≤ e.pos :=
  h.preserves (I := fun a => s.pos ≤ a.pos) (fun a b ha hab => ha.trans (hR a b hab)) le_rfl

theorem Matches.lt (h : Matches r s e) (hr : r.nullable = false) : s.pos < e.pos := by
  induction r generalizing s e with
  | char p =>
      obtain ⟨c, rest, -, -, rfl⟩ := h
      exact Nat.lt_succ_self _
  | seq r t ihr iht =>
      obtain ⟨m, hm, he⟩ := h
      rcases Bool.and_eq_false_iff.mp hr with hr | ht
      · exact (ihr hm hr).trans_le he.le
      · exact hm.le.trans_lt (iht he ht)
  | alt r t ihr iht =>
      obtain ⟨hr, ht⟩ := Bool.or_eq_false_iff.mp hr
      rcases h with h | h
      · exact ihr h hr
      · exact iht h ht
  | rep greedy least most r ih =>
      obtain ⟨hleast, hr⟩ := Bool.or_eq_false_iff.mp hr
      obtain ⟨m, hm, n, -, he⟩ := h
      cases least with
      | zero => simp at hleast
      | succ least =>
          obtain ⟨a, ha, hrest⟩ := hm
          have hmiddle : a.pos ≤ m.pos := le_of_times (fun _ _ => Matches.le) hrest
          have hlast : m.pos ≤ e.pos := le_of_times (fun _ _ hab => hab.2.le) he
          exact (ih ha hr).trans_le (hmiddle.trans hlast)
  | group name r ih =>
      obtain ⟨m, hm, rfl⟩ := h
      have hlt := ih hm hr
      exact hlt
  | empty => cases hr
  | backref name same => cases hr
  | assert p => cases hr
  | notAhead r => cases hr

/-! ## Matching a word -/

omit [DecidableEq γ] in
theorem Point.along_rest (h : s.rest = w ++ rest) : (s.along w).rest = rest := by
  induction w generalizing s with
  | nil => exact h
  | cons c w ih =>
      rw [Point.along, List.foldl_cons]
      refine ih ?_
      rw [Point.step_rest, h]
      rfl

theorem Matches.char {p : α → Bool} (h : s.rest = c :: rest) (hc : p c = true) :
    Matches (.char p) s (s.along [c]) := by
  refine ⟨c, rest, h, hc, ?_⟩
  show s.step c s.rest.tail = _
  rw [h]
  rfl

/-- A class for each character of a word. -/
theorem Matches.word {classes : List (α → Bool)} (h : s.rest = w ++ rest)
    (hw : List.Forall₂ (fun p c => p c = true) classes w) :
    Matches (seqs (classes.map .char)) s (s.along w) := by
  induction classes generalizing s w with
  | nil =>
      cases hw
      rfl
  | cons p classes ih =>
      cases hw with
      | @cons _ c _ w hp hw =>
          have hfirst : Matches (.char p) s (s.along [c]) := Matches.char h hp
          have hnext : (s.along [c]).rest = w ++ rest := Point.along_rest (w := [c]) h
          have hlater := ih hnext hw
          cases classes with
          | nil =>
              cases hw
              exact hfirst
          | cons q classes => exact ⟨_, hfirst, hlater⟩

/-- A repeated class for a word. -/
theorem Matches.plus {p : α → Bool} (h : s.rest = w ++ rest) (hne : w ≠ [])
    (hw : ∀ c ∈ w, p c = true) : Matches (plus (.char p)) s (s.along w) := by
  cases w with
  | nil => exact absurd rfl hne
  | cons c w =>
      have hfirst : Matches (.char p) s (s.along [c]) :=
        Matches.char h (hw c List.mem_cons_self)
      have hnext : (s.along [c]).rest = w ++ rest := Point.along_rest (w := [c]) h
      refine ⟨s.along [c], ⟨s.along [c], hfirst, rfl⟩, w.length, by simp, ?_⟩
      have hlater : ∀ d ∈ w, p d = true := fun d hd => hw d (List.mem_cons_of_mem c hd)
      show Times _ w.length (s.along [c]) ((s.along [c]).along w)
      clear hw hne h hfirst
      generalize s.along [c] = a at hnext
      induction w generalizing a with
      | nil => rfl
      | cons d w ih =>
          have hstep : Matches (.char p) a (a.along [d]) :=
            Matches.char hnext (hlater d List.mem_cons_self)
          refine ⟨a.along [d], ⟨hstep, Nat.lt_succ_self _⟩, ?_⟩
          exact ih (fun x hx => hlater x (List.mem_cons_of_mem d hx)) _
            (Point.along_rest (w := [d]) hnext)

theorem Matches.opt (h : Matches r s e) (hlt : s.pos < e.pos) : Matches (opt r) s e :=
  ⟨s, rfl, 1, by simp, e, ⟨h, hlt⟩, rfl⟩

/-! ## Matches in a text -/

/-- A match object: where it begins and ends, what it matches and what its groups have caught. -/
structure Match (γ α : Type) where
  start : Nat
  stop : Nat
  text : List α
  captures : List (γ × Capture α)

/-- The match that goes from `s` to `e`. -/
def Match.between (s e : Point γ α) : Match γ α :=
  ⟨s.pos, e.pos, s.rest.take (e.pos - s.pos), e.captures⟩

/-- What a group has caught. -/
def Match.group? (m : Match γ α) (name : γ) : Option (Capture α) := m.captures.lookup name

/-- The matches from a place on, each sought behind the one before. -/
def matchesFrom (r : Regex γ α) : Nat → Point γ α → List (Match γ α)
  | 0, _ => []
  | n + 1, s =>
      match run r some s with
      | some e =>
          if s.pos < e.pos then Match.between s e :: matchesFrom r n e.fresh
          else Match.between s e ::
            match s.rest with
            | [] => []
            | c :: rest => matchesFrom r n (s.step c rest)
      | none =>
          match s.rest with
          | [] => []
          | c :: rest => matchesFrom r n (s.step c rest)

/-- `pattern.finditer(text)`. -/
def finditer (r : Regex γ α) (text : List α) : List (Match γ α) :=
  matchesFrom r (text.length + 1) (Point.init text)

/-- `pattern.search(text)`. -/
def search (r : Regex γ α) (text : List α) : Bool := !(finditer r text).isEmpty

/-- `pattern.match(text)`. -/
def matchStart (r : Regex γ α) (text : List α) : Bool := (run r some (Point.init text)).isSome

/-- `pattern.fullmatch(text)`. -/
def fullmatch (r : Regex γ α) (text : List α) : Bool :=
  (run r (fun e => if e.rest.isEmpty then some e else none) (Point.init text)).isSome

theorem fullmatch_iff : fullmatch r text = true ↔
    ∃ e, Matches r (Point.init text) e ∧ e.rest = [] := by
  constructor
  · intro h
    obtain ⟨e, he⟩ := Option.isSome_iff_exists.mp h
    obtain ⟨s', hs', hk⟩ := (adequate_run r).sound he
    split at hk
    · next hempty => exact ⟨s', hs', List.isEmpty_iff.mp hempty⟩
    · cases hk
  · rintro ⟨e, he, hrest⟩
    refine (adequate_run r).complete he ?_
    rw [hrest]
    rfl

/-- A match of the expression in the text. -/
structure Match.Of (r : Regex γ α) (text : List α) (m : Match γ α) : Prop where
  le : m.start ≤ m.stop
  stop_le : m.stop ≤ text.length
  text_eq : m.text = (text.drop m.start).take (m.stop - m.start)
  captures : ∀ c ∈ m.captures, c.2.InText text m.stop
  found : ∃ s e : Point γ α, s.At text ∧ Matches r s e ∧ m = between s e

variable {m : Match γ α} {n : Nat}

theorem Match.of_matches (h : Matches r s e) (hs : s.At text) : (between s e).Of r text := by
  obtain ⟨he, hle⟩ := h.at_text hs
  have htext : s.rest.take (e.pos - s.pos) = (text.drop s.pos).take (e.pos - s.pos) := by
    rw [hs.rest_eq]
  exact ⟨hle, he.le, htext, he.captures, s, e, hs, h, rfl⟩

theorem Match.Of.lt (hm : m.Of r text) (hr : r.nullable = false) : m.start < m.stop := by
  obtain ⟨s, e, -, hmatch, rfl⟩ := hm.found
  exact hmatch.lt hr

theorem Match.Of.group (hm : m.Of r text) {name : γ} {c : Capture α} (h : m.group? name = some c) :
    c.InText text m.stop := by
  obtain ⟨l₁, l₂, hsplit, -⟩ := List.lookup_eq_some_iff.mp h
  exact hm.captures (name, c) (by rw [hsplit]; simp)

/-- What is found from a place on lies behind it, and the matches lie one behind the other. -/
theorem matchesFrom_spec (hs : s.At text) :
    (∀ m ∈ matchesFrom r n s, m.Of r text ∧ s.pos ≤ m.start) ∧
      (matchesFrom r n s).Pairwise fun a b => a.stop ≤ b.start := by
  induction n generalizing s with
  | zero => exact ⟨by simp [matchesFrom], .nil⟩
  | succ n ih =>
      have hnext : ∀ c rest, s.rest = c :: rest →
          (∀ m ∈ matchesFrom r n (s.step c rest), m.Of r text ∧ s.pos + 1 ≤ m.start) ∧
            (matchesFrom r n (s.step c rest)).Pairwise fun a b => a.stop ≤ b.start :=
        fun c rest hrest => ih (hs.step hrest)
      unfold matchesFrom
      split
      · next e he =>
        obtain ⟨e, hmatch, heq⟩ := (adequate_run r).sound he
        obtain rfl := Option.some.inj heq
        obtain ⟨hat, hle⟩ := hmatch.at_text hs
        have hfirst := Match.of_matches hmatch hs
        split
        · obtain ⟨hall, hpairs⟩ := ih hat.fresh
          constructor
          · intro m hm
            rcases List.mem_cons.mp hm with rfl | hm
            · exact ⟨hfirst, le_rfl⟩
            · exact ⟨(hall m hm).1, hle.trans (hall m hm).2⟩
          · exact List.pairwise_cons.mpr ⟨fun m hm => (hall m hm).2, hpairs⟩
        · next hstay =>
          have hsame : e.pos = s.pos := by omega
          split
          · refine ⟨fun m hm => ?_, List.pairwise_singleton _ _⟩
            obtain rfl := List.mem_singleton.mp hm
            exact ⟨hfirst, le_rfl⟩
          · next c rest hrest =>
            obtain ⟨hall, hpairs⟩ := hnext c rest hrest
            constructor
            · intro m hm
              rcases List.mem_cons.mp hm with rfl | hm
              · exact ⟨hfirst, le_rfl⟩
              · exact ⟨(hall m hm).1, Nat.le_of_succ_le (hall m hm).2⟩
            · refine List.pairwise_cons.mpr ⟨fun m hm => ?_, hpairs⟩
              exact hsame.le.trans (Nat.le_of_succ_le (hall m hm).2)
      · split
        · exact ⟨by simp, .nil⟩
        · next c rest hrest =>
          obtain ⟨hall, hpairs⟩ := hnext c rest hrest
          exact ⟨fun m hm => ⟨(hall m hm).1, Nat.le_of_succ_le (hall m hm).2⟩, hpairs⟩

theorem mem_finditer (h : m ∈ finditer r text) : m.Of r text :=
  ((matchesFrom_spec (.init text)).1 m h).1

theorem pairwise_finditer : (finditer r text).Pairwise fun a b => a.stop ≤ b.start :=
  (matchesFrom_spec (.init text)).2

end Regex

end Scap.Lib
