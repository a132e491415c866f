import Scap.Lib.Run

/-!
# Programs with a durable copy of their memory

A process works on a memory, which a crash takes away, and saves part of it. What an operation does
to the outside is a tree, `Prog`: it saves its memory, or sends a request and goes on with any
answer, or is done. A save that fails may or may not have replaced the copy; the process goes on in
the other branch.

`Prog.wp` is the weakest precondition. A `Contract` says what holds of the copy and of the requests
so far at any time, and which request may be sent with which copy; it is checked at every save and
every request, and that none of them comes after a failed save. The rules `wp_bind`, `wp_attempt` and so on
take a program apart.

`Software.invariant` is the rule for whole runs: what every operation keeps holds after any
operations, answers, failures and crashes.
-/

namespace Scap.Lib

/-- What a process does next: `m` is its memory, `ε` what it can raise. -/
inductive Prog (μ Req Ans ε α : Type) where
  | done (m : μ) (r : Except ε α)
  | save (m : μ) (good bad : Prog μ Req Ans ε α)
  | ask (m : μ) (q : Req) (k : Ans → Prog μ Req Ans ε α)

/-- An operation of a process. -/
def Proc (μ Req Ans ε α : Type) : Type := μ → Prog μ Req Ans ε α

variable {μ ν Req Ans ε α β : Type}

namespace Prog

def bind : Prog μ Req Ans ε α → (α → Proc μ Req Ans ε β) → Prog μ Req Ans ε β
  | done m (.ok a), f => f a m
  | done m (.error e), _ => done m (.error e)
  | save m good bad, f => save m (good.bind f) (bad.bind f)
  | ask m q k, f => ask m q fun a => (k a).bind f

/-- What was raised becomes a result. -/
def attempt : Prog μ Req Ans ε α → Prog μ Req Ans ε (Except ε α)
  | done m r => done m (.ok r)
  | save m good bad => save m good.attempt bad.attempt
  | ask m q k => ask m q fun a => (k a).attempt

end Prog

namespace Proc

instance : Monad (Proc μ Req Ans ε) where
  pure a m := .done m (.ok a)
  bind x f m := (x m).bind f

def raise (e : ε) : Proc μ Req Ans ε α := fun m => .done m (.error e)

def memory : Proc μ Req Ans ε μ := fun m => .done m (.ok m)

def modify (f : μ → μ) : Proc μ Req Ans ε Unit := fun m => .done (f m) (.ok ())

def ask (q : Req) : Proc μ Req Ans ε Ans := fun m => .ask m q fun a => .done m (.ok a)

/-- A save; if it fails, the memory is marked and `e` is raised. -/
def save (mark : μ → μ) (e : ε) : Proc μ Req Ans ε Unit := fun m =>
  .save m (.done m (.ok ())) (.done (mark m) (.error e))

def attempt (x : Proc μ Req Ans ε α) : Proc μ Req Ans ε (Except ε α) := fun m => (x m).attempt

/-- A result that may be an error. -/
def ofExcept : Except ε α → Proc μ Req Ans ε α
  | .ok a => pure a
  | .error e => raise e

end Proc

/-! ## Weakest preconditions -/

/-- The durable copy, the requests so far, the latest first, and whether a save of the process has
failed. -/
structure World (ν Req : Type) where
  disk : ν
  asked : List Req
  broken : Bool

/-- What holds of the copy and the requests so far, and which request may be sent. -/
structure Contract (ν Req : Type) where
  holds : ν → List Req → Prop
  allows : ν → Req → Prop

namespace Prog

variable (snap : μ → ν) (c : Contract ν Req)

def wp (Q : World ν Req → Except ε α → μ → Prop) : Prog μ Req Ans ε α → World ν Req → Prop
  | done m r, w => Q w r m
  | save m good bad, w =>
      w.broken = false ∧ c.holds (snap m) w.asked ∧
      good.wp Q { w with disk := snap m } ∧
      ∀ replaced : Bool,
        bad.wp Q { w with disk := if replaced then snap m else w.disk, broken := true }
  | ask _ q k, w =>
      w.broken = false ∧ c.allows w.disk q ∧ c.holds w.disk (q :: w.asked) ∧
      ∀ a, (k a).wp Q { w with asked := q :: w.asked }

variable {snap c} {w : World ν Req} {m : μ}

theorem wp_mono {P Q : World ν Req → Except ε α → μ → Prop} {p : Prog μ Req Ans ε α}
    (h : p.wp snap c P w) (hPQ : ∀ w r m, P w r m → Q w r m) : p.wp snap c Q w := by
  induction p generalizing w with
  | done m r => exact hPQ _ _ _ h
  | save m good bad ihgood ihbad =>
      obtain ⟨hsound, hholds, hgood, hbad⟩ := h
      exact ⟨hsound, hholds, ihgood hgood, fun replaced => ihbad (hbad replaced)⟩
  | ask m q k ih =>
      obtain ⟨hsound, hallows, hholds, hk⟩ := h
      exact ⟨hsound, hallows, hholds, fun a => ih a (hk a)⟩

/-- Sequencing. -/
theorem wp_bind {Q : World ν Req → Except ε β → μ → Prop} {p : Prog μ Req Ans ε α}
    {f : α → Proc μ Req Ans ε β} :
    (p.bind f).wp snap c Q w ↔ p.wp snap c (fun w r m => match r with
      | .ok a => (f a m).wp snap c Q w
      | .error e => Q w (.error e) m) w := by
  induction p generalizing w with
  | done m r => cases r <;> rfl
  | save m good bad ihgood ihbad => simp only [bind, wp, ihgood, ihbad]
  | ask m q k ih => simp only [bind, wp, ih]

theorem wp_attempt {Q : World ν Req → Except ε (Except ε α) → μ → Prop} {p : Prog μ Req Ans ε α} :
    p.attempt.wp snap c Q w ↔ p.wp snap c (fun w r m => Q w (.ok r) m) w := by
  induction p generalizing w with
  | done m r => rfl
  | save m good bad ihgood ihbad => simp only [attempt, wp, ihgood, ihbad]
  | ask m q k ih => simp only [attempt, wp, ih]

end Prog

namespace Proc

variable {snap : μ → ν} {c : Contract ν Req} {w : World ν Req} {m : μ}

@[simp] theorem wp_pure {Q : World ν Req → Except ε α → μ → Prop} {a : α} :
    ((pure a : Proc μ Req Ans ε α) m).wp snap c Q w ↔ Q w (.ok a) m := Iff.rfl

@[simp] theorem wp_raise {Q : World ν Req → Except ε α → μ → Prop} {e : ε} :
    ((raise e : Proc μ Req Ans ε α) m).wp snap c Q w ↔ Q w (.error e) m := Iff.rfl

@[simp] theorem wp_memory {Q : World ν Req → Except ε μ → μ → Prop} :
    ((memory : Proc μ Req Ans ε μ) m).wp snap c Q w ↔ Q w (.ok m) m := Iff.rfl

@[simp] theorem wp_modify {Q : World ν Req → Except ε Unit → μ → Prop} {f : μ → μ} :
    ((modify f : Proc μ Req Ans ε Unit) m).wp snap c Q w ↔ Q w (.ok ()) (f m) := Iff.rfl

@[simp] theorem wp_ask {Q : World ν Req → Except ε Ans → μ → Prop} {q : Req} :
    ((ask q : Proc μ Req Ans ε Ans) m).wp snap c Q w ↔
      w.broken = false ∧ c.allows w.disk q ∧ c.holds w.disk (q :: w.asked) ∧
        ∀ a, Q { w with asked := q :: w.asked } (.ok a) m := Iff.rfl

@[simp] theorem wp_save {Q : World ν Req → Except ε Unit → μ → Prop} {mark : μ → μ} {e : ε} :
    ((save mark e : Proc μ Req Ans ε Unit) m).wp snap c Q w ↔
      w.broken = false ∧ c.holds (snap m) w.asked ∧ Q { w with disk := snap m } (.ok ()) m ∧
        ∀ replaced : Bool, Q { w with disk := if replaced then snap m else w.disk, broken := true }
          (.error e) (mark m) := Iff.rfl

theorem wp_bind {Q : World ν Req → Except ε β → μ → Prop} {x : Proc μ Req Ans ε α}
    {f : α → Proc μ Req Ans ε β} :
    ((x >>= f) m).wp snap c Q w ↔ (x m).wp snap c (fun w r m => match r with
      | .ok a => (f a m).wp snap c Q w
      | .error e => Q w (.error e) m) w := Prog.wp_bind

theorem wp_attempt {Q : World ν Req → Except ε (Except ε α) → μ → Prop}
    {x : Proc μ Req Ans ε α} :
    ((attempt x) m).wp snap c Q w ↔ (x m).wp snap c (fun w r m => Q w (.ok r) m) w :=
  Prog.wp_attempt

theorem wp_ofExcept {Q : World ν Req → Except ε α → μ → Prop} {r : Except ε α} :
    ((ofExcept r : Proc μ Req Ans ε α) m).wp snap c Q w ↔ Q w r m := by
  cases r <;> rfl

end Proc

/-! ## Triples -/

section Triples

variable (snap : μ → ν) (c : Contract ν Req)

/-- If `P` holds before the operation, it keeps the contract and `Q` holds after it. -/
def Triple (P : World ν Req → μ → Prop) (x : Proc μ Req Ans ε α)
    (Q : World ν Req → Except ε α → μ → Prop) : Prop :=
  ∀ w m, P w m → (x m).wp snap c Q w

/-- The operation keeps `P`, also when it raises. -/
def Keeps (P : World ν Req → μ → Prop) (x : Proc μ Req Ans ε α) : Prop :=
  Triple snap c P x fun w _ m => P w m

variable {snap c} {P P' : World ν Req → μ → Prop} {Q R : World ν Req → Except ε α → μ → Prop}
  {S : World ν Req → Except ε β → μ → Prop} {x : Proc μ Req Ans ε α}
  {f : α → Proc μ Req Ans ε β}

theorem Triple.conseq (h : Triple snap c P x R) (hP : ∀ w m, P' w m → P w m)
    (hQ : ∀ w r m, R w r m → Q w r m) : Triple snap c P' x Q :=
  fun w m hm => Prog.wp_mono (h w m (hP w m hm)) hQ

/-- Sequencing: what is raised in between has to satisfy the postcondition. -/
theorem Triple.bind (hx : Triple snap c P x R)
    (hf : ∀ a, Triple snap c (fun w m => R w (.ok a) m) (f a) S)
    (herr : ∀ w e m, R w (.error e) m → S w (.error e) m) : Triple snap c P (x >>= f) S := by
  intro w m hm
  apply Proc.wp_bind.mpr
  refine Prog.wp_mono (hx w m hm) ?_
  intro w r m hr
  cases r with
  | ok a => exact hf a w m hr
  | error e => exact herr w e m hr

/-- Sequencing after an operation that keeps `P`. -/
theorem Keeps.seq (hx : Keeps snap c P x) (hf : ∀ a, Triple snap c P (f a) S)
    (herr : ∀ w e m, P w m → S w (.error e) m) : Triple snap c P (x >>= f) S :=
  Triple.bind hx hf herr

theorem Keeps.bind (hx : Keeps snap c P x) (hf : ∀ a, Keeps snap c P (f a)) :
    Keeps snap c P (x >>= f) :=
  Triple.bind hx hf fun _ _ _ h => h

theorem Keeps.pure (a : α) : Keeps snap c P (Pure.pure a : Proc μ Req Ans ε α) := fun _ _ h => h

theorem Keeps.raise (e : ε) : Keeps snap c P (Proc.raise e : Proc μ Req Ans ε α) := fun _ _ h => h

theorem Keeps.memory : Keeps snap c P (Proc.memory : Proc μ Req Ans ε μ) := fun _ _ h => h

theorem Keeps.ofExcept (r : Except ε α) :
    Keeps snap c P (Proc.ofExcept r : Proc μ Req Ans ε α) :=
  fun _ _ h => Proc.wp_ofExcept.mpr h

theorem Keeps.modify {g : μ → μ} (h : ∀ w m, P w m → P w (g m)) :
    Keeps snap c P (Proc.modify g : Proc μ Req Ans ε Unit) :=
  fun w m hm => h w m hm

theorem Keeps.attempt (hx : Keeps snap c P x) : Keeps snap c P (Proc.attempt x) :=
  fun w m hm => Proc.wp_attempt.mpr (hx w m hm)

/-- The memory that is read is the one at hand. -/
theorem Triple.memory_bind {f : μ → Proc μ Req Ans ε β}
    (h : ∀ m₀, Triple snap c (fun w m => P w m ∧ m = m₀) (f m₀) S) :
    Triple snap c P (Proc.memory >>= f) S :=
  fun w m hm => h m w m ⟨hm, rfl⟩

/-- The result of a pure computation that does not raise. -/
theorem Triple.ofExcept_bind {r : Except ε α} (h : ∀ a, r = .ok a → Triple snap c P (f a) S)
    (herr : ∀ w e m, P w m → S w (.error e) m) :
    Triple snap c P (Proc.ofExcept r >>= f) S := by
  cases r with
  | ok a => exact h a rfl
  | error e => exact fun w m hm => herr w e m hm

end Triples

/-! ## Machines -/

structure Machine (μ ν Req Ans ε α : Type) where
  world : World ν Req
  /-- The process, if there is one; one that is done waits for the next operation. -/
  proc : Option (Prog μ Req Ans ε α)

/-- `cut` is a crash with the request on its way. -/
inductive Label (Op Ans : Type) where
  | boot (op : Op)
  | start (op : Op)
  | saved
  | lost (replaced : Bool)
  | answered (a : Ans)
  | crash
  | cut

/-- Whether the process goes on with its operation. -/
def Label.inner {Op : Type} : Label Op Ans → Bool
  | .saved => true
  | .lost _ => true
  | .answered _ => true
  | _ => false

/-- The operations, what is saved and how it is loaded, and what an operation can draw. -/
structure Software (μ ν Req Ans ε α Op : Type) where
  ops : Op → Proc μ Req Ans ε α
  snap : μ → ν
  load : ν → μ
  draws : μ → Op → Prop

namespace Software

variable {Op : Type} (S : Software μ ν Req Ans ε α Op)

def next : Machine μ ν Req Ans ε α → Label Op Ans → Option (Machine μ ν Req Ans ε α)
  | ⟨w, none⟩, .boot op => some ⟨{ w with broken := false }, some (S.ops op (S.load w.disk))⟩
  | ⟨w, some (.done m _)⟩, .start op => some ⟨w, some (S.ops op m)⟩
  | ⟨w, some (.save m good _)⟩, .saved => some ⟨{ w with disk := S.snap m }, some good⟩
  | ⟨w, some (.save m _ bad)⟩, .lost replaced =>
      some ⟨{ w with disk := if replaced then S.snap m else w.disk, broken := true }, some bad⟩
  | ⟨w, some (.ask _ q k)⟩, .answered a => some ⟨{ w with asked := q :: w.asked }, some (k a)⟩
  | ⟨w, some _⟩, .crash => some ⟨w, none⟩
  | ⟨w, some (.ask _ q _)⟩, .cut => some ⟨{ w with asked := q :: w.asked }, none⟩
  | _, _ => none

/-- What the operations draw. -/
def Draws : Machine μ ν Req Ans ε α → Label Op Ans → Prop
  | ⟨w, _⟩, .boot op => S.draws (S.load w.disk) op
  | ⟨_, some (.done m _)⟩, .start op => S.draws m op
  | _, _ => True

/-- The machine, started with nothing but what `blank` says. -/
def system (blank : ν) : System (Machine μ ν Req Ans ε α) (Label Op Ans) :=
  (System.ofFun (fun s => s = ⟨⟨blank, [], false⟩, none⟩) S.next).restrict S.Draws

variable {S} {c : Contract ν Req} {blank : ν} {s t : Machine μ ν Req Ans ε α}

/-- What is known of a machine whose operations keep `I`. -/
structure Fine (S : Software μ ν Req Ans ε α Op) (c : Contract ν Req)
    (I : World ν Req → μ → Prop) (s : Machine μ ν Req Ans ε α) : Prop where
  holds : c.holds s.world.disk s.world.asked
  proc : ∀ p, s.proc = some p → p.wp S.snap c (fun w _ m => I w m) s.world

/-- One step of an operation. -/
theorem wp_of_inner {Q : World ν Req → Except ε α → μ → Prop} {l : Label Op Ans}
    {p : Prog μ Req Ans ε α} (hl : l.inner = true) (hs : c.holds s.world.disk s.world.asked)
    (hp : s.proc = some p) (hwp : p.wp S.snap c Q s.world) (h : S.next s l = some t) :
    c.holds t.world.disk t.world.asked ∧
      ∃ p', t.proc = some p' ∧ p'.wp S.snap c Q t.world := by
  obtain ⟨w, proc⟩ := s
  obtain rfl : proc = some p := hp
  cases l with
  | saved =>
      cases p with
      | save m good bad =>
          obtain rfl := Option.some.inj h
          exact ⟨hwp.2.1, good, rfl, hwp.2.2.1⟩
      | _ => cases h
  | lost replaced =>
      cases p with
      | save m good bad =>
          obtain rfl := Option.some.inj h
          refine ⟨?_, bad, rfl, hwp.2.2.2 replaced⟩
          cases replaced with
          | true => exact hwp.2.1
          | false => exact hs
      | _ => cases h
  | answered a =>
      cases p with
      | ask m q k =>
          obtain rfl := Option.some.inj h
          exact ⟨hwp.2.2.1, k a, rfl, hwp.2.2.2 a⟩
      | _ => cases h
  | _ => cases hl

/-- **The rule for whole runs.** If a process that has just loaded the copy satisfies `I` and every
operation keeps `I` and the contract, then every run does. -/
theorem invariant {I : World ν Req → μ → Prop} (hblank : c.holds blank [])
    (hload : ∀ d asked, c.holds d asked → I ⟨d, asked, false⟩ (S.load d))
    (hops : ∀ op w m, c.holds w.disk w.asked → I w m → S.draws m op →
      (S.ops op m).wp S.snap c (fun w _ m => I w m) w)
    (h : (S.system blank).Reachable s) : S.Fine c I s := by
  refine h.induct ?_ ?_
  · rintro s rfl
    exact ⟨hblank, nofun⟩
  · rintro ⟨w, proc⟩ l t - ⟨hholds, hproc⟩ ⟨hnext, hdraws⟩
    cases l with
    | boot op =>
        cases proc with
        | none =>
            obtain rfl := Option.some.inj hnext
            refine ⟨hholds, ?_⟩
            intro p hp
            obtain rfl := Option.some.inj hp
            exact hops op _ _ hholds (hload _ _ hholds) hdraws
        | some p => cases p <;> cases hnext
    | start op =>
        match proc, hnext with
        | some (.done m r), hnext =>
            obtain rfl := Option.some.inj hnext
            refine ⟨hholds, ?_⟩
            intro p hp
            obtain rfl := Option.some.inj hp
            exact hops op w m hholds (hproc _ rfl) hdraws
    | crash =>
        cases proc with
        | none => cases hnext
        | some p =>
            obtain rfl : ⟨w, none⟩ = t := by cases p <;> exact Option.some.inj hnext
            exact ⟨hholds, nofun⟩
    | cut =>
        match proc, hnext with
        | some (.ask m q k), hnext =>
            obtain rfl := Option.some.inj hnext
            exact ⟨(hproc _ rfl).2.2.1, nofun⟩
    | _ =>
        cases proc with
        | none => cases hnext
        | some p =>
            obtain ⟨hholds', p', hp', hwp'⟩ := wp_of_inner rfl hholds rfl (hproc p rfl) hnext
            refine ⟨hholds', ?_⟩
            intro p'' hp''
            obtain rfl := Option.some.inj (hp'.symm.trans hp'')
            exact hwp'

end Software

end Scap.Lib
