import Mathlib.Data.List.Nodup
import Mathlib.Data.Set.BooleanAlgebra
import Mathlib.Order.CompletePartialOrder
import Scap.Lib.Run

/-!
# One-time tokens

A pool hands out tokens, each at most once. It remembers the tokens that are used up and refuses a
deposit of one of them; what it has forgotten it cannot refuse. `handedOut_nodup`: no token goes
out twice in a run in which no forgotten token is deposited.

Where the tokens are rows that are marked when they are used, `Consumes` is what may happen to the
rows, and `UsedUp.of_consumes` says that a key whose rows are all used stays used up.
-/

namespace Scap.Lib

variable {κ : Type*}

@[ext]
structure Pool (κ : Type*) where
  unused : Set κ
  /-- The tokens remembered as used up or withdrawn. -/
  used : Set κ
  forgotten : Set κ
  handedOut : List κ

namespace Pool

inductive Action (κ : Type*) where
  | deposit (tokens : Set κ)
  | handOut (token : κ)
  | withdraw (tokens : Set κ)
  | forget (tokens : Set κ)

inductive Step (p : Pool κ) : Action κ → Pool κ → Prop
  | deposit {K : Set κ} (hused : Disjoint K p.used) :
      Step p (.deposit K) { p with unused := p.unused ∪ K }
  | handOut {k : κ} (hk : k ∈ p.unused) :
      Step p (.handOut k) ⟨p.unused \ {k}, insert k p.used, p.forgotten, p.handedOut ++ [k]⟩
  | withdraw {K : Set κ} :
      Step p (.withdraw K) { p with unused := p.unused \ K, used := p.used ∪ (p.unused ∩ K) }
  | forget {K : Set κ} :
      Step p (.forget K) { p with used := p.used \ K, forgotten := p.forgotten ∪ (p.used ∩ K) }

def empty : Pool κ := ⟨∅, ∅, ∅, []⟩

def system (κ : Type*) : System (Pool κ) (Action κ) where
  init p := p = empty
  step p a q := Step p a q

/-- No forgotten token is deposited. -/
def KeepsOut (p : Pool κ) : Action κ → Prop
  | .deposit K => Disjoint K p.forgotten
  | _ => True

/-- What is unused was never used, and what went out was used. -/
structure Sound (p : Pool κ) : Prop where
  apart : Disjoint p.unused (p.used ∪ p.forgotten)
  spent : ∀ k ∈ p.handedOut, k ∈ p.used ∪ p.forgotten
  nodup : p.handedOut.Nodup

variable {p q : Pool κ} {a : Action κ} {as : List (Action κ)}

theorem sound_empty : Sound (empty : Pool κ) where
  apart := Set.empty_disjoint _
  spent _ h := absurd h List.not_mem_nil
  nodup := List.nodup_nil

theorem sound_step (hp : Sound p) (h : ((system κ).restrict KeepsOut).step p a q) : Sound q := by
  obtain ⟨hstep, hkeeps⟩ := h
  cases hstep with
  | deposit hused =>
      refine ⟨?_, hp.spent, hp.nodup⟩
      exact Set.disjoint_union_left.mpr
        ⟨hp.apart, Set.disjoint_union_right.mpr ⟨hused, hkeeps⟩⟩
  | @handOut k hk =>
      have hfresh : k ∉ p.handedOut := by
        intro hout
        exact Set.disjoint_left.mp hp.apart hk (hp.spent k hout)
      constructor
      · rw [Set.disjoint_left]
        rintro x ⟨hx, hne⟩ (hused | hforgotten)
        · rcases Set.mem_insert_iff.mp hused with rfl | hused
          · exact hne rfl
          · exact Set.disjoint_left.mp hp.apart hx (.inl hused)
        · exact Set.disjoint_left.mp hp.apart hx (.inr hforgotten)
      · intro x hx
        rcases List.mem_append.mp hx with hx | hx
        · exact (hp.spent x hx).imp_left (Set.mem_insert_of_mem k)
        · exact .inl (List.mem_singleton.mp hx ▸ Set.mem_insert k p.used)
      · exact List.nodup_append.mpr ⟨hp.nodup, List.nodup_singleton k, by grind⟩
  | @withdraw K =>
      constructor
      · rw [Set.disjoint_left]
        rintro x ⟨hx, hnot⟩ ((hused | hwithdrawn) | hforgotten)
        · exact Set.disjoint_left.mp hp.apart hx (.inl hused)
        · exact hnot hwithdrawn.2
        · exact Set.disjoint_left.mp hp.apart hx (.inr hforgotten)
      · exact fun x hx => (hp.spent x hx).imp_left .inl
      · exact hp.nodup
  | @forget K =>
      constructor
      · rw [Set.disjoint_left]
        rintro x hx (hused | hforgotten | hswept)
        · exact Set.disjoint_left.mp hp.apart hx (.inl hused.1)
        · exact Set.disjoint_left.mp hp.apart hx (.inr hforgotten)
        · exact Set.disjoint_left.mp hp.apart hx (.inl hswept.1)
      · intro x hx
        by_cases hK : x ∈ K
        · exact .inr ((hp.spent x hx).elim (fun h => .inr ⟨h, hK⟩) .inl)
        · exact (hp.spent x hx).imp (fun h => ⟨h, hK⟩) .inl
      · exact hp.nodup

theorem sound_run (hp : Sound p) (h : ((system κ).restrict KeepsOut).Run p as q) : Sound q :=
  h.preserves (fun _ _ _ => sound_step) hp

/-- Handing out a token and withdrawing others with it. -/
theorem run_handOut_withdraw {k : κ} {K : Set κ} (hk : k ∈ p.unused) (hK : k ∈ K) :
    ((system κ).restrict KeepsOut).Run p [.handOut k, .withdraw K]
      { p with
        unused := p.unused \ K
        used := p.used ∪ (p.unused ∩ K)
        handedOut := p.handedOut ++ [k] } := by
  have hout : Step p (.handOut k)
      ⟨p.unused \ {k}, insert k p.used, p.forgotten, p.handedOut ++ [k]⟩ := .handOut hk
  have hwith := Step.withdraw (K := K)
    (p := ⟨p.unused \ {k}, insert k p.used, p.forgotten, p.handedOut ++ [k]⟩)
  have hunused : (p.unused \ {k}) \ K = p.unused \ K := by
    ext x
    simp only [Set.mem_sdiff, Set.mem_singleton_iff]
    grind
  have hused : insert k p.used ∪ ((p.unused \ {k}) ∩ K) = p.used ∪ (p.unused ∩ K) := by
    ext x
    simp only [Set.mem_union, Set.mem_insert_iff, Set.mem_inter_iff, Set.mem_sdiff,
      Set.mem_singleton_iff]
    grind
  rw [hunused, hused] at hwith
  exact .cons ⟨hout, trivial⟩ (.single ⟨hwith, trivial⟩)

/-- **No token goes out twice unless a forgotten one is deposited.** -/
theorem handedOut_nodup (h : ((system κ).restrict KeepsOut).Reachable p) : p.handedOut.Nodup := by
  obtain ⟨q, as, rfl, hrun⟩ := h
  exact (sound_run sound_empty hrun).nodup

end Pool

/-! ## Rows that are used once -/

section
variable {ρ κ : Type*} {key : ρ → κ} {used : ρ → Prop} {rows rows' rows'' : List ρ}
  {drawn drawn' drawn'' : List κ}

/-- A row was there under its key, and is used if it was, or its key has just been drawn. -/
def Consumes (key : ρ → κ) (used : ρ → Prop) (rows : List ρ) (drawn : List κ) (rows' : List ρ)
    (drawn' : List κ) : Prop :=
  ∀ r' ∈ rows', (∃ r ∈ rows, key r = key r' ∧ (used r → used r')) ∨
    key r' ∉ drawn ∧ key r' ∈ drawn'

theorem Consumes.of_subset (h : rows' ⊆ rows) : Consumes key used rows drawn rows' drawn' :=
  fun r hr => .inl ⟨r, h hr, rfl, id⟩

theorem Consumes.trans (hdrawn : drawn ⊆ drawn') (hdrawn' : drawn' ⊆ drawn'')
    (h : Consumes key used rows drawn rows' drawn')
    (h' : Consumes key used rows' drawn' rows'' drawn'') :
    Consumes key used rows drawn rows'' drawn'' := by
  intro r'' hr''
  rcases h' r'' hr'' with ⟨r', hr', hkey', hused'⟩ | ⟨hnew, hmem⟩
  · rcases h r' hr' with ⟨r, hr, hkey, hused⟩ | ⟨hnew, hmem⟩
    · exact .inl ⟨r, hr, hkey.trans hkey', fun hbefore => hused' (hused hbefore)⟩
    · rw [← hkey']
      exact .inr ⟨hnew, hdrawn' hmem⟩
  · exact .inr ⟨fun hold => hnew (hdrawn hold), hmem⟩

/-- The keys of the rows stay among those drawn. -/
theorem Consumes.keys_drawn (h : Consumes key used rows drawn rows' drawn')
    (hdrawn : drawn ⊆ drawn') (hkeys : ∀ r ∈ rows, key r ∈ drawn) :
    ∀ r ∈ rows', key r ∈ drawn' := by
  intro r' hr'
  rcases h r' hr' with ⟨r, hr, hkey, -⟩ | ⟨-, hmem⟩
  · exact hkey ▸ hdrawn (hkeys r hr)
  · exact hmem

/-- The key has been drawn, and every row under it is used. -/
structure UsedUp (key : ρ → κ) (used : ρ → Prop) (rows : List ρ) (drawn : List κ) (k : κ) :
    Prop where
  drawn : k ∈ drawn
  used : ∀ r ∈ rows, key r = k → used r

/-- **What is used up stays so.** -/
theorem UsedUp.of_consumes {k : κ} (h : UsedUp key used rows drawn k) (hdrawn : drawn ⊆ drawn')
    (hstep : Consumes key used rows drawn rows' drawn') : UsedUp key used rows' drawn' k := by
  refine ⟨hdrawn h.drawn, ?_⟩
  rintro r' hr' rfl
  rcases hstep r' hr' with ⟨r, hr, hkey, hused⟩ | ⟨hnew, -⟩
  · exact hused (h.used r hr hkey)
  · exact absurd h.drawn hnew

end

end Scap.Lib
