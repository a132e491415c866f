import Scap.Browser.Store

/-!
# The newest token of a login

`current_token` goes from a token to the one it was rotated to, at most sixteen times. So it answers
with the newest token of the login just when not more than sixteen rotations lie between them
(`current_token_iff`); a tab that is further behind gets a token that is itself outdated
(`seventeen_rotations`).
-/

namespace Scap.Browser

open Scap.Py Scap.Lib Links

/-- A call of `rotate_token`. -/
structure Rotation where
  now : ℚ
  previous : Str
  token : Str
  expiresAt : ℚ

variable (cfg : Settings)

def Store.rotate (s : Store) (c : Rotation) : Store :=
  s.rotateToken cfg c.now c.previous c.token c.expiresAt

/-- The calls, one after the other. -/
def Store.rotateAll (s : Store) (calls : List Rotation) : Store := calls.foldl (·.rotate cfg) s

/-- No call finds the table of successors full. -/
def Below : Store → List Rotation → Prop
  | _, [] => True
  | s, c :: calls =>
    (s.prune c.now).successors.len < cfg.maxSessions * 4 ∧ Below (s.rotate cfg c) calls

instance : ∀ (s : Store) (calls : List Rotation), Decidable (Below cfg s calls)
  | _, [] => inferInstanceAs (Decidable True)
  | s, c :: calls =>
    have := instDecidableBelow (s.rotate cfg c) calls
    inferInstanceAs (Decidable (_ ∧ _))

/-- What the last rotation of a token made of it. -/
def successorOf (calls : List Rotation) (token : Str) : Option Str :=
  (calls.reverse.find? fun c => c.previous = token).map Rotation.token

/-- The tokens that occur. -/
def tokensOf (calls : List Rotation) (token : Str) : List Str :=
  token :: calls.flatMap fun c => [c.previous, c.token]

variable {cfg} {s : Store} {calls : List Rotation} {c : Rotation} {now : ℚ} {token t : Str}

theorem successorOf_cons : successorOf (c :: calls) t =
    (successorOf calls t).or (if c.previous = t then some c.token else none) := by
  unfold successorOf
  rw [List.reverse_cons, List.find?_append]
  cases calls.reverse.find? fun c => c.previous = t with
  | some d => rfl
  | none => by_cases h : c.previous = t <;> simp [h]

theorem mem_tokensOf_of_successorOf (h : successorOf calls t = some token) (u : Str) :
    token ∈ tokensOf calls u := by
  obtain ⟨c, hc, rfl⟩ := Option.map_eq_some_iff.mp h
  have hmem := List.mem_reverse.mp (List.mem_of_find?_eq_some hc)
  exact List.mem_cons_of_mem _ (List.mem_flatMap.mpr ⟨c, hmem, by simp⟩)

/-! ## The table and the calls -/

/-- Every row is live at `now`. -/
def Store.Live (s : Store) (now : ℚ) : Prop := ∀ r ∈ s.successors.rows, now < r.2.expiresAt

/-- A rotation writes one row. -/
theorem rotate_successors (hlive : s.Live now) (hc : c.now ≤ now)
    (hbelow : (s.prune c.now).successors.len < cfg.maxSessions * 4) :
    (s.rotate cfg c).successors =
      s.successors.set (tokenKey cfg c.previous) ⟨c.token, c.expiresAt, none⟩ := by
  have hprune : (s.prune c.now).successors = s.successors :=
    OrderedDict.filter_eq_self fun r hr => decide_eq_true (hc.trans_lt (hlive r hr))
  show (if (s.prune c.now).successors.len < cfg.maxSessions * 4 then _ else _) = _
  rw [if_pos hbelow, hprune]

/-- **The table follows the calls**: what it knows of a token is what the last call that rotates the
token says. -/
theorem successor_rotateAll {tokens : List Str} (hlive : s.Live now) (hbelow : Below cfg s calls)
    (hcalls : ∀ c ∈ calls, c.now ≤ now ∧ now < c.expiresAt)
    (hkeys : ∀ t ∈ tokens, ∀ u ∈ tokens, tokenKey cfg t = tokenKey cfg u → t = u)
    (htokens : ∀ c ∈ calls, c.previous ∈ tokens) (ht : t ∈ tokens) :
    ((s.rotateAll cfg calls).prune now).successor cfg t =
      (successorOf calls t).or (s.successor cfg t) := by
  induction calls generalizing s with
  | nil =>
      have hprune : (s.prune now).successors = s.successors :=
        OrderedDict.filter_eq_self fun r hr => decide_eq_true (hlive r hr)
      show (s.prune now).successor cfg t = s.successor cfg t
      rw [Store.successor, Store.successor, hprune]
  | cons c calls ih =>
      obtain ⟨hfirst, hrest⟩ := hbelow
      obtain ⟨hc, hexpires⟩ := hcalls c List.mem_cons_self
      have hrow := rotate_successors hlive hc hfirst
      have hlive' : (s.rotate cfg c).Live now := by
        intro r hr
        rw [hrow] at hr
        rcases OrderedDict.mem_set.mp hr with rfl | ⟨hr, -⟩
        · exact hexpires
        · exact hlive r hr
      have hsuccessor : (s.rotate cfg c).successor cfg t =
          (if c.previous = t then some c.token else none).or (s.successor cfg t) := by
        rw [Store.successor, hrow, OrderedDict.get_set]
        by_cases hsame : c.previous = t
        · simp [hsame]
        · have hkey : tokenKey cfg t ≠ tokenKey cfg c.previous := by
            intro heq
            exact hsame (hkeys t ht c.previous (htokens c List.mem_cons_self) heq).symm
          simp [hsame, hkey, Store.successor]
      show ((Store.rotateAll cfg (s.rotate cfg c) calls).prune now).successor cfg t = _
      rw [ih hlive' hrest (fun d hd => hcalls d (List.mem_cons_of_mem _ hd))
        (fun d hd => htokens d (List.mem_cons_of_mem _ hd)), hsuccessor, successorOf_cons,
        Option.or_assoc]

/-- **Token chain lookup.** After any rotations that find room, and as long as none of the tokens
has expired, the lookup goes along at most sixteen rotations, and it finds the last token of a chain
if and only if that is not more than sixteen rotations away. -/
theorem current_token_iff (hbelow : Below cfg .empty calls)
    (hcalls : ∀ c ∈ calls, c.now ≤ now ∧ now < c.expiresAt)
    (hkeys : ∀ t ∈ tokensOf calls token, ∀ u ∈ tokensOf calls token,
      tokenKey cfg t = tokenKey cfg u → t = u) :
    (∃ k ≤ 16, Path (successorOf calls) k token
      ((Store.empty.rotateAll cfg calls).currentToken cfg now token).2) ∧
    ∀ n last, Chain (successorOf calls) n token last →
      (((Store.empty.rotateAll cfg calls).currentToken cfg now token).2 = last ↔ n ≤ 16) := by
  have hfollow : ((Store.empty.rotateAll cfg calls).currentToken cfg now token).2 =
      follow (successorOf calls) 16 token := by
    refine follow_congr (P := fun t => t ∈ tokensOf calls token) List.mem_cons_self ?_ ?_
    · intro t u _ hnext
      exact mem_tokensOf_of_successorOf hnext token
    · intro t ht
      have hprevious : ∀ c ∈ calls, c.previous ∈ tokensOf calls token := fun c hc =>
        List.mem_cons_of_mem _ (List.mem_flatMap.mpr ⟨c, hc, List.mem_cons_self⟩)
      have hempty : Store.empty.successor cfg t = none := rfl
      rw [successor_rotateAll (fun r hr => absurd hr List.not_mem_nil) hbelow hcalls hkeys
        hprevious ht, hempty, Option.or_none]
  rw [hfollow]
  exact ⟨follow_path _ 16 token, fun n last hchain => hchain.follow_eq_iff⟩

/-! ## Two lines of rotations -/

theorem minute_pos : (0 : ℚ) < 60 := by norm_num

/-- A store in which the key of a token is its first 32 bytes. -/
def sampleSettings : Settings where
  sha256 bytes := ⟨(bytes ++ List.replicate 32 0).take 32, by simp⟩
  maxTickets := 1024
  maxSessions := 1024
  ticketTtl := 60
  maxTickets_pos := by decide
  maxSessions_pos := by decide
  ticketTtl_pos := minute_pos
  ticketTtl_le := by norm_num

/-- A token with one letter. -/
def letter (i : Nat) : Str := [Fin.ofNat _ (0x41 + i)]

/-- `A` is rotated to `B`, that to `C`, and so on. -/
def line (n : Nat) : List Rotation :=
  (List.range n).map fun i : Nat => ⟨i, letter i, letter (i + 1), 1000⟩

theorem current_token_two_rotations :
    ((Store.empty.rotateAll sampleSettings (line 2)).currentToken sampleSettings 10 (letter 0)).2 =
      letter 2 :=
  ((current_token_iff (by decide +kernel) (by decide +kernel)
    (by decide +kernel)).2 2 (letter 2) (by decide +kernel)).mpr (by decide)

/-- The token that was rotated seventeen times is taken for the last but one. -/
theorem seventeen_rotations : ¬ ∀ (cfg : Settings) (calls : List Rotation) (now : ℚ)
    (token last : Str) (n : Nat), Below cfg .empty calls →
      (∀ c ∈ calls, c.now ≤ now ∧ now < c.expiresAt) →
      (∀ t ∈ tokensOf calls token, ∀ u ∈ tokensOf calls token,
        tokenKey cfg t = tokenKey cfg u → t = u) →
      Chain (successorOf calls) n token last →
        ((Store.empty.rotateAll cfg calls).currentToken cfg now token).2 = last := by
  intro h
  have heq := h sampleSettings (line 17) 20 (letter 0) (letter 17) 17 (by decide +kernel)
    (by decide +kernel) (by decide +kernel) (by decide +kernel)
  exact absurd heq (by decide +kernel)

end Scap.Browser
