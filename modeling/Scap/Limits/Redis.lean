import Mathlib.Data.Prod.Lex
import Scap.Limits.Refinement

/-!
# The shared rate limiter

`RedisSlidingWindowRateLimiter`: a sorted set of random member names for every key, scored with the
time of the attempt, and the script that prunes, counts and adds in one step. The numbers of the
script are doubles, with the parameter `fl` for its arithmetic that `SlidingWindowRateLimiter` has
too. The server forgets a key when its time to live has run out.

A command is described by what it leaves for lookups (`lookup_put`, `lookup_expire`) and by the
scores of the sorted set (`scores_removeUpTo`, `scores_add`, `scores_popMax`).
-/

namespace Scap.Limits

open Scap.Py Scap.Lib SlidingWindow

/-! ## Sorted sets -/

/-- A sorted set: members with scores, in the order of the scores and of the members. -/
abbrev SortedSet := KeyedTable fun m : String × ℚ => toLex (m.2, m.1)

namespace SortedSet

variable {z : SortedSet} {member : String} {score cutoff : ℚ}

def scores (z : SortedSet) : List ℚ := z.rows.map Prod.snd

/-- `ZREMRANGEBYSCORE key -inf cutoff`. -/
def removeUpTo (z : SortedSet) (cutoff : ℚ) : SortedSet := z.filter fun m => cutoff < m.2

/-- `ZADD key score member`. -/
def add (z : SortedSet) (score : ℚ) (member : String) : SortedSet :=
  KeyedTable.insertNew (z.filter fun m => m.1 ≠ member) (member, score)

/-- `ZPOPMAX key`. -/
def popMax (z : SortedSet) : SortedSet := ⟨z.rows.dropLast, z.sorted.sublist (List.dropLast_sublist _)⟩

theorem ordered (z : SortedSet) : z.scores.Pairwise (· ≤ ·) := by
  apply List.pairwise_map.mpr
  apply z.sorted.imp
  intro a b hlt
  rcases Prod.Lex.toLex_lt_toLex.mp hlt with h | ⟨h, -⟩
  · exact h.le
  · exact h.le

theorem scores_removeUpTo {w now : ℚ} :
    (z.removeUpTo (now - w)).scores = live w now z.scores := by
  unfold scores live removeUpTo KeyedTable.filter
  rw [List.filter_map]
  rfl

theorem scores_popMax : z.popMax.scores = z.scores.dropLast := List.map_dropLast ..

/-- A new member with the highest score comes last. -/
theorem scores_add (hfresh : ∀ m ∈ z.rows, m.1 ≠ member) (hlast : ∀ t ∈ z.scores, t ≤ score) :
    (z.add score member).scores = z.scores ++ [score] := by
  have hsame : z.filter (fun m => m.1 ≠ member) = z := by
    apply KeyedTable.ext
    apply List.filter_eq_self.mpr
    intro m hm
    simpa using hfresh m hm
  have hkey : ∀ m ∈ z.rows, toLex (m.2, m.1) ≠ toLex (score, member) := by
    intro m hm heq
    exact hfresh m hm (Prod.ext_iff.mp (toLex_inj.mp heq)).2
  obtain ⟨u, hu⟩ : ∃ u : SortedSet, z.insert? (member, score) = some u :=
    KeyedTable.exists_insert? hkey
  have hadd : z.add score member = u := by
    rw [add, hsame, KeyedTable.insertNew, hu, Option.getD_some]
  -- both lists are ordered and have the same elements
  have hperm : (scores u).Perm (z.scores ++ [score]) := by
    unfold scores
    rw [(KeyedTable.insert?_eq_some hu).2]
    have hcons := (List.perm_orderedInsert (fun a b : String × ℚ =>
      toLex (a.2, a.1) ≤ toLex (b.2, b.1)) (member, score) z.rows).map Prod.snd
    exact hcons.trans (List.perm_append_singleton _ _).symm
  rw [hadd]
  apply hperm.eq_of_pairwise' (ordered u)
  apply List.pairwise_append.mpr
  refine ⟨z.ordered, List.pairwise_singleton _ _, fun t ht v hv => ?_⟩
  rw [List.mem_singleton.mp hv]
  exact hlast t ht

end SortedSet

/-! ## The server -/

/-- A key of the server: its sorted set, and when it expires if it does. -/
structure RedisKey where
  members : SortedSet
  expireAt : Option ℚ

/-- The keys of the server. -/
abbrev RedisStore := Dict String RedisKey

namespace RedisStore

variable (db : RedisStore) (now : ℚ) (key : String)

/-- A key whose time to live has run out is not there. -/
def lookup : Option RedisKey :=
  (Dict.get db key).filter fun k => !k.expireAt.any fun at_ => at_ < now

/-- The sorted set of a key, empty where the server has none. -/
def members : SortedSet := ((lookup db now key).map RedisKey.members).getD .empty

/-- The sorted set of a key after a command; an empty one goes. -/
def put (z : SortedSet) : RedisStore :=
  if z.rows.isEmpty then Dict.pop db key
  else Dict.set db key ⟨z, (lookup db now key).bind RedisKey.expireAt⟩

/-- `EXPIRE key seconds`. -/
def expire (seconds : Int) : RedisStore :=
  match lookup db now key with
  | none => db
  | some k =>
    if seconds ≤ 0 then Dict.pop db key
    else Dict.set db key { k with expireAt := some (now + seconds) }

end RedisStore

/-! ## The limiter -/

structure RedisSlidingWindowRateLimiter where
  keyPrefix : String
  db : RedisStore

namespace RedisSlidingWindowRateLimiter

variable (r : RedisSlidingWindowRateLimiter) (now : ℚ) (key : String)

/-- The name of a key on the server. -/
def name : String := r.keyPrefix ++ key

/-- `allow`: the script, with the member name that is drawn for the attempt. -/
def allow (fl : ℚ → ℚ) (b : Budget) (member : String) : RedisSlidingWindowRateLimiter × Bool × Int :=
  let members := (r.db.members now (r.name key)).removeUpTo (fl (now - fl b.window))
  let db := r.db.put now (r.name key) members
  if b.maxAttempts ≤ members.rows.length then
    let retryAfter := match members.scores with
      | [] => 1
      | oldest :: _ => max 1 ⌈fl (fl b.window - fl (now - oldest))⌉
    ({ r with db := db }, false, retryAfter)
  else
    let db := db.put now (r.name key) (members.add now member)
    ({ r with db := db.expire now (r.name key) (b.windowSeconds + 1) }, true, 0)

/-- `refund`. -/
def refund : RedisSlidingWindowRateLimiter :=
  { r with db := r.db.put now (r.name key) (r.db.members now (r.name key)).popMax }

/-- `reset`. -/
def reset : RedisSlidingWindowRateLimiter := { r with db := Dict.pop r.db (r.name key) }

end RedisSlidingWindowRateLimiter

/-! ## What the commands leave -/

namespace RedisStore

variable {db : RedisStore} {now later : ℚ} {key other : String} {z : SortedSet} {k : RedisKey}

theorem lookup_eq_some : lookup db now key = some k ↔
    Dict.get db key = some k ∧ ∀ at_, k.expireAt = some at_ → now ≤ at_ := by
  unfold lookup
  rw [Option.filter_eq_some_iff]
  cases k.expireAt <;> simp

/-- What is there later was there before. -/
theorem lookup_anti (hle : now ≤ later) (h : lookup db later key = some k) :
    lookup db now key = some k := by
  obtain ⟨hget, hexpire⟩ := lookup_eq_some.mp h
  exact lookup_eq_some.mpr ⟨hget, fun at_ hat => hle.trans (hexpire at_ hat)⟩

theorem lookup_congr {db' : RedisStore} (h : Dict.get db' key = Dict.get db key) :
    lookup db' now key = lookup db now key := by
  unfold lookup
  rw [h]

theorem get_put_of_ne (h : other ≠ key) : Dict.get (put db now key z) other = Dict.get db other := by
  unfold put
  split
  · exact Dict.get_pop_of_ne h
  · exact Dict.get_set_of_ne h

theorem lookup_put : lookup (put db now key z) now key =
    if z.rows.isEmpty then none else some ⟨z, (lookup db now key).bind RedisKey.expireAt⟩ := by
  unfold put
  split
  · unfold lookup
    rw [Dict.get_pop_self]
    rfl
  · apply lookup_eq_some.mpr
    refine ⟨Dict.get_set_self, fun at_ hat => ?_⟩
    obtain ⟨k, hk, hat⟩ := Option.bind_eq_some_iff.mp hat
    exact (lookup_eq_some.mp hk).2 at_ hat

theorem members_put : members (put db now key z) now key = z := by
  unfold members
  rw [lookup_put]
  split
  · next hempty => exact KeyedTable.ext (List.isEmpty_iff.mp hempty).symm
  · rfl

theorem get_expire_of_ne {seconds : Int} (h : other ≠ key) :
    Dict.get (expire db now key seconds) other = Dict.get db other := by
  unfold expire
  split
  · rfl
  · split
    · exact Dict.get_pop_of_ne h
    · exact Dict.get_set_of_ne h

theorem lookup_expire {seconds : Int} (hpos : 0 < seconds) : lookup (expire db now key seconds) now key =
    (lookup db now key).map fun k => { k with expireAt := some (now + seconds) } := by
  unfold expire
  split
  · next hnone => rw [hnone, Option.map_none]
  · next k hsome =>
    rw [if_neg (not_le.mpr hpos), hsome, Option.map_some]
    apply lookup_eq_some.mpr
    refine ⟨Dict.get_set_self, fun at_ hat => ?_⟩
    obtain rfl := Option.some.inj hat
    have : (0 : ℚ) < seconds := Int.cast_pos.mpr hpos
    linarith

/-- The member names on the server. -/
def Named (db : RedisStore) (drawn : List String) : Prop :=
  ∀ n k, Dict.get db n = some k → ∀ m ∈ k.members.rows, m.1 ∈ drawn

variable {drawn : List String}

theorem Named.pop (h : Named db drawn) : Named (Dict.pop db key) drawn := by
  intro n k hget
  by_cases hn : n = key
  · subst hn
    simp at hget
  · rw [Dict.get_pop_of_ne hn] at hget
    exact h n k hget

theorem Named.set (h : Named db drawn) (hk : ∀ m ∈ k.members.rows, m.1 ∈ drawn) :
    Named (Dict.set db key k) drawn := by
  intro n k' hget
  by_cases hn : n = key
  · subst hn
    obtain rfl : k = k' := by simpa using hget
    exact hk
  · rw [Dict.get_set_of_ne hn] at hget
    exact h n k' hget

theorem Named.put (h : Named db drawn) (hz : ∀ m ∈ z.rows, m.1 ∈ drawn) :
    Named (put db now key z) drawn := by
  unfold RedisStore.put
  split
  · exact h.pop
  · exact h.set hz

theorem Named.expire {seconds : Int} (h : Named db drawn) :
    Named (expire db now key seconds) drawn := by
  unfold RedisStore.expire
  split
  · exact h
  · next k hk =>
    split
    · exact h.pop
    · exact h.set (h key k (lookup_eq_some.mp hk).1)

theorem Named.members (h : Named db drawn) : ∀ m ∈ (members db now key).rows, m.1 ∈ drawn := by
  unfold RedisStore.members
  cases hk : lookup db now key with
  | none => intro m hm; cases hm
  | some k => exact h key k (lookup_eq_some.mp hk).1

end RedisStore

end Scap.Limits
