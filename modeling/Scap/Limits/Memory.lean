import Mathlib.Data.String.Basic
import Mathlib.Algebra.Order.Group.MinMax
import Scap.Lib.SlidingWindow
import Scap.Py.Dict
import Scap.Py.Float

/-!
# The rate limiter of one process

`SlidingWindowRateLimiter`: for every key a deque of accepted times and the moment its last attempt
leaves the window, a lower bound for the next such moment, and the moment of the next periodic
cleanup. A full store refuses new keys.

Clock readings are floats. The arithmetic on them is a parameter `fl`, the rounding of the exact
result: `allow roundDouble` is the method of the source, `allow id` is what it would be if nothing
was rounded, and `offer_of_lossless` says when the two are the same. A method runs under the lock of
the limiter, so a call is one step.
-/

namespace Scap.Limits

open Scap.Py Scap.Lib SlidingWindow

/-- The exceptions of the limiters. -/
inductive LimiterError where
  | valueError
  | overflowError
  deriving DecidableEq, Repr

/-- What `allow` returns: the decision and the seconds to wait, or an exception. -/
abbrev Answer := Except LimiterError (Bool × Int)

/-- The two arguments of `allow` that belong to a key. -/
structure Budget where
  maxAttempts : Int
  windowSeconds : Int
  deriving DecidableEq, Repr

/-- What `allow` checks first. -/
def Budget.Valid (b : Budget) : Prop := 0 < b.maxAttempts ∧ 0 < b.windowSeconds

instance (b : Budget) : Decidable b.Valid := inferInstanceAs (Decidable (_ ∧ _))

/-- The window as a time, before it is made a float. -/
def Budget.window (b : Budget) : ℚ := b.windowSeconds

theorem Budget.Valid.window_pos {b : Budget} (h : b.Valid) : 0 < b.window :=
  Int.cast_pos.mpr h.2

structure SlidingWindowRateLimiter where
  maxKeys : Nat
  cleanupIntervalSeconds : ℚ
  events : Dict String (List ℚ)
  expiresAt : Dict String ℚ
  nextCleanup : ℚ
  /-- `math.inf` is `⊤`. -/
  nextExpiry : WithTop ℚ
  maxKeys_pos : 0 < maxKeys
  cleanupIntervalSeconds_pos : 0 < cleanupIntervalSeconds

namespace SlidingWindowRateLimiter

/-- `__init__`. -/
def new (maxKeys : Int) (cleanupIntervalSeconds : ℚ) :
    Except LimiterError SlidingWindowRateLimiter :=
  if h : 0 < maxKeys ∧ 0 < cleanupIntervalSeconds then
    .ok ⟨maxKeys.toNat, cleanupIntervalSeconds, .empty, .empty, 0, ⊤, by omega, h.2⟩
  else .error .valueError

variable (l : SlidingWindowRateLimiter) (now : ℚ)

/-- `min(values, default=math.inf)`. -/
def minimum (values : List ℚ) : WithTop ℚ := values.foldr (fun e m => min (e : WithTop ℚ) m) ⊤

/-- Whether `_cleanup` finds the key among the expired ones. -/
def expired (key : String) : Bool := (l.expiresAt.get key).any fun expiry => expiry ≤ now

/-- `_cleanup`. -/
def cleanup : SlidingWindowRateLimiter :=
  let expiresAt : Dict String ℚ := l.expiresAt.filter fun r => !l.expired now r.1
  { l with
    events := l.events.filter fun r => !l.expired now r.1
    expiresAt := expiresAt
    nextExpiry := minimum expiresAt.values
    nextCleanup := roundDouble (now + l.cleanupIntervalSeconds) }

/-- The cleanup that is due by time. -/
def periodicCleanup : SlidingWindowRateLimiter :=
  if l.nextCleanup ≤ now then l.cleanup now else l

/-- The cleanup that a new key asks for. -/
def makeRoom : SlidingWindowRateLimiter :=
  if l.maxKeys ≤ l.events.len ∧ l.nextExpiry ≤ now then l.cleanup now else l

/-- `allow` from the bucket on. -/
def offer (fl : ℚ → ℚ) (key : String) (b : Budget) (bucket : List ℚ) :
    SlidingWindowRateLimiter × Bool × Int :=
  let window := fl b.window
  let bucket := bucket.dropWhile fun t => t ≤ fl (now - window)
  let expiry := max ((l.expiresAt.get key).getD 0) (fl (bucket.getLastD now + window))
  let nextExpiry := min l.nextExpiry expiry
  if b.maxAttempts ≤ bucket.length then
    -- a full bucket has a first time, the budget is positive
    ({ l with
      events := l.events.set key bucket
      expiresAt := l.expiresAt.set key expiry
      nextExpiry := nextExpiry },
      false, max 1 ⌈fl (window - fl (now - bucket.headD now))⌉)
  else
    ({ l with
      events := l.events.set key (bucket ++ [now])
      expiresAt := l.expiresAt.set key (max expiry (fl (now + window)))
      nextExpiry := nextExpiry },
      true, 0)

/-- `allow` for a key that is not in the store: the store makes room or is full. -/
def offerNew (fl : ℚ → ℚ) (key : String) (b : Budget) : SlidingWindowRateLimiter × Answer :=
  let l := l.makeRoom now
  if l.maxKeys ≤ l.events.len then
    match l.nextExpiry with
    | ⊤ => (l, .error .overflowError)
    | (expiry : ℚ) => (l, .ok (false, max 1 ⌈roundDouble (expiry - now)⌉))
  else (l.offer now fl key b []).map id .ok

/-- `allow`. The window is an integer that is made a float, which a huge one is too large for. -/
def allow (fl : ℚ → ℚ) (key : String) (b : Budget) : SlidingWindowRateLimiter × Answer :=
  if b.Valid then
    if floatLimit ≤ b.windowSeconds then (l, .error .overflowError)
    else
      let l := l.periodicCleanup now
      match l.events.get key with
      | some bucket => (l.offer now fl key b bucket).map id .ok
      | none => l.offerNew now fl key b
  else (l, .error .valueError)

/-- `refund`. -/
def refund (key : String) : SlidingWindowRateLimiter :=
  match l.events.get key with
  | none | some [] => l
  | some bucket =>
    let bucket := bucket.dropLast
    if bucket.isEmpty then
      { l with events := l.events.pop key, expiresAt := l.expiresAt.pop key }
    else { l with events := l.events.set key bucket }

/-- `reset`. -/
def reset (key : String) : SlidingWindowRateLimiter :=
  { l with events := l.events.pop key, expiresAt := l.expiresAt.pop key }

/-- The deque of a key, empty where it has none. -/
def attempts (key : String) : List ℚ := (l.events.get key).getD []

/-! ### Rounding -/

/-- A call whose sums and differences are doubles, so that nothing of it is rounded. The window has
at most 53 bits, and so have the differences of the clock, the window and the stored times. -/
def Lossless (key : String) (b : Budget) : Prop :=
  b.windowSeconds < 2 ^ 53 ∧ Exact b.window ∧ Exact (now - b.window) ∧
    ∀ t ∈ now :: l.attempts key,
      Exact (t + b.window) ∧ Exact (now - t) ∧ Exact (b.window - (now - t))

instance (key : String) (b : Budget) : Decidable (l.Lossless now key b) :=
  inferInstanceAs (Decidable (_ ∧ _))

variable {l now} {key : String} {b : Budget} {bucket : List ℚ}

/-- A window of 53 bits is not too large for a float. -/
theorem Lossless.lt_floatLimit (h : l.Lossless now key b) : ¬ floatLimit ≤ b.windowSeconds := by
  have hlimit : (2 : Int) ^ 53 < floatLimit := by decide +kernel
  have hwindow := h.1
  omega

/-- Readings of one grid round nothing until the clock and the window outgrow its 53 bits. The doubles
from `2 ^ n` to `2 ^ (n + 1)` lie on such a grid, so while the clock is between them and the window
does not reach beyond, no call rounds. -/
theorem lossless_of_onGrid {e : Int} (hfine : -1074 ≤ e) (he : e ≤ 0) (hvalid : b.Valid)
    (hwindow : b.windowSeconds < 2 ^ 53) (hnow : OnGrid e now)
    (hsmall : now + b.window < 2 ^ (53 + e))
    (hattempts : ∀ t ∈ l.attempts key, OnGrid e t ∧ 0 ≤ t ∧ t ≤ now) (hpos : 0 ≤ now) :
    l.Lossless now key b := by
  have hw := hvalid.window_pos
  have hgrid : OnGrid e b.window := onGrid_intCast he _
  have hexact (x : ℚ) (hx : OnGrid e x) (hlt : x < 2 ^ (53 + e)) (hgt : -2 ^ (53 + e) < x) :
      Exact x := hx.exact (abs_lt.mpr ⟨hgt, hlt⟩) hfine
  refine ⟨hwindow, hexact _ hgrid (by linarith) (by linarith),
    hexact _ (hnow.sub hgrid) (by linarith) (by linarith), ?_⟩
  intro t ht
  obtain ⟨htime, h0, hle⟩ : OnGrid e t ∧ 0 ≤ t ∧ t ≤ now := by
    rcases List.mem_cons.mp ht with rfl | ht
    · exact ⟨hnow, hpos, le_rfl⟩
    · exact hattempts t ht
  exact ⟨hexact _ (htime.add hgrid) (by linarith) (by linarith),
    hexact _ (hnow.sub htime) (by linarith) (by linarith),
    hexact _ (hgrid.sub (hnow.sub htime)) (by linarith) (by linarith)⟩

/-- **Where nothing is rounded the method computes what it would without rounding.** What is left of
a bucket of the key after its front has been popped are stored times. -/
theorem offer_of_lossless (h : l.Lossless now key b) (m : SlidingWindowRateLimiter)
    (hbucket : ∀ t ∈ bucket, t ∈ l.attempts key) :
    m.offer now roundDouble key b bucket = m.offer now id key b bucket := by
  obtain ⟨-, hwindow, hcutoff, htimes⟩ := h
  have hnow := htimes now List.mem_cons_self
  unfold offer
  dsimp only [id]
  rw [show roundDouble b.window = b.window from hwindow,
    show roundDouble (now - b.window) = now - b.window from hcutoff,
    show roundDouble (now + b.window) = now + b.window from hnow.1]
  have hkept : ∀ t ∈ bucket.dropWhile (fun t => t ≤ now - b.window), t ∈ now :: l.attempts key :=
    fun t ht => List.mem_cons_of_mem _ (hbucket t ((List.dropWhile_sublist _).subset ht))
  generalize bucket.dropWhile (fun t => t ≤ now - b.window) = kept at hkept
  have hlast : kept.getLastD now ∈ now :: l.attempts key := by
    cases hget : kept.getLast? with
    | none => simp [List.getLastD_eq_getLast?, hget]
    | some t =>
        rw [List.getLastD_eq_getLast?, hget, Option.getD_some]
        exact hkept t (List.mem_of_getLast? hget)
  have hhead : kept.headD now ∈ now :: l.attempts key := by
    cases kept with
    | nil => exact List.mem_cons_self
    | cons t _ => exact hkept t List.mem_cons_self
  rw [show roundDouble (kept.getLastD now + b.window) = _ from (htimes _ hlast).1,
    show roundDouble (now - kept.headD now) = _ from (htimes _ hhead).2.1,
    show roundDouble (b.window - (now - kept.headD now)) = _ from (htimes _ hhead).2.2]

end SlidingWindowRateLimiter

end Scap.Limits
