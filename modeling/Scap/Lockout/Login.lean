import Scap.Lib.Run
import Scap.Limits.Memory

/-!
# The lock against guessed passwords

`POST /api/auth/login` on the row of one account. As many wrong passwords as the settings allow lock
the account, and the lock holds for sources from which the account was not used before: whether the
source of an attempt is familiar is decided before the row is locked, and is given here. From the
lock of the row to the commit an attempt is one step.

Whether the commit comes through is given too; a request that fails before it leaves the row as it
was. The audit entry that follows the count of a failure, and the new hash of a password that needs
one, are left out.

`smart_lockout` is about every sequence of attempts, between which the password may be reset and
the account deactivated, and the limiter may move as it likes.
-/

namespace Scap.Lockout

open Scap.Lib Scap.Limits

/-! ## Data -/

/-- What the route reads and writes of a row of `users`; times are in microseconds. -/
structure UserRow where
  failedLoginAttempts : Nat
  lockedUntil : Option Int
  isActive : Bool
  mfaEnabled : Bool
  deriving DecidableEq, Repr

/-- The settings, which `create_app` wants to be positive. -/
structure LoginSettings where
  loginWindowSeconds : Nat
  loginMaxAttempts : Nat
  loginLockoutSeconds : Nat
  positive : 0 < loginWindowSeconds ∧ 0 < loginMaxAttempts ∧ 0 < loginLockoutSeconds

/-- A rate limiter, in memory or in Redis. -/
structure Limiter (ℓ : Type) where
  allow : ℓ → ℚ → String → Budget → ℓ × Answer
  refund : ℓ → String → ℓ
  reset : ℓ → String → ℓ

/-- The limiter of one process. -/
def memoryLimiter : Limiter SlidingWindowRateLimiter where
  allow l now key b := l.allow now Py.roundDouble key b
  refund := SlidingWindowRateLimiter.refund
  reset := SlidingWindowRateLimiter.reset

/-- A request, with what the environment decides. -/
structure LoginAttempt where
  normalizedUsername : String
  ip : String
  /-- `sign_in_source(…).familiar`. -/
  familiar : Bool
  /-- The monotonic clock, for the key of the account and the key of the address. -/
  clock : ℚ × ℚ
  now : Int
  /-- `password_service.verify`, or `none` when it is at capacity. -/
  passwordMatches : Option Bool
  commits : Bool

inductive LoginReply where
  | token
  | mfaChallenge
  | rateLimited (retryAfter : Int)
  | unauthorized (outcome reason : String)
  | failed
  deriving DecidableEq, Repr

/-- A session or an MFA challenge. -/
def LoginReply.signsIn : LoginReply → Bool
  | .token | .mfaChallenge => true
  | _ => false

/-- The attempt was decided on the row, and the decision committed. -/
def LoginReply.decided : LoginReply → Bool
  | .token | .mfaChallenge | .unauthorized _ _ => true
  | _ => false

/-! ## The route -/

variable {ℓ : Type} (cfg : LoginSettings) (L : Limiter ℓ)

def LoginAttempt.accountKey (r : LoginAttempt) : String :=
  if r.familiar then "login:account-familiar:" ++ r.normalizedUsername ++ ":" ++ r.ip
  else "login:account:" ++ r.normalizedUsername

def LoginAttempt.ipKey (r : LoginAttempt) : String := "login:ip:" ++ r.ip

def LoginAttempt.accountWindow (r : LoginAttempt) : Int :=
  if r.familiar then max cfg.loginWindowSeconds cfg.loginLockoutSeconds
  else cfg.loginWindowSeconds

/-- The lock is in the future. -/
def UserRow.lockActive (u : UserRow) (now : Int) : Bool := u.lockedUntil.any (now < ·)

/-- The lock is in the past. -/
def UserRow.lockRanOut (u : UserRow) (now : Int) : Bool := u.lockedUntil.any (· ≤ now)

def UserRow.clear (u : UserRow) : UserRow := { u with failedLoginAttempts := 0, lockedUntil := none }

/-- A failure is counted, and locks the account when it is one too many. -/
def UserRow.countFailure (u : UserRow) (now : Int) : UserRow × LoginReply :=
  let u := { u with failedLoginAttempts := u.failedLoginAttempts + 1 }
  if cfg.loginMaxAttempts ≤ u.failedLoginAttempts then
    ({ u with lockedUntil := some (now + cfg.loginLockoutSeconds * 1000000) },
      .unauthorized "blocked" "account_locked")
  else (u, .unauthorized "failure" "invalid_credentials")

/-- The route from the lock of the row on, for a user that exists. -/
def settle (l : ℓ) (u : UserRow) (r : LoginAttempt) (passwordMatches : Bool) :
    ℓ × UserRow × LoginReply :=
  let lockActive := u.lockActive r.now
  let locked := lockActive && !r.familiar
  let v := if u.lockRanOut r.now then u.clear else u
  let valid := u.isActive && !locked && passwordMatches
  if !valid then
    if u.isActive && !locked then
      let (v, reply) := v.countFailure cfg r.now
      if r.commits then (l, v, reply) else (l, u, .failed)
    else if r.commits then
      (l, v, if locked then .unauthorized "blocked" "account_locked"
        else .unauthorized "failure" "invalid_credentials")
    else (l, u, .failed)
  else
    let l := L.refund (L.reset l r.accountKey) r.ipKey
    let v := if lockActive then v else v.clear
    if r.commits then (l, v, if v.mfaEnabled then .mfaChallenge else .token)
    else (l, u, .failed)

/-- Both budgets are charged; a refusal or an exception is the answer. -/
def throttleLogin (l : ℓ) (r : LoginAttempt) : ℓ × Option LoginReply :=
  match L.allow l r.clock.1 r.accountKey ⟨cfg.loginMaxAttempts, r.accountWindow cfg⟩ with
  | (l, .error _) => (l, some .failed)
  | (l, .ok account) =>
    match L.allow l r.clock.2 r.ipKey ⟨cfg.loginMaxAttempts, cfg.loginWindowSeconds⟩ with
    | (l, .error _) => (l, some .failed)
    | (l, .ok ip) =>
      let refused := [account, ip].filter fun answer => !answer.1
      if refused = [] then (l, none)
      else (l, some (.rateLimited ((refused.map Prod.snd).foldl max 0)))

/-- `login`, for the row of the user if there is one. -/
def login (l : ℓ) (user : Option UserRow) (r : LoginAttempt) : ℓ × Option UserRow × LoginReply :=
  match throttleLogin cfg L l r with
  | (l, some reply) => (l, user, reply)
  | (l, none) =>
    match user, r.passwordMatches with
    | _, none => (l, user, .failed)
    | none, some _ => (l, none, .unauthorized "failure" "invalid_credentials")
    | some u, some passwordMatches =>
      let (l, u, reply) := settle cfg L l u r passwordMatches
      (l, some u, reply)

/-! ## Sequences of attempts -/

/-- The limiter, the row, and how many wrong passwords from unfamiliar sources were verified since
the counter was last set to zero. -/
structure Account (ℓ : Type) where
  limiter : ℓ
  user : UserRow
  guesses : Nat

/-- An attempt to sign in, or what happens between two. -/
inductive LoginOp (ℓ : Type) where
  | attempt (r : LoginAttempt)
  | passwordReset
  | setActive (active : Bool)
  | setMfa (enabled : Bool)
  | others (limiter : ℓ)

def Account.login (s : Account ℓ) (r : LoginAttempt) : ℓ × Option UserRow × LoginReply :=
  Lockout.login cfg L s.limiter (some s.user) r

/-- A wrong password from an unfamiliar source is verified: the right one would be let in. -/
def Account.guess (s : Account ℓ) (r : LoginAttempt) : Bool :=
  !r.familiar && r.passwordMatches == some false &&
    (s.login cfg L { r with passwordMatches := some true }).2.2.signsIn

/-- The attempt sets the counter to zero: it finds that the lock has run out, or it signs in while
no lock is active. -/
def Account.resets (s : Account ℓ) (r : LoginAttempt) : Bool :=
  let reply := (s.login cfg L r).2.2
  reply.decided &&
    (s.user.lockRanOut r.now || (reply.signsIn && !s.user.lockActive r.now))

def Account.attempt (s : Account ℓ) (r : LoginAttempt) : Account ℓ where
  limiter := (s.login cfg L r).1
  user := (s.login cfg L r).2.1.getD s.user
  guesses := (if s.resets cfg L r then 0 else s.guesses) + if s.guess cfg L r then 1 else 0

def stepAccount (s : Account ℓ) : LoginOp ℓ → Option (Account ℓ)
  | .attempt r => some (s.attempt cfg L r)
  | .passwordReset => some { s with user := s.user.clear, guesses := 0 }
  | .setActive active => some { s with user := { s.user with isActive := active } }
  | .setMfa enabled => some { s with user := { s.user with mfaEnabled := enabled } }
  | .others limiter => some { s with limiter := limiter }

/-- A new account. -/
def Account.Initial (s : Account ℓ) : Prop :=
  s.user.failedLoginAttempts = 0 ∧ s.user.lockedUntil = none ∧ s.guesses = 0

def loginSystem : System (Account ℓ) (LoginOp ℓ) := System.ofFun Account.Initial (stepAccount cfg L)

/-! ## One attempt -/

variable {cfg L} {s t : Account ℓ} {r : LoginAttempt} {u v : UserRow} {now : Int} {l : ℓ}

theorem UserRow.lockRanOut_iff : u.lockRanOut now = true ↔
    u.lockedUntil ≠ none ∧ u.lockActive now = false := by
  unfold lockRanOut lockActive
  cases u.lockedUntil <;> simp

theorem UserRow.lockedUntil_of_not (hactive : u.lockActive now = false)
    (hran : u.lockRanOut now = false) : u.lockedUntil = none := by
  by_contra h
  exact absurd (UserRow.lockRanOut_iff.mpr ⟨h, hactive⟩) (by simp [hran])

/-- A lock that has run out is cleared before anything else. -/
def UserRow.expired (u : UserRow) (now : Int) : UserRow := if u.lockRanOut now then u.clear else u

/-- What an attempt can make of the row once the limiter has let it through. -/
inductive Outcome (cfg : LoginSettings) (u : UserRow) (r : LoginAttempt) (passwordMatches : Bool) :
    UserRow → LoginReply → Prop
  | failed (hcommit : r.commits = false) : Outcome cfg u r passwordMatches u .failed
  | blocked (hlock : u.lockActive r.now = true) (hsource : r.familiar = false) :
      Outcome cfg u r passwordMatches u (.unauthorized "blocked" "account_locked")
  | inactive (hactive : u.isActive = false) (hopen : u.lockActive r.now = true → r.familiar = true) :
      Outcome cfg u r passwordMatches (u.expired r.now)
        (.unauthorized "failure" "invalid_credentials")
  | counted (hactive : u.isActive = true) (hopen : u.lockActive r.now = true → r.familiar = true)
      (hwrong : passwordMatches = false) (hcommit : r.commits = true) :
      Outcome cfg u r passwordMatches ((u.expired r.now).countFailure cfg r.now).1
        ((u.expired r.now).countFailure cfg r.now).2
  | signedIn {reply : LoginReply} (hactive : u.isActive = true)
      (hopen : u.lockActive r.now = true → r.familiar = true) (hright : passwordMatches = true)
      (hcommit : r.commits = true) (hreply : reply.signsIn = true) :
      Outcome cfg u r passwordMatches (if u.lockActive r.now then u else u.clear) reply

theorem UserRow.expired_of_active (h : u.lockActive now = true) : u.expired now = u := by
  unfold expired
  rw [if_neg]
  intro hran
  simp [(UserRow.lockRanOut_iff.mp hran).2] at h

theorem UserRow.clear_expired : (u.expired now).clear = u.clear := by
  unfold expired
  split <;> rfl

variable (cfg L) in
theorem settle_outcome (l : ℓ) (u : UserRow) (r : LoginAttempt) (passwordMatches : Bool) :
    Outcome cfg u r passwordMatches (settle cfg L l u r passwordMatches).2.1
      (settle cfg L l u r passwordMatches).2.2 := by
  unfold settle
  rw [show (if u.lockRanOut r.now = true then u.clear else u) = u.expired r.now from rfl]
  cases hcommit : r.commits with
  | false =>
      have hunchanged : ∀ (c d : Prop) [Decidable c] [Decidable d] (l₁ l₂ l₃ : ℓ),
          (if c then if d then (l₁, u, LoginReply.failed) else (l₂, u, .failed)
            else (l₃, u, .failed)).2 = (u, .failed) := by
        intro c d _ _ l₁ l₂ l₃
        split
        · split <;> rfl
        · rfl
      simp only [Bool.false_eq_true, if_false]
      rw [hunchanged]
      exact .failed hcommit
  | true =>
      by_cases hlocked : (u.lockActive r.now && !r.familiar) = true
      · obtain ⟨hlock, hsource⟩ := Bool.and_eq_true_iff.mp hlocked
        rw [UserRow.expired_of_active hlock]
        simpa [hlocked] using Outcome.blocked hlock (by simpa using hsource)
      · have hopen : u.lockActive r.now = true → r.familiar = true := by simpa using hlocked
        replace hlocked : (u.lockActive r.now && !r.familiar) = false := by simpa using hlocked
        cases hactive : u.isActive with
        | false => simpa [hlocked, hactive] using Outcome.inactive hactive hopen
        | true =>
            cases passwordMatches with
            | false => simpa [hlocked, hactive] using Outcome.counted hactive hopen rfl hcommit
            | true =>
                simp only [hlocked, Bool.not_false, Bool.and_self, Bool.not_true, Bool.false_eq_true,
                  if_false, if_true]
                have hreply : ∀ b : Bool,
                    (if b then LoginReply.mfaChallenge else .token).signsIn = true := by decide
                cases hlock : u.lockActive r.now with
                | true =>
                    have hout : Outcome cfg u r true _ _ :=
                      .signedIn hactive hopen rfl hcommit (hreply u.mfaEnabled)
                    simpa [hlock, UserRow.expired_of_active hlock] using hout
                | false =>
                    have hout : Outcome cfg u r true _ _ :=
                      .signedIn hactive hopen rfl hcommit (hreply u.clear.mfaEnabled)
                    simpa [hlock, UserRow.clear_expired] using hout

theorem throttleLogin_undecided {l' : ℓ} {reply : LoginReply}
    (h : throttleLogin cfg L l r = (l', some reply)) : reply.decided = false := by
  unfold throttleLogin at h
  split at h
  · cases h
    rfl
  · split at h
    · cases h
      rfl
    · dsimp only at h
      split at h
      · cases h
      · cases h
        rfl

variable (cfg L) in
/-- The limiter turns an attempt away or the row decides it, whatever the password. -/
theorem login_cases (s : Account ℓ) (r : LoginAttempt) :
    (∀ m, ∃ l reply, s.login cfg L { r with passwordMatches := m } = (l, some s.user, reply) ∧
      reply.decided = false) ∨
    ∃ l, s.login cfg L { r with passwordMatches := none } = (l, some s.user, .failed) ∧
      ∀ m, s.login cfg L { r with passwordMatches := some m } =
        ((settle cfg L l s.user r m).1, some (settle cfg L l s.user r m).2.1,
          (settle cfg L l s.user r m).2.2) := by
  have hthrottle : ∀ m, throttleLogin cfg L s.limiter { r with passwordMatches := m } =
      throttleLogin cfg L s.limiter r := fun _ => rfl
  unfold Account.login Lockout.login
  simp only [hthrottle]
  rcases hanswer : throttleLogin cfg L s.limiter r with ⟨l, _ | reply⟩
  · exact .inr ⟨l, rfl, fun m => rfl⟩
  · refine .inl fun m => ⟨l, reply, rfl, ?_⟩
    exact throttleLogin_undecided hanswer

theorem UserRow.countFailure_eq : u.countFailure cfg now =
    if cfg.loginMaxAttempts ≤ u.failedLoginAttempts + 1 then
      ({ u with
        failedLoginAttempts := u.failedLoginAttempts + 1
        lockedUntil := some (now + cfg.loginLockoutSeconds * 1000000) },
        .unauthorized "blocked" "account_locked")
    else ({ u with failedLoginAttempts := u.failedLoginAttempts + 1 },
      .unauthorized "failure" "invalid_credentials") := rfl

theorem UserRow.countFailure_signsIn : (u.countFailure cfg now).2.signsIn = false := by
  rw [countFailure_eq]
  split <;> rfl

theorem UserRow.countFailure_decided : (u.countFailure cfg now).2.decided = true := by
  rw [countFailure_eq]
  split <;> rfl

theorem UserRow.countFailure_failed :
    (u.countFailure cfg now).1.failedLoginAttempts = u.failedLoginAttempts + 1 := by
  rw [countFailure_eq]
  split <;> rfl

/-- A failure that does not lock leaves room. -/
theorem UserRow.countFailure_room (h : (u.countFailure cfg now).1.lockedUntil = none) :
    u.failedLoginAttempts + 1 < cfg.loginMaxAttempts := by
  rw [countFailure_eq] at h
  split at h
  · cases h
  · next hroom => exact not_le.mp hroom

theorem UserRow.expired_lockedUntil (h : u.lockActive now = false) :
    (u.expired now).lockedUntil = none := by
  unfold expired
  cases hran : u.lockRanOut now with
  | true => rfl
  | false => exact UserRow.lockedUntil_of_not h hran

/-- The right password is let in only where the account is active and open to the source. -/
theorem Outcome.of_signsIn {reply : LoginReply} {m : Bool} (h : Outcome cfg u r m v reply)
    (hreply : reply.signsIn = true) : u.isActive = true ∧
      (u.lockActive r.now = true → r.familiar = true) ∧ m = true ∧ r.commits = true ∧
        v = if u.lockActive r.now then u else u.clear := by
  cases h with
  | failed => cases hreply
  | blocked => cases hreply
  | inactive => cases hreply
  | counted => simp [UserRow.countFailure_signsIn] at hreply
  | signedIn hactive hopen hright hcommit => exact ⟨hactive, hopen, hright, hcommit, rfl⟩

theorem signsIn_decided {reply : LoginReply} (h : reply.signsIn = true) : reply.decided = true := by
  cases reply <;> first | rfl | cases h

/-- **What an attempt does.** It leaves the row and the count of guesses alone, or it is decided on
the row; a guess is a wrong password where the right one would be let in. -/
theorem attempt_cases (s : Account ℓ) (r : LoginAttempt) :
    ((s.attempt cfg L r).user = s.user ∧ (s.attempt cfg L r).guesses = s.guesses ∧
      (s.login cfg L r).2.2.decided = false) ∨
    ∃ m, r.passwordMatches = some m ∧
      Outcome cfg s.user r m (s.attempt cfg L r).user (s.login cfg L r).2.2 ∧
      (s.guess cfg L r = true → r.familiar = false ∧ m = false ∧ s.user.isActive = true ∧
        s.user.lockActive r.now = false ∧ r.commits = true) := by
  have hsame : ∀ {m}, r.passwordMatches = m → { r with passwordMatches := m } = r := by
    rintro m rfl
    rfl
  rcases login_cases cfg L s r with hturned | ⟨l, hfull, hsettled⟩
  · left
    obtain ⟨l, reply, hlogin, hreply⟩ := hturned r.passwordMatches
    obtain ⟨_, reply', hright, hreply'⟩ := hturned (some true)
    have hguess : s.guess cfg L r = false := by
      unfold Account.guess
      cases hsigns : reply'.signsIn with
      | false => simp [hright, hsigns]
      | true => simp [signsIn_decided hsigns] at hreply'
    rw [hsame rfl] at hlogin
    refine ⟨?_, ?_, ?_⟩
    · simp [Account.attempt, hlogin]
    · simp [Account.attempt, Account.resets, hlogin, hreply, hguess]
    · rw [hlogin]
      exact hreply
  · cases hm : r.passwordMatches with
    | none =>
        left
        rw [hsame hm] at hfull
        refine ⟨?_, ?_, ?_⟩
        · simp [Account.attempt, hfull]
        · simp [Account.attempt, Account.resets, Account.guess, hfull, hm, LoginReply.decided]
        · rw [hfull]
          rfl
    | some m =>
        right
        have hlogin := hsettled m
        rw [hsame hm] at hlogin
        refine ⟨m, rfl, ?_, ?_⟩
        · have hout := settle_outcome cfg L l s.user r m
          simpa [Account.attempt, hlogin] using hout
        · intro hguess
          unfold Account.guess at hguess
          rw [hsettled true] at hguess
          simp only [Bool.and_eq_true, Bool.not_eq_true', beq_iff_eq, hm, Option.some.injEq] at hguess
          obtain ⟨⟨hsource, hwrong⟩, hsigns⟩ := hguess
          obtain ⟨hactive, hopen, -, hcommit, -⟩ := (settle_outcome cfg L l s.user r true).of_signsIn hsigns
          refine ⟨hsource, hwrong, hactive, ?_, hcommit⟩
          cases hlock : s.user.lockActive r.now with
          | false => rfl
          | true => simp [hopen hlock] at hsource

/-! ## The invariant -/

/-- An account without a lock has room for another failure, and every guess was counted. -/
structure AccountInv (cfg : LoginSettings) (s : Account ℓ) : Prop where
  guesses_le : s.guesses ≤ cfg.loginMaxAttempts
  counted : s.guesses ≤ s.user.failedLoginAttempts
  room : s.user.lockedUntil = none → s.user.failedLoginAttempts < cfg.loginMaxAttempts

theorem accountInv_of_initial (h : s.Initial) : AccountInv cfg s := by
  obtain ⟨hfailed, -, hguesses⟩ := h
  refine ⟨?_, ?_, fun _ => ?_⟩
  · omega
  · omega
  · rw [hfailed]
    exact cfg.positive.2.1

/-- What is left of the guesses once a lock that has run out is cleared. -/
theorem AccountInv.expired (hs : AccountInv cfg s) {g : Nat}
    (hg : g = if s.user.lockRanOut now then 0 else s.guesses) :
    g ≤ cfg.loginMaxAttempts ∧ g ≤ (s.user.expired now).failedLoginAttempts ∧
      ((s.user.expired now).lockedUntil = none →
        (s.user.expired now).failedLoginAttempts < cfg.loginMaxAttempts) := by
  unfold UserRow.expired
  cases hran : s.user.lockRanOut now with
  | true =>
      replace hg : g = 0 := by simpa [hran] using hg
      subst hg
      exact ⟨Nat.zero_le _, Nat.zero_le _, fun _ => cfg.positive.2.1⟩
  | false =>
      replace hg : g = s.guesses := by simpa [hran] using hg
      subst hg
      exact ⟨hs.guesses_le, hs.counted, hs.room⟩

/-- One attempt. -/
theorem accountInv_attempt (hs : AccountInv cfg s) (r : LoginAttempt) :
    AccountInv cfg (s.attempt cfg L r) := by
  rcases attempt_cases s r with ⟨huser, hguesses, -⟩ | ⟨m, -, hout, hguess⟩
  · exact ⟨hguesses ▸ hs.guesses_le, hguesses ▸ huser ▸ hs.counted, huser ▸ hs.room⟩
  have hguesses : (s.attempt cfg L r).guesses =
      (if s.resets cfg L r then 0 else s.guesses) + if s.guess cfg L r then 1 else 0 := rfl
  have hresets : s.resets cfg L r = ((s.login cfg L r).2.2.decided &&
      (s.user.lockRanOut r.now ||
        ((s.login cfg L r).2.2.signsIn && !s.user.lockActive r.now))) := rfl
  suffices h : (s.attempt cfg L r).guesses ≤ cfg.loginMaxAttempts ∧
      (s.attempt cfg L r).guesses ≤ (s.attempt cfg L r).user.failedLoginAttempts ∧
        ((s.attempt cfg L r).user.lockedUntil = none →
          (s.attempt cfg L r).user.failedLoginAttempts < cfg.loginMaxAttempts) from
    ⟨h.1, h.2.1, h.2.2⟩
  rw [hguesses, hresets]
  generalize (s.login cfg L r).2.2 = reply at hout ⊢
  generalize (s.attempt cfg L r).user = v at hout ⊢
  cases hout with
  | failed hcommit =>
      have hnone : s.guess cfg L r = false := by
        by_contra h
        simp [(hguess (by simpa using h)).2.2.2.2] at hcommit
      simpa [hnone, LoginReply.decided] using ⟨hs.guesses_le, hs.counted, hs.room⟩
  | blocked hlock hsource =>
      have hnone : s.guess cfg L r = false := by
        by_contra h
        simp [(hguess (by simpa using h)).2.2.2.1] at hlock
      have hran : s.user.lockRanOut r.now = false := by
        by_contra h
        simp [(UserRow.lockRanOut_iff.mp (by simpa using h)).2] at hlock
      simpa [hnone, hran, LoginReply.signsIn] using ⟨hs.guesses_le, hs.counted, hs.room⟩
  | inactive hactive hopen =>
      have hnone : s.guess cfg L r = false := by
        by_contra h
        simp [(hguess (by simpa using h)).2.2.1] at hactive
      simp only [hnone, LoginReply.decided, LoginReply.signsIn, Bool.true_and, Bool.false_and,
        Bool.or_false, Bool.false_eq_true, if_false, Nat.add_zero]
      exact hs.expired rfl
  | counted hactive hopen hwrong hcommit =>
      obtain ⟨hle, hcounted, hroom⟩ :=
        hs.expired (g := if s.user.lockRanOut r.now then 0 else s.guesses) rfl
      simp only [UserRow.countFailure_decided, UserRow.countFailure_signsIn, Bool.true_and,
        Bool.false_and, Bool.or_false, UserRow.countFailure_failed]
      refine ⟨?_, ?_, UserRow.countFailure_room⟩
      · cases hg : s.guess cfg L r with
        | false => simpa using hle
        | true =>
            -- a guess comes where no lock is left, so the counter had room
            have hlock := (hguess hg).2.2.2.1
            have hless := hroom (UserRow.expired_lockedUntil hlock)
            simp only [if_true]
            omega
      · have hone : (if s.guess cfg L r then 1 else 0) ≤ 1 := by split <;> omega
        omega
  | signedIn hactive hopen hright hcommit hreply =>
      have hnone : s.guess cfg L r = false := by
        by_contra h
        simp [(hguess (by simpa using h)).2.1] at hright
      cases hlock : s.user.lockActive r.now with
      | true =>
          have hran : s.user.lockRanOut r.now = false := by
            by_contra h
            simp [(UserRow.lockRanOut_iff.mp (by simpa using h)).2] at hlock
          simpa [hnone, hran] using ⟨hs.guesses_le, hs.counted, hs.room⟩
      | false =>
          have hpos := cfg.positive.2.1
          simpa [hnone, hreply, signsIn_decided hreply, UserRow.clear] using hpos

theorem accountInv_step (hs : AccountInv cfg s) {op : LoginOp ℓ}
    (h : (loginSystem cfg L).step s op t) : AccountInv cfg t := by
  replace h : stepAccount cfg L s op = some t := h
  cases op with
  | attempt r =>
      obtain rfl := Option.some.inj h
      exact accountInv_attempt hs r
  | passwordReset =>
      obtain rfl := Option.some.inj h
      exact ⟨Nat.zero_le _, Nat.zero_le _, fun _ => cfg.positive.2.1⟩
  | setActive active =>
      obtain rfl := Option.some.inj h
      exact ⟨hs.guesses_le, hs.counted, hs.room⟩
  | setMfa enabled =>
      obtain rfl := Option.some.inj h
      exact ⟨hs.guesses_le, hs.counted, hs.room⟩
  | others limiter =>
      obtain rfl := Option.some.inj h
      exact ⟨hs.guesses_le, hs.counted, hs.room⟩

/-- While the lock is active, an unfamiliar attempt gets nothing and changes nothing. -/
theorem attempt_of_locked (hlock : s.user.lockActive r.now = true) (hsource : r.familiar = false) :
    (s.login cfg L r).2.2.signsIn = false ∧ (s.attempt cfg L r).user = s.user := by
  rcases attempt_cases s r with ⟨huser, -, hreply⟩ | ⟨m, -, hout, -⟩
  · refine ⟨?_, huser⟩
    by_contra h
    rw [signsIn_decided (by simpa using h)] at hreply
    cases hreply
  · generalize (s.login cfg L r).2.2 = reply at hout ⊢
    generalize (s.attempt cfg L r).user = v at hout ⊢
    -- the three cases that are open to the source contradict the lock
    cases hout with
    | failed => exact ⟨rfl, rfl⟩
    | blocked => exact ⟨rfl, rfl⟩
    | inactive _ hopen => simp [hopen hlock] at hsource
    | counted _ hopen => simp [hopen hlock] at hsource
    | signedIn _ hopen => simp [hopen hlock] at hsource

/-- **Smart lockout.** In every sequence of attempts the wrong passwords of unfamiliar sources that
were verified since the last reset are no more than the settings allow, and fewer while there is no lock.
While the lock is active, an attempt from an unfamiliar source gets neither a session nor a
challenge and leaves the counter and the lock as they are, and one from a familiar source that
succeeds leaves them too. -/
theorem smart_lockout (h : (loginSystem cfg L).Reachable s) :
    s.guesses ≤ cfg.loginMaxAttempts ∧
    (s.user.lockedUntil = none → s.guesses < cfg.loginMaxAttempts) ∧
    ∀ r, s.user.lockActive r.now = true →
      (r.familiar = false →
        (s.login cfg L r).2.2.signsIn = false ∧ (s.attempt cfg L r).user = s.user) ∧
      (r.familiar = true → (s.login cfg L r).2.2.signsIn = true →
        (s.attempt cfg L r).user = s.user) := by
  have hinv : AccountInv cfg s :=
    h.induct (fun _ => accountInv_of_initial) fun _ _ _ _ hs hstep => accountInv_step hs hstep
  refine ⟨hinv.guesses_le, fun hopen => hinv.counted.trans_lt (hinv.room hopen), fun r hlock =>
    ⟨attempt_of_locked hlock, fun _ hsigns => ?_⟩⟩
  rcases attempt_cases s r with ⟨huser, -, hreply⟩ | ⟨m, -, hout, -⟩
  · exact huser
  · obtain ⟨-, -, -, -, huser⟩ := hout.of_signsIn hsigns
    rw [huser, if_pos hlock]

/-! ## A stranger guesses -/

def sampleSettings : LoginSettings := ⟨300, 5, 900, by decide⟩

def sampleAccount : Account SlidingWindowRateLimiter :=
  ⟨⟨8, 60, .empty, .empty, 0, ⊤, Nat.succ_pos _, Nat.ofNat_pos⟩, ⟨0, none, true, false⟩, 0⟩

def strangerAt (second : Nat) (passwordMatches : Bool) : LoginAttempt where
  normalizedUsername := "alice"
  ip := "198.51.100.7"
  familiar := false
  clock := (second, second)
  now := second * 1000000
  passwordMatches := some passwordMatches
  commits := true

/-- Five wrong passwords lock the account; the right one, once the budgets allow it again, is
refused. -/
theorem smart_lockout_sample : ∃ s,
    (loginSystem sampleSettings memoryLimiter).Reachable s ∧ s.guesses = 5 ∧
      s.guesses ≤ sampleSettings.loginMaxAttempts ∧
      (s.login sampleSettings memoryLimiter (strangerAt 400 true)).2.2.signsIn = false := by
  have hexec : (System.exec (stepAccount sampleSettings memoryLimiter) sampleAccount
      [.attempt (strangerAt 1 false), .attempt (strangerAt 2 false), .attempt (strangerAt 3 false),
        .attempt (strangerAt 4 false), .attempt (strangerAt 5 false)]).map
      (fun s => (s.guesses, s.user.lockActive 400000000)) = some (5, true) := by decide +kernel
  obtain ⟨s, hs, hfacts⟩ := Option.map_eq_some_iff.mp hexec
  obtain ⟨hguesses, hlock⟩ := Prod.mk.inj hfacts
  have hreach : (loginSystem sampleSettings memoryLimiter).Reachable s :=
    ⟨sampleAccount, _, ⟨rfl, rfl, rfl⟩, System.run_of_exec hs⟩
  obtain ⟨hle, -, hlocked⟩ := smart_lockout hreach
  exact ⟨s, hreach, hguesses, hle, ((hlocked (strangerAt 400 true) hlock).1 rfl).1⟩

end Scap.Lockout
