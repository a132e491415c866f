import Scap.Lockout.Login

/-!
# The lock against guessed second factors

`POST /api/auth/mfa/verify` on the row of one account. A request reads the row and checks the factor;
a wrong one is then counted with one `UPDATE`, and a right one that is claimed sets the counter to
zero where the value that was read is not zero already, as SQLAlchemy writes changes only. Both hold
the row until they commit, so that a request is two steps, and others come in between. A request
that dies on the way is one that never finishes.

What the check of a factor says is given: right, wrong, or that it raises, as it does for digits
outside ASCII and when the password service is at capacity. Whether a right factor is claimed is
given as well.

Only a verified factor, a new password and a new MFA setup write to the two columns otherwise, but
the first of them leaves the lock. `mfa_lockout` says what holds of all runs in which no factor is
verified while a long lock is left and no check raises; `stranger_lock_shortened` is a run in which
the lock ends earlier than it did before.
-/

namespace Scap.Lockout

open Scap.Lib

/-! ## Data -/

/-- What the route reads and writes of a row of `users`. -/
structure MfaRow where
  mfaFailedAttempts : Nat
  mfaLockedUntil : Option Int
  deriving DecidableEq, Repr

/-- The settings; `from_env` wants the number of attempts and `create_app` the seconds to be
positive. -/
structure MfaSettings where
  mfaLockoutAttempts : Nat
  loginLockoutSeconds : Nat
  mfaLockoutMaxSeconds : Int
  positive : 0 < mfaLockoutAttempts ∧ 0 < loginLockoutSeconds

/-- A request that has read the row and checked its factor. -/
structure Checked where
  familiar : Bool
  right : Bool
  raises : Bool
  /-- `mfa_failed_attempts` when the row was read. -/
  loaded : Nat
  deriving DecidableEq, Repr

variable (cfg : MfaSettings)

/-- The seconds of the `k`-th lock. -/
def lockSeconds (k : Nat) : Int :=
  min (cfg.loginLockoutSeconds * 2 ^ min (k - 1) 16 : Nat) cfg.mfaLockoutMaxSeconds

/-- `now + timedelta(seconds=…)`, in microseconds. -/
def after (now seconds : Int) : Int := now + seconds * 1000000

/-- `record_mfa_failure`, and the seconds of the lock that it starts or 0. -/
def recordMfaFailure (row : MfaRow) (now : Int) : MfaRow × Int :=
  let failed := row.mfaFailedAttempts + 1
  if failed % cfg.mfaLockoutAttempts ≠ 0 then ({ row with mfaFailedAttempts := failed }, 0)
  else
    let seconds := lockSeconds cfg (failed / cfg.mfaLockoutAttempts)
    (⟨failed, some (after now seconds)⟩, seconds)

/-- The second factor is locked for unfamiliar sources. -/
def MfaRow.lockActive (row : MfaRow) (now : Int) : Bool := row.mfaLockedUntil.any (now < ·)

/-! ## Requests in flight -/

/-- The row and the requests in flight; and, since the counter was last set to zero, how many wrong
factors were handled and how many locks were started. -/
structure MfaState where
  row : MfaRow
  clock : Int
  checked : Nat → Option Checked
  wrongs : Nat
  locks : Nat

inductive MfaOp where
  /-- A request reads the row, meets the lock or checks its factor. -/
  | begin (id : Nat) (now : Int) (familiar right raises : Bool)
  /-- It counts the factor or claims it; a claim can fail and is rolled back. -/
  | finish (id : Nat) (now : Int) (claims : Bool)
  | newPassword
  | newSetup
  deriving DecidableEq, Repr

def MfaState.clear (s : MfaState) : MfaState :=
  { s with row := ⟨0, none⟩, wrongs := 0, locks := 0 }

/-- The end of a request whose factor was checked. -/
def MfaState.settle (s : MfaState) (request : Checked) (now : Int) (claims : Bool) : MfaState :=
  if request.raises then { s with wrongs := s.wrongs + if request.right then 0 else 1 }
  else if !request.right then
    { s with
      row := (recordMfaFailure cfg s.row now).1
      wrongs := s.wrongs + 1
      locks := s.locks +
        if (s.row.mfaFailedAttempts + 1) % cfg.mfaLockoutAttempts = 0 then 1 else 0 }
  else if claims && request.loaded != 0 then
    { s with row := { s.row with mfaFailedAttempts := 0 }, wrongs := 0, locks := 0 }
  else s

def stepMfa (s : MfaState) : MfaOp → Option MfaState
  | .begin id now familiar right raises =>
    if s.clock ≤ now ∧ s.checked id = none then
      some { s with
        clock := now
        checked :=
          if s.row.lockActive now && !familiar then s.checked
          else Function.update s.checked id
            (some ⟨familiar, right, raises, s.row.mfaFailedAttempts⟩) }
    else none
  | .finish id now claims =>
    match s.checked id with
    | none => none
    | some request =>
      if s.clock ≤ now then
        some (MfaState.settle cfg
          { s with clock := now, checked := Function.update s.checked id none } request now claims)
      else none
  | .newPassword => some s.clear
  | .newSetup => some s.clear

def MfaState.Initial (s : MfaState) : Prop :=
  s.row = ⟨0, none⟩ ∧ (∀ id, s.checked id = none) ∧ s.wrongs = 0 ∧ s.locks = 0

def mfaSystem : System MfaState MfaOp := System.ofFun MfaState.Initial (stepMfa cfg)

/-- The check of the factor does not raise, and a factor that is verified, and so sets the counter
to zero, finds no lock left that is longer than the first. -/
def ShortLock (s : MfaState) : MfaOp → Prop
  | .finish id now claims => ∀ request ∈ s.checked id, request.raises = false ∧
      (request.right = true → claims = true → request.loaded ≠ 0 →
        ∀ e ∈ s.row.mfaLockedUntil, e ≤ after now (lockSeconds cfg 1))
  | _ => True

instance (s : MfaState) : DecidablePred (ShortLock cfg s)
  | .finish id now claims => inferInstanceAs (Decidable (∀ request ∈ s.checked id,
      request.raises = false ∧ (request.right = true → claims = true → request.loaded ≠ 0 →
        ∀ e ∈ s.row.mfaLockedUntil, e ≤ after now (lockSeconds cfg 1))))
  | .begin _ _ _ _ _ => .isTrue trivial
  | .newPassword => .isTrue trivial
  | .newSetup => .isTrue trivial

/-! ## What is promised -/

/-- The lock that ends at `b` ends no earlier than the one that ends at `a`. -/
def EndsLater (a b : Option Int) : Prop := ∀ e ∈ a, ∃ e' ∈ b, e ≤ e'

/-- The promises of the lock, for a state and the steps that it can take. -/
structure Promised (cfg : MfaSettings) (s : MfaState) : Prop where
  /-- No wrong factor is lost. -/
  counted : s.row.mfaFailedAttempts = s.wrongs
  /-- Every N-th wrong factor starts a lock, and no other does. -/
  nth : ∀ id now claims request t, s.checked id = some request → request.right = false →
    request.raises = false → (mfaSystem cfg).step s (.finish id now claims) t →
      t.wrongs = s.wrongs + 1 ∧
      (cfg.mfaLockoutAttempts ∣ t.wrongs → t.locks = s.locks + 1 ∧
        t.row.mfaLockedUntil = some (after now
          (min (cfg.loginLockoutSeconds * 2 ^ min (t.locks - 1) 16 : Nat) cfg.mfaLockoutMaxSeconds))) ∧
      (¬ cfg.mfaLockoutAttempts ∣ t.wrongs → t.locks = s.locks ∧
        t.row.mfaLockedUntil = s.row.mfaLockedUntil)
  /-- The end of the lock moves earlier with a reset only. -/
  later : ∀ op t, (mfaSystem cfg).step s op t → op ≠ .newPassword → op ≠ .newSetup →
    EndsLater s.row.mfaLockedUntil t.row.mfaLockedUntil
  /-- Between the begin and the end of one request, an unfamiliar source is not under the lock. -/
  unverified : ∀ id now now' right raises claims t u,
    (mfaSystem cfg).step s (.begin id now false right raises) t →
      (mfaSystem cfg).step t (.finish id now' claims) u →
        s.row.lockActive now = false ∧ t.row.lockActive now' = false
  /-- The counter is reset by a verified factor, a new password or a new setup only. -/
  reset : ∀ op t, (mfaSystem cfg).step s op t → t.row.mfaFailedAttempts < s.row.mfaFailedAttempts →
    op = .newPassword ∨ op = .newSetup ∨ ∃ id now request,
      op = .finish id now true ∧ s.checked id = some request ∧ request.right = true

/-! ## The invariant -/

variable {cfg} {s t : MfaState} {op : MfaOp} {ops : List MfaOp} {now : Int} {request : Checked}
  {claims : Bool}

/-- Locks are counted by the failed attempts. -/
structure MfaInv (cfg : MfaSettings) (s : MfaState) : Prop where
  counted : s.row.mfaFailedAttempts = s.wrongs
  locks : s.locks = s.row.mfaFailedAttempts / cfg.mfaLockoutAttempts
  /-- No lock outlasts one that would start now. -/
  ends : ∀ e ∈ s.row.mfaLockedUntil, e ≤ after s.clock (lockSeconds cfg (s.locks + 1))

theorem lockSeconds_mono {k k' : Nat} (h : k ≤ k') : lockSeconds cfg k ≤ lockSeconds cfg k' := by
  have hdoublings : min (k - 1) 16 ≤ min (k' - 1) 16 := by omega
  have hpow : 2 ^ min (k - 1) 16 ≤ 2 ^ min (k' - 1) 16 := Nat.pow_le_pow_right (by decide) hdoublings
  have hbase := Nat.mul_le_mul_left cfg.loginLockoutSeconds hpow
  exact min_le_min_right _ (by exact_mod_cast hbase)

theorem after_mono {n n' k k' : Int} (hn : n ≤ n') (hk : k ≤ k') : after n k ≤ after n' k' := by
  unfold after
  omega

theorem mfaInv_of_initial (h : s.Initial) : MfaInv cfg s := by
  obtain ⟨hrow, -, hwrongs, hlocks⟩ := h
  refine ⟨?_, ?_, ?_⟩
  · rw [hrow, hwrongs]
  · rw [hrow, hlocks, Nat.zero_div]
  · intro e he
    rw [hrow] at he
    cases he

/-- Time alone ends no lock later. -/
theorem MfaInv.tick (hs : MfaInv cfg s) (hnow : s.clock ≤ now) (checked : Nat → Option Checked) :
    MfaInv cfg { s with clock := now, checked := checked } :=
  ⟨hs.counted, hs.locks, fun e he => (hs.ends e he).trans (after_mono hnow le_rfl)⟩

/-- A wrong factor is one more, and starts a lock when it is the N-th. -/
theorem settle_wrong (hs : MfaInv cfg s) (now : Int) (claims : Bool)
    (hraises : request.raises = false) (hright : request.right = false) :
    (MfaState.settle cfg s request now claims).wrongs = s.wrongs + 1 ∧
    (MfaState.settle cfg s request now claims).row.mfaFailedAttempts = s.wrongs + 1 ∧
    (cfg.mfaLockoutAttempts ∣ s.wrongs + 1 →
      (s.wrongs + 1) / cfg.mfaLockoutAttempts = s.locks + 1 ∧
      (MfaState.settle cfg s request now claims).locks = s.locks + 1 ∧
      (MfaState.settle cfg s request now claims).row.mfaLockedUntil =
        some (after now (lockSeconds cfg (s.locks + 1)))) ∧
    (¬ cfg.mfaLockoutAttempts ∣ s.wrongs + 1 →
      (s.wrongs + 1) / cfg.mfaLockoutAttempts = s.locks ∧
      (MfaState.settle cfg s request now claims).locks = s.locks ∧
      (MfaState.settle cfg s request now claims).row.mfaLockedUntil = s.row.mfaLockedUntil) := by
  have hlocks := hs.locks
  rw [hs.counted] at hlocks
  have hdiv : (s.wrongs + 1) / cfg.mfaLockoutAttempts = s.wrongs / cfg.mfaLockoutAttempts +
      if cfg.mfaLockoutAttempts ∣ s.wrongs + 1 then 1 else 0 := Nat.succ_div
  unfold MfaState.settle recordMfaFailure
  rw [if_neg (by simp [hraises]), if_pos (by simp [hright]), hs.counted]
  by_cases hnth : cfg.mfaLockoutAttempts ∣ s.wrongs + 1
  · rw [if_pos hnth, ← hlocks] at hdiv
    have hmod : (s.wrongs + 1) % cfg.mfaLockoutAttempts = 0 := Nat.mod_eq_zero_of_dvd hnth
    simp only [hmod, ne_eq, not_true_eq_false, if_false, if_true, hdiv]
    exact ⟨trivial, trivial, fun _ => ⟨trivial, trivial, trivial⟩, fun h => absurd hnth h⟩
  · rw [if_neg hnth, ← hlocks] at hdiv
    have hmod : (s.wrongs + 1) % cfg.mfaLockoutAttempts ≠ 0 :=
      fun h => hnth (Nat.dvd_of_mod_eq_zero h)
    rw [if_pos hmod, if_neg hmod]
    exact ⟨rfl, rfl, fun h => absurd h hnth, fun _ => ⟨hdiv, rfl, rfl⟩⟩

theorem begin_cases {id : Nat} {familiar right raises : Bool}
    (h : (mfaSystem cfg).step s (.begin id now familiar right raises) t) :
    s.clock ≤ now ∧ s.checked id = none ∧ t = { s with
      clock := now
      checked :=
        if s.row.lockActive now && !familiar then s.checked
        else Function.update s.checked id
          (some ⟨familiar, right, raises, s.row.mfaFailedAttempts⟩) } := by
  obtain ⟨hguard, rfl⟩ := of_allowed h
  exact ⟨hguard.1, hguard.2, rfl⟩

theorem finish_cases {id : Nat} (h : (mfaSystem cfg).step s (.finish id now claims) t) :
    ∃ request, s.checked id = some request ∧ s.clock ≤ now ∧ t = MfaState.settle cfg
      { s with clock := now, checked := Function.update s.checked id none } request now claims := by
  replace h : stepMfa cfg s (.finish id now claims) = some t := h
  unfold stepMfa at h
  cases hrequest : s.checked id with
  | none => simp [hrequest] at h
  | some request =>
      simp only [hrequest] at h
      obtain ⟨hnow, rfl⟩ := of_allowed h
      exact ⟨request, rfl, hnow, rfl⟩

/-- The end of a request whose check did not raise. -/
theorem mfaInv_settle (hs : MfaInv cfg s) (hclock : s.clock = now) (hraises : request.raises = false)
    (hright : request.right = true → claims = true → request.loaded ≠ 0 →
      ∀ e ∈ s.row.mfaLockedUntil, e ≤ after now (lockSeconds cfg 1)) :
    MfaInv cfg (MfaState.settle cfg s request now claims) := by
  cases hfactor : request.right with
  | false =>
      obtain ⟨hwrongs, hfailed, hnth, hother⟩ := settle_wrong hs now claims hraises hfactor
      have hsettled : (MfaState.settle cfg s request now claims).clock = now := by
        unfold MfaState.settle
        simp [hraises, hfactor, hclock]
      refine ⟨hfailed.trans hwrongs.symm, ?_, ?_⟩
      · rw [hfailed]
        by_cases hdvd : cfg.mfaLockoutAttempts ∣ s.wrongs + 1
        · rw [(hnth hdvd).1, (hnth hdvd).2.1]
        · rw [(hother hdvd).1, (hother hdvd).2.1]
      · intro e he
        rw [hsettled]
        by_cases hdvd : cfg.mfaLockoutAttempts ∣ s.wrongs + 1
        · rw [(hnth hdvd).2.2] at he
          obtain rfl := Option.some.inj he
          rw [(hnth hdvd).2.1]
          exact after_mono le_rfl (lockSeconds_mono (Nat.le_succ _))
        · rw [(hother hdvd).2.2] at he
          rw [(hother hdvd).2.1]
          exact hclock ▸ hs.ends e he
  | true =>
      unfold MfaState.settle
      rw [if_neg (by simp [hraises]), if_neg (by simp [hfactor])]
      split
      · next hclaims =>
        simp only [Bool.and_eq_true, bne_iff_ne, ne_eq] at hclaims
        refine ⟨rfl, (Nat.zero_div _).symm, ?_⟩
        rw [hclock]
        exact hright hfactor hclaims.1 hclaims.2
      · exact hs

/-- One step. -/
theorem mfaInv_step (hs : MfaInv cfg s) (hshort : ShortLock cfg s op)
    (h : (mfaSystem cfg).step s op t) : MfaInv cfg t := by
  cases op with
  | begin id now familiar right raises =>
      obtain ⟨hnow, -, rfl⟩ := begin_cases h
      exact hs.tick hnow _
  | finish id now claims =>
      obtain ⟨request, hrequest, hnow, rfl⟩ := finish_cases h
      obtain ⟨hraises, hright⟩ := hshort request hrequest
      exact mfaInv_settle (hs.tick hnow _) rfl hraises hright
  | newPassword =>
      obtain rfl := Option.some.inj h
      exact ⟨rfl, (Nat.zero_div _).symm, by rintro e ⟨⟩⟩
  | newSetup =>
      obtain rfl := Option.some.inj h
      exact ⟨rfl, (Nat.zero_div _).symm, by rintro e ⟨⟩⟩

/-! ## The promises -/

theorem EndsLater.refl (a : Option Int) : EndsLater a a := fun e he => ⟨e, he, le_rfl⟩

theorem lockActive_later {row : MfaRow} {later : Int} (h : row.lockActive now = false)
    (hle : now ≤ later) : row.lockActive later = false := by
  unfold MfaRow.lockActive at *
  cases hend : row.mfaLockedUntil with
  | none => rfl
  | some e =>
      rw [hend] at h
      simp only [Option.any_some, decide_eq_false_iff_not, not_lt] at h ⊢
      exact h.trans hle

/-- A check that raises, or a factor that is right, leaves the lock. -/
theorem settle_lock (h : request.raises = true ∨ request.right = true) :
    (MfaState.settle cfg s request now claims).row.mfaLockedUntil = s.row.mfaLockedUntil := by
  unfold MfaState.settle
  split
  · rfl
  · next hraises =>
    have hright : request.right = true := h.resolve_left hraises
    rw [if_neg (by simp [hright])]
    split <;> rfl

theorem endsLater_settle (hs : MfaInv cfg s) (hclock : s.clock = now) :
    EndsLater s.row.mfaLockedUntil (MfaState.settle cfg s request now claims).row.mfaLockedUntil := by
  cases hraises : request.raises with
  | true =>
      rw [settle_lock (.inl hraises)]
      exact .refl _
  | false =>
      cases hright : request.right with
      | true =>
          rw [settle_lock (.inr hright)]
          exact .refl _
      | false =>
          obtain ⟨-, -, hnth, hother⟩ := settle_wrong hs now claims hraises hright
          by_cases hdvd : cfg.mfaLockoutAttempts ∣ s.wrongs + 1
          · rw [(hnth hdvd).2.2]
            intro e he
            exact ⟨_, rfl, hclock ▸ hs.ends e he⟩
          · rw [(hother hdvd).2.2]
            exact .refl _

/-- A request that ends with a lower counter has claimed a right factor. -/
theorem settle_lower (h : (MfaState.settle cfg s request now claims).row.mfaFailedAttempts <
    s.row.mfaFailedAttempts) : request.right = true ∧ claims = true := by
  unfold MfaState.settle at h
  split at h
  · exact absurd h (lt_irrefl _)
  · split at h
    · have hmore : (recordMfaFailure cfg s.row now).1.mfaFailedAttempts =
          s.row.mfaFailedAttempts + 1 := by
        unfold recordMfaFailure
        dsimp only
        split <;> rfl
      replace h : (recordMfaFailure cfg s.row now).1.mfaFailedAttempts < _ := h
      omega
    · next hright =>
      split at h
      · next hclaims =>
        simp only [Bool.and_eq_true] at hclaims
        exact ⟨by simpa using hright, hclaims.1⟩
      · exact absurd h (lt_irrefl _)

theorem promised (hs : MfaInv cfg s) : Promised cfg s where
  counted := hs.counted
  nth := by
    intro id now claims request t hrequest hright hraises hstep
    obtain ⟨request', hrequest', hnow, rfl⟩ := finish_cases hstep
    obtain rfl := Option.some.inj (hrequest.symm.trans hrequest')
    obtain ⟨hwrongs, -, hnth, hother⟩ := settle_wrong (hs.tick hnow _) now claims hraises hright
    refine ⟨hwrongs, fun h => ?_, fun h => ?_⟩
    · rw [hwrongs] at h
      obtain ⟨-, hlocks, hend⟩ := hnth h
      refine ⟨hlocks, ?_⟩
      rw [hend, hlocks]
      rfl
    · rw [hwrongs] at h
      exact (hother h).2
  later := by
    intro op t hstep hpassword hsetup
    cases op with
    | begin id now familiar right raises =>
        obtain ⟨-, -, rfl⟩ := begin_cases hstep
        exact .refl _
    | finish id now claims =>
        obtain ⟨request, -, hnow, rfl⟩ := finish_cases hstep
        exact endsLater_settle (hs.tick hnow _) rfl
    | newPassword => exact absurd rfl hpassword
    | newSetup => exact absurd rfl hsetup
  unverified := by
    intro id now now' right raises claims t u hbegin hfinish
    obtain ⟨-, hfresh, rfl⟩ := begin_cases hbegin
    obtain ⟨request, hrequest, hnow, -⟩ := finish_cases hfinish
    cases hlock : s.row.lockActive now with
    | true =>
        -- the request was turned away
        simp [hlock, hfresh] at hrequest
    | false => exact ⟨rfl, lockActive_later hlock hnow⟩
  reset := by
    intro op t hstep hless
    cases op with
    | begin id now familiar right raises =>
        obtain ⟨-, -, rfl⟩ := begin_cases hstep
        exact absurd hless (lt_irrefl _)
    | finish id now claims =>
        obtain ⟨request, hrequest, -, rfl⟩ := finish_cases hstep
        obtain ⟨hright, rfl⟩ := settle_lower hless
        exact .inr (.inr ⟨id, now, request, rfl, hrequest, hright⟩)
    | newPassword => exact .inl rfl
    | newSetup => exact .inr (.inl rfl)

/-- **The lock against guessed factors.** In every run in which no check raises and no factor is
verified while a lock longer than the first is left, the promises hold in every state. -/
theorem mfa_lockout (hs : s.Initial) (hrun : ((mfaSystem cfg).restrict (ShortLock cfg)).Run s ops t) :
    Promised cfg t := by
  have hstep : ∀ s op t, MfaInv cfg s → ((mfaSystem cfg).restrict (ShortLock cfg)).step s op t →
      MfaInv cfg t := fun _ _ _ hinv h => mfaInv_step hinv h.2 h.1
  exact promised (hrun.preserves hstep (mfaInv_of_initial hs))

/-! ## A shortened lock -/

/-- Two wrong factors start a lock. -/
def sampleMfaSettings : MfaSettings := ⟨2, 900, 86400, by decide⟩

def sampleMfa : MfaState := ⟨⟨0, none⟩, 0, fun _ => none, 0, 0⟩

theorem sampleMfa_initial : sampleMfa.Initial := ⟨rfl, fun _ => rfl, rfl, rfl⟩

/-- One request at a time, its factor checked at the given second. -/
def handle (id second : Nat) (familiar right : Bool) : List MfaOp :=
  [.begin id (second * 1000000) familiar right false, .finish id (second * 1000000) true]

/-- A stranger's wrong factors start two locks; the owner signs in and mistypes a code. -/
def strangerThenOwner : List MfaOp :=
  handle 1 0 false false ++ handle 2 1 false false ++ handle 3 1000 false false ++
    handle 4 1001 false false ++ handle 5 1002 true true ++ handle 6 1003 true false

/-- The lock that the stranger has to wait for ends a quarter of an hour earlier with the owner's
next mistake, which resets nothing; and a wrong factor whose check raises is not counted. -/
theorem stranger_lock_shortened :
    (∃ s t, (mfaSystem sampleMfaSettings).Reachable s ∧
      (mfaSystem sampleMfaSettings).Run s (handle 7 1004 true false) t ∧
      s.row.mfaLockedUntil = some 2801000000 ∧ t.row.mfaLockedUntil = some 1904000000) ∧
    ∃ s, (mfaSystem sampleMfaSettings).Reachable s ∧ s.wrongs = 1 ∧
      s.row.mfaFailedAttempts = 0 := by
  constructor
  · have hexec : (System.exec (stepMfa sampleMfaSettings) sampleMfa strangerThenOwner).bind
        (fun s => (System.exec (stepMfa sampleMfaSettings) s (handle 7 1004 true false)).map
          fun t => (s.row.mfaLockedUntil, t.row.mfaLockedUntil)) =
        some (some 2801000000, some 1904000000) := by decide +kernel
    obtain ⟨s, hs, ht⟩ := Option.bind_eq_some_iff.mp hexec
    obtain ⟨t, ht, hends⟩ := Option.map_eq_some_iff.mp ht
    obtain ⟨hbefore, hafter⟩ := Prod.mk.inj hends
    exact ⟨s, t, ⟨sampleMfa, _, sampleMfa_initial, System.run_of_exec hs⟩, System.run_of_exec ht,
      hbefore, hafter⟩
  · have hexec : (System.exec (stepMfa sampleMfaSettings) sampleMfa
        [.begin 1 0 false false true, .finish 1 0 true]).map
        (fun s => (s.wrongs, s.row.mfaFailedAttempts)) = some (1, 0) := by decide +kernel
    obtain ⟨s, hs, hcounts⟩ := Option.map_eq_some_iff.mp hexec
    obtain ⟨hwrongs, hfailed⟩ := Prod.mk.inj hcounts
    exact ⟨s, ⟨sampleMfa, _, sampleMfa_initial, System.run_of_exec hs⟩, hwrongs, hfailed⟩

theorem mfa_lockout_sample : ∃ t,
    ((mfaSystem sampleMfaSettings).restrict (ShortLock sampleMfaSettings)).Run sampleMfa
      (handle 1 0 false false ++ handle 2 1 false false) t ∧
    t.row = ⟨2, some 901000000⟩ ∧ Promised sampleMfaSettings t := by
  have hexec : (System.exec (System.checked
      (fun s op => decide (ShortLock sampleMfaSettings s op)) (stepMfa sampleMfaSettings)) sampleMfa
      (handle 1 0 false false ++ handle 2 1 false false)).map MfaState.row =
        some ⟨2, some 901000000⟩ := by decide +kernel
  obtain ⟨t, ht, hrow⟩ := Option.map_eq_some_iff.mp hexec
  have hrun : ((mfaSystem sampleMfaSettings).restrict (ShortLock sampleMfaSettings)).Run sampleMfa
      (handle 1 0 false false ++ handle 2 1 false false) t :=
    System.run_of_exec_checked (fun _ _ h => of_decide_eq_true h) ht
  exact ⟨t, hrun, hrow, mfa_lockout sampleMfa_initial hrun⟩

end Scap.Lockout
