import Scap.Recovery.Codes

/-!
# Recovery codes over whole runs

* `recovery_codes` — in every reachable state one code at most is active for an account and a
  purpose, and every use of a code in the past was lawful.
* `verification_code_outlives_password` — a code for a new recovery address is not bound to the
  password.
-/

namespace Scap.Recovery

open Scap.Lib Scap.Py

variable {cfg : Settings} {s t : Store} {c : RecoveryCode}

/-! ## Consuming -/

theorem newestActive?_eq_some {userId : String} {purpose : Purpose}
    (h : newestActive? s userId purpose = some c) :
    c ∈ s.codes.rows ∧ c.userId = userId ∧ c.purpose = purpose ∧ c.consumedAt = none := by
  have hmem := List.argmax_mem h
  simpa [and_assoc] using hmem

theorem inv_consumeCode (key : ByteArray) (userId code : String) (purpose : Purpose)
    (hs : Inv cfg s) : Inv cfg (consumeCode cfg s key userId purpose code).1 := by
  unfold consumeCode
  cases hnewest : newestActive? s userId purpose with
  | none => exact hs
  | some c =>
      obtain ⟨hc, -, -, hactive⟩ := newestActive?_eq_some hnewest
      dsimp only
      split
      · exact hs
      · split
        · exact hs.wrongGuess hc hactive
        · have hpresented := hs.carry (carries_present key (normalizeCode cfg code))
          split
          · exact hpresented.wrongGuess (by rwa [codes_present]) hactive
          · exact hpresented.carry (carries_burn _)

/-- A code is consumed only while it is active and has not expired, by what has its hash. -/
theorem consumeCode_some {key : ByteArray} {userId code : String} {purpose : Purpose}
    (h : consumeCode cfg s key userId purpose code = (t, some c)) :
    c ∈ s.codes.rows ∧ c.userId = userId ∧ c.purpose = purpose ∧ c.consumedAt = none ∧
      s.clock < c.expiresAt ∧
      ∃ candidate, presentedHash cfg key candidate = c.codeHash ∧
        t = (s.present key candidate).burn fun r => r.id = c.id := by
  unfold consumeCode at h
  cases hnewest : newestActive? s userId purpose with
  | none => simp [hnewest] at h
  | some d =>
      obtain ⟨hd, huser, hpurpose, hactive⟩ := newestActive?_eq_some hnewest
      rw [hnewest] at h
      dsimp only at h
      split at h
      · cases h
      · next hunexpired =>
        split at h
        · cases h
        · split at h
          · cases h
          · next hhash =>
            cases h
            exact ⟨hd, huser, hpurpose, hactive, not_le.mp hunexpired, _, not_not.mp hhash, rfl⟩

/-- What `consume_code` leaves of the code it returns. -/
theorem consumed_of_burn :
    ∀ d ∈ (s.burn fun r => r.id = c.id).codes.rows, d.id = c.id → d.consumedAt ≠ none := by
  intro d hd hid hactive
  rcases mem_burn hd with ⟨-, hpass⟩ | ⟨r, -, rfl⟩
  · simpa [hid] using hpass hactive
  · cases hactive

/-! ## Accepting -/

/-- An active code that has not expired may be used, if its password has not changed. -/
theorem Inv.lawful_of_active (hs : Inv cfg s) (hc : c ∈ s.codes.rows) (hactive : c.consumedAt = none)
    (hunexpired : s.clock < c.expiresAt)
    (hpassword : c.purpose = .passwordReset → ∀ between, Bound cfg s c between →
      .passwordChanged c.userId ∉ between) : Lawful c.id s.clock s.log := by
  obtain ⟨between, before, hlife⟩ := hs.lives c hc
  refine ⟨between, before, c.userId, c.purpose, c.expiresAt, hlife.log, hunexpired, ?_, ?_,
    hlife.fresh⟩
  · intro e he
    by_contra hends
    have hends : e.ends c.id c.userId c.purpose = true := by simpa using hends
    obtain rfl := hlife.going hactive e he hends
    have hreset : c.purpose = .passwordReset := by simpa [Event.ends] using hends
    exact hpassword hreset between (hlife.bound hactive hreset) he
  · rw [hlife.attempts]
    exact hlife.few hactive

theorem hexdigest_ne_empty (d : Digest) : hexdigest d ≠ "" := by
  intro h
  have hvalid := validSha256Digest_hexdigest d
  rw [h] at hvalid
  exact absurd hvalid (by decide)

theorem toUTF8_inj {a b : String} (h : a.toUTF8 = b.toUTF8) : a = b :=
  String.toByteArray_inj.mp h

theorem resetContext_password {userId h₁ h₂ m₁ m₂ : String}
    (h : resetContext userId h₁ m₁ = resetContext userId h₂ m₂) : h₁ = h₂ := by
  have hvalue := Value.dumps_injective (toUTF8_inj h)
  simp only [Value.arr.injEq, List.cons.injEq, Value.str.injEq, true_and, and_true] at hvalue
  exact hvalue.1

theorem derivedKey_inj {key : ByteArray} {userId h₁ h₂ m₁ m₂ : String}
    (h : derivePasswordResetKey cfg key userId h₁ m₁ = derivePasswordResetKey cfg key userId h₂ m₂) :
    cfg.hmac key (resetContext userId h₁ m₁) = cfg.hmac key (resetContext userId h₂ m₂) :=
  Subtype.ext (List.toArray_inj (ByteArray.mk.inj h))

/-- What was presented has the hash of a code that is bound to the password of the account: so the
password is the one that the code was issued for. -/
theorem Bound.unchanged {user : User} {email candidate : String} {between : List Event}
    (hb : Bound cfg s c between) (huser : user ∈ s.users.rows) (hid : user.id = c.userId)
    (hhash : presentedHash cfg (derivePasswordResetKey cfg cfg.recoveryKey user.id
      user.passwordHash email) candidate = c.codeHash)
    (hfree : CollisionFree cfg (s.present (derivePasswordResetKey cfg cfg.recoveryKey user.id
      user.passwordHash email) candidate).asked)
    (hkey : (cfg.recoveryKey, resetContext user.id user.passwordHash email) ∈ s.asked) :
    .passwordChanged c.userId ∉ between := by
  obtain ⟨passwordHash, issuedFor, code, hissued, hkey', hcode', -, hunchanged⟩ := hb
  rw [hid] at hkey hfree hhash
  have hbefore := (carries_present (s := s) (derivePasswordResetKey cfg cfg.recoveryKey c.userId
    user.passwordHash email) candidate).asked
  unfold presentedHash at hhash
  split at hhash
  · next hascii =>
    have hpair := hfree (mem_present hascii) (hbefore hcode') (hhash.trans hissued)
    -- equal keys come from equal contexts, and these from one password hash
    have hdigest : cfg.hmac cfg.recoveryKey (resetContext c.userId user.passwordHash email) =
        cfg.hmac cfg.recoveryKey (resetContext c.userId passwordHash issuedFor) :=
      derivedKey_inj (Prod.mk.inj hpair).1
    have hcontext : (cfg.recoveryKey, resetContext c.userId user.passwordHash email) =
        (cfg.recoveryKey, resetContext c.userId passwordHash issuedFor) := by
      apply hfree (hbefore hkey) (hbefore hkey')
      show hexdigest (cfg.hmac _ _) = hexdigest (cfg.hmac _ _)
      rw [hdigest]
    have hsame := resetContext_password (Prod.mk.inj hcontext).2
    exact hunchanged user huser hid hsame
  · exact absurd (hhash.trans hissued).symm (hexdigest_ne_empty _)

/-- The code is burned, and what it is for may be done. -/
theorem Inv.accepted (hs : Inv cfg s) (key : ByteArray) (candidate : String)
    (hc : c ∈ s.codes.rows) (hactive : c.consumedAt = none) (hunexpired : s.clock < c.expiresAt)
    (hpassword : c.purpose = .passwordReset → CollisionFree cfg (s.present key candidate).asked →
      ∀ between, Bound cfg s c between → .passwordChanged c.userId ∉ between) :
    Inv cfg (((s.present key candidate).burn fun r => r.id = c.id).record
      (.accepted c.id (s.present key candidate).clock)) := by
  have hburnt := (hs.carry (carries_present key candidate)).carry (carries_burn fun r => r.id = c.id)
  refine hburnt.accept ?_ consumed_of_burn ?_
  · exact (carries_present key candidate).drawn (hs.id_drawn hc)
  · intro hfree
    show Lawful c.id (s.present key candidate).clock (s.present key candidate).log
    rw [clock_present, log_present]
    apply hs.lawful_of_active hc hactive hunexpired
    intro hreset
    exact hpassword hreset hfree

/-! ## Routes -/

theorem lockUserRow_eq_some {userId : String} {u : User} (h : lockUserRow s userId = some u) :
    u ∈ s.users.rows ∧ u.id = userId := by
  obtain ⟨hfind, -⟩ := Option.filter_eq_some_iff.mp h
  exact KeyedTable.find?_eq_some hfind

theorem inv_requestEmailVerification {userId email id code : String} (hs : Inv cfg s)
    (hid : id ∉ s.drawn) :
    Inv cfg (requestEmailVerification cfg s userId email id code).1 := by
  unfold requestEmailVerification
  split
  · exact hs
  · exact hs
  · exact hs.issueCode hid nofun

/-- The new address is bound, and nothing that went to the old one stays active. -/
theorem inv_bindMailbox {key : ByteArray} {candidate target : String} (hs : Inv cfg s)
    (hc : c ∈ s.codes.rows) (hactive : c.consumedAt = none) (hpurpose : c.purpose = .emailVerify)
    (hunexpired : s.clock < c.expiresAt)
    (h : bindMailbox ((s.present key candidate).burn fun r => r.id = c.id) c target = some t) :
    Inv cfg t := by
  have haccepted := hs.accepted key candidate hc hactive hunexpired
    fun hreset => by rw [hpurpose] at hreset; cases hreset
  unfold bindMailbox at h
  split at h
  · cases h
  · dsimp only at h
    split at h
    · cases h
      exact haccepted.carry (carries_of_eq rfl rfl rfl rfl rfl rfl)
    · cases h
      refine Inv.changeMailbox (Inv.carry ?_ (carries_burn _)) ?_
      · exact haccepted.carry (carries_of_eq rfl rfl rfl rfl rfl rfl)
      intro d hd huser hactive'
      rcases mem_burn hd with ⟨hd, hpass⟩ | ⟨r, -, rfl⟩
      · have hverify : d.purpose = .emailVerify := by
          cases hp : d.purpose with
          | emailVerify => rfl
          | passwordReset => simpa [huser, hp] using hpass hactive'
        have hbefore : d ∈ (s.present key candidate).codes.rows :=
          (carries_burn _).active hd hactive'
        rw [codes_present] at hbefore
        have hsame : d.id = c.id :=
          hs.single d hbefore c hc hactive' hactive huser (hverify.trans hpurpose.symm)
        exact consumed_of_burn d hd hsame hactive'
      · cases hactive'

theorem inv_verifyAccountEmail {userId code : String} (hs : Inv cfg s) :
    Inv cfg (verifyAccountEmail cfg s userId code).1 := by
  unfold verifyAccountEmail
  cases hlock : lockUserRow s userId with
  | none => exact hs
  | some user =>
      have hconsume := inv_consumeCode cfg.recoveryKey user.id code .emailVerify hs
      dsimp only
      split
      · next hresult =>
        rw [hresult] at hconsume
        exact hconsume
      · next s' record hresult =>
        rw [hresult] at hconsume
        obtain ⟨hc, -, hpurpose, hactive, hunexpired, candidate, -, rfl⟩ := consumeCode_some hresult
        split
        · exact hconsume
        · split
          · exact hconsume
          · split
            · exact hs
            · next hbind => exact inv_bindMailbox hs hc hactive hpurpose hunexpired hbind

theorem inv_removeAccountEmail {userId : String} (hs : Inv cfg s) :
    Inv cfg (removeAccountEmail s userId).1 := by
  unfold removeAccountEmail
  cases hlock : lockUserRow s userId with
  | none => exact hs
  | some user =>
      dsimp only
      split
      · exact hs
      · refine Inv.carry (Inv.changeMailbox (hs.carry (carries_burn fun c => c.userId = user.id)) ?_)
          (carries_of_eq rfl rfl rfl rfl rfl rfl)
        intro d hd huser hactive
        rcases mem_burn hd with ⟨-, hpass⟩ | ⟨r, -, rfl⟩
        · simpa [huser] using hpass hactive
        · cases hactive

theorem inv_requestPasswordReset {userId id code : String} {limited : Bool} (hs : Inv cfg s)
    (hid : id ∉ s.drawn) : Inv cfg (requestPasswordReset cfg s userId id code limited).1 := by
  unfold requestPasswordReset
  cases hlock : lockUserRow s userId with
  | none => exact hs
  | some user =>
      dsimp only
      split
      · exact hs
      · next email _ =>
        split
        · exact hs
        · refine (hs.carry (carries_ask _ _)).issueCode hid ?_
          intro _
          exact ⟨user.passwordHash, email.normalizedEmail, rfl, List.mem_cons_self,
            hs.hashes user (lockUserRow_eq_some hlock).1⟩

/-- A new password, whose change is noted. -/
theorem carries_changePassword {userId passwordHash : String} {f : User → User}
    {hf : ∀ u, (f u).id = u.id} (hsame : ∀ u, (f u).passwordHash = u.passwordHash)
    (hnew : passwordHash ∉ s.hashes) :
    Carries s (((s.setPassword userId passwordHash).updateUser userId f hf).record
      (.passwordChanged userId)) := by
  have hset : Carries s (s.setPassword userId passwordHash) := carries_setPassword hnew
  constructor
  case codes => exact fun _ hd => .inl hd
  case log =>
    refine .inr ⟨userId, rfl, ?_⟩
    intro v hv hid
    obtain ⟨w, hw, rfl⟩ := List.mem_map.mp hv
    rcases mem_setPassword hw with ⟨hwid, hhash⟩ | ⟨hwid, -⟩
    · rw [if_pos hwid, hsame, hhash]
      exact hnew
    · rw [if_neg hwid] at hid
      exact absurd hid hwid
  case users =>
    intro v hv
    obtain ⟨w, hw, rfl⟩ := List.mem_map.mp hv
    have hid : (if w.id = userId then f w else w).id = w.id := by
      split
      · exact hf w
      · rfl
    have hhash : (if w.id = userId then f w else w).passwordHash = w.passwordHash := by
      split
      · exact hsame w
      · rfl
    rw [hid, hhash]
    exact hset.users w hw
  case hashes => exact List.subset_cons_self _ _
  case drawn => exact List.Subset.refl _
  case asked => exact List.Subset.refl _

theorem inv_changePassword {userId passwordHash : String} (hs : Inv cfg s)
    (hnew : passwordHash ∉ s.hashes) : Inv cfg (changePassword s userId passwordHash) :=
  hs.carry (carries_changePassword (fun _ => rfl) hnew)

/-- The right code, entered in time, replaces the password. -/
theorem inv_replacePassword {user : User} {email candidate passwordHash : String}
    (hs : Inv cfg s) (hc : c ∈ s.codes.rows) (hactive : c.consumedAt = none)
    (hunexpired : s.clock < c.expiresAt) (huser : user ∈ s.users.rows) (hid : c.userId = user.id)
    (hnew : passwordHash ∉ s.hashes)
    (hkey : (cfg.recoveryKey, resetContext user.id user.passwordHash email) ∈ s.asked)
    (hhash : presentedHash cfg (derivePasswordResetKey cfg cfg.recoveryKey user.id
      user.passwordHash email) candidate = c.codeHash) :
    Inv cfg (replacePassword ((s.present (derivePasswordResetKey cfg cfg.recoveryKey user.id
      user.passwordHash email) candidate).burn fun r => r.id = c.id) user.id passwordHash c) := by
  have haccepted := hs.accepted _ _ hc hactive hunexpired fun _ hfree between hbound =>
    hbound.unchanged huser hid.symm hhash hfree hkey
  -- what is burned at the end may as well be burned after the change is noted
  refine (haccepted.carry (carries_changePassword (by intro _; rfl) ?_)).carry (carries_burn _)
  show passwordHash ∉ (s.present _ _).hashes
  rwa [hashes_present]

theorem inv_confirmPasswordReset {userId code passwordHash : String} {compromised : Bool}
    (hs : Inv cfg s) (hnew : passwordHash ∉ s.hashes) :
    Inv cfg (confirmPasswordReset cfg s userId code passwordHash compromised).1 := by
  unfold confirmPasswordReset
  split
  · exact hs
  · cases hlock : lockUserRow s userId with
    | none => exact hs
    | some user =>
        obtain ⟨huser, -⟩ := lockUserRow_eq_some hlock
        dsimp only
        split
        · exact hs
        · next email _ =>
          have hasked : Inv cfg (s.ask cfg.recoveryKey
              (resetContext user.id user.passwordHash email.normalizedEmail)) :=
            hs.carry (carries_ask _ _)
          have hconsume := inv_consumeCode (derivePasswordResetKey cfg cfg.recoveryKey user.id
            user.passwordHash email.normalizedEmail) user.id code .passwordReset hasked
          split
          · next hresult =>
            rw [hresult] at hconsume
            exact hconsume
          · next s' record hresult =>
            obtain ⟨hc, hid, -, hactive, hunexpired, candidate, hhash, rfl⟩ :=
              consumeCode_some hresult
            exact inv_replacePassword hasked hc hactive hunexpired huser hid hnew
              List.mem_cons_self hhash

/-! ## Steps -/

variable (cfg) in
theorem carries_register {id username passwordHash : String} (hnew : passwordHash ∉ s.hashes) :
    Carries s (perform cfg s (.register id username passwordHash)) where
  codes _ hc := .inl hc
  log := .inl rfl
  users := by
    intro v hv
    rcases KeyedTable.mem_insertNew_or hv with rfl | hv
    · exact .inl ⟨hnew, List.mem_cons_self⟩
    · exact .inr ⟨v, hv, rfl, rfl⟩
  hashes := List.subset_cons_self _ _
  drawn := List.subset_cons_self _ _
  asked := List.Subset.refl _

theorem inv_of_step {op : Op} (hs : Inv cfg s) (h : step cfg s op = some t) : Inv cfg t := by
  unfold step at h
  split at h
  case isFalse => cases h
  case isTrue hdraws =>
    obtain rfl := Option.some.inj h
    cases op <;> simp only [perform]
    case requestEmailVerification userId email id code =>
      have hid : id ∉ s.drawn := by simpa using (Bool.and_eq_true_iff.mp hdraws).1
      exact inv_requestEmailVerification hs hid
    case verifyAccountEmail userId code => exact inv_verifyAccountEmail hs
    case removeAccountEmail userId => exact inv_removeAccountEmail hs
    case findAccount identifier =>
      exact hs.carry (carries_of_eq rfl rfl rfl rfl rfl rfl)
    case requestPasswordReset userId id code limited =>
      have hid : id ∉ s.drawn := by simpa using (Bool.and_eq_true_iff.mp hdraws).1
      split
      · exact inv_requestPasswordReset hs hid
      · exact hs
    case burnUndelivered id => exact hs.carry (carries_burn _)
    case confirmPasswordReset userId code passwordHash compromised =>
      have hnew : passwordHash ∉ s.hashes := by simpa [Op.draws] using hdraws
      split
      · exact inv_confirmPasswordReset hs hnew
      · exact hs
    case changePassword userId passwordHash =>
      exact inv_changePassword hs (by simpa [Op.draws] using hdraws)
    case resetVpsPassword userId passwordHash =>
      have hchanged : Inv cfg (changePassword s userId passwordHash) :=
        inv_changePassword hs (by simpa [Op.draws] using hdraws)
      exact hchanged.carry (carries_updateUser (by intro _; rfl))
    case tick microseconds =>
      exact hs.carry (carries_of_eq rfl rfl rfl rfl rfl rfl)
    case register id username passwordHash =>
      have hnew : passwordHash ∉ s.hashes := by simpa using (Bool.and_eq_true_iff.mp hdraws).2
      exact hs.carry (carries_register cfg hnew)
    case deleteUser userId =>
      refine hs.carry (carries_filter ?_)
      intro v hv
      exact (KeyedTable.mem_filter.mp hv).1
    case setActive userId isActive => exact hs.carry (carries_updateUser (by intro _; rfl))
    case throttleLogin userId failedLoginAttempts lockedUntil =>
      exact hs.carry (carries_updateUser (by intro _; rfl))
    case rehash userId passwordHash =>
      exact hs.carry (carries_setPassword (by simpa [Op.draws] using hdraws))
    case setMfa userId mfa => exact hs.carry (carries_updateUser (by intro _; rfl))
    case sweep ids => exact hs.carry (carries_filter (List.Subset.refl _))

theorem inv_of_reachable (h : (recoverySystem cfg).Reachable s) : Inv cfg s :=
  h.induct (fun _ => inv_initial cfg) fun _ _ _ _ => inv_of_step

/-! ## The second factor -/

theorem mfa_updateUser {userId : String} {f : User → User} (hf : ∀ u, (f u).id = u.id)
    (hsame : ∀ u, (f u).mfa = u.mfa) (id : String) :
    ((s.updateUser userId f hf).users.find? id).map (·.mfa) = (s.users.find? id).map (·.mfa) := by
  unfold Store.updateUser
  rw [KeyedTable.find?_modify, Option.map_map]
  congr 1
  funext u
  show (if u.id = userId then f u else u).mfa = u.mfa
  split
  · exact hsame u
  · rfl

theorem users_consumeCode (key : ByteArray) (userId code : String) (purpose : Purpose) :
    (consumeCode cfg s key userId purpose code).1.users = s.users := by
  unfold consumeCode
  split
  · rfl
  · dsimp only
    split
    · rfl
    · split
      · rfl
      · split
        · exact users_present _ _
        · exact users_present _ _

theorem mfa_setPassword (userId passwordHash id : String) :
    ((s.setPassword userId passwordHash).users.find? id).map (·.mfa) =
      (s.users.find? id).map (·.mfa) := by
  exact mfa_updateUser (f := fun u => { u with passwordHash }) (fun _ => rfl) (fun _ => rfl) id

theorem mfa_replacePassword (userId passwordHash id : String) :
    ((replacePassword s userId passwordHash c).users.find? id).map (·.mfa) =
      (s.users.find? id).map (·.mfa) := by
  let accepted := s.record (.accepted c.id s.clock)
  calc ((replacePassword s userId passwordHash c).users.find? id).map (·.mfa)
      = ((accepted.setPassword userId passwordHash).users.find? id).map (·.mfa) := by
        apply mfa_updateUser (s := accepted.setPassword userId passwordHash)
        · intro u
          rfl
        · intro u
          rfl
    _ = (s.users.find? id).map (·.mfa) := mfa_setPassword userId passwordHash id

/-- Whatever comes of it, the second factor of every account stays as it is. -/
theorem mfa_confirmPasswordReset (userId code passwordHash : String) (compromised : Bool)
    (id : String) :
    ((confirmPasswordReset cfg s userId code passwordHash compromised).1.users.find? id).map
      (·.mfa) = (s.users.find? id).map (·.mfa) := by
  unfold confirmPasswordReset
  split
  · rfl
  · split
    · rfl
    · next user _ =>
      split
      · rfl
      · next email _ =>
        let asked := s.ask cfg.recoveryKey
          (resetContext user.id user.passwordHash email.normalizedEmail)
        have husers : (consumeCode cfg asked (derivePasswordResetKey cfg cfg.recoveryKey user.id
            user.passwordHash email.normalizedEmail) user.id .passwordReset code).1.users =
            asked.users := users_consumeCode _ _ _ _
        dsimp only
        split
        · next hresult =>
          rw [hresult] at husers
          rw [husers]
          rfl
        · next s' record hresult =>
          rw [hresult] at husers
          rw [mfa_replacePassword, husers]
          rfl

/-! ## Every run -/

/-- **Under any requests**, one code at most is active for an account and a purpose; five wrong
guesses or one use consume it; every use was of a code that had not expired and that no newer code,
no other recovery address and, for a reset code, no other password had ended; and a reset leaves
the second factor of every account alone. -/
theorem recovery_codes (h : (recoverySystem cfg).Reachable s) (hfree : CollisionFree cfg s.asked) :
    (∀ c ∈ s.codes.rows, ∀ d ∈ s.codes.rows, c.consumedAt = none → d.consumedAt = none →
      c.userId = d.userId → c.purpose = d.purpose → c = d) ∧
    (∀ id, s.log.count (.guessed id) ≤ maxCodeAttempts) ∧
    (∀ c ∈ s.codes.rows, (s.log.count (.guessed c.id) = maxCodeAttempts ∨
      ∃ time, .accepted c.id time ∈ s.log) → c.consumedAt ≠ none) ∧
    (∀ later id time earlier, s.log = later ++ .accepted id time :: earlier →
      Lawful id time earlier) ∧
    ∀ userId code passwordHash compromised id,
      ((confirmPasswordReset cfg s userId code passwordHash compromised).1.users.find? id).map
        (·.mfa) = (s.users.find? id).map (·.mfa) := by
  have hs := inv_of_reachable h
  refine ⟨?_, hs.guesses, ?_, hs.lawful hfree, mfa_confirmPasswordReset⟩
  · intro c hc d hd hactive hactive' huser hpurpose
    exact KeyedTable.eq_of_key hc hd (hs.single c hc d hd hactive hactive' huser hpurpose)
  · intro c hc hdead
    obtain ⟨between, before, hlife⟩ := hs.lives c hc
    rcases hdead with hguesses | ⟨time, haccepted⟩
    · intro hactive
      have hfew := hlife.few hactive
      rw [hlife.count] at hguesses
      omega
    · exact hlife.consumed haccepted

/-! ### A new recovery address, and a reset after one wrong guess -/

/-- Stands for HMAC: it tells keys and messages of different lengths apart. -/
def sampleHmac : HmacSha256 := fun key message =>
  ⟨key.size.toUInt8 :: message.size.toUInt8 :: List.replicate 30 0, rfl⟩

def sampleSettings : Settings := ⟨sampleHmac, fun cs => cs.map Char.toLower, "key".toUTF8, 15⟩

def sampleOps : List Op := [
  .register "alice" "alice" "hash-1",
  .requestEmailVerification "alice" "Alice@example.org" "code-1" "abcdefghjk",
  .changePassword "alice" "hash-2",
  .verifyAccountEmail "alice" "ABCDE-FGHJK",
  .findAccount "alice@example.org",
  .requestPasswordReset "alice" "code-2" "23456789ab" false,
  .confirmPasswordReset "alice" "23456789" "hash-3" false,
  .confirmPasswordReset "alice" "23456789ab" "hash-3" false]

def sampleStore : Store :=
  (System.exec (step sampleSettings) (Store.initial 0) sampleOps).get (by decide +kernel)

theorem reachable_sampleStore : (recoverySystem sampleSettings).Reachable sampleStore :=
  ⟨Store.initial 0, sampleOps, rfl, System.run_of_exec (Option.some_get _).symm⟩

theorem sampleStore_log : sampleStore.log = [
    .passwordChanged "alice", .accepted "code-2" 0, .guessed "code-2",
    .issued "code-2" "alice" .passwordReset 900000000,
    .mailboxChanged "alice", .accepted "code-1" 0, .passwordChanged "alice",
    .issued "code-1" "alice" .emailVerify 900000000] := by decide +kernel

theorem sampleStore_collisionFree : CollisionFree sampleSettings sampleStore.asked := by
  have hall : ∀ p ∈ sampleStore.asked, ∀ q ∈ sampleStore.asked,
      hexdigest (sampleHmac p.1 p.2) = hexdigest (sampleHmac q.1 q.2) → p = q := by decide +kernel
  intro p hp q hq
  exact hall p hp q hq

theorem recovery_codes_sample :
    sampleStore.log.count (.guessed "code-2") ≤ maxCodeAttempts ∧
      Lawful "code-2" 0 (sampleStore.log.drop 2) ∧ Lawful "code-1" 0 (sampleStore.log.drop 6) := by
  obtain ⟨-, hguesses, -, hlawful, -⟩ :=
    recovery_codes reachable_sampleStore sampleStore_collisionFree
  refine ⟨hguesses "code-2", hlawful (sampleStore.log.take 1) _ _ _ ?_,
    hlawful (sampleStore.log.take 5) _ _ _ ?_⟩ <;> rw [sampleStore_log] <;> rfl

/-- A code for a new recovery address is used after the password has changed. -/
theorem verification_code_outlives_password :
    ∃ s later id time between userId expiresAt before,
      (recoverySystem sampleSettings).Reachable s ∧
      s.log = later ++ .accepted id time ::
        (between ++ .issued id userId .emailVerify expiresAt :: before) ∧
      .passwordChanged userId ∈ between :=
  ⟨sampleStore, sampleStore.log.take 5, "code-1", 0, [.passwordChanged "alice"], "alice", 900000000,
    [], reachable_sampleStore, by rw [sampleStore_log]; rfl, List.mem_singleton_self _⟩

end Scap.Recovery
