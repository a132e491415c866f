import Scap.Recovery.Model

/-!
# The life of a code

A code lives from its `issued` event on. `Life` splits the log there and says what may stand after
it: as many wrong guesses as the row counts, and, as long as the row is not consumed, nothing that
ends the code, except that a changed password does not consume a reset code. That one is bound to
the password hash instead: the hash it was issued for is no longer that of the account.

* `Inv.carry`, `Inv.burn`, `Inv.wrongGuess`, `Inv.issueCode`, `Inv.accept`, `Inv.changeMailbox` —
  what the writes of the routes preserve.
-/

namespace Scap.Recovery

open Scap.Lib Scap.Py

variable (cfg : Settings)

/-! ## Histories -/

/-- Whether the event is about this very code. -/
def Event.names (e : Event) (id : String) : Bool :=
  match e with
  | .issued i _ _ _ => i = id
  | .guessed i => i = id
  | .accepted i _ => i = id
  | .passwordChanged _ => false
  | .mailboxChanged _ => false

/-- What no code outlives: its use, a newer code for the same purpose, another recovery address and,
for a reset code, another password. -/
def Event.ends (e : Event) (id userId : String) (purpose : Purpose) : Bool :=
  match e with
  | .issued _ u p _ => u = userId && p = purpose
  | .guessed _ => false
  | .accepted i _ => i = id
  | .passwordChanged u => u = userId && purpose = .passwordReset
  | .mailboxChanged u => u = userId

/-- A use of a code, seen from what was before it: the code was issued once, has not expired, and
nothing has ended it since. -/
def Lawful (id : String) (time : Int) (earlier : List Event) : Prop :=
  ∃ between before userId purpose expiresAt,
    earlier = between ++ .issued id userId purpose expiresAt :: before ∧
    time < expiresAt ∧
    (∀ e ∈ between, e.ends id userId purpose = false) ∧
    between.count (.guessed id) < maxCodeAttempts ∧
    ∀ e ∈ before, e.names id = false

/-- HMAC has had no collision so far. -/
def CollisionFree (asked : List (ByteArray × ByteArray)) : Prop :=
  Set.InjOn (fun p : ByteArray × ByteArray => hexdigest (cfg.hmac p.1 p.2)) {p | p ∈ asked}

/-! ## The invariant -/

/-- A reset code is bound to the password hash it was issued for. -/
def Bound (s : Store) (c : RecoveryCode) (between : List Event) : Prop :=
  ∃ passwordHash email code,
    let key := derivePasswordResetKey cfg cfg.recoveryKey c.userId passwordHash email
    c.codeHash = hashCode cfg key code ∧
    (cfg.recoveryKey, resetContext c.userId passwordHash email) ∈ s.asked ∧
    (key, code.toUTF8) ∈ s.asked ∧
    passwordHash ∈ s.hashes ∧
    ∀ v ∈ s.users.rows, v.id = c.userId → v.passwordHash = passwordHash →
      .passwordChanged c.userId ∉ between

/-- The log, split where the code was issued. -/
structure Life (s : Store) (c : RecoveryCode) (between before : List Event) : Prop where
  log : s.log = between ++ .issued c.id c.userId c.purpose c.expiresAt :: before
  fresh : ∀ e ∈ before, e.names c.id = false
  attempts : between.count (.guessed c.id) = c.attempts
  few : c.consumedAt = none → c.attempts < maxCodeAttempts
  going : c.consumedAt = none → ∀ e ∈ between, e.ends c.id c.userId c.purpose = true →
    e = .passwordChanged c.userId
  bound : c.consumedAt = none → c.purpose = .passwordReset → Bound cfg s c between

/-- Every code has a life in the log, and one of a purpose is left. -/
structure Inv (s : Store) : Prop where
  lives : ∀ c ∈ s.codes.rows, ∃ between before, Life cfg s c between before
  single : ∀ c ∈ s.codes.rows, ∀ d ∈ s.codes.rows, c.consumedAt = none → d.consumedAt = none →
    c.userId = d.userId → c.purpose = d.purpose → c.id = d.id
  drawn : ∀ e ∈ s.log, ∀ id, e.names id = true → id ∈ s.drawn
  guesses : ∀ id, s.log.count (.guessed id) ≤ maxCodeAttempts
  hashes : ∀ v ∈ s.users.rows, v.passwordHash ∈ s.hashes
  lawful : CollisionFree cfg s.asked → ∀ later id time earlier,
    s.log = later ++ .accepted id time :: earlier → Lawful id time earlier

theorem inv_initial {s : Store} (h : Initial s) : Inv cfg s := by
  rw [h]
  constructor <;> simp [Store.initial]

variable {cfg} {s t : Store} {c d : RecoveryCode} {between before : List Event} {e : Event}

/-! ## Histories that grow -/

theorem CollisionFree.mono {asked more : List (ByteArray × ByteArray)} (h : asked ⊆ more)
    (hfree : CollisionFree cfg more) : CollisionFree cfg asked :=
  Set.InjOn.mono (fun _ hp => h hp) hfree

/-- Another event after the life of a code so far. -/
theorem Life.cons (hc : Life cfg s c between before) (hlog : t.log = e :: s.log)
    (hguess : e ≠ .guessed c.id)
    (hends : c.consumedAt = none → e.ends c.id c.userId c.purpose = true →
      e = .passwordChanged c.userId)
    (hbound : c.consumedAt = none → c.purpose = .passwordReset → Bound cfg t c (e :: between)) :
    Life cfg t c (e :: between) before where
  log := by rw [hlog, hc.log, List.cons_append]
  fresh := hc.fresh
  attempts := by rw [List.count_cons_of_ne hguess, hc.attempts]
  few := hc.few
  going := by
    intro hactive x hx hx'
    rcases List.mem_cons.mp hx with rfl | hx
    · exact hends hactive hx'
    · exact hc.going hactive x hx hx'
  bound := hbound

/-- What `Bound` says survives as long as the account gets no hash from before. -/
theorem Bound.carry (hb : Bound cfg s c between) (hasked : s.asked ⊆ t.asked)
    (hhashes : s.hashes ⊆ t.hashes)
    (husers : ∀ v ∈ t.users.rows, v.passwordHash ∉ s.hashes ∨
      ∃ w ∈ s.users.rows, w.id = v.id ∧ w.passwordHash = v.passwordHash) :
    Bound cfg t c between := by
  obtain ⟨passwordHash, email, code, hhash, hkey, hcode, hstored, hunchanged⟩ := hb
  refine ⟨passwordHash, email, code, hhash, hasked hkey, hasked hcode, hhashes hstored, ?_⟩
  intro v hv hid hcurrent
  rcases husers v hv with hnew | ⟨w, hw, hwid, hwhash⟩
  · exact absurd (hcurrent ▸ hstored) hnew
  · exact hunchanged w hw (hwid.trans hid) (hwhash.trans hcurrent)

theorem Bound.cons (hb : Bound cfg s c between) (he : e ≠ .passwordChanged c.userId) :
    Bound cfg s c (e :: between) := by
  obtain ⟨passwordHash, email, code, hhash, hkey, hcode, hstored, hunchanged⟩ := hb
  refine ⟨passwordHash, email, code, hhash, hkey, hcode, hstored, ?_⟩
  intro v hv hid hcurrent hmem
  rcases List.mem_cons.mp hmem with hmem | hmem
  · exact he hmem.symm
  · exact hunchanged v hv hid hcurrent hmem

/-- The whole log has no more wrong guesses on a code than its life. -/
theorem Life.count (hc : Life cfg s c between before) :
    s.log.count (.guessed c.id) = c.attempts := by
  have hbefore : before.count (.guessed c.id) = 0 := by
    apply List.count_eq_zero.mpr
    intro hmem
    simpa [Event.names] using hc.fresh _ hmem
  rw [hc.log, List.count_append, List.count_cons_of_ne (by simp), hbefore, hc.attempts, Nat.add_zero]

/-- The use of a code ends it. -/
theorem Life.consumed {time : Int} (hc : Life cfg s c between before)
    (h : .accepted c.id time ∈ s.log) : c.consumedAt ≠ none := by
  intro hactive
  rw [hc.log] at h
  rcases List.mem_append.mp h with h | h
  · have hlast := hc.going hactive _ h (by simp [Event.ends])
    cases hlast
  · rcases List.mem_cons.mp h with h | h
    · cases h
    · simpa [Event.names] using hc.fresh _ h

theorem Inv.lawful_cons (hs : Inv cfg s) (hlog : t.log = e :: s.log) (hasked : s.asked ⊆ t.asked)
    (he : ∀ id time, e = .accepted id time → CollisionFree cfg t.asked → Lawful id time s.log) :
    CollisionFree cfg t.asked → ∀ later id time earlier,
      t.log = later ++ .accepted id time :: earlier → Lawful id time earlier := by
  intro hfree later id time earlier hsplit
  rw [hlog] at hsplit
  rcases List.cons_eq_append_iff.mp hsplit with ⟨-, hhead⟩ | ⟨rest, -, hrest⟩
  · obtain ⟨rfl, rfl⟩ := List.cons.inj hhead
    exact he id time rfl hfree
  · exact hs.lawful (CollisionFree.mono hasked hfree) rest id time earlier hrest

/-! ## Writes that leave the codes alone -/

/-- Codes may go or be consumed, accounts may get new hashes, and a change of password may be
noted. -/
structure Carries (s t : Store) : Prop where
  codes : ∀ c ∈ t.codes.rows, c ∈ s.codes.rows ∨
    ∃ d ∈ s.codes.rows, ∃ now, c = { d with consumedAt := some now }
  log : t.log = s.log ∨ ∃ userId, t.log = .passwordChanged userId :: s.log ∧
    ∀ v ∈ t.users.rows, v.id = userId → v.passwordHash ∉ s.hashes
  users : ∀ v ∈ t.users.rows, (v.passwordHash ∉ s.hashes ∧ v.passwordHash ∈ t.hashes) ∨
    ∃ w ∈ s.users.rows, w.id = v.id ∧ w.passwordHash = v.passwordHash
  hashes : s.hashes ⊆ t.hashes
  drawn : s.drawn ⊆ t.drawn
  asked : s.asked ⊆ t.asked

theorem Carries.bound (h : Carries s t) (hb : Bound cfg s c between) : Bound cfg t c between :=
  hb.carry h.asked h.hashes fun v hv => (h.users v hv).imp_left And.left

/-- A new password is none that a code is bound to. -/
theorem Carries.bound_cons {userId : String} (h : Carries s t) (hb : Bound cfg s c between)
    (hnew : ∀ v ∈ t.users.rows, v.id = userId → v.passwordHash ∉ s.hashes) :
    Bound cfg t c (.passwordChanged userId :: between) := by
  by_cases hu : userId = c.userId
  · obtain ⟨passwordHash, email, code, hhash, hkey, hcode, hstored, -⟩ := hb
    refine ⟨passwordHash, email, code, hhash, h.asked hkey, h.asked hcode, h.hashes hstored, ?_⟩
    intro v hv hid hcurrent
    exact absurd (hcurrent ▸ hstored) (hnew v hv (hid.trans hu.symm))
  · exact (h.bound hb).cons (by simpa using hu)

/-- An active code was there before. -/
theorem Carries.active (h : Carries s t) (hc : c ∈ t.codes.rows) (hactive : c.consumedAt = none) :
    c ∈ s.codes.rows := by
  rcases h.codes c hc with hc | ⟨d, -, now, rfl⟩
  · exact hc
  · cases hactive

/-- A consumed code has the life it had. -/
theorem Life.consume (hc : Life cfg s c between before) (now : Int) :
    Life cfg s { c with consumedAt := some now } between before where
  log := hc.log
  fresh := hc.fresh
  attempts := hc.attempts
  few := nofun
  going := nofun
  bound := nofun

theorem Inv.carry (hs : Inv cfg s) (h : Carries s t) : Inv cfg t where
  lives := by
    intro c hc
    have hlived : ∃ between before, Life cfg s c between before := by
      rcases h.codes c hc with hc | ⟨d, hd, now, rfl⟩
      · exact hs.lives c hc
      · obtain ⟨between, before, hlife⟩ := hs.lives d hd
        exact ⟨between, before, hlife.consume now⟩
    obtain ⟨between, before, hlife⟩ := hlived
    rcases h.log with hlog | ⟨userId, hlog, hnew⟩
    · refine ⟨between, before, hlog.trans hlife.log, hlife.fresh, hlife.attempts, hlife.few,
        hlife.going, ?_⟩
      intro hactive hreset
      exact h.bound (hlife.bound hactive hreset)
    · refine ⟨_, before, hlife.cons hlog (by simp) ?_ ?_⟩
      · intro _ hends
        have hu : userId = c.userId ∧ c.purpose = .passwordReset := by
          simpa [Event.ends] using hends
        rw [hu.1]
      · intro hactive hreset
        exact h.bound_cons (hlife.bound hactive hreset) hnew
  single := by
    intro c hc d hd hactive hactive'
    exact hs.single c (h.active hc hactive) d (h.active hd hactive') hactive hactive'
  drawn := by
    intro e he id hid
    rcases h.log with hlog | ⟨userId, hlog, -⟩
    · exact h.drawn (hs.drawn e (hlog ▸ he) id hid)
    · rw [hlog] at he
      rcases List.mem_cons.mp he with rfl | he
      · simp [Event.names] at hid
      · exact h.drawn (hs.drawn e he id hid)
  guesses := by
    intro id
    rcases h.log with hlog | ⟨userId, hlog, -⟩
    · rw [hlog]
      exact hs.guesses id
    · rw [hlog, List.count_cons_of_ne (by simp)]
      exact hs.guesses id
  hashes := by
    intro v hv
    rcases h.users v hv with ⟨-, hnew⟩ | ⟨w, hw, -, hsame⟩
    · exact hnew
    · exact h.hashes (hsame ▸ hs.hashes w hw)
  lawful := by
    rcases h.log with hlog | ⟨userId, hlog, -⟩
    · intro hfree later id time earlier hsplit
      exact hs.lawful (CollisionFree.mono h.asked hfree) later id time earlier (hlog.symm.trans hsplit)
    · exact hs.lawful_cons hlog h.asked fun id time he => nomatch he

/-- A write to anything else. -/
theorem carries_of_eq (hcodes : t.codes = s.codes) (hlog : t.log = s.log)
    (husers : t.users = s.users) (hhashes : t.hashes = s.hashes) (hdrawn : t.drawn = s.drawn)
    (hasked : t.asked = s.asked) : Carries s t where
  codes c hc := .inl (hcodes ▸ hc)
  log := .inl hlog
  users v hv := .inr ⟨v, husers ▸ hv, rfl, rfl⟩
  hashes := by rw [hhashes]; exact List.Subset.refl _
  drawn := by rw [hdrawn]; exact List.Subset.refl _
  asked := by rw [hasked]; exact List.Subset.refl _

/-- A write to an account that is not its password. -/
theorem carries_updateUser {userId : String} {f : User → User} {hf : ∀ u, (f u).id = u.id}
    (hsame : ∀ u, (f u).passwordHash = u.passwordHash) : Carries s (s.updateUser userId f hf) where
  codes _ hc := .inl hc
  log := .inl rfl
  users := by
    intro v hv
    obtain ⟨w, hw, rfl⟩ := List.mem_map.mp hv
    refine .inr ⟨w, hw, ?_⟩
    split <;> simp [hf, hsame]
  hashes := List.Subset.refl _
  drawn := List.Subset.refl _
  asked := List.Subset.refl _

theorem carries_ask (key message : ByteArray) : Carries s (s.ask key message) where
  codes _ hc := .inl hc
  log := .inl rfl
  users v hv := .inr ⟨v, hv, rfl, rfl⟩
  hashes := List.Subset.refl _
  drawn := List.Subset.refl _
  asked := List.subset_cons_self _ _

theorem carries_present (key : ByteArray) (candidate : String) :
    Carries s (s.present key candidate) := by
  unfold Store.present
  split
  · exact carries_ask _ _
  · exact carries_of_eq rfl rfl rfl rfl rfl rfl

@[simp] theorem codes_present (key : ByteArray) (candidate : String) :
    (s.present key candidate).codes = s.codes := by
  unfold Store.present
  split <;> rfl

@[simp] theorem clock_present (key : ByteArray) (candidate : String) :
    (s.present key candidate).clock = s.clock := by
  unfold Store.present
  split <;> rfl

@[simp] theorem log_present (key : ByteArray) (candidate : String) :
    (s.present key candidate).log = s.log := by
  unfold Store.present
  split <;> rfl

@[simp] theorem hashes_present (key : ByteArray) (candidate : String) :
    (s.present key candidate).hashes = s.hashes := by
  unfold Store.present
  split <;> rfl

@[simp] theorem users_present (key : ByteArray) (candidate : String) :
    (s.present key candidate).users = s.users := by
  unfold Store.present
  split <;> rfl

theorem mem_present {key : ByteArray} {candidate : String} (h : isAscii candidate = true) :
    (key, candidate.toUTF8) ∈ (s.present key candidate).asked := by
  rw [Store.present, if_pos h]
  exact List.mem_cons_self

/-- The accounts after a password hash is stored. -/
theorem mem_setPassword {userId passwordHash : String} {v : User}
    (h : v ∈ (s.setPassword userId passwordHash).users.rows) :
    (v.id = userId ∧ v.passwordHash = passwordHash) ∨ (v.id ≠ userId ∧ v ∈ s.users.rows) := by
  obtain ⟨w, hw, rfl⟩ := List.mem_map.mp h
  by_cases hid : w.id = userId
  · simp [hid]
  · rw [if_neg hid]
    exact .inr ⟨hid, hw⟩

theorem carries_setPassword {userId passwordHash : String} (hnew : passwordHash ∉ s.hashes) :
    Carries s (s.setPassword userId passwordHash) where
  codes _ hc := .inl hc
  log := .inl rfl
  users := by
    intro v hv
    rcases mem_setPassword hv with ⟨-, hhash⟩ | ⟨-, hv⟩
    · rw [hhash]
      exact .inl ⟨hnew, List.mem_cons_self⟩
    · exact .inr ⟨v, hv, rfl, rfl⟩
  hashes := List.subset_cons_self _ _
  drawn := List.Subset.refl _
  asked := List.Subset.refl _

/-- The codes after some are burned. -/
theorem mem_burn {p : RecoveryCode → Bool} (h : c ∈ (s.burn p).codes.rows) :
    (c ∈ s.codes.rows ∧ (c.consumedAt = none → p c = false)) ∨
      ∃ d ∈ s.codes.rows, c = { d with consumedAt := some s.clock } := by
  obtain ⟨d, hd, rfl⟩ := List.mem_map.mp h
  by_cases hburnt : (p d && d.consumedAt = none) = true
  · rw [if_pos hburnt]
    exact .inr ⟨d, hd, rfl⟩
  · rw [if_neg hburnt]
    refine .inl ⟨hd, ?_⟩
    intro hactive
    simpa [hactive] using hburnt

theorem carries_burn (p : RecoveryCode → Bool) : Carries s (s.burn p) where
  codes := by
    intro c hc
    rcases mem_burn hc with ⟨hc, -⟩ | ⟨d, hd, rfl⟩
    · exact .inl hc
    · exact .inr ⟨d, hd, s.clock, rfl⟩
  log := .inl rfl
  users v hv := .inr ⟨v, hv, rfl, rfl⟩
  hashes := List.Subset.refl _
  drawn := List.Subset.refl _
  asked := List.Subset.refl _

/-- Codes are deleted, and perhaps accounts. -/
theorem carries_filter {users : KeyedTable User.id} {emails : KeyedTable AccountEmail.userId}
    {p : RecoveryCode → Bool} (husers : users.rows ⊆ s.users.rows) :
    Carries s { s with users, emails, codes := s.codes.filter p } where
  codes _ hc := .inl (KeyedTable.mem_filter.mp hc).1
  log := .inl rfl
  users v hv := .inr ⟨v, husers hv, rfl, rfl⟩
  hashes := List.Subset.refl _
  drawn := List.Subset.refl _
  asked := List.Subset.refl _

/-! ## Writes that a code notices -/

/-- Another event about codes. -/
theorem Inv.drawn_cons (hs : Inv cfg s) (hlog : t.log = e :: s.log) (hdrawn : s.drawn ⊆ t.drawn)
    (he : ∀ id, e.names id = true → id ∈ t.drawn) :
    ∀ x ∈ t.log, ∀ id, x.names id = true → id ∈ t.drawn := by
  intro x hx id hid
  rw [hlog] at hx
  rcases List.mem_cons.mp hx with rfl | hx
  · exact he id hid
  · exact hdrawn (hs.drawn x hx id hid)

/-- An identifier that is not drawn yet occurs nowhere. -/
theorem Inv.unnamed {id : String} (hs : Inv cfg s) (h : id ∉ s.drawn) :
    ∀ e ∈ s.log, e.names id = false := by
  intro e he
  by_contra hnamed
  exact h (hs.drawn e he id (by simpa using hnamed))

theorem Inv.id_drawn (hs : Inv cfg s) (hc : c ∈ s.codes.rows) : c.id ∈ s.drawn := by
  obtain ⟨between, before, hlife⟩ := hs.lives c hc
  have hissued : Event.issued c.id c.userId c.purpose c.expiresAt ∈ s.log := by
    rw [hlife.log]
    simp
  exact hs.drawn _ hissued c.id (by simp [Event.names])

/-- A wrong guess counts on the code that it was made on, and the fifth one consumes it. -/
theorem Inv.wrongGuess (hs : Inv cfg s) (hc : c ∈ s.codes.rows) (hactive : c.consumedAt = none) :
    Inv cfg (wrongGuess s c.id) where
  lives := by
    intro d hd
    obtain ⟨r, hr, rfl⟩ := List.mem_map.mp hd
    obtain ⟨between, before, hlife⟩ := hs.lives r hr
    by_cases hid : r.id = c.id
    · -- the guess is on this code
      obtain rfl := KeyedTable.eq_of_key hr hc hid
      rw [if_pos rfl]
      refine ⟨.guessed r.id :: between, before, ?_, hlife.fresh, ?_, ?_, ?_, ?_⟩
      · show _ :: s.log = _
        rw [hlife.log]
        rfl
      · show (_ :: between).count (.guessed r.id) = r.attempts + 1
        rw [List.count_cons_self, hlife.attempts]
      · intro hmissed
        show r.attempts + 1 < maxCodeAttempts
        by_contra hmany
        simp [RecoveryCode.miss, not_lt.mp hmany] at hmissed
      · intro _ x hx hends
        rcases List.mem_cons.mp hx with rfl | hx
        · simp [Event.ends] at hends
        · exact hlife.going hactive x hx hends
      · intro _ hreset
        exact (hlife.bound hactive hreset).cons (by simp)
    · rw [if_neg hid]
      refine ⟨.guessed c.id :: between, before, hlife.cons rfl ?_ ?_ ?_⟩
      · simpa using Ne.symm hid
      · intro _ hends
        simp [Event.ends] at hends
      · intro hactive' hreset
        exact (hlife.bound hactive' hreset).cons (by simp)
  single := by
    intro a ha b hb hactive₁ hactive₂
    obtain ⟨x, hx, rfl⟩ := List.mem_map.mp ha
    obtain ⟨y, hy, rfl⟩ := List.mem_map.mp hb
    have hmissed : ∀ r : RecoveryCode, (if r.id = c.id then r.miss s.clock else r).consumedAt = none →
        r.consumedAt = none := by
      intro r
      split
      · simp only [RecoveryCode.miss]
        split
        · exact nofun
        · exact id
      · exact id
    have hsame := hs.single x hx y hy (hmissed x hactive₁) (hmissed y hactive₂)
    split <;> split <;> exact hsame
  drawn := by
    refine hs.drawn_cons rfl (List.Subset.refl _) ?_
    intro id hid
    obtain rfl : c.id = id := by simpa [Event.names] using hid
    exact hs.id_drawn hc
  guesses := by
    intro id
    show (_ :: s.log).count (.guessed id) ≤ maxCodeAttempts
    obtain ⟨between, before, hlife⟩ := hs.lives c hc
    by_cases hid : c.id = id
    · have hfew := hlife.few hactive
      rw [← hid, List.count_cons_self, hlife.count]
      omega
    · rw [List.count_cons_of_ne (by simpa using hid)]
      exact hs.guesses id
  hashes := hs.hashes
  lawful := hs.lawful_cons rfl (List.Subset.refl _) fun id time he => nomatch he

/-- A new code supersedes the others of its account and purpose. -/
theorem Inv.issueCode {key : ByteArray} {userId id code : String} {purpose : Purpose}
    {target : Option String} (hs : Inv cfg s) (hid : id ∉ s.drawn)
    (hbound : purpose = .passwordReset → ∃ passwordHash email,
      key = derivePasswordResetKey cfg cfg.recoveryKey userId passwordHash email ∧
      (cfg.recoveryKey, resetContext userId passwordHash email) ∈ s.asked ∧
      passwordHash ∈ s.hashes) :
    Inv cfg (issueCode cfg s key userId purpose target id code) := by
  let burnt := s.burn fun c => c.userId = userId && c.purpose = purpose
  have hb : Inv cfg burnt := hs.carry (carries_burn _)
  -- the burnt codes: no other active one of the account has this purpose
  have hothers : ∀ c ∈ burnt.codes.rows, c.consumedAt = none →
      ¬ (c.userId = userId ∧ c.purpose = purpose) := by
    intro c hc hactive
    rcases mem_burn hc with ⟨-, hpass⟩ | ⟨d, -, rfl⟩
    · simpa using hpass hactive
    · cases hactive
  have hids : ∀ c ∈ burnt.codes.rows, c.id ≠ id := by
    intro c hc heq
    exact hid (heq ▸ hb.id_drawn hc)
  constructor
  case lives =>
    intro c hc
    rcases (KeyedTable.mem_insertNew hids).mp hc with rfl | hc
    · refine ⟨[], s.log, rfl, hs.unnamed hid, rfl, fun _ => Nat.zero_lt_succ 4, nofun, ?_⟩
      intro _ hreset
      obtain ⟨passwordHash, email, rfl, hasked, hstored⟩ := hbound hreset
      refine ⟨passwordHash, email, code, rfl, List.mem_cons_of_mem _ hasked, List.mem_cons_self,
        hstored, ?_⟩
      intro v _ _ _
      exact List.not_mem_nil
    · obtain ⟨between, before, hlife⟩ := hb.lives c hc
      refine ⟨_, before, hlife.cons rfl (by simp) ?_ ?_⟩
      -- the life of an older code goes on unless this event ends it, and that one is burnt
      · intro hactive hends
        have hsame : userId = c.userId ∧ purpose = c.purpose := by simpa [Event.ends] using hends
        exact absurd ⟨hsame.1.symm, hsame.2.symm⟩ (hothers c hc hactive)
      · intro hactive hreset
        refine Bound.cons ?_ (by simp)
        refine (hlife.bound hactive hreset).carry (List.subset_cons_self _ _) (List.Subset.refl _) ?_
        intro v hv
        exact .inr ⟨v, hv, rfl, rfl⟩
  case single =>
    intro c hc d hd hactive hactive' huser hpurpose
    rcases (KeyedTable.mem_insertNew hids).mp hc with rfl | hc
    · rcases (KeyedTable.mem_insertNew hids).mp hd with rfl | hd
      · rfl
      · exact absurd ⟨huser.symm, hpurpose.symm⟩ (hothers d hd hactive')
    · rcases (KeyedTable.mem_insertNew hids).mp hd with rfl | hd
      · exact absurd ⟨huser, hpurpose⟩ (hothers c hc hactive)
      · exact hb.single c hc d hd hactive hactive' huser hpurpose
  case drawn =>
    apply hs.drawn_cons rfl (List.subset_cons_self _ _)
    intro i hi
    obtain rfl : id = i := by simpa [Event.names] using hi
    exact List.mem_cons_self
  case guesses =>
    intro i
    show (_ :: s.log).count (.guessed i) ≤ maxCodeAttempts
    rw [List.count_cons_of_ne (by simp)]
    exact hs.guesses i
  case hashes => exact hs.hashes
  case lawful => exact hs.lawful_cons rfl (List.subset_cons_self _ _) fun id time he => nomatch he

/-- A consumed code is accepted. -/
theorem Inv.accept {id : String} (hs : Inv cfg s) (hid : id ∈ s.drawn)
    (hconsumed : ∀ d ∈ s.codes.rows, d.id = id → d.consumedAt ≠ none)
    (hlawful : CollisionFree cfg s.asked → Lawful id s.clock s.log) :
    Inv cfg (s.record (.accepted id s.clock)) where
  lives := by
    intro d hd
    obtain ⟨between, before, hlife⟩ := hs.lives d hd
    refine ⟨_, before, hlife.cons rfl (by simp) ?_ ?_⟩
    · intro hactive hends
      have hsame : id = d.id := by simpa [Event.ends] using hends
      exact absurd hactive (hconsumed d hd hsame.symm)
    · intro hactive hreset
      exact (hlife.bound hactive hreset).cons (by simp)
  single := hs.single
  drawn := by
    refine hs.drawn_cons rfl (List.Subset.refl _) ?_
    intro i hi
    obtain rfl : id = i := by simpa [Event.names] using hi
    exact hid
  guesses := by
    intro i
    show (_ :: s.log).count (.guessed i) ≤ maxCodeAttempts
    rw [List.count_cons_of_ne (by simp)]
    exact hs.guesses i
  hashes := hs.hashes
  lawful := by
    refine hs.lawful_cons rfl (List.Subset.refl _) ?_
    intro i time he hfree
    obtain ⟨rfl, rfl⟩ := Event.accepted.inj he
    exact hlawful hfree

/-- The recovery address of an account without active codes changes. -/
theorem Inv.changeMailbox {userId : String} (hs : Inv cfg s)
    (hnone : ∀ d ∈ s.codes.rows, d.userId = userId → d.consumedAt ≠ none) :
    Inv cfg (s.record (.mailboxChanged userId)) where
  lives := by
    intro d hd
    obtain ⟨between, before, hlife⟩ := hs.lives d hd
    refine ⟨_, before, hlife.cons rfl (by simp) ?_ ?_⟩
    · intro hactive hends
      have hsame : userId = d.userId := by simpa [Event.ends] using hends
      exact absurd hactive (hnone d hd hsame.symm)
    · intro hactive hreset
      exact (hlife.bound hactive hreset).cons (by simp)
  single := hs.single
  drawn := hs.drawn_cons rfl (List.Subset.refl _) fun id hid => by simp [Event.names] at hid
  guesses := by
    intro i
    show (_ :: s.log).count (.guessed i) ≤ maxCodeAttempts
    rw [List.count_cons_of_ne (by simp)]
    exact hs.guesses i
  hashes := hs.hashes
  lawful := hs.lawful_cons rfl (List.Subset.refl _) fun id time he => nomatch he

end Scap.Recovery
