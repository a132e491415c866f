import Scap.Intrusion.Memory

/-!
# Readings in floats

The state in memory on a clock in floats, next to the same state on a clock that rounds nothing. The
floats are read, compared and subtracted, and `Faithful` says of two times that this comes out as it
does on the times themselves.

* `faithful_of_not_whole` — which it does for times that are no whole number of seconds apart;
* `Mirrors` — one state is the other with floats for its times;
* `Mirrors.record`, `Mirrors.isBlocked`, `Mirrors.unblock` — a method keeps that and answers the same,
  at a reading that is faithful to the times that are stored.
-/

namespace Scap.Intrusion

open Scap.Py Scap.Lib

/-- Rounding does not show at the readings of `t` and `now`: whether a hit at `t` has left the window
and whether a ban from `t` was served is seen from the floats, and so are the whole seconds that are
left of the ban. -/
def Faithful (cfg : Settings) (t now : Int) : Prop :=
  (reading t ≤ Clock.cutoff cfg (reading now) ↔ t ≤ Clock.cutoff cfg now) ∧
    (Clock.expiry cfg (reading t) ≤ reading now ↔ Clock.expiry cfg t ≤ now) ∧
    (now < Clock.expiry cfg t →
      max 1 (Clock.remaining (Clock.expiry cfg (reading t)) (reading now)) =
        max 1 (Clock.remaining (Clock.expiry cfg t) now))

instance (cfg : Settings) : DecidableRel (Faithful cfg) :=
  fun _ _ => inferInstanceAs (Decidable (_ ∧ _))

/-- **Only times that are whole seconds apart can be read unfaithfully**, until the clock shows
`2 ^ 31` seconds. A sum or a difference is then less than a microsecond off, and the window and the
ban end whole seconds after a hit. -/
theorem faithful_of_not_whole {cfg : Settings} {t now : Int} (h0 : 0 ≤ t) (hle : t ≤ now)
    (hsmall : now + cfg.block < 2 ^ 31 * 1000000) (hwhole : ¬ (1000000 : Int) ∣ now - t) :
    Faithful cfg t now := by
  have hdvd : (1000000 : Int) ∣ cfg.block := ⟨cfg.blockSeconds, by unfold Settings.block; ring⟩
  have hpos := cfg.block_pos
  -- the exact times in seconds
  obtain ⟨a, ha⟩ : ∃ a : ℚ, a = t / 1000000 := ⟨_, rfl⟩
  obtain ⟨b, hb⟩ : ∃ b : ℚ, b = now / 1000000 := ⟨_, rfl⟩
  obtain ⟨w, hw⟩ : ∃ w : ℚ, w = cfg.blockSeconds := ⟨_, rfl⟩
  have ht : (t : ℚ) = a * 1000000 := by rw [ha]; ring
  have hnow : (now : ℚ) = b * 1000000 := by rw [hb]; ring
  have hblock : (cfg.block : ℚ) = w * 1000000 := by
    unfold Settings.block
    rw [hw]
    push_cast
    ring
  have ha0 : 0 ≤ a := by
    have : (0 : ℚ) ≤ t := by exact_mod_cast h0
    linarith
  have hab : a ≤ b := by
    have : (t : ℚ) ≤ now := by exact_mod_cast hle
    linarith
  have hbw : b + w < 2 ^ 31 := by
    have : ((now + cfg.block : Int) : ℚ) < ((2 ^ 31 * 1000000 : Int) : ℚ) := by exact_mod_cast hsmall
    push_cast at this
    linarith
  have hw0 : 0 < w := by
    have : (0 : ℚ) < cfg.block := by exact_mod_cast hpos
    linarith
  -- every rounding is off by a quarter of a microsecond at most
  have hround (x : ℚ) (hlo : -2 ^ 32 < x) (hhi : x < 2 ^ 32) :
      -(1 / 4194304) ≤ roundDouble x - x ∧ roundDouble x - x ≤ 1 / 4194304 := by
    have herror := abs_roundDouble_sub_le (n := 32) (abs_lt.mpr ⟨by simpa using hlo, by simpa using hhi⟩)
      (by norm_num)
    rw [show (2 : ℚ) ^ ((32 : Int) - 54) = 1 / 4194304 by norm_num] at herror
    exact abs_le.mp herror
  have hwindow : roundDouble cfg.blockSeconds = w := by
    have hexact := (onGrid_intCast le_rfl (cfg.blockSeconds : Int)).exact (e := 0)
      (by
        push_cast
        rw [← hw, abs_of_pos hw0]
        linarith)
      (by norm_num)
    rw [hw]
    exact_mod_cast hexact
  obtain ⟨hread_lo, hread_hi⟩ := hround a (by linarith) (by linarith)
  obtain ⟨hnow_lo, hnow_hi⟩ := hround b (by linarith) (by linarith)
  rw [show roundDouble a = reading t by rw [ha, reading]] at hread_lo hread_hi
  rw [show roundDouble b = reading now by rw [hb, reading]] at hnow_lo hnow_hi
  obtain ⟨hcut_lo, hcut_hi⟩ := hround (reading now - w) (by linarith) (by linarith)
  obtain ⟨hend_lo, hend_hi⟩ := hround (reading t + w) (by linarith) (by linarith)
  obtain ⟨hleft_lo, hleft_hi⟩ := hround (roundDouble (reading t + w) - reading now)
    (by linarith) (by linarith)
  have hbefore (h : t + cfg.block < now) : a + w + 1 / 1000000 ≤ b := by
    have : ((t + cfg.block + 1 : Int) : ℚ) ≤ now := by exact_mod_cast h
    push_cast at this
    linarith
  have hafter (h : now < t + cfg.block) : b + 1 / 1000000 ≤ a + w := by
    have : ((now + 1 : Int) : ℚ) ≤ ((t + cfg.block : Int) : ℚ) := by exact_mod_cast h
    push_cast at this
    linarith
  have hne : t + cfg.block ≠ now := by omega
  show (reading t ≤ roundDouble (reading now - roundDouble cfg.blockSeconds) ↔ t ≤ now - cfg.block) ∧
    (roundDouble (reading t + roundDouble cfg.blockSeconds) ≤ reading now ↔ t + cfg.block ≤ now) ∧
    (now < t + cfg.block → max 1 ⌊roundDouble
      (roundDouble (reading t + roundDouble cfg.blockSeconds) - reading now)⌋ =
        max 1 ((t + cfg.block - now) / 1000000))
  rw [hwindow]
  rcases lt_or_gt_of_ne hne with hlt | hgt
  · have hout := hbefore hlt
    exact ⟨iff_of_true (by linarith) (by omega), iff_of_true (by linarith) hlt.le, fun h => by omega⟩
  · have hin := hafter hgt
    refine ⟨iff_of_false (by linarith) (by omega), iff_of_false (by linarith) (by omega), fun _ => ?_⟩
    -- what is left lies a microsecond inside a second
    congr 1
    obtain ⟨s, hs⟩ : ∃ s, s = (t + cfg.block - now) / 1000000 := ⟨_, rfl⟩
    have hlo : ((s * 1000000 + 1 : Int) : ℚ) ≤ ((t + cfg.block - now : Int) : ℚ) := by
      exact_mod_cast (by omega : s * 1000000 + 1 ≤ t + cfg.block - now)
    have hhi : ((t + cfg.block - now : Int) : ℚ) ≤ ((s * 1000000 + 999999 : Int) : ℚ) := by
      exact_mod_cast (by omega : t + cfg.block - now ≤ s * 1000000 + 999999)
    push_cast at hlo hhi
    rw [← hs, Int.floor_eq_iff]
    constructor <;> linarith

variable {cfg : Settings} {P Q : Int → Prop} {now : Int} {f : IntrusionState ℚ}
  {m : IntrusionState Int} {ip : String} {d : Detection}

/-- The float state and the exact one. The times of hits and the beginnings of bans have `P`. -/
structure Mirrors (cfg : Settings) (P : Int → Prop) (f : IntrusionState ℚ)
    (m : IntrusionState Int) : Prop where
  detections : f.detections = m.detections
  scores : m.scores.Maps (List.map reading) f.scores
  blocked : ∀ ip, f.blocked.get ip =
    (m.blocked.get ip).map fun until_ => Clock.expiry cfg (reading (until_ - cfg.block))
  nextCleanup : f.nextCleanup = m.nextCleanup
  scored : ∀ ip bucket, m.scores.get ip = some bucket → ∀ t ∈ bucket, P t
  banned : ∀ ip until_, m.blocked.get ip = some until_ → P (until_ - cfg.block)

namespace Mirrors

theorem start : Mirrors cfg P .start .start where
  detections := rfl
  scores := rfl
  blocked _ := rfl
  nextCleanup := rfl
  scored _ _ hget := nomatch hget
  banned _ _ hget := nomatch hget

theorem imp (h : Mirrors cfg P f m) (hPQ : ∀ t, P t → Q t) : Mirrors cfg Q f m :=
  { h with
    scored := fun ip bucket hget t ht => hPQ t (h.scored ip bucket hget t ht)
    banned := fun ip until_ hget => hPQ _ (h.banned ip until_ hget) }

/-! ## Changes of one source -/

theorem pop_scores (h : Mirrors cfg P f m) (ip : String) :
    Mirrors cfg P { f with scores := f.scores.pop ip } { m with scores := m.scores.pop ip } where
  detections := h.detections
  scores := h.scores.pop
  blocked := h.blocked
  nextCleanup := h.nextCleanup
  scored other bucket hget := h.scored other bucket (OrderedDict.get_of_le OrderedDict.pop_le hget)
  banned := h.banned

theorem set_scores (h : Mirrors cfg P f m) (ip : String) {bucket : List Int}
    (hbucket : ∀ t ∈ bucket, P t) :
    Mirrors cfg P { f with scores := f.scores.set ip (bucket.map reading) }
      { m with scores := m.scores.set ip bucket } where
  detections := h.detections
  scores := h.scores.set
  blocked := h.blocked
  nextCleanup := h.nextCleanup
  scored other bucket' hget := by
    replace hget : (m.scores.set ip bucket).get other = some bucket' := hget
    rw [OrderedDict.get_set] at hget
    split at hget
    · obtain rfl := Option.some.inj hget
      exact hbucket
    · exact h.scored other bucket' hget
  banned := h.banned

theorem pop_blocked (h : Mirrors cfg P f m) (ip : String) :
    Mirrors cfg P { f with blocked := f.blocked.pop ip }
      { m with blocked := m.blocked.pop ip } where
  detections := h.detections
  scores := h.scores
  blocked other := by
    by_cases hne : other = ip
    · subst hne
      show (f.blocked.pop other).get other = ((m.blocked.pop other).get other).map _
      rw [Dict.get_pop_self, Dict.get_pop_self, Option.map_none]
    · show (f.blocked.pop ip).get other = ((m.blocked.pop ip).get other).map _
      rw [Dict.get_pop_of_ne hne, Dict.get_pop_of_ne hne]
      exact h.blocked other
  nextCleanup := h.nextCleanup
  scored := h.scored
  banned other until_ hget := by
    by_cases hne : other = ip
    · subst hne
      cases Dict.get_pop_self.symm.trans hget
    · exact h.banned other until_ ((Dict.get_pop_of_ne hne).symm.trans hget)

/-- A ban that begins now. -/
theorem set_blocked (h : Mirrors cfg P f m) (hnow : P now) :
    Mirrors cfg P { f with blocked := f.blocked.set ip (Clock.expiry cfg (reading now)) }
      { m with blocked := m.blocked.set ip (Clock.expiry cfg now) } where
  detections := h.detections
  scores := h.scores
  blocked other := by
    show (f.blocked.set ip _).get other = ((m.blocked.set ip _).get other).map _
    rw [Dict.get_set, Dict.get_set]
    split
    · simp
    · exact h.blocked other
  nextCleanup := h.nextCleanup
  scored := h.scored
  banned other until_ hget := by
    replace hget : (m.blocked.set ip (Clock.expiry cfg now)).get other = some until_ := hget
    rw [Dict.get_set] at hget
    split at hget
    · obtain rfl := Option.some.inj hget
      simpa using hnow
    · exact h.banned other until_ hget

/-! ## The methods -/

/-- A list of times loses the same front in floats. -/
theorem dropWhile_reading {bucket : List Int} (h : ∀ t ∈ bucket, Faithful cfg t now) :
    (bucket.map reading).dropWhile (fun t => t ≤ Clock.cutoff cfg (reading now)) =
      (bucket.dropWhile fun t => t ≤ Clock.cutoff cfg now).map reading := by
  induction bucket with
  | nil => rfl
  | cons t bucket ih =>
      have hfirst := (h t List.mem_cons_self).1
      rw [List.map_cons]
      by_cases hout : t ≤ Clock.cutoff cfg now
      · rw [List.dropWhile_cons_of_pos (by simpa using hfirst.mpr hout),
          List.dropWhile_cons_of_pos (by simpa using hout)]
        exact ih fun u hu => h u (List.mem_cons_of_mem _ hu)
      · rw [List.dropWhile_cons_of_neg (by simpa using fun hle => hout (hfirst.mp hle)),
          List.dropWhile_cons_of_neg (by simpa using hout), List.map_cons]

theorem push_reading (maxlen : Nat) (bucket new : List Int) :
    (new.map reading).foldl (push maxlen) (bucket.map reading) =
      (new.foldl (push maxlen) bucket).map reading := by
  induction new generalizing bucket with
  | nil => rfl
  | cons t new ih =>
      have hfirst : push maxlen (bucket.map reading) (reading t) =
          (push maxlen bucket t).map reading := by
        simp [push, List.map_drop]
      rw [List.map_cons, List.foldl_cons, List.foldl_cons, hfirst, ih]

theorem expireSource (h : Mirrors cfg P f m) (hP : ∀ t, P t → Faithful cfg t now) (ip : String) :
    Mirrors cfg P (f.expireSource (reading now) ip) (m.expireSource now ip) := by
  unfold IntrusionState.expireSource
  rw [h.blocked ip]
  cases hban : m.blocked.get ip with
  | none => exact h
  | some until_ =>
      have hserved := (hP _ (h.banned ip until_ hban)).2.1
      rw [expiry_microseconds, Int.sub_add_cancel] at hserved
      dsimp only [Option.map_some]
      by_cases hle : until_ ≤ now
      · rw [if_pos (hserved.mpr hle), if_pos hle]
        exact (h.pop_scores ip).pop_blocked ip
      · rw [if_neg fun hle' => hle (hserved.mp hle'), if_neg hle]
        exact h

theorem cleanupSource (h : Mirrors cfg P f m) (hP : ∀ t, P t → Faithful cfg t now) (ip : String) :
    Mirrors cfg P (f.cleanupSource cfg (reading now) ip) (m.cleanupSource cfg now ip) := by
  have hexpire := h.expireSource hP ip
  unfold IntrusionState.cleanupSource
  dsimp only
  generalize f.expireSource (reading now) ip = f₁ at hexpire
  generalize m.expireSource now ip = m₁ at hexpire
  rw [hexpire.scores.get]
  cases hget : m₁.scores.get ip with
  | none => exact hexpire
  | some bucket =>
      have htimes := hexpire.scored ip bucket hget
      dsimp only [Option.map_some]
      rw [hexpire.blocked ip, Option.isSome_map, dropWhile_reading fun t ht => hP t (htimes t ht),
        List.isEmpty_map]
      split
      · exact hexpire
      · split
        · exact hexpire.pop_scores ip
        · exact hexpire.set_scores _ fun t ht => htimes t ((List.dropWhile_sublist _).subset ht)

/-- **A pass over the sources.** The time of the next one is a float in both. -/
theorem cleanup (h : Mirrors cfg P f m) (hP : ∀ t, P t → Faithful cfg t now) (force : Bool) :
    Mirrors cfg P (f.cleanup cfg (reading now) force) (m.cleanup cfg now force) := by
  have hall : ∀ (ips : List String) {f : IntrusionState ℚ} {m : IntrusionState Int},
      Mirrors cfg P f m → Mirrors cfg P (ips.foldl (IntrusionState.cleanupSource cfg (reading now)) f)
        (ips.foldl (IntrusionState.cleanupSource cfg now) m) := by
    intro ips
    induction ips with
    | nil => exact fun h => h
    | cons ip ips ih => exact fun h => ih (h.cleanupSource hP ip)
  unfold IntrusionState.cleanup
  rw [h.nextCleanup, h.scores.keys]
  show Mirrors cfg P (if !force && reading now < _ then _ else _)
    (if !force && reading now < _ then _ else _)
  split
  · exact h
  · exact { hall _ h with nextCleanup := rfl }

theorem recordHit (h : Mirrors cfg P f m) (hP : ∀ t, P t → Faithful cfg t now)
    (hPQ : ∀ t, P t → Q t) (hnow : Q now) :
    Mirrors cfg Q (f.recordHit cfg (reading now) d).1 (m.recordHit cfg now d).1 ∧
      (f.recordHit cfg (reading now) d).2 = (m.recordHit cfg now d).2 := by
  have hbucket : (f.scores.get d.sourceIp).getD [] =
      ((m.scores.get d.sourceIp).getD []).map reading := by
    rw [h.scores.get]
    cases m.scores.get d.sourceIp <;> rfl
  have htimes : ∀ t ∈ (m.scores.get d.sourceIp).getD [], P t := by
    cases hget : m.scores.get d.sourceIp with
    | none => simp
    | some bucket => exact h.scored _ bucket hget
  have hnew : ∀ t ∈ (List.replicate (severityWeight d.severity) now).foldl (push cfg.blockThreshold)
      (((m.scores.get d.sourceIp).getD []).dropWhile fun t => t ≤ Clock.cutoff cfg now), Q t := by
    intro t ht
    rw [foldl_push replicate_weight_ne_nil] at ht
    rcases List.mem_append.mp ((List.drop_sublist _ _).subset ht) with ht | ht
    · exact hPQ t (htimes t ((List.dropWhile_sublist _).subset ht))
    · exact List.eq_of_mem_replicate ht ▸ hnow
  have hstored := ((h.imp hPQ).pop_scores d.sourceIp).set_scores d.sourceIp hnew
  unfold IntrusionState.recordHit
  dsimp only
  rw [hbucket, dropWhile_reading fun t ht => hP t (htimes t ht), ← List.map_replicate, push_reading]
  simp only [List.length_map, h.blocked, Option.map_eq_none_iff]
  split
  · exact ⟨hstored.set_blocked hnow, rfl⟩
  · exact ⟨hstored, rfl⟩

theorem logged (h : Mirrors cfg P f m) (hP : ∀ t, P t → Faithful cfg t now) (d : Detection) :
    Mirrors cfg P (f.logged cfg (reading now) d) (m.logged cfg now d) := by
  have hpushed : Mirrors cfg P { f with detections := push cfg.history f.detections d }
      { m with detections := push cfg.history m.detections d } :=
    { h with detections := by rw [h.detections] }
  exact (hpushed.cleanup hP false).expireSource hP d.sourceIp

/-- The unblocked source that was hit longest ago is the same in both. -/
theorem find_unblocked (h : Mirrors cfg P f m) :
    (f.scores.rows.find? fun r => (f.blocked.get r.1).isNone).map Prod.fst =
      (m.scores.rows.find? fun r => (m.blocked.get r.1).isNone).map Prod.fst := by
  have hsame : (fun r : String × List ℚ => (f.blocked.get r.1).isNone) =
      fun r => (m.blocked.get r.1).isNone := by
    funext r
    rw [h.blocked, Option.isNone_map]
  rw [hsame, show f.scores.rows = _ from h.scores, List.find?_map, Option.map_map]
  rfl

/-- **A hit**, whatever room there is for it. -/
theorem record (h : Mirrors cfg P f m) (hP : ∀ t, P t → Faithful cfg t now)
    (hPQ : ∀ t, P t → Q t) (hnow : Q now) (d : Detection) :
    Mirrors cfg Q (f.record cfg (reading now) d).1 (m.record cfg now d).1 ∧
      (f.record cfg (reading now) d).2 = (m.record cfg now d).2 := by
  have hlogged := h.logged hP d
  unfold IntrusionState.record
  dsimp only
  generalize f.logged cfg (reading now) d = f₁ at hlogged
  generalize m.logged cfg now d = m₁ at hlogged
  rw [hlogged.scores.get, hlogged.scores.len]
  cases m₁.scores.get d.sourceIp with
  | some bucket => exact hlogged.recordHit hP hPQ hnow
  | none =>
      dsimp only [Option.map_none]
      have hroom : Mirrors cfg P
          (if cfg.maxSources ≤ m₁.scores.len then f₁.cleanup cfg (reading now) true else f₁)
          (if cfg.maxSources ≤ m₁.scores.len then m₁.cleanup cfg now true else m₁) := by
        split
        · exact hlogged.cleanup hP true
        · exact hlogged
      generalize (if cfg.maxSources ≤ m₁.scores.len then f₁.cleanup cfg (reading now) true else f₁) =
        f₂ at hroom
      generalize (if cfg.maxSources ≤ m₁.scores.len then m₁.cleanup cfg now true else m₁) = m₂ at hroom
      have hfind := hroom.find_unblocked
      rw [hroom.scores.len]
      split
      · cases hold : m₂.scores.rows.find? fun r => (m₂.blocked.get r.1).isNone with
        | none =>
            rw [hold, Option.map_none, Option.map_eq_none_iff] at hfind
            rw [hfind]
            exact ⟨hroom.imp hPQ, rfl⟩
        | some oldest =>
            rw [hold, Option.map_some, Option.map_eq_some_iff] at hfind
            obtain ⟨oldest', hold', hkey⟩ := hfind
            rw [hold']
            dsimp only
            rw [hkey]
            exact (hroom.pop_scores oldest.1).recordHit hP hPQ hnow
      · exact hroom.recordHit hP hPQ hnow

theorem isBlocked (h : Mirrors cfg P f m) (hP : ∀ t, P t → Faithful cfg t now) (ip : String) :
    Mirrors cfg P (f.isBlocked cfg (reading now) ip).1 (m.isBlocked cfg now ip).1 ∧
      (f.isBlocked cfg (reading now) ip).2 = (m.isBlocked cfg now ip).2 := by
  have hmirrors := (h.cleanup hP false).expireSource hP ip
  have hlive : ∀ until_, ((m.cleanup cfg now false).expireSource now ip).blocked.get ip =
      some until_ → now < until_ := fun _ => IntrusionState.live_of_expireSource
  unfold IntrusionState.isBlocked
  dsimp only
  generalize (f.cleanup cfg (reading now) false).expireSource (reading now) ip = f₁ at hmirrors
  generalize (m.cleanup cfg now false).expireSource now ip = m₁ at hmirrors hlive
  rw [hmirrors.blocked]
  cases hban : m₁.blocked.get ip with
  | none => exact ⟨hmirrors, rfl⟩
  | some until_ =>
      -- the seconds that are left of a live ban
      have hleft := (hP _ (hmirrors.banned ip until_ hban)).2.2
      rw [expiry_microseconds, Int.sub_add_cancel] at hleft
      refine ⟨hmirrors, Prod.ext rfl ?_⟩
      exact hleft (hlive until_ hban)

theorem unblock (h : Mirrors cfg P f m) (ip : String) :
    Mirrors cfg P (f.unblock ip).1 (m.unblock ip).1 ∧ (f.unblock ip).2 = (m.unblock ip).2 := by
  refine ⟨(h.pop_scores ip).pop_blocked ip, ?_⟩
  show (f.blocked.get ip).isSome = (m.blocked.get ip).isSome
  rw [h.blocked, Option.isSome_map]

/-- Whether a ban was served shows in the floats. -/
theorem served_iff (h : Mirrors cfg P f m) (hP : ∀ t, P t → Faithful cfg t now) :
    f.Served (reading now) ip ↔ m.Served now ip := by
  unfold IntrusionState.Served
  rw [h.blocked]
  cases hban : m.blocked.get ip with
  | none => simp
  | some until_ =>
      have hserved := (hP _ (h.banned ip until_ hban)).2.1
      rw [expiry_microseconds, Int.sub_add_cancel] at hserved
      simpa using hserved

end Mirrors

end Scap.Intrusion
