import Scap.Client.Kept

/-!
# The operations that encrypt nothing

Every operation of the two clients but the sends and the receives keeps `Kept`: they change what it
does not speak of, pin a peer with the keys that it had, or go on from the native state at hand.
-/

namespace Scap.Client

open Scap.Lib Scap.Py Proc

variable {L : Lib} {α β : Type}

/-! ## The account -/

theorem keeps_openPrivate (server : Str) (seed : L.Seed) (newDevice : Str) :
    KeepsIt (openPrivate server seed newDevice) := by
  refine reads_memory.seq fun _ => ?_
  refine (reads_raiseIf _ _).seq fun _ => ?_
  refine (reads_request rfl).seq fun me => ?_
  cases me.getStr? "id" with
  | none => exact (reads_raise _).keeps
  | some id =>
    cases me.getStr? "username" with
    | none => exact (reads_raise _).keeps
    | some username =>
      refine reads_memory.seq fun _ => ?_
      refine (reads_raiseIf _ _).seq fun _ => ?_
      refine modify_seq (fun _ => ⟨rfl, rfl, rfl, rfl, rfl, rfl⟩) ?_
      refine keeps_save.bind fun _ => ?_
      refine modify_seq (fun _ => ⟨rfl, rfl, rfl, rfl, rfl, rfl⟩) ?_
      exact (reads_pure _).keeps

theorem keeps_ensureOneTimeKeys (count : Nat) (seed : L.Seed) :
    KeepsIt (ensureOneTimeKeys count seed) := by
  refine reads_theAccount.seq fun account => ?_
  by_cases hkeys : L.oneTimeKeys account = []
  · simp only [hkeys, if_true]
    exact (keeps_setAccount _).bind fun _ => (reads_pure _).keeps
  · simp only [hkeys, if_false]
    exact (reads_pure _).keeps

theorem keeps_registrationOffer (displayName : Str) (seed : L.Seed) :
    KeepsIt (registrationOffer displayName seed) := by
  refine reads_requireHealthy.seq fun _ => ?_
  refine (reads_request rfl).seq fun challenge => ?_
  refine (keeps_ensureOneTimeKeys _ _).bind fun account => ?_
  refine reads_memory.seq fun m => ?_
  refine (reads_ofExcept _).seq fun challengeId => ?_
  refine (reads_ofExcept _).seq fun value => ?_
  refine (reads_ofExcept _).seq fun statement => ?_
  refine setState_seq (fun _ => ⟨rfl, rfl, rfl, rfl, rfl⟩) ?_
  exact keeps_save.bind fun _ => (reads_pure _).keeps

theorem reads_approve (offer : Json) : Reads (approve (L := L) offer) := by
  refine reads_requireHealthy.bind fun _ => ?_
  split
  · refine reads_theAccount.bind fun _ => ?_
    refine reads_memory.bind fun _ => ?_
    exact (reads_ofExcept _).bind fun _ => reads_pure _
  · exact reads_raise _

theorem keeps_finishRegistration : KeepsIt (finishRegistration : M L Unit) := by
  refine reads_theAccount.seq fun _ => ?_
  refine (keeps_setAccount _).bind fun _ => ?_
  refine setState_seq (fun _ => ⟨rfl, rfl, rfl, rfl, rfl⟩) ?_
  exact keeps_save

theorem keeps_registerDevice (approval : Option Json) (seed : L.Seed) :
    KeepsIt (registerDevice approval seed) := by
  refine reads_requireHealthy.seq fun _ => ?_
  refine (reads_raiseIf _ _).seq fun _ => ?_
  refine (reads_request rfl).seq fun devices => ?_
  refine reads_theAccount.seq fun account => ?_
  refine reads_memory.seq fun m => ?_
  refine (reads_ofExcept _).seq fun items => ?_
  refine (reads_ofExcept _).seq fun existing => ?_
  refine (reads_ofExcept _).seq fun fingerprint => ?_
  cases existing with
  | some device =>
      refine (reads_ofExcept _).seq fun trust => ?_
      refine (reads_ofExcept _).seq fun shown => ?_
      refine (reads_raiseIf _ _).seq fun _ => ?_
      exact keeps_finishRegistration.bind fun _ => (reads_pure _).keeps
  | none =>
      refine Keeps.bind ?_ fun offer => ?_
      · cases m.state.registrationOffer with
        | some offer => exact (reads_pure _).keeps
        | none => exact keeps_registrationOffer _ _
      refine (reads_request rfl).seq fun result => ?_
      refine (reads_ofExcept _).seq fun shown => ?_
      refine (reads_raiseIf _ _).seq fun _ => ?_
      exact keeps_finishRegistration.bind fun _ => (reads_pure _).keeps

theorem keeps_prekeyBatch (count : Nat) (seed : L.Seed) : KeepsIt (prekeyBatch count seed) := by
  refine reads_memory.seq fun m => ?_
  cases m.state.prekeyUpload with
  | some prekeys => exact (reads_pure _).keeps
  | none =>
      refine (keeps_ensureOneTimeKeys _ _).bind fun _ => ?_
      refine setState_seq (fun _ => ⟨rfl, rfl, rfl, rfl, rfl⟩) ?_
      exact (reads_pure _).keeps

theorem keeps_refill (count : Nat) (seed : L.Seed) : KeepsIt (refill count seed) := by
  refine reads_requireHealthy.seq fun _ => ?_
  refine (reads_raiseIf _ _).seq fun _ => ?_
  refine (reads_request rfl).seq fun challenge => ?_
  refine reads_memory.seq fun _ => ?_
  refine (keeps_prekeyBatch _ _).bind fun prekeys => ?_
  refine reads_memory.seq fun m => ?_
  refine (reads_ofExcept _).seq fun value => ?_
  refine keeps_save.bind fun _ => ?_
  refine (reads_ofExcept _).seq fun challengeId => ?_
  refine reads_theAccount.seq fun account => ?_
  refine (reads_ofExcept _).seq fun bytes => ?_
  refine (reads_requestResponse rfl).seq ?_
  rintro ⟨status, body⟩
  refine (reads_ofExcept _).seq fun result => ?_
  refine (keeps_setAccount _).bind fun _ => ?_
  refine setState_seq (fun _ => ⟨rfl, rfl, rfl, rfl, rfl⟩) ?_
  exact keeps_save.bind fun _ => (reads_pure _).keeps

theorem reads_newConversation (peerUsername title : Str) :
    Reads (newConversation (L := L) peerUsername title) := by
  refine reads_requireHealthy.bind fun _ => ?_
  refine (reads_request rfl).bind fun row => ?_
  cases row.getStr? "id" with
  | none => exact reads_raise _
  | some id => exact (reads_request rfl).bind fun _ => reads_pure _

/-! ## Peers -/

/-- A bundle that is accepted is that of the device asked for, whose identifier is a UUID. -/
theorem readBundle_ok {username expected : Str} {device : Option Str} {bundle : Json} {peer : Peer}
    (h : readBundle (L := L) username expected device bundle = .ok peer) :
    peer.deviceId.length = 36 ∧ ∀ d, device = some d → peer.deviceId = d := by
  unfold readBundle at h
  split at h
  · next deviceId identity signed signature _ _ _ _ =>
    split_ifs at h with hdevice huuid
    · obtain ⟨actual, -, h⟩ := bind_eq_ok.mp h
      split_ifs at h
      obtain ⟨raw, -, h⟩ := bind_eq_ok.mp h
      split_ifs at h
      obtain rfl := Except.ok.inj h
      refine ⟨?_, ?_⟩
      · simp only [isUuid, Bool.and_eq_true, decide_eq_true_eq, Bool.not_eq_false] at huuid
        exact huuid.1
      · rintro d rfl
        simpa using hdevice
  · cases h

/-- What `pin_peer` leaves: the sessions as they were, and the peer that it returns. -/
def PinnedPeer (sessions : Dict Str L.Ratchet) (device : Option Str) (peer : Peer) (m : Mem L) :
    Prop :=
  m.state.sessions = sessions ∧ m.state.peers.get peer.deviceId = some peer ∧
    ∀ d, device = some d → peer.deviceId = d

theorem pinPeer_spec (sessions : Dict Str L.Ratchet) (username expected : Str)
    (device : Option Str) :
    Does (KeptAnd fun m => m.state.sessions = sessions) (pinPeer username expected device)
      fun w r m => Kept w m ∧ ∀ peer, r = .ok peer → PinnedPeer sessions device peer m := by
  refine reads_requireHealthy.before (fun _ => ?_) fun _ _ _ h => ⟨h, nofun⟩
  refine raiseIf_before (fun _ => ?_) fun _ _ h => ⟨h.1, nofun⟩
  refine (reads_request rfl).before (fun bundle => ?_) fun _ _ _ h => ⟨h, nofun⟩
  refine Triple.ofExcept_bind (fun peer hread => ?_) fun _ _ _ h => ⟨h.1, nofun⟩
  obtain ⟨hlength, hdevice⟩ := readBundle_ok hread
  refine Triple.memory_bind fun m₀ => ?_
  refine raiseIf_before (fun hsame => ?_) fun _ _ h => ⟨h.1.1, nofun⟩
  refine raiseIf_before (fun _ => ?_) fun _ _ h => ⟨h.1.1, nofun⟩
  refine set_save_seq (F := PinnedPeer sessions device peer) ?_ (fun _ h => h) ?_
    fun _ _ _ h => ⟨h, nofun⟩
  · rintro w m ⟨⟨hkept, hsessions⟩, rfl⟩
    refine ⟨hkept.broken, ⟨hsessions, Dict.get_set_self, hdevice⟩, fun hfailed => ⟨?_, ?_⟩⟩
    · refine (hkept.disk hfailed).1.moves ((hkept.moves hfailed).trans ?_)
      exact ⟨fun slot x hx => ⟨x, by cases slot <;> exact hx, .refl⟩, fun _ hp => hp,
        fun p hp => ⟨p, hp, rfl, rfl, fun _ he => he⟩⟩
    · refine (hkept.pinned hfailed).setPeer hlength ?_
      intro p hp
      simp only [hp, Option.any_some, Bool.or_eq_true, decide_eq_true_eq, not_or, not_not] at hsame
      exact hsame.2
  · rintro w m ⟨hkept, hm⟩
    refine ⟨hkept, ?_⟩
    rintro p h
    obtain rfl := Except.ok.inj h
    exact hm

theorem keeps_pinPeer (username expected : Str) (device : Option Str) :
    KeepsIt (pinPeer (L := L) username expected device) := by
  intro w m hm
  exact Prog.wp_mono (pinPeer_spec m.state.sessions _ _ _ w m ⟨hm, rfl⟩) fun _ _ _ h => h.1

/-! ## The native state -/

/-- What the helper returned for the native state at hand. -/
def NativeFrom (op : NativeOp) (seed : L.Seed) (result : NativeResult L.Native) (m : Mem L) :
    Prop :=
  L.native m.deviceId (m.state.mls.bind (·.native)) op seed = .ok result

theorem field_before {P : World (Vault L) (Request L) → Mem L → Prop} {x : Option α}
    {f : α → M L β} {Q : World (Vault L) (Request L) → Except Err β → Mem L → Prop}
    (hf : ∀ a, x = some a → Does P (f a) Q) (herr : ∀ w e m, P w m → Q w (.error e) m) :
    Does P (field x >>= f) Q := by
  cases x with
  | none => exact fun w m hm => herr w _ m hm
  | some a => exact hf a rfl

/-- The data of the client is that of the memory. -/
theorem mlsData_spec (P : World (Vault L) (Request L) → Mem L → Prop) :
    Does P mlsData fun w r m => P w m ∧ ∀ data, r = .ok data → m.state.mls = some data := by
  intro w m hm
  obtain ⟨⟨_, _, _, _, _, _, _, _, _, _, mls⟩, _, _, _, _, ready, _, _, _⟩ := m
  cases mls with
  | none => exact ⟨hm, nofun⟩
  | some data =>
      show Prog.wp _ _ _ ((if ready && data.native.isSome then pure data else raise .other :
        M L (MlsData L)) _) w
      split
      · refine ⟨hm, ?_⟩
        rintro _ h
        obtain rfl := Except.ok.inj h
        rfl
      · exact ⟨hm, nofun⟩

theorem callNative_spec (P : World (Vault L) (Request L) → Mem L → Prop) (op : NativeOp)
    (seed : L.Seed) :
    Does P (callNative op seed) fun w r m => P w m ∧
      ∀ result, r = .ok result → NativeFrom op seed result m := by
  refine (requireHealthy_spec P).bind (fun _ => ?_) fun _ _ _ h => ⟨h.1, fun _ hr => by cases hr⟩
  refine (mlsData_spec _).bind (fun data => ?_) fun _ _ _ h => ⟨h.1.1, fun _ hr => by cases hr⟩
  refine Triple.memory_bind fun m₀ => ?_
  rintro w m ⟨⟨⟨hm, -⟩, hdata⟩, rfl⟩
  refine Proc.wp_ofExcept.mpr ⟨hm, ?_⟩
  intro result hr
  rw [NativeFrom, hdata data rfl]
  exact hr

theorem callNative_before {F : Mem L → Prop} {op : NativeOp} {seed : L.Seed}
    {f : NativeResult L.Native → M L β}
    {Q : World (Vault L) (Request L) → Except Err β → Mem L → Prop}
    (hf : ∀ result, Does (KeptAnd fun m => F m ∧ NativeFrom op seed result m) (f result) Q)
    (herr : ∀ w e m, Kept w m → Q w (.error e) m) :
    Does (KeptAnd F) (callNative op seed >>= f) Q := by
  refine (callNative_spec _ op seed).bind (fun result => ?_) fun _ _ _ h => herr _ _ _ h.1.1
  exact (hf result).conseq (fun _ _ h => ⟨h.1.1, h.1.2, h.2 result rfl⟩) fun _ _ _ h => h

/-- A native state that comes from the one at hand. -/
theorem Kept.setNative {w : World (Vault L) (Request L)} {m : Mem L} (h : Kept w m)
    {f : MlsData L → MlsData L} {n : L.Native} (hf : ∀ d, (f d).native = some n ∧
      (f d).outbox = d.outbox)
    (hstep : ∀ n₀, m.state.mls.bind (·.native) = some n₀ → LibStep L (.native n₀) (.native n)) :
    Kept w { m with state := { m.state with mls := m.state.mls.map f } } := by
  refine h.step rfl (fun _ => ⟨?_, fun _ hp => hp, ?_⟩) fun hok => h.pinned hok
  · intro slot x hx
    cases slot with
    | ratchet id => exact ⟨x, hx, .refl⟩
    | native =>
        obtain ⟨n₀, hn₀, rfl⟩ := Option.map_eq_some_iff.mp hx
        obtain ⟨d, hd, -⟩ := Option.bind_eq_some_iff.mp hn₀
        refine ⟨.native n, ?_, .single (hstep n₀ hn₀)⟩
        simp [slotState, hd, (hf d).1]
  · intro p hp
    refine ⟨p, ?_, rfl, rfl, fun _ he => he⟩
    cases hd : m.state.mls with
    | none => simp [mlsOutbox, hd] at hp
    | some d =>
        simp only [mlsOutbox, hd, Option.map_some, Option.bind_some, (hf d).2] at hp ⊢
        exact hp

theorem setNative_seq {F : Mem L → Prop} {f : MlsData L → MlsData L} {n : L.Native}
    {g : Unit → M L β} (hf : ∀ d, (f d).native = some n ∧ (f d).outbox = d.outbox)
    (hstep : ∀ m, F m → ∀ n₀, m.state.mls.bind (·.native) = some n₀ →
      LibStep L (.native n₀) (.native n)) (hg : KeepsIt (g ())) :
    Does (KeptAnd F) (setMls f >>= g) fun w _ m => Kept w m := by
  rintro w m ⟨hkept, hm⟩
  apply Proc.wp_bind.mpr
  exact hg w _ (hkept.setNative hf (hstep m hm))

theorem NativeFrom.step {op : NativeOp} {seed : L.Seed} {result : NativeResult L.Native}
    {m : Mem L} (h : NativeFrom op seed result m) {n₀ n : L.Native}
    (hn₀ : m.state.mls.bind (·.native) = some n₀) (hn : result.state = some n) :
    LibStep L (.native n₀) (.native n) := by
  rw [NativeFrom, hn₀] at h
  exact .native h hn

/-! ## The group client -/

theorem keeps_openMls (seed : L.Seed) : KeepsIt (openMls seed) := by
  refine reads_memory.seq fun _ => ?_
  refine (reads_raiseIf _ _).seq fun _ => ?_
  refine setState_seq ?_ ?_
  · intro s
    refine ⟨rfl, rfl, rfl, ?_, ?_⟩
    all_goals cases h : s.mls <;> simp [mlsOutbox, h, MlsData.blank]
  refine Triple.memory_bind fun m₀ => ?_
  cases hnative : m₀.state.mls.bind (·.native) with
  | some n => exact fun w m h => h.1
  | none =>
      refine Triple.conseq (P := KeptAnd fun m => m = m₀) (R := fun w _ m => Kept w m) ?_
        (fun _ _ h => h) fun _ _ _ h => h
      refine reads_requireHealthy.before (fun _ => ?_) fun _ _ _ h => h
      refine (reads_ofExcept _).before (fun result => ?_) fun _ _ _ h => h
      refine field_before (fun native _ => ?_) fun _ _ _ h => h.1
      refine setNative_seq (n := native) (fun _ => ⟨rfl, rfl⟩) ?_ ?_
      · rintro m rfl n₀ hn₀
        rw [hnative] at hn₀
        cases hn₀
      · refine (reads_field _).seq fun keyPackage => ?_
        refine setMls_seq (fun _ => ⟨rfl, rfl⟩) ?_
        refine (reads_field _).seq fun signingKey => ?_
        refine setMls_seq (fun _ => ⟨rfl, rfl⟩) ?_
        exact keeps_save.bind fun _ => (reads_pure _).keeps

theorem reads_keyPackageOffer (server : Str) : Reads (keyPackageOffer (L := L) server) := by
  refine reads_requireHealthy.bind fun _ => ?_
  refine reads_mlsData.bind fun data => ?_
  refine reads_theAccount.bind fun account => ?_
  refine reads_memory.bind fun m => ?_
  exact (reads_ofExcept _).bind fun bytes => reads_pure _

theorem keeps_refreshOffer (server : Str) (seed : L.Seed) : KeepsIt (refreshOffer server seed) := by
  refine reads_idle.seq fun _ => ?_
  refine Triple.conseq (P := KeptAnd fun _ => True) (R := fun w _ m => Kept w m) ?_
    (fun _ _ h => ⟨h, trivial⟩) fun _ _ _ h => h
  refine callNative_before (fun result => ?_) fun _ _ _ h => h
  refine field_before (fun native hnative => ?_) fun _ _ _ h => h.1
  refine field_before (fun keyPackage _ => ?_) fun _ _ _ h => h.1
  refine setNative_seq (n := native) (fun _ => ⟨rfl, rfl⟩) ?_ ?_
  · exact fun m hm n₀ hn₀ => hm.2.step hn₀ hnative
  · exact keeps_save.bind fun _ => (reads_keyPackageOffer server).keeps

theorem keeps_pinOffer (server : Str) (j : Json) : KeepsIt (pinOffer (L := L) server j) := by
  refine reads_requireHealthy.seq fun _ => ?_
  cases readOffer j with
  | none => exact (reads_raise _).keeps
  | some offer =>
      refine reads_memory.seq fun m => ?_
      cases m.state.peers.get offer.deviceId with
      | none => exact (reads_raise _).keeps
      | some peer =>
          refine (reads_ofExcept _).seq fun owns => ?_
          refine (reads_raiseIf _ _).seq fun _ => ?_
          refine (reads_ofExcept _).seq fun bytes => ?_
          refine (reads_raiseIf _ _).seq fun _ => ?_
          refine (reads_ofExcept _).seq fun inspected => ?_
          refine (reads_raiseIf _ _).seq fun _ => ?_
          refine reads_mlsData.seq fun data => ?_
          refine (reads_raiseIf _ _).seq fun _ => ?_
          refine setMls_seq (fun _ => ⟨rfl, rfl⟩) ?_
          exact keeps_save.bind fun _ => (reads_pure _).keeps

theorem keeps_create (title : Str) (seed : L.Seed) : KeepsIt (create title seed) := by
  refine reads_idle.seq fun _ => ?_
  refine (reads_request rfl).seq fun row => ?_
  cases row.getStr? "id" with
  | none => exact (reads_raise _).keeps
  | some id =>
      refine Triple.conseq (P := KeptAnd fun _ => True) (R := fun w _ m => Kept w m) ?_
        (fun _ _ h => ⟨h, trivial⟩) fun _ _ _ h => h
      refine callNative_before (fun result => ?_) fun _ _ _ h => h
      refine field_before (fun native hnative => ?_) fun _ _ _ h => h.1
      refine reads_memory.before (fun m₀ => ?_) fun _ _ _ h => h
      refine setNative_seq (n := native) (fun _ => ⟨rfl, rfl⟩) ?_ ?_
      · exact fun m hm n₀ hn₀ => hm.2.step hn₀ hnative
      · exact keeps_save.bind fun _ => (reads_pure _).keeps

end Scap.Client
