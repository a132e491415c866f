import Scap.Client.Keeping

/-!
# The operations that encrypt and upload

`Sound.enqueue` is the step that both clients make before a request: an outbox entry and the key
state past it appear together. `prepare`, `change_member` and `send` make it and save at once, and
`upload_before` is the request that may follow.
-/

namespace Scap.Client

open Scap.Lib Scap.Py Proc

variable {L : Lib} {α β : Type}

/-! ## Entering the outbox -/

/-- A ciphertext enters an outbox together with the key state that is past it. -/
theorem Sound.enqueue {s s' : Vault L} {asked : List (Request L)} {u : Use L} (h : Sound s asked)
    (hslots : ∀ slot x, slotState s slot = some x →
      ∃ y, slotState s' slot = some y ∧ Advanced x y)
    (hpast : Past s' u)
    (hbefore : ∀ v ∈ posted asked, v.slot = u.slot → Advanced v.after u.before)
    (hqueued : ∀ v, Queued s' v → v = u ∨ Queued s v)
    (hholding : ∀ conversation e v, Holding s' conversation e v →
      v.Made e.ciphertext ∨ Holding s conversation e v)
    (holm : ∀ p, s'.outbox = some p → ∃ id, p.use.slot = .ratchet id)
    (hmls : ∀ p, mlsOutbox s' = some p → p.use.slot = .native) : Sound s' asked := by
  have hkeep : ∀ v, Past s v → Past s' v := by
    rintro v ⟨x, hx, hadv⟩
    obtain ⟨y, hy, hxy⟩ := hslots _ _ hx
    exact ⟨y, hy, hadv.trans hxy⟩
  refine ⟨fun v hv => hkeep v (h.past v hv), ?_, holm, hmls, ?_, h.sent, h.ordered⟩
  · intro v hv
    rcases hqueued v hv with rfl | hold
    · exact ⟨hpast, fun v' hv' hslot => .inr (hbefore v' hv' hslot)⟩
    · exact ⟨hkeep v (h.queued v hold).1, (h.queued v hold).2⟩
  · intro conversation e v hv
    rcases hholding conversation e v hv with hmade | hold
    · exact hmade
    · exact h.made conversation e v hold

/-- What `prepare` changes: the ratchet is the one of the vault, or there is none. -/
theorem Sound.prepare {s : Vault L} {asked : List (Request L)} {id : Str} {r : L.Ratchet}
    {bytes : ByteArray} {seed : L.Seed} {conversation key : Str} {envelope : Envelope}
    (h : Sound s asked) (hr : s.sessions.get id = some r ∨ s.sessions.get id = none)
    (htext : envelope.ciphertext = L.encodeBase64url (L.encrypt r bytes seed).2.2) :
    Sound { s with
      sessions := s.sessions.set id (L.encrypt r bytes seed).1
      active := s.active.set key id
      outbox := some ⟨conversation, envelope,
        ⟨.ratchet id, .ratchet r, .ratchet (L.encrypt r bytes seed).1, bytes⟩⟩ } asked := by
  refine h.enqueue (u := ⟨.ratchet id, .ratchet r, .ratchet (L.encrypt r bytes seed).1, bytes⟩)
    ?_ ?_ ?_ ?_ ?_ ?_ h.mls
  -- only the ratchet of this session advances, by the use that is queued
  · intro slot x hx
    cases slot with
    | native => exact ⟨x, hx, .refl⟩
    | ratchet id' =>
        by_cases heq : id' = id
        · subst heq
          obtain ⟨r', hr', rfl⟩ := Option.map_eq_some_iff.mp hx
          rcases hr with hr | hr
          · obtain rfl := Option.some.inj (hr'.symm.trans hr)
            exact ⟨_, by simp [slotState], .single (.encrypt _ bytes seed)⟩
          · rw [hr] at hr'
            cases hr'
        · refine ⟨x, ?_, .refl⟩
          simp only [slotState, Dict.get_set_of_ne heq]
          exact hx
  · exact ⟨_, by simp [slotState], .refl⟩
  · intro v hv hslot
    obtain ⟨x, hx, hadv⟩ := h.past v hv
    replace hslot : v.slot = .ratchet id := hslot
    rw [hslot] at hx
    obtain ⟨r', hr', rfl⟩ := Option.map_eq_some_iff.mp hx
    rcases hr with hr | hr
    · obtain rfl := Option.some.inj (hr'.symm.trans hr)
      exact hadv
    · rw [hr] at hr'
      cases hr'
  · rintro v (hv | hv)
    · exact .inl (Option.some.inj hv).symm
    · exact .inr (.inr hv)
  · intro conversation' e v hv
    cases hv with
    | olm hp =>
        obtain rfl := Option.some.inj hp
        left
        show Use.Made _ envelope.ciphertext
        rw [htext]
        exact .ratchet id r bytes seed
    | mls hp he => exact .inr (.mls hp he)
  · intro p hp
    obtain rfl := Option.some.inj hp
    exact ⟨id, rfl⟩

/-! ## `prepare` -/

/-- The ratchet that is to encrypt: that of the vault or a new one, and the peer's. -/
def Usable (s : Vault L) (id : Str) (r : L.Ratchet) : Prop :=
  (s.sessions.get id = some r ∨ s.sessions.get id = none) ∧ Belongs s.peers id r

/-- The peer has been used up. -/
theorem Kept.setPeer {w : World (Vault L) (Request L)} {m : Mem L} (h : Kept w m) {device : Str}
    {peer peer' : Peer} (hpeer : m.state.peers.get device = some peer)
    (hsame : peer'.signedPrekey = peer.signedPrekey) :
    Kept w { m with state := { m.state with peers := m.state.peers.set device peer' } } := by
  refine h.step rfl (fun _ => ?_) fun hok => ?_
  · exact ⟨fun slot x hx => ⟨x, by cases slot <;> exact hx, .refl⟩, fun _ hp => hp,
      fun p hp => ⟨p, hp, rfl, rfl, fun _ he => he⟩⟩
  · refine (h.pinned hok).setPeer ((h.pinned hok).length device peer hpeer) ?_
    intro p hp
    rw [hsame, Option.some.inj (hp.symm.trans hpeer)]

theorem newRatchet_spec {sessions : Dict Str L.Ratchet} {conversation device : Str} {peer : Peer}
    {seed : L.Seed} (hfresh : ∀ account signed oneTime, sessions.get
      (ratchetName (ratchetKey conversation device)
        (L.sessionId (L.createOutbound account signed oneTime seed))) = none) :
    Does (KeptAnd fun m => m.state.sessions = sessions ∧ m.state.peers.get device = some peer)
      (newRatchet (ratchetKey conversation device) device peer seed)
      fun w r m => Kept w m ∧ ∀ p, r = .ok p → Usable m.state p.1 p.2 := by
  have hpeer : Does (KeptAnd fun m => m.state.sessions = sessions ∧
      m.state.peers.get device = some peer)
      (if offersPrekey peer then pure peer
        else do
          let fingerprint ← ofExcept (L.fingerprint peer.identityKey)
          pinPeer peer.username (fingerprint.filter (· ≠ 32)) (some device) : M L Peer)
      fun w r m => Kept w m ∧ ∀ p, r = .ok p →
        m.state.sessions = sessions ∧ m.state.peers.get device = some p := by
    split
    · rintro w m ⟨hkept, hm⟩
      refine ⟨hkept, ?_⟩
      rintro p hp
      obtain rfl := Except.ok.inj hp
      exact hm
    · refine Triple.ofExcept_bind (fun fingerprint _ => ?_) fun _ _ _ h => ⟨h.1, fun _ hr => by cases hr⟩
      refine (pinPeer_spec sessions _ _ _).conseq (fun _ _ h => ⟨h.1, h.2.1⟩) ?_
      rintro w r m ⟨hkept, hr⟩
      refine ⟨hkept, ?_⟩
      intro p hp
      obtain ⟨hsessions, hget, hdevice⟩ := hr p hp
      rw [hdevice device rfl] at hget
      exact ⟨hsessions, hget⟩
  refine hpeer.bind (fun p => ?_) fun _ _ _ h => ⟨h.1, fun _ hr => by cases hr⟩
  refine Triple.conseq (P := KeptAnd fun m => m.state.sessions = sessions ∧
    m.state.peers.get device = some p) ?_ (fun _ _ h => ⟨h.1, h.2 p rfl⟩) fun _ _ _ h => h
  refine raiseIf_before (fun _ => ?_) fun _ _ h => ⟨h.1, fun _ hr => by cases hr⟩
  refine reads_theAccount.before (fun account => ?_) fun _ _ _ h => ⟨h, fun _ hr => by cases hr⟩
  refine Triple.ofExcept_bind (fun signed hsigned => ?_) fun _ _ _ h =>
    ⟨h.1, fun _ hr => by cases hr⟩
  refine Triple.ofExcept_bind (fun oneTime _ => ?_) fun _ _ _ h => ⟨h.1, fun _ hr => by cases hr⟩
  rintro w m ⟨hkept, hsessions, hget⟩
  apply Proc.wp_bind.mpr
  refine ⟨hkept.setPeer hget rfl, ?_⟩
  rintro q hq
  obtain rfl := Except.ok.inj hq
  refine ⟨.inr ?_, conversation, device, { p with oneTimePrekey := some .null }, signed, _, rfl,
    Dict.get_set_self, hsigned, .outbound account oneTime seed rfl⟩
  show m.state.sessions.get _ = none
  rw [hsessions]
  exact hfresh account signed oneTime

theorem openRatchet_spec {m₀ : Mem L} {conversation device : Str} {peer : Peer} {seed : L.Seed}
    (hfresh : FreshSession m₀ conversation device seed)
    (hpeer : m₀.state.peers.get device = some peer) :
    Does (KeptAnd fun m => m = m₀) (openRatchet (ratchetKey conversation device) device peer seed)
      fun w r m => Kept w m ∧ ∀ p, r = .ok p → m.failed = false → Usable m.state p.1 p.2 := by
  refine memory_before ?_
  dsimp only
  cases m₀.state.active.get (ratchetKey conversation device) with
  | none =>
      refine (newRatchet_spec hfresh).conseq ?_ fun w r m h => ⟨h.1, fun p hp _ => h.2 p hp⟩
      rintro w m ⟨hkept, rfl⟩
      exact ⟨hkept, rfl, hpeer⟩
  | some id =>
      dsimp only
      cases hget : m₀.state.sessions.get id with
      | none =>
          exact fun w m h => ⟨h.1, fun _ hr => by cases hr⟩
      | some ratchet =>
          rintro w m ⟨hkept, rfl⟩
          refine ⟨hkept, ?_⟩
          rintro p hp hfailed
          obtain rfl := Except.ok.inj hp
          exact ⟨.inl hget, (hkept.pinned hfailed).belongs id ratchet hget⟩

theorem keeps_prepare {m₀ : Mem L} {conversation device text messageId : Str}
    {session encryption : L.Seed} (hfresh : FreshSession m₀ conversation device session) :
    Does (KeptAnd fun m => m = m₀)
      (prepare conversation device text messageId session encryption) fun w _ m => Kept w m := by
  refine reads_requireHealthy.before (fun _ => ?_) fun _ _ _ h => h
  refine raiseIf_before (fun _ => ?_) fun _ _ h => h.1
  refine memory_before ?_
  refine raiseIf_before (fun _ => ?_) fun _ _ h => h.1
  cases hpeer : m₀.state.peers.get device with
  | none =>
      dsimp only
      exact fun w m h => h.1
  | some peer =>
      dsimp only
      refine (reads_request rfl).before (fun routing => ?_) fun _ _ _ h => h
      refine (openRatchet_spec hfresh hpeer).bind ?_ fun _ _ _ h => h.1
      rintro ⟨id, ratchet⟩
      refine Triple.conseq (P := KeptAnd fun m => m.failed = false → Usable m.state id ratchet)
        (R := fun w _ m => Kept w m) ?_ (fun _ _ h => ⟨h.1, h.2 _ rfl⟩) fun _ _ _ h => h
      refine reads_memory.before (fun m => ?_) fun _ _ _ h => h
      refine raiseIf_before (fun _ => ?_) fun _ _ h => h.1
      refine reads_theAccount.before (fun account => ?_) fun _ _ _ h => h
      refine Triple.ofExcept_bind (fun epoch _ => ?_) fun _ _ _ h => h.1
      refine Triple.ofExcept_bind (fun bytes _ => ?_) fun _ _ _ h => h.1
      -- the ratchet is used here; its ciphertext and its next state are saved at once
      refine set_save_seq (F := fun _ => True) ?_ (fun _ _ => trivial)
        (fun w m h => h.1) fun _ _ _ h => h
      rintro w m ⟨hkept, husable⟩
      refine ⟨hkept.broken, trivial, fun hfailed => ?_⟩
      obtain ⟨hget, conversation', device', peer', key, sid, hname, hpeer', hkey, hsession⟩ :=
        husable hfailed
      refine ⟨((hkept.disk hfailed).1.moves (hkept.moves hfailed)).prepare hget rfl, ?_⟩
      refine (hkept.pinned hfailed).set ⟨conversation', device', peer', key, sid, hname, hpeer',
        hkey, ?_⟩
      exact hsession.encrypt bytes encryption

/-! ## Uploads -/

/-- What waits in memory waits on disk: it may leave. -/
theorem upload_before {F : Mem L → Prop} {conversation : Str} {e : Envelope} {u : Use L}
    {f : Answer → M L β} {Q : World (Vault L) (Request L) → Except Err β → Mem L → Prop}
    (hf : ∀ a, Does (KeptAnd F) (f a) Q) :
    Does (KeptAnd fun m => F m ∧ m.failed = false ∧ Holding m.state conversation e u)
      (ask (.envelope conversation e u) >>= f) Q := by
  rintro w m ⟨hkept, hm, hfailed, hholding⟩
  obtain ⟨hsound, hpinned⟩ := hkept.disk hfailed
  have hdisk := (hkept.moves hfailed).holding hholding
  have hsound' := hsound.upload hdisk
  apply Proc.wp_bind.mpr
  refine ⟨hkept.broken.trans hfailed, ?_, ⟨hsound', hpinned⟩, ?_⟩
  · exact ⟨hdisk, hsound.made _ _ _ hdisk, (hsound.queued u hdisk.queued).1⟩
  · intro a
    exact hf a _ m ⟨⟨hkept.broken, fun _ => ⟨hsound', hpinned⟩, hkept.moves, hkept.pinned⟩, hm⟩

theorem uploadResponse_before {F : Mem L → Prop} {conversation : Str} {e : Envelope} {u : Use L}
    {f : Nat × Body → M L β} {Q : World (Vault L) (Request L) → Except Err β → Mem L → Prop}
    (hf : ∀ p, Does (KeptAnd F) (f p) Q) (herr : ∀ w e m, Kept w m → Q w (.error e) m) :
    Does (KeptAnd fun m => F m ∧ Holding m.state conversation e u)
      (requestResponse (.envelope conversation e u) >>= f) Q := by
  have hresponse : Does (KeptAnd fun m => F m ∧ Holding m.state conversation e u)
      (requestResponse (.envelope conversation e u)) fun w r m => Kept w m ∧ (r.isOk → F m) := by
    refine (requireHealthy_spec _).bind (fun _ => ?_) fun _ _ _ h => ⟨h.1.1, nofun⟩
    refine Triple.conseq (P := KeptAnd fun m => F m ∧ m.failed = false ∧
      Holding m.state conversation e u) (upload_before (F := F) fun a => ?_) ?_ fun _ _ _ h => h
    · cases a with
      | failed => exact fun w m h => ⟨h.1, nofun⟩
      | response status body => exact fun w m h => ⟨h.1, fun _ => h.2⟩
    · rintro w m ⟨⟨hkept, hm, hholding⟩, hfailed⟩
      exact ⟨hkept, hm, hfailed, hholding⟩
  refine hresponse.bind (fun p => ?_) fun _ _ _ h => herr _ _ _ h.1
  exact (hf p).conseq (fun _ _ h => ⟨h.1, h.2 rfl⟩) fun _ _ _ h => h

/-- Less waits than before. -/
theorem move_seq {f : Vault L → Vault L} {g : Unit → M L β}
    (hf : ∀ s, Moves s (f s) ∧ (f s).peers = s.peers ∧ (f s).sessions = s.sessions)
    (hg : KeepsIt (g ())) : KeepsIt (setState f >>= g) := by
  refine Keeps.bind (.modify fun w m hm => ?_) fun _ => hg
  obtain ⟨hmoves, hpeers, hsessions⟩ := hf m.state
  refine hm.step rfl (fun _ => hmoves) fun hok => ?_
  show Pinned (f m.state).peers (f m.state).sessions
  rw [hpeers, hsessions]
  exact hm.pinned hok

theorem keeps_flush : KeepsIt (flush : M L Out) := by
  refine (requireHealthy_spec _).bind (fun _ => ?_) fun _ _ _ h => h.1
  refine Triple.memory_bind fun m₀ => ?_
  cases hpending : m₀.state.outbox with
  | none =>
      dsimp only
      exact fun w m h => h.1.1
  | some pending =>
      dsimp only
      refine Triple.conseq (P := KeptAnd fun m => True ∧ m.failed = false ∧
        Holding m.state pending.conversation pending.envelope pending.use)
        (R := fun w _ m => Kept w m) ?_ ?_ fun _ _ _ h => h
      · refine upload_before fun a => ?_
        cases a with
        | failed => exact fun w m h => h.1
        | response status body =>
            refine (reads_ofExcept _).before (fun acknowledgement => ?_) fun _ _ _ h => h
            refine (reads_raiseIf _ _).before (fun _ => ?_) fun _ _ _ h => h
            refine Triple.conseq (P := Kept) (R := fun w _ m => Kept w m) ?_ (fun _ _ h => h.1)
              fun _ _ _ h => h
            refine move_seq (fun s => ⟨?_, rfl, rfl⟩) ?_
            · exact ⟨fun slot x hx => ⟨x, by cases slot <;> exact hx, .refl⟩, nofun,
                fun p hp => ⟨p, hp, rfl, rfl, fun _ he => he⟩⟩
            · exact keeps_save.bind fun _ => (reads_pure _).keeps
      · rintro w m ⟨⟨hkept, hfailed⟩, rfl⟩
        exact ⟨hkept, trivial, hfailed, .olm hpending⟩

/-- These envelopes of the pending operation are left. -/
def Waits (conversation : Str) (u : Use L) (es : List Envelope) (m : Mem L) : Prop :=
  ∃ p, mlsOutbox m.state = some p ∧ p.conversation = conversation ∧ p.use = u ∧ p.envelopes = es

theorem recordOwn_before {conversation conversation' : Str} {u : Use L} {es : List Envelope}
    {envelope : Envelope} {f : Unit → M L β}
    {Q : World (Vault L) (Request L) → Except Err β → Mem L → Prop}
    (hf : Does (KeptAnd (Waits conversation u es)) (f ()) Q)
    (herr : ∀ w e m, Kept w m → Q w (.error e) m) :
    Does (KeptAnd (Waits conversation u es)) (recordOwn conversation' envelope >>= f) Q := by
  refine Keeps.seq ?_ (fun _ => hf) fun _ _ _ h => herr _ _ _ h.1
  refine (reads_memory _).bind fun m₀ => ?_
  split
  · refine (reads_ofExcept _ _).bind fun bytes => ?_
    refine .modify ?_
    rintro w m ⟨hkept, hwaits⟩
    have hquiet := quiet_mls (s := m.state) (f := fun d => { d with
      own := d.own.set conversation' (((d.own.get conversation').getD .empty).set
        envelope.clientMessageId (L.sha256 bytes)) }) (fun _ => rfl) fun _ => rfl
    refine ⟨hkept.quiet rfl hquiet, ?_⟩
    obtain ⟨p, hp, hrest⟩ := hwaits
    exact ⟨p, hquiet.mls.trans hp, hrest⟩
  · exact reads_pure _ _

/-- The acknowledged envelope is gone. -/
theorem moves_rest (s : Vault L) (rest : List Envelope)
    (hrest : ∀ p, mlsOutbox s = some p → ∀ e ∈ rest, e ∈ p.envelopes) :
    Moves s { s with mls := s.mls.map fun d => { d with
      outbox := d.outbox.map fun p => { p with envelopes := rest } } } := by
  refine ⟨?_, fun _ hp => hp, ?_⟩
  · intro slot x hx
    refine ⟨x, ?_, .refl⟩
    cases slot with
    | ratchet id => exact hx
    | native =>
        rw [← hx]
        cases hd : s.mls <;> simp [slotState, hd]
  · intro p hp
    cases hd : s.mls with
    | none => simp [mlsOutbox, hd] at hp
    | some d =>
        simp only [mlsOutbox, hd, Option.map_some, Option.bind_some, Option.map_eq_some_iff] at hp
        obtain ⟨q, hq, rfl⟩ := hp
        have hold : mlsOutbox s = some q := by simp [mlsOutbox, hd, hq]
        exact ⟨q, hold, rfl, rfl, hrest q hold⟩

theorem postEnvelopes_spec (conversation : Str) (u : Use L) (es : List Envelope) :
    Does (KeptAnd (Waits conversation u es)) (postEnvelopes conversation u es)
      fun w _ m => Kept w m := by
  induction es with
  | nil => exact fun w m h => h.1
  | cons envelope rest ih =>
      refine Triple.conseq (P := KeptAnd fun m => Waits conversation u (envelope :: rest) m ∧
        Holding m.state conversation envelope u) (R := fun w _ m => Kept w m) ?_ ?_
        fun _ _ _ h => h
      · refine uploadResponse_before (fun p => ?_) fun _ _ _ h => h
        refine (reads_raiseIf _ _).before (fun _ => ?_) fun _ _ _ h => h
        refine recordOwn_before ?_ fun _ _ _ h => h
        refine set_save_seq (F := Waits conversation u rest) ?_ (fun _ h => h) ih fun _ _ _ h => h
        rintro w m ⟨hkept, p, hp, hconv, huse, hes⟩
        have hmoves := moves_rest m.state rest (by
          intro q hq e he
          obtain rfl := Option.some.inj (hp.symm.trans hq)
          rw [hes]
          exact List.mem_cons_of_mem _ he)
        refine ⟨hkept.broken, ⟨{ p with envelopes := rest }, ?_, hconv, huse, rfl⟩, fun hfailed => ?_⟩
        · obtain ⟨d, hd, hout⟩ := Option.bind_eq_some_iff.mp hp
          simp [mlsOutbox, hd, hout]
        · exact ⟨(hkept.disk hfailed).1.moves ((hkept.moves hfailed).trans hmoves),
            hkept.pinned hfailed⟩
      · rintro w m ⟨hkept, hwaits⟩
        refine ⟨hkept, hwaits, ?_⟩
        obtain ⟨p, hp, rfl, rfl, hes⟩ := hwaits
        exact .mls hp (by rw [hes]; exact List.mem_cons_self)

theorem reads_settleMembership (pending : MlsPending L) (change : Membership) (epoch : Json) :
    Reads (settleMembership pending change epoch) := by
  have hchange : Reads (if epoch.eqInt (pending.epoch - 1) then
      request (if change.remove then .removeMember pending.conversation change.username
        else .addMember pending.conversation change.username)
    else if epoch.eqInt pending.epoch then pure .null
    else raise (.client "Membership changed concurrently; keep this profile for recovery.") :
      M L Json) := by
    refine reads_ite (reads_request ?_) (reads_ite (reads_pure _) (reads_raise _))
    split <;> rfl
  refine hchange.bind fun _ => ?_
  exact (reads_request rfl).bind fun members => reads_ofExcept _

/-- Nothing waits any more. -/
theorem moves_delivered (s : Vault L) :
    Moves s { s with mls := s.mls.map fun d => { d with outbox := none } } := by
  refine ⟨?_, fun _ hp => hp, ?_⟩
  · intro slot x hx
    refine ⟨x, ?_, .refl⟩
    cases slot with
    | ratchet id => exact hx
    | native =>
        rw [← hx]
        cases hd : s.mls <;> simp [slotState, hd]
  · intro p hp
    cases hd : s.mls <;> simp [mlsOutbox, hd] at hp

theorem keeps_flushMls : KeepsIt (flushMls : M L Out) := by
  refine reads_requireHealthy.seq fun _ => ?_
  refine (mlsData_spec _).bind (fun data => ?_) fun _ _ _ h => h.1
  cases hpending : data.outbox with
  | none =>
      dsimp only
      exact fun w m h => h.1
  | some pending =>
      dsimp only
      refine Triple.conseq (P := KeptAnd (Waits pending.conversation pending.use
        pending.envelopes)) (R := fun w _ m => Kept w m) ?_ ?_ fun _ _ _ h => h
      · refine (reads_request rfl).before (fun routing => ?_) fun _ _ _ h => h
        refine (reads_ofExcept _).before (fun epoch => ?_) fun _ _ _ h => h
        refine Reads.before ?_ (fun _ => ?_) fun _ _ _ h => h
        · cases pending.membership with
          | some change => exact reads_settleMembership pending change epoch
          | none => exact reads_raiseIf _ _
        refine (postEnvelopes_spec _ _ _).bind (fun _ => ?_) fun _ _ _ h => h
        refine move_seq (fun s => ⟨moves_delivered s, rfl, rfl⟩) ?_
        exact keeps_save.bind fun _ => (reads_pure _).keeps
      · rintro w m ⟨hkept, hdata⟩
        refine ⟨hkept, pending, ?_, rfl, rfl, rfl⟩
        simp [mlsOutbox, hdata data rfl, hpending]

/-! ## `change_member` and `send` -/

/-- The uploads of a key state come before the one that the vault has. -/
theorem Sound.before {s : Vault L} {asked : List (Request L)} (h : Sound s asked) {slot : Slot}
    {x : KeyState L} (hx : slotState s slot = some x) :
    ∀ v ∈ posted asked, v.slot = slot → Advanced v.after x := by
  rintro v hv rfl
  obtain ⟨y, hy, hadv⟩ := h.past v hv
  rw [Option.some.inj (hx.symm.trans hy)]
  exact hadv

/-- What the group operations enter: their native state is in the vault. -/
theorem Sound.enqueueMls {s : Vault L} {asked : List (Request L)} {f : MlsData L → MlsData L}
    {p : MlsPending L} {before native : L.Native} {content : ByteArray} (h : Sound s asked)
    (hf : ∀ d, (f d).native = d.native ∧ (f d).outbox = some p)
    (huse : p.use = ⟨.native, .native before, .native native, content⟩)
    (hstate : slotState s .native = some (.native native))
    (hbefore : ∀ v ∈ posted asked, v.slot = .native → Advanced v.after (.native before))
    (hmade : ∀ e ∈ p.envelopes, p.use.Made e.ciphertext) :
    Sound { s with mls := s.mls.map f } asked := by
  obtain ⟨n, hn, -⟩ := Option.map_eq_some_iff.mp hstate
  obtain ⟨d, hd, -⟩ := Option.bind_eq_some_iff.mp hn
  have hslot : ∀ slot, slotState { s with mls := s.mls.map f } slot = slotState s slot := by
    intro slot
    cases slot with
    | ratchet id => rfl
    | native => simp [slotState, hd, (hf d).1]
  have hout : mlsOutbox { s with mls := s.mls.map f } = some p := by
    simp [mlsOutbox, hd, (hf d).2]
  refine h.enqueue (u := p.use) ?_ ?_ ?_ ?_ ?_ h.olm ?_
  · exact fun slot x hx => ⟨x, (hslot slot).trans hx, .refl⟩
  · refine ⟨.native native, ?_, ?_⟩
    · rw [hslot, huse]
      exact hstate
    · rw [huse]
  · rw [huse]
    exact hbefore
  · rintro v (hv | hv)
    · exact .inr (.inl hv)
    · rw [hout] at hv
      exact .inl (Option.some.inj hv).symm
  · intro conversation e v hv
    cases hv with
    | olm hp => exact .inr (.olm hp)
    | mls hp he =>
        obtain rfl := Option.some.inj (hout.symm.trans hp)
        exact .inl (hmade e he)
  · intro q hq
    obtain rfl := Option.some.inj (hout.symm.trans hq)
    rw [huse]

theorem mlsEnvelope_ok {device conversation kind message messageId : Str} {epoch : Int}
    {recipient : Option Str} {e : Envelope}
    (h : mlsEnvelope (L := L) device conversation epoch kind message messageId recipient = .ok e) :
    e.ciphertext = message := by
  obtain ⟨header, -, h⟩ := bind_eq_ok.mp h
  obtain rfl := Except.ok.inj h
  rfl

/-- The native state that has been assigned, and the one that it comes from. -/
def After (before native : L.Native) (w : World (Vault L) (Request L)) (m : Mem L) : Prop :=
  Kept w m ∧ slotState m.state .native = some (.native native) ∧
    (m.failed = false → ∀ v ∈ posted w.asked, v.slot = .native → Advanced v.after (.native before))

/-- The assignment of the native state. -/
theorem Kept.after {w : World (Vault L) (Request L)} {m : Mem L} (h : Kept w m)
    {data : MlsData L} {before native : L.Native} {op : NativeOp} {seed : L.Seed}
    {result : NativeResult L.Native} (hdata : m.state.mls = some data)
    (hbefore : data.native = some before) (hcall : NativeFrom op seed result m)
    (hnative : result.state = some native) :
    After before native w { m with state := { m.state with
      mls := m.state.mls.map fun d => { d with native := some native } } } := by
  refine ⟨h.setNative (fun _ => ⟨rfl, rfl⟩) fun n₀ hn₀ => hcall.step hn₀ hnative, ?_, ?_⟩
  · simp [slotState, hdata]
  · intro hfailed
    refine Sound.before ((h.disk hfailed).1.moves (h.moves hfailed)) ?_
    simp [slotState, hdata, hbefore]

/-- The assignment of the native state, before what follows from the call. -/
theorem setNative_before {data : MlsData L} {before native : L.Native} {op : NativeOp}
    {seed : L.Seed} {result : NativeResult L.Native} {g : Unit → M L β}
    {Q : World (Vault L) (Request L) → Except Err β → Mem L → Prop}
    (hbefore : data.native = some before) (hnative : result.state = some native)
    (hg : (∃ device, L.native device (some before) op seed = .ok result) →
      Does (After before native) (g ()) Q) :
    Does (KeptAnd fun m => m.state.mls = some data ∧ NativeFrom op seed result m)
      ((setMls fun d => { d with native := some native }) >>= g) Q := by
  rintro w m ⟨hkept, hdata, hcall⟩
  apply Proc.wp_bind.mpr
  refine hg ⟨m.deviceId, ?_⟩ w _ (hkept.after hdata hbefore hcall hnative)
  rw [NativeFrom, hdata] at hcall
  rw [← hbefore]
  exact hcall

/-- The outbox entry, its save and the upload. -/
theorem enqueue_seq {f : MlsData L → MlsData L} {p : MlsPending L} {before native : L.Native}
    {content : ByteArray} (hf : ∀ d, (f d).native = d.native ∧ (f d).outbox = some p)
    (huse : p.use = ⟨.native, .native before, .native native, content⟩)
    (hmade : ∀ e ∈ p.envelopes, p.use.Made e.ciphertext) :
    Does (After before native) (setMls f >>= fun _ => save >>= fun _ => flushMls)
      fun w _ m => Kept w m := by
  refine set_save_seq (F := fun _ => True) ?_ (fun _ _ => trivial)
    (keeps_flushMls.conseq (fun _ _ h => h.1) fun _ _ _ h => h) fun _ _ _ h => h
  rintro w m ⟨hkept, hstate, hbefore⟩
  refine ⟨hkept.broken, trivial, fun hfailed => ⟨?_, hkept.pinned hfailed⟩⟩
  refine Sound.enqueueMls ?_ hf huse hstate (hbefore hfailed) hmade
  exact (hkept.disk hfailed).1.moves (hkept.moves hfailed)

theorem keeps_sendMls (conversation text messageId : Str) (seed : L.Seed) :
    KeepsIt (sendMls conversation text messageId seed) := by
  refine reads_idle.seq fun _ => ?_
  refine (reads_raiseIf _ _).seq fun _ => ?_
  refine (mlsData_spec _).bind (fun data => ?_) fun _ _ _ h => h.1
  refine Triple.conseq (P := KeptAnd fun m => m.state.mls = some data)
    (R := fun w _ m => Kept w m) ?_ (fun _ _ h => ⟨h.1, h.2 data rfl⟩) fun _ _ _ h => h
  refine reads_memory.before (fun m₀ => ?_) fun _ _ _ h => h
  dsimp only
  split
  · next group before _ hbefore =>
    refine (reads_request rfl).before (fun routing => ?_) fun _ _ _ h => h
    refine (reads_ofExcept _).before (fun current => ?_) fun _ _ _ h => h
    refine (reads_raiseIf _ _).before (fun _ => ?_) fun _ _ _ h => h
    refine (reads_ofExcept _).before (fun plaintext => ?_) fun _ _ _ h => h
    refine (reads_ofExcept _).before (fun context => ?_) fun _ _ _ h => h
    refine callNative_before (fun result => ?_) fun _ _ _ h => h
    refine field_before (fun reached _ => ?_) fun _ _ _ h => h.1
    refine raiseIf_before (fun _ => ?_) fun _ _ h => h.1
    refine field_before (fun native hnative => ?_) fun _ _ _ h => h.1
    refine setNative_before hbefore hnative ?_
    rintro ⟨device, hcall⟩
    refine field_before (fun message hmessage => ?_) fun _ _ _ h => h.1
    refine Triple.ofExcept_bind (fun envelope henvelope => ?_) fun _ _ _ h => h.1
    refine enqueue_seq (fun _ => ⟨rfl, rfl⟩) rfl ?_
    intro e he
    obtain rfl := List.mem_singleton.mp he
    rw [mlsEnvelope_ok henvelope]
    exact .native hcall hnative rfl (by simp [hmessage])
  · exact fun w m h => h.1

/-- The Welcome of a new member. -/
theorem welcome_spec {P : World (Vault L) (Request L) → Mem L → Prop} {remove : Bool}
    {result : NativeResult L.Native} {own conversation welcomeId device : Str} {epoch : Int} :
    Does P (if remove then pure []
        else do
          let welcome ← field result.welcome
          let envelope ← ofExcept (mlsEnvelope (L := L) own conversation epoch "welcome" welcome
            welcomeId (some device))
          pure [envelope] : M L (List Envelope))
      fun w r m => P w m ∧ ∀ es, r = .ok es → ∀ e ∈ es, result.welcome = some e.ciphertext := by
  split
  · intro w m hm
    refine ⟨hm, ?_⟩
    rintro es hes
    obtain rfl := Except.ok.inj hes
    exact nofun
  · refine field_before (fun welcome hwelcome => ?_) fun _ _ _ h => ⟨h, fun _ hr => by cases hr⟩
    refine Triple.ofExcept_bind (fun envelope henvelope => ?_) fun _ _ _ h =>
      ⟨h, fun _ hr => by cases hr⟩
    intro w m hm
    refine ⟨hm, ?_⟩
    rintro es hes e he
    obtain rfl := Except.ok.inj hes
    obtain rfl := List.mem_singleton.mp he
    rw [hwelcome, mlsEnvelope_ok henvelope]

theorem keeps_changeMember (conversation device : Str) (remove : Bool)
    (messageId welcomeId : Str) (seed : L.Seed) :
    KeepsIt (changeMember conversation device remove messageId welcomeId seed) := by
  refine reads_idle.seq fun _ => ?_
  refine (mlsData_spec _).bind (fun data => ?_) fun _ _ _ h => h.1
  refine Triple.conseq (P := KeptAnd fun m => m.state.mls = some data)
    (R := fun w _ m => Kept w m) ?_ (fun _ _ h => ⟨h.1, h.2 data rfl⟩) fun _ _ _ h => h
  refine reads_memory.before (fun m₀ => ?_) fun _ _ _ h => h
  dsimp only
  split
  · next group pin before _ _ hbefore =>
    refine (reads_raiseIf _ _).before (fun _ => ?_) fun _ _ _ h => h
    refine (reads_request rfl).before (fun routing => ?_) fun _ _ _ h => h
    refine (reads_ofExcept _).before (fun current => ?_) fun _ _ _ h => h
    refine (reads_raiseIf _ _).before (fun _ => ?_) fun _ _ _ h => h
    refine (reads_request rfl).before (fun memberships => ?_) fun _ _ _ h => h
    refine (reads_ofExcept _).before (fun items => ?_) fun _ _ _ h => h
    refine (reads_ofExcept _).before (fun active => ?_) fun _ _ _ h => h
    refine (reads_raiseIf _ _).before (fun _ => ?_) fun _ _ _ h => h
    refine (reads_ofExcept _).before (fun context => ?_) fun _ _ _ h => h
    refine callNative_before (fun result => ?_) fun _ _ _ h => h
    refine Triple.ofExcept_bind (fun _ _ => ?_) fun _ _ _ h => h.1
    refine field_before (fun reached _ => ?_) fun _ _ _ h => h.1
    refine raiseIf_before (fun _ => ?_) fun _ _ h => h.1
    refine field_before (fun commit hcommit => ?_) fun _ _ _ h => h.1
    refine Triple.ofExcept_bind (fun first hfirst => ?_) fun _ _ _ h => h.1
    refine welcome_spec.bind (fun others => ?_) fun _ _ _ h => h.1.1
    refine field_before (fun native hnative => ?_) fun _ _ _ h => h.1.1
    -- one assignment here is that of the native state and then that of the outbox
    rintro w m ⟨⟨hkept, hdata, hcall⟩, hothers⟩
    have hafter := hkept.after hdata hbefore hcall hnative
    rw [NativeFrom, hdata, Option.bind_some, hbefore] at hcall
    have hmade : ∀ e ∈ first :: others, Use.Made (L := L)
        ⟨.native, .native before, .native native, context⟩ e.ciphertext := by
      intro e he
      refine .native hcall hnative (by cases remove <;> rfl) ?_
      rcases List.mem_cons.mp he with rfl | he
      · simp [mlsEnvelope_ok hfirst, hcommit]
      · simp [hothers others rfl e he]
    have hsend := enqueue_seq (f := fun d => { d with
        groups := d.groups.set conversation { group with epoch := group.epoch + 1 }
        outbox := some ⟨conversation, group.epoch + 1, some ⟨pin.username, pin.accountId, remove⟩,
          first :: others, ⟨.native, .native before, .native native, context⟩⟩ })
      (fun _ => ⟨rfl, rfl⟩) rfl hmade w _ hafter
    apply Proc.wp_bind.mpr
    replace hsend := Proc.wp_bind.mp hsend
    simp only [setMls, setState, Proc.wp_modify, Option.map_map] at hsend ⊢
    exact hsend
  · exact fun w m h => h.1

end Scap.Client
