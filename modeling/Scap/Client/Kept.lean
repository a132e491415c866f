import Scap.Client.Advance

/-!
# What a process keeps

`Kept` is the invariant between two steps of an operation: a process that has not failed to save has
a memory that only moved on from the vault on disk, and its sessions belong to pinned peers. The
operations are put together from `Reads`, what leaves the memory as it is, `keeps_save`, and changes
that are `Quiet` or move on.
-/

namespace Scap.Client

open Scap.Lib Scap.Py Proc

variable {L : Lib} {α β : Type}

/-! ## Sessions of pinned peers -/

/-- A session with the holder of a key, with the identifier it began with. -/
inductive Lib.Session (L : Lib) (key : L.Key) (sid : Str) : L.Ratchet → Prop where
  | outbound (account : L.Account) (oneTime : L.Key) (seed : L.Seed)
      (hsid : L.sessionId (L.createOutbound account key oneTime seed) = sid) :
      Session L key sid (L.createOutbound account key oneTime seed)
  | inbound {account account' : L.Account} {prekey : L.PreKey} {r : L.Ratchet} {bytes : ByteArray}
      (hcall : L.createInbound account key prekey = .ok (account', r, bytes))
      (hsid : L.sessionId r = sid) : Session L key sid r
  | encrypt {r : L.Ratchet} (h : Session L key sid r) (bytes : ByteArray) (seed : L.Seed) :
      Session L key sid (L.encrypt r bytes seed).1
  | decrypt {r r' : L.Ratchet} {message : L.Message} {bytes : ByteArray} (h : Session L key sid r)
      (hcall : L.decrypt r message = .ok (r', bytes)) : Session L key sid r'

/-- A session that goes by this name is one with the pinned peer that it names. -/
def Belongs (peers : Dict Str Peer) (name : Str) (r : L.Ratchet) : Prop :=
  ∃ conversation device peer key sid, name = ratchetName (ratchetKey conversation device) sid ∧
    peers.get device = some peer ∧ L.nativeKey (.str peer.signedPrekey) = .ok key ∧
    L.Session key sid r

structure Pinned (peers : Dict Str Peer) (sessions : Dict Str L.Ratchet) : Prop where
  length : ∀ device peer, peers.get device = some peer → device.length = 36
  belongs : ∀ name r, sessions.get name = some r → Belongs peers name r

theorem pinned_empty : Pinned (L := L) .empty .empty := ⟨nofun, nofun⟩

/-- Another session that belongs. -/
theorem Pinned.set {peers : Dict Str Peer} {sessions : Dict Str L.Ratchet} {name : Str}
    {r : L.Ratchet} (h : Pinned peers sessions) (hr : Belongs peers name r) :
    Pinned peers (sessions.set name r) := by
  refine ⟨h.length, ?_⟩
  intro name' r' hget
  rw [Dict.get_set] at hget
  split at hget
  · next heq =>
    obtain rfl := Option.some.inj hget
    rw [heq]
    exact hr
  · exact h.belongs name' r' hget

/-- A peer is pinned once more, with the same keys. -/
theorem Pinned.setPeer {peers : Dict Str Peer} {sessions : Dict Str L.Ratchet} {device : Str}
    {peer : Peer} (h : Pinned peers sessions) (hlength : device.length = 36)
    (hsame : ∀ p, peers.get device = some p → p.signedPrekey = peer.signedPrekey) :
    Pinned (peers.set device peer) sessions := by
  constructor
  · intro device' peer' hget
    rw [Dict.get_set] at hget
    split at hget
    · next heq => rw [heq]; exact hlength
    · exact h.length device' peer' hget
  · intro name r hget
    obtain ⟨conversation, device', p, key, sid, hname, hp, hkey, hr⟩ := h.belongs name r hget
    by_cases heq : device' = device
    · subst heq
      refine ⟨conversation, device', peer, key, sid, hname, Dict.get_set_self, ?_, hr⟩
      rw [← hsame p hp]
      exact hkey
    · exact ⟨conversation, device', p, key, sid, hname, (Dict.get_set_of_ne heq).trans hp, hkey, hr⟩

/-! ## The invariant -/

/-- What holds of the vault on disk and the requests so far, and what an upload needs. -/
def contract (L : Lib) : Contract (Vault L) (Request L) :=
  ⟨fun d asked => Sound d asked ∧ Pinned d.peers d.sessions, Covered⟩

/-- Memory is the disk or ahead of it, unless a write has failed. -/
structure Kept (w : World (Vault L) (Request L)) (m : Mem L) : Prop where
  broken : w.broken = m.failed
  disk : m.failed = false → (contract L).holds w.disk w.asked
  moves : m.failed = false → Moves w.disk m.state
  pinned : m.failed = false → Pinned m.state.peers m.state.sessions

/-- `Kept`, and something about the memory. -/
abbrev KeptAnd (F : Mem L → Prop) (w : World (Vault L) (Request L)) (m : Mem L) : Prop :=
  Kept w m ∧ F m

/-- What an operation of the clients makes of `P`. -/
abbrev Does (P : World (Vault L) (Request L) → Mem L → Prop) (x : M L α)
    (Q : World (Vault L) (Request L) → Except Err α → Mem L → Prop) : Prop :=
  Triple (fun m : Mem L => m.state) (contract L) P x Q

/-- The operation keeps `Kept`. -/
abbrev KeepsIt (x : M L α) : Prop := Keeps (fun m : Mem L => m.state) (contract L) Kept x

/-- Nothing of what `Kept` speaks of is different. -/
structure Quiet (s s' : Vault L) : Prop where
  peers : s'.peers = s.peers
  sessions : s'.sessions = s.sessions
  outbox : s'.outbox = s.outbox
  native : s'.mls.bind (·.native) = s.mls.bind (·.native)
  mls : mlsOutbox s' = mlsOutbox s

theorem Quiet.slotState {s s' : Vault L} (h : Quiet s s') (slot : Slot) :
    slotState s' slot = slotState s slot := by
  cases slot with
  | ratchet id => rw [Client.slotState, Client.slotState, h.sessions]
  | native => rw [Client.slotState, Client.slotState, h.native]

theorem Quiet.moves {s s' : Vault L} (h : Quiet s s') : Moves s s' := by
  refine ⟨?_, fun p hp => h.outbox ▸ hp, ?_⟩
  · intro slot x hx
    exact ⟨x, (h.slotState slot).trans hx, .refl⟩
  · intro p hp
    rw [h.mls] at hp
    exact ⟨p, hp, rfl, rfl, fun _ he => he⟩

/-- A change of the group data that leaves the native state and the outbox. -/
theorem quiet_mls {s : Vault L} {f : MlsData L → MlsData L}
    (hnative : ∀ d, (f d).native = d.native) (houtbox : ∀ d, (f d).outbox = d.outbox) :
    Quiet s { s with mls := s.mls.map f } := by
  refine ⟨rfl, rfl, rfl, ?_, ?_⟩
  · cases h : s.mls with
    | none => rfl
    | some d => exact hnative d
  · cases h : s.mls with
    | none => simp [mlsOutbox, h]
    | some d =>
        simp only [mlsOutbox, h]
        exact houtbox d

/-- A memory that only moved on. -/
theorem Kept.step {w : World (Vault L) (Request L)} {m m' : Mem L} (h : Kept w m)
    (hfailed : m'.failed = m.failed) (hmoves : m.failed = false → Moves m.state m'.state)
    (hpinned : m.failed = false → Pinned m'.state.peers m'.state.sessions) : Kept w m' := by
  constructor
  · rw [hfailed]; exact h.broken
  · rw [hfailed]; exact h.disk
  · rw [hfailed]; exact fun hok => (h.moves hok).trans (hmoves hok)
  · rw [hfailed]; exact hpinned

theorem Kept.quiet {w : World (Vault L) (Request L)} {m m' : Mem L} (h : Kept w m)
    (hfailed : m'.failed = m.failed) (hquiet : Quiet m.state m'.state) : Kept w m' := by
  refine h.step hfailed (fun _ => hquiet.moves) ?_
  intro hok
  rw [hquiet.peers, hquiet.sessions]
  exact h.pinned hok

/-- What a process that has just opened the vault starts with. -/
theorem kept_load {d : Vault L} {asked : List (Request L)} (h : (contract L).holds d asked) :
    Kept ⟨d, asked, false⟩ (Mem.load L d) :=
  ⟨rfl, fun _ => h, fun _ => .refl d, fun _ => h.2⟩

/-! ## What leaves the memory as it is -/

/-- The operation keeps `Kept` and whatever is true of the memory. -/
def Reads (x : M L α) : Prop :=
  ∀ F : Mem L → Prop, Keeps (fun m : Mem L => m.state) (contract L) (KeptAnd F) x

theorem Reads.keeps {x : M L α} (h : Reads x) : KeepsIt x :=
  (h fun _ => True).conseq (fun _ _ hm => ⟨hm, trivial⟩) fun _ _ _ hm => hm.1

theorem Reads.bind {x : M L α} {f : α → M L β} (hx : Reads x) (hf : ∀ a, Reads (f a)) :
    Reads (x >>= f) :=
  fun F => (hx F).bind fun a => hf a F

theorem reads_pure (a : α) : Reads (pure a : M L α) := fun _ => .pure a

theorem reads_raise (e : Err) : Reads (raise e : M L α) := fun _ => .raise e

theorem reads_memory : Reads (memory : M L (Mem L)) := fun _ => .memory

theorem reads_ofExcept (r : Except Err α) : Reads (ofExcept r : M L α) := fun _ => .ofExcept r

theorem reads_raiseIf (p : Prop) [Decidable p] (e : Err) : Reads (raiseIf p e : M L Unit) := by
  rw [raiseIf]
  split
  · exact reads_raise e
  · exact reads_pure ()

theorem reads_ite {p : Prop} [Decidable p] {x y : M L α} (hx : Reads x) (hy : Reads y) :
    Reads (if p then x else y) := by
  split
  · exact hx
  · exact hy

theorem reads_requireHealthy : Reads (requireHealthy : M L Unit) :=
  reads_memory.bind fun _ => reads_raiseIf _ _

/-- A process goes on after `_require_healthy` exactly if it has not failed to save. -/
theorem requireHealthy_spec (P : World (Vault L) (Request L) → Mem L → Prop) :
    Does P requireHealthy fun w r m => P w m ∧ match r with
      | .ok _ => m.failed = false
      | .error _ => m.failed = true := by
  intro w m hm
  show ((raiseIf m.failed .persistence : M L Unit) m).wp _ _ _ w
  cases hfailed : m.failed with
  | true => exact ⟨hm, hfailed⟩
  | false => exact ⟨hm, hfailed⟩

theorem reads_requestResponse {q : Request L} (hq : q.use? = none) :
    Reads (requestResponse q) := by
  intro F
  refine (requireHealthy_spec _).bind (fun _ => ?_) fun _ _ _ h => h.1
  -- the request may leave: the process has not failed, and no ciphertext is in it
  rintro w m ⟨⟨hkept, hF⟩, hfailed⟩
  obtain ⟨hsound, hpinned⟩ := hkept.disk hfailed
  apply Proc.wp_bind.mpr
  refine ⟨hkept.broken.trans hfailed, ?_, ⟨hsound.ask hq, hpinned⟩, ?_⟩
  · cases q <;> first | exact trivial | cases hq
  · intro a
    have hkept' : Kept { w with asked := q :: w.asked } m :=
      ⟨hkept.broken, fun _ => ⟨hsound.ask hq, hpinned⟩, hkept.moves, hkept.pinned⟩
    cases a with
    | failed => exact ⟨hkept', hF⟩
    | response status body => exact ⟨hkept', hF⟩

theorem reads_request {q : Request L} (hq : q.use? = none) : Reads (request q) := by
  refine (reads_requestResponse hq).bind ?_
  rintro ⟨status, body⟩
  refine reads_ite (reads_raise _) ?_
  cases body with
  | empty => exact reads_pure _
  | invalid => exact reads_raise _
  | json j => exact reads_pure _

theorem reads_theAccount : Reads (theAccount : M L L.Account) := by
  refine reads_memory.bind fun m => ?_
  cases m.account with
  | none => exact reads_raise _
  | some account => exact reads_ite (reads_pure _) (reads_raise _)

theorem reads_mlsData : Reads (mlsData : M L (MlsData L)) := by
  refine reads_memory.bind fun m => ?_
  cases m.state.mls with
  | none => exact reads_raise _
  | some data => exact reads_ite (reads_pure _) (reads_raise _)

theorem reads_field (x : Option α) : Reads (field x : M L α) := by
  cases x with
  | none => exact reads_raise _
  | some a => exact reads_pure a

theorem reads_idle : Reads (idle : M L Unit) := by
  refine reads_requireHealthy.bind fun _ => ?_
  exact reads_mlsData.bind fun _ => reads_raiseIf _ _

/-! ## Saving -/

/-- A save of a sound memory. -/
theorem save_spec {F : Mem L → Prop} (hF : ∀ m, F m → F { m with
      state := { m.state with account := m.account } }) :
    Does (fun w m => w.broken = m.failed ∧ F m ∧ (m.failed = false →
        (contract L).holds m.state w.asked))
      save fun w r m => Kept w m ∧ (r = .ok () → F m ∧ m.failed = false) := by
  refine (requireHealthy_spec _).bind (fun _ => ?_) ?_
  · rintro w m ⟨⟨hbroken, hm, hsound⟩, hfailed⟩
    obtain ⟨hsound, hpinned⟩ := hsound hfailed
    apply Proc.wp_bind.mpr
    apply Proc.wp_modify.mpr
    have hmoves : Moves m.state { m.state with account := m.account } :=
      Quiet.moves ⟨rfl, rfl, rfl, rfl, rfl⟩
    have hholds := And.intro (hsound.moves hmoves) hpinned
    refine ⟨hbroken.trans hfailed, hholds, ?_, fun replaced => ⟨⟨rfl, ?_, ?_, ?_⟩, ?_⟩⟩
    · exact ⟨⟨hbroken, fun _ => hholds, fun _ => .refl _, fun _ => hpinned⟩,
        fun _ => ⟨hF m hm, hfailed⟩⟩
    all_goals exact nofun
  · rintro w e m ⟨⟨hbroken, -, -⟩, hfailed⟩
    have hnot : ¬ m.failed = false := by rw [hfailed]; exact nofun
    exact ⟨⟨hbroken, fun h => absurd h hnot, fun h => absurd h hnot, fun h => absurd h hnot⟩, nofun⟩

theorem keepsAnd_save {F : Mem L → Prop} (hF : ∀ m, F m → F { m with
      state := { m.state with account := m.account } }) :
    Does (KeptAnd F) save fun w r m => Kept w m ∧ (r = .ok () → F m ∧ m.failed = false) := by
  refine (save_spec hF).conseq ?_ fun _ _ _ h => h
  rintro w m ⟨hkept, hm⟩
  refine ⟨hkept.broken, hm, fun hfailed => ⟨?_, hkept.pinned hfailed⟩⟩
  exact (hkept.disk hfailed).1.moves (hkept.moves hfailed)

theorem keeps_save : KeepsIt (save : M L Unit) :=
  (keepsAnd_save (F := fun _ => True) fun _ h => h).conseq (fun _ _ hm => ⟨hm, trivial⟩)
    fun _ _ _ h => h.1

/-- A change of the vault that leaves it sound, and is saved at once. -/
theorem set_save_seq {P : World (Vault L) (Request L) → Mem L → Prop} {F : Mem L → Prop}
    {f : Vault L → Vault L} {g : Unit → M L β}
    {Q : World (Vault L) (Request L) → Except Err β → Mem L → Prop}
    (hP : ∀ w m, P w m → w.broken = m.failed ∧ F { m with state := f m.state } ∧
      (m.failed = false → (contract L).holds (f m.state) w.asked))
    (hF : ∀ m, F m → F { m with state := { m.state with account := m.account } })
    (hg : Does (KeptAnd F) (g ()) Q) (herr : ∀ w e m, Kept w m → Q w (.error e) m) :
    Does P (setState f >>= fun _ => save >>= g) Q := by
  intro w m hm
  obtain ⟨hbroken, hnew, hholds⟩ := hP w m hm
  apply Proc.wp_bind.mpr
  show Prog.wp _ _ _ ((save >>= g) { m with state := f m.state }) w
  apply Proc.wp_bind.mpr
  refine Prog.wp_mono (save_spec hF w _ ⟨hbroken, hnew, hholds⟩) ?_
  rintro w r m ⟨hkept, hr⟩
  cases r with
  | ok _ => exact hg w m ⟨hkept, (hr rfl).1⟩
  | error e => exact herr w e m hkept

/-! ## Sequences of operations -/

theorem Reads.seq {x : M L α} {f : α → M L β} (hx : Reads x) (hf : ∀ a, KeepsIt (f a)) :
    KeepsIt (x >>= f) :=
  hx.keeps.bind hf

/-- What only reads, before what needs to know the memory. -/
theorem Reads.before {F : Mem L → Prop} {x : M L α} {f : α → M L β}
    {Q : World (Vault L) (Request L) → Except Err β → Mem L → Prop} (hx : Reads x)
    (hf : ∀ a, Does (KeptAnd F) (f a) Q) (herr : ∀ w e m, Kept w m → Q w (.error e) m) :
    Does (KeptAnd F) (x >>= f) Q :=
  (hx F).seq hf fun w e m h => herr w e m h.1

/-- The memory that is read is the one that is known. -/
theorem memory_before {m₀ : Mem L} {f : Mem L → M L β}
    {Q : World (Vault L) (Request L) → Except Err β → Mem L → Prop}
    (hf : Does (KeptAnd fun m => m = m₀) (f m₀) Q) :
    Does (KeptAnd fun m => m = m₀) (memory >>= f) Q := by
  rintro w m ⟨hkept, rfl⟩
  exact hf w m ⟨hkept, rfl⟩

/-- A check that may raise. -/
theorem raiseIf_before {P : World (Vault L) (Request L) → Mem L → Prop} {p : Prop} [Decidable p]
    {e : Err} {f : Unit → M L β}
    {Q : World (Vault L) (Request L) → Except Err β → Mem L → Prop}
    (hf : ¬ p → Does P (f ()) Q) (herr : ∀ w m, P w m → Q w (.error e) m) :
    Does P (raiseIf p e >>= f) Q := by
  rw [raiseIf]
  split
  · exact fun w m hm => herr w m hm
  · next hp => exact hf hp

/-- A change of the memory that is quiet. -/
theorem modify_seq {f : Mem L → Mem L} {g : Unit → M L β}
    (hf : ∀ m, (f m).failed = m.failed ∧ Quiet m.state (f m).state) (hg : KeepsIt (g ())) :
    KeepsIt (modify f >>= g) :=
  Keeps.bind (.modify fun _ m hm => hm.quiet (hf m).1 (hf m).2) fun _ => hg

theorem setState_seq {f : Vault L → Vault L} {g : Unit → M L β} (hf : ∀ s, Quiet s (f s))
    (hg : KeepsIt (g ())) : KeepsIt (setState f >>= g) :=
  modify_seq (fun m => ⟨rfl, hf m.state⟩) hg

theorem setMls_seq {f : MlsData L → MlsData L} {g : Unit → M L β}
    (hf : ∀ d, (f d).native = d.native ∧ (f d).outbox = d.outbox) (hg : KeepsIt (g ())) :
    KeepsIt (setMls f >>= g) :=
  setState_seq (fun _ => quiet_mls (fun d => (hf d).1) fun d => (hf d).2) hg

theorem keeps_setAccount (account : L.Account) : KeepsIt (setAccount account) :=
  .modify fun _ _ hm => hm.quiet rfl ⟨rfl, rfl, rfl, rfl, rfl⟩

end Scap.Client
