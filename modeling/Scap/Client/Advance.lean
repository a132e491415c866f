import Scap.Client.Mls

/-!
# Ratchets and native states that only move on

`Advanced` relates what a key state was to what the libraries have made of it since. `Sound` is what
holds of a vault on disk and the uploads so far: the key state of every upload, and of what waits in
an outbox, has been passed in the vault, and two uploads of one ratchet come one after the other.
`Moves` is what a memory may differ in from the vault without losing that (`Sound.moves`), and
`Sound.upload` is the upload of what waits.
-/

namespace Scap.Client

open Scap.Lib Scap.Py

variable {L : Lib}

/-! ## Key states -/

/-- A call of a library on a key state. -/
inductive LibStep (L : Lib) : KeyState L → KeyState L → Prop where
  | encrypt (r : L.Ratchet) (bytes : ByteArray) (seed : L.Seed) :
      LibStep L (.ratchet r) (.ratchet (L.encrypt r bytes seed).1)
  | decrypt {r r' : L.Ratchet} {message : L.Message} {plaintext : ByteArray} :
      L.decrypt r message = .ok (r', plaintext) → LibStep L (.ratchet r) (.ratchet r')
  | native {device : Str} {n n' : L.Native} {op : NativeOp} {seed : L.Seed}
      {result : NativeResult L.Native} :
      L.native device (some n) op seed = .ok result → result.state = some n' →
      LibStep L (.native n) (.native n')

/-- The libraries have come from the first to the second. -/
abbrev Advanced (x y : KeyState L) : Prop := Relation.ReflTransGen (LibStep L) x y

/-- What the helper encrypts or authenticates. -/
def NativeOp.content : NativeOp → Option Str
  | .send _ _ plaintext => some plaintext
  | .add _ aad _ => some aad
  | .remove _ aad _ => some aad
  | _ => none

/-- The ciphertext comes from this use of a key state. -/
inductive Use.Made : Use L → Str → Prop where
  | ratchet (id : Str) (r : L.Ratchet) (content : ByteArray) (seed : L.Seed) :
      Made ⟨.ratchet id, .ratchet r, .ratchet (L.encrypt r content seed).1, content⟩
        (L.encodeBase64url (L.encrypt r content seed).2.2)
  | native {device : Str} {n n' : L.Native} {op : NativeOp} {seed : L.Seed}
      {result : NativeResult L.Native} {content : ByteArray} {text : Str}
      (hcall : L.native device (some n) op seed = .ok result) (hstate : result.state = some n')
      (hcontent : op.content = some (L.encodeBase64url content))
      (htext : text ∈ result.message.toList ++ result.commit.toList ++ result.welcome.toList) :
      Made ⟨.native, .native n, .native n', content⟩ text

/-- The libraries never come back to a key state from what an encryption has made of it. -/
def Lib.NeverRepeats (L : Lib) : Prop :=
  ∀ (u : Use L) (text : Str), u.Made text → ¬ Advanced u.after u.before

/-- The key state of a vault. -/
def slotState (s : Vault L) : Slot → Option (KeyState L)
  | .ratchet id => (s.sessions.get id).map .ratchet
  | .native => (s.mls.bind (·.native)).map .native

/-- The vault has the key state of a use, advanced past it. -/
def Past (s : Vault L) (u : Use L) : Prop := ∃ x, slotState s u.slot = some x ∧ Advanced u.after x

/-! ## Outboxes -/

def mlsOutbox (s : Vault L) : Option (MlsPending L) := s.mls.bind (·.outbox)

/-- What waits for its upload. -/
inductive Holding (s : Vault L) : Str → Envelope → Use L → Prop where
  | olm {p : Pending L} (h : s.outbox = some p) : Holding s p.conversation p.envelope p.use
  | mls {p : MlsPending L} {e : Envelope} (h : mlsOutbox s = some p) (he : e ∈ p.envelopes) :
      Holding s p.conversation e p.use

/-- A use that waits in an outbox, with ciphertexts left or not. -/
def Queued (s : Vault L) (u : Use L) : Prop :=
  s.outbox.map (·.use) = some u ∨ (mlsOutbox s).map (·.use) = some u

theorem Holding.queued {s : Vault L} {conversation : Str} {e : Envelope} {u : Use L}
    (h : Holding s conversation e u) : Queued s u := by
  cases h with
  | olm h => exact .inl (by rw [h]; rfl)
  | mls h he => exact .inr (by rw [h]; rfl)

/-- The use that an upload carries. -/
def Request.use? : Request L → Option (Use L)
  | .envelope _ _ u => some u
  | _ => none

/-- The uses of the uploads. -/
def posted (asked : List (Request L)) : List (Use L) := asked.filterMap Request.use?

theorem posted_cons_of_none {q : Request L} {asked : List (Request L)} (hq : q.use? = none) :
    posted (q :: asked) = posted asked := List.filterMap_cons_none hq

theorem mem_posted_envelope {conversation : Str} {e : Envelope} {u v : Use L}
    {asked : List (Request L)} :
    v ∈ posted (.envelope conversation e u :: asked) ↔ v = u ∨ v ∈ posted asked := by
  show v ∈ u :: posted asked ↔ _
  exact List.mem_cons

/-- The ciphertexts of the uploads come from the uses that they carry. -/
def AllMade (asked : List (Request L)) : Prop :=
  ∀ conversation e u, Request.envelope conversation e u ∈ asked → u.Made e.ciphertext

/-! ## What the vault and the uploads have in common -/

/-- The vault is past the state that an upload was made from. -/
structure Sound (d : Vault L) (asked : List (Request L)) : Prop where
  past : ∀ v ∈ posted asked, Past d v
  queued : ∀ u, Queued d u → Past d u ∧
    ∀ v ∈ posted asked, v.slot = u.slot → v = u ∨ Advanced v.after u.before
  olm : ∀ p, d.outbox = some p → ∃ id, p.use.slot = .ratchet id
  mls : ∀ p, mlsOutbox d = some p → p.use.slot = .native
  made : ∀ conversation e u, Holding d conversation e u → u.Made e.ciphertext
  sent : AllMade asked
  ordered : ∀ v ∈ posted asked, ∀ v' ∈ posted asked, v.slot = v'.slot →
    v = v' ∨ Advanced v.after v'.before ∨ Advanced v'.after v.before

/-- Which upload may leave with which vault on disk. -/
def Covered (d : Vault L) : Request L → Prop
  | .envelope conversation e u => Holding d conversation e u ∧ u.Made e.ciphertext ∧ Past d u
  | _ => True

theorem sound_blank : Sound (Vault.blank L) [] := by
  refine ⟨nofun, ?_, nofun, nofun, ?_, nofun, nofun⟩
  · rintro u (h | h) <;> cases h
  · intro conversation e u h
    cases h with
    | olm h => cases h
    | mls h he => cases h

/-- Two uses that wait for one key state are the same. -/
theorem Sound.single {d : Vault L} {asked : List (Request L)} (h : Sound d asked) {u u' : Use L}
    (hu : Queued d u) (hu' : Queued d u') (hslot : u.slot = u'.slot) : u = u' := by
  simp only [Queued, Option.map_eq_some_iff] at hu hu'
  obtain ⟨p, hp, rfl⟩ | ⟨p, hp, rfl⟩ := hu <;> obtain ⟨q, hq, rfl⟩ | ⟨q, hq, rfl⟩ := hu'
  · rw [Option.some.inj (hp.symm.trans hq)]
  · obtain ⟨id, hid⟩ := h.olm p hp
    rw [hid, h.mls q hq] at hslot
    cases hslot
  · obtain ⟨id, hid⟩ := h.olm q hq
    rw [hid, h.mls p hp] at hslot
    cases hslot
  · rw [Option.some.inj (hp.symm.trans hq)]

/-- A request that carries no ciphertext. -/
theorem Sound.ask {d : Vault L} {asked : List (Request L)} (h : Sound d asked) {q : Request L}
    (hq : q.use? = none) : Sound d (q :: asked) := by
  have hposted : posted (q :: asked) = posted asked := posted_cons_of_none hq
  refine ⟨?_, ?_, h.olm, h.mls, h.made, ?_, ?_⟩
  · rw [hposted]; exact h.past
  · rw [hposted]; exact h.queued
  · intro conversation e u hmem
    rcases List.mem_cons.mp hmem with rfl | hmem
    · cases hq
    · exact h.sent _ _ _ hmem
  · rw [hposted]; exact h.ordered

/-- The upload of what waits. -/
theorem Sound.upload {d : Vault L} {asked : List (Request L)} (h : Sound d asked)
    {conversation : Str} {e : Envelope} {u : Use L} (hu : Holding d conversation e u) :
    Sound d (.envelope conversation e u :: asked) := by
  obtain ⟨hpast, hbefore⟩ := h.queued u hu.queued
  refine ⟨?_, ?_, h.olm, h.mls, h.made, ?_, ?_⟩
  · intro v hv
    rcases mem_posted_envelope.mp hv with rfl | hv
    · exact hpast
    · exact h.past v hv
  · intro u' hu'
    refine ⟨(h.queued u' hu').1, ?_⟩
    intro v hv hslot
    rcases mem_posted_envelope.mp hv with rfl | hv
    · exact .inl (h.single hu.queued hu' hslot)
    · exact (h.queued u' hu').2 v hv hslot
  · intro conversation' e' u' hmem
    rcases List.mem_cons.mp hmem with heq | hmem
    · cases heq
      exact h.made _ _ _ hu
    · exact h.sent _ _ _ hmem
  · intro v hv v' hv' hslot
    rcases mem_posted_envelope.mp hv with hvu | hold
    · rcases mem_posted_envelope.mp hv' with hvu' | hold'
      · exact .inl (hvu.trans hvu'.symm)
      · subst hvu
        rcases hbefore v' hold' hslot.symm with heq | hadv
        · exact .inl heq.symm
        · exact .inr (.inr hadv)
    · rcases mem_posted_envelope.mp hv' with hvu' | hold'
      · subst hvu'
        rcases hbefore v hold hslot with heq | hadv
        · exact .inl heq
        · exact .inr (.inl hadv)
      · exact h.ordered v hold v' hold' hslot

/-! ## What memory may differ in -/

structure Moves (d s : Vault L) : Prop where
  slots : ∀ slot x, slotState d slot = some x → ∃ y, slotState s slot = some y ∧ Advanced x y
  olm : ∀ p, s.outbox = some p → d.outbox = some p
  mls : ∀ p, mlsOutbox s = some p → ∃ q, mlsOutbox d = some q ∧ p.conversation = q.conversation ∧
    p.use = q.use ∧ ∀ e ∈ p.envelopes, e ∈ q.envelopes

theorem Moves.refl (s : Vault L) : Moves s s :=
  ⟨fun _ x hx => ⟨x, hx, .refl⟩, fun _ hp => hp, fun p hp => ⟨p, hp, rfl, rfl, fun _ he => he⟩⟩

theorem Moves.trans {d s t : Vault L} (h : Moves d s) (h' : Moves s t) : Moves d t := by
  refine ⟨?_, fun p hp => h.olm p (h'.olm p hp), ?_⟩
  · intro slot x hx
    obtain ⟨y, hy, hxy⟩ := h.slots slot x hx
    obtain ⟨z, hz, hyz⟩ := h'.slots slot y hy
    exact ⟨z, hz, hxy.trans hyz⟩
  · intro p hp
    obtain ⟨q, hq, hconv, huse, hsub⟩ := h'.mls p hp
    obtain ⟨r, hr, hconv', huse', hsub'⟩ := h.mls q hq
    exact ⟨r, hr, hconv.trans hconv', huse.trans huse', fun e he => hsub' e (hsub e he)⟩

theorem Moves.past {d s : Vault L} (h : Moves d s) {u : Use L} (hu : Past d u) : Past s u := by
  obtain ⟨x, hx, hadv⟩ := hu
  obtain ⟨y, hy, hxy⟩ := h.slots _ _ hx
  exact ⟨y, hy, hadv.trans hxy⟩

theorem Moves.queued {d s : Vault L} (h : Moves d s) {u : Use L} (hu : Queued s u) :
    Queued d u := by
  simp only [Queued, Option.map_eq_some_iff] at hu ⊢
  obtain ⟨p, hp, rfl⟩ | ⟨p, hp, rfl⟩ := hu
  · exact .inl ⟨p, h.olm p hp, rfl⟩
  · obtain ⟨q, hq, -, huse, -⟩ := h.mls p hp
    exact .inr ⟨q, hq, huse.symm⟩

theorem Moves.holding {d s : Vault L} (h : Moves d s) {conversation : Str} {e : Envelope}
    {u : Use L} (hu : Holding s conversation e u) : Holding d conversation e u := by
  cases hu with
  | olm hp => exact .olm (h.olm _ hp)
  | mls hp he =>
      obtain ⟨q, hq, hconv, huse, hsub⟩ := h.mls _ hp
      rw [hconv, huse]
      exact .mls hq (hsub _ he)

theorem Sound.moves {d s : Vault L} {asked : List (Request L)} (h : Sound d asked)
    (hm : Moves d s) : Sound s asked := by
  refine ⟨fun v hv => hm.past (h.past v hv), ?_, fun p hp => h.olm p (hm.olm p hp), ?_, ?_, h.sent,
    h.ordered⟩
  · intro u hu
    obtain ⟨hpast, hbefore⟩ := h.queued u (hm.queued hu)
    exact ⟨hm.past hpast, hbefore⟩
  · intro p hp
    obtain ⟨q, hq, -, huse, -⟩ := hm.mls p hp
    rw [huse]
    exact h.mls q hq
  · exact fun conversation e u hu => h.made conversation e u (hm.holding hu)

end Scap.Client
