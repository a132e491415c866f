import Scap.Client.Receiving

/-!
# Durable before send

Every operation of the two clients keeps `Kept` (`keeps_op`), so `Software.invariant` gives it for
all runs: any operations, any answers, saves that fail, crashes and restarts.
-/

namespace Scap.Client

open Scap.Lib Scap.Py Proc

variable {L : Lib}

/-- What an operation of the clients does to a memory from which it draws. -/
theorem keeps_op (op : Op L) (w : World (Vault L) (Request L)) (m : Mem L) (hm : Kept w m)
    (hdraws : op.draws m) :
    (op.run m).wp (fun m : Mem L => m.state) (contract L) (fun w _ m => Kept w m) w := by
  have hwrap : ∀ {α : Type} {x : M L α} {g : α → Out}, KeepsIt x →
      KeepsIt (do return g (← x) : M L Out) := fun hx => hx.bind fun _ => (reads_pure _).keeps
  cases op with
  | openPrivate server seed newDevice => exact keeps_openPrivate server seed newDevice w m hm
  | registrationOffer displayName seed =>
      exact hwrap (keeps_registrationOffer displayName seed) w m hm
  | approve j => exact hwrap (reads_approve j).keeps w m hm
  | registerDevice approval seed => exact hwrap (keeps_registerDevice approval seed) w m hm
  | refill count seed => exact hwrap (keeps_refill count seed) w m hm
  | pinPeer username expected device =>
      exact hwrap (g := fun _ => .nothing) (keeps_pinPeer username expected device) w m hm
  | newConversation peerUsername title =>
      exact hwrap (reads_newConversation peerUsername title).keeps w m hm
  | stepUp body => exact hwrap (reads_request rfl).keeps w m hm
  | prepare conversation device text messageId session encryption =>
      refine ((keeps_prepare hdraws).bind (fun _ => ?_) fun _ _ _ h => h) w m ⟨hm, rfl⟩
      exact (reads_pure _).keeps
  | flush => exact keeps_flush w m hm
  | send conversation device text messageId session encryption =>
      refine ((keeps_prepare hdraws).bind (fun _ => ?_) fun _ _ _ h => h) w m ⟨hm, rfl⟩
      exact keeps_flush
  | decrypt conversation envelope => exact hwrap (keeps_decrypt conversation envelope true) w m hm
  | receive conversation => exact hwrap (keeps_receive conversation) w m hm
  | openMls seed => exact keeps_openMls seed w m hm
  | offer server => exact hwrap (reads_keyPackageOffer server).keeps w m hm
  | refreshOffer server seed => exact hwrap (keeps_refreshOffer server seed) w m hm
  | pinOffer server j => exact keeps_pinOffer server j w m hm
  | create title seed => exact keeps_create title seed w m hm
  | changeMember conversation device remove messageId welcomeId seed =>
      exact keeps_changeMember conversation device remove messageId welcomeId seed w m hm
  | sendMls conversation text messageId seed =>
      exact keeps_sendMls conversation text messageId seed w m hm
  | flushMls => exact keeps_flushMls w m hm
  | receiveMls conversation ownerDevice draw =>
      exact hwrap (keeps_receiveMls conversation ownerDevice draw) w m hm

/-- A state of a device, after any run from a blank vault. -/
abbrev Device (L : Lib) := Machine (Mem L) (Vault L) (Request L) Answer Err Out

abbrev Reached (s : Device L) : Prop := ((software L).system (Vault.blank L)).Reachable s

theorem fine_of_reached {s : Device L} (h : Reached s) :
    Software.Fine (software L) (contract L) Kept s :=
  Software.invariant (c := contract L) (I := Kept) ⟨sound_blank, pinned_empty⟩
    (fun _ _ hd => kept_load hd) (fun op w _ _ => keeps_op op w _) h

/-! ## A process that has failed to save -/

/-- The operation ends at once, and has nothing to return. -/
def Refuses (p : Prog (Mem L) (Request L) Answer Err Out) : Prop :=
  ∃ m' r, p = .done m' r ∧ m'.failed = true ∧ ∀ out, r = .ok out → out = .nothing

theorem refuses_op (op : Op L) {m : Mem L} (hfailed : m.failed = true) : Refuses (op.run m) := by
  obtain ⟨state, account, deviceId, accountId, username, ready, failed, error, mlsError⟩ := m
  obtain rfl : failed = true := hfailed
  have hdone : ∀ e, Refuses (L := L) (.done ⟨state, account, deviceId, accountId, username, ready,
      true, error, mlsError⟩ (.error e)) := fun e => ⟨_, _, rfl, rfl, nofun⟩
  cases op with
  | openPrivate server seed newDevice => cases ready <;> exact hdone _
  | openMls seed =>
      cases ready with
      | false => exact hdone _
      | true =>
          obtain ⟨_, _, _, _, _, _, _, _, _, _, mls⟩ := state
          rcases mls with - | ⟨- | native⟩
          case none | some.none => exact ⟨_, .error .persistence, rfl, rfl, nofun⟩
          case some.some =>
            refine ⟨_, .ok .nothing, rfl, rfl, ?_⟩
            intro out hout
            exact (Except.ok.inj hout).symm
  | _ => exact hdone .persistence

/-! ## All runs -/

/-- **Durable before send.** In every run of the two clients, with crashes and restarts anywhere and
saves that fail with or without effect: a ciphertext that is about to leave is in the outbox of the
vault on disk, which has the key state it comes from, advanced past it; a process that has failed to
save sends, receives and saves nothing any more; and no two uses of a key state are ever uploaded. -/
theorem durable_before_send (hlib : L.NeverRepeats) {s : Device L} (h : Reached s) :
    (∀ m conversation envelope u k,
      s.proc = some (.ask m (.envelope conversation envelope u) k) →
      Holding s.world.disk conversation envelope u ∧ u.Made envelope.ciphertext ∧
        Past s.world.disk u) ∧
    (s.world.broken = true → ∀ p, s.proc = some p →
      ∃ m r, p = .done m r ∧ ∀ op : Op L, Refuses (op.run m)) ∧
    (∀ conversation envelope u, Request.envelope conversation envelope u ∈ s.world.asked →
      u.Made envelope.ciphertext) ∧
    (∀ u ∈ posted s.world.asked, ∀ u' ∈ posted s.world.asked,
      u.slot = u'.slot → u.before = u'.before → u = u') := by
  have hfine := fine_of_reached h
  obtain ⟨hsound, -⟩ := hfine.holds
  refine ⟨?_, ?_, hsound.sent, ?_⟩
  · intro m conversation envelope u k hproc
    exact (hfine.proc _ hproc).2.1
  · intro hbroken p hproc
    have hwp := hfine.proc p hproc
    cases p with
    | done m r =>
        have hkept : Kept s.world m := hwp
        exact ⟨m, r, rfl, fun op => refuses_op op (hkept.broken.symm.trans hbroken)⟩
    | save m good bad => exact absurd (hwp.1.symm.trans hbroken) nofun
    | ask m q k => exact absurd (hwp.1.symm.trans hbroken) nofun
  · intro u hu u' hu' hslot hbefore
    have hmade : ∀ v ∈ posted s.world.asked, ∃ text, v.Made text := by
      intro v hv
      obtain ⟨q, hq, huse⟩ := List.mem_filterMap.mp hv
      cases q with
      | envelope conversation envelope v' =>
          obtain rfl := Option.some.inj huse
          exact ⟨_, hsound.sent _ _ _ hq⟩
      | _ => cases huse
    rcases hsound.ordered u hu u' hu' hslot with heq | hadv | hadv
    · exact heq
    · obtain ⟨text, hu⟩ := hmade u hu
      rw [← hbefore] at hadv
      exact absurd hadv (hlib u text hu)
    · obtain ⟨text, hu'⟩ := hmade u' hu'
      rw [hbefore] at hadv
      exact absurd hadv (hlib u' text hu')

/-! ## A sample -/

def aliceDevice : Str := "11111111-1111-4111-8111-111111111111"
def bobDevice : Str := "22222222-2222-4222-8222-222222222222"

/-- A helper that counts its calls. Bob's messages carry the associated data that they come with. -/
def sampleNative (_ : Str) (state : Option Nat) (op : NativeOp) (_ : Unit) :
    Except Err (NativeResult Nat) :=
  let blank : NativeResult Nat := ⟨some (state.getD 0 + 1), some "alice-key", some "package", none,
    none, none, none, none, none, none, none, some 0,
    some [(aliceDevice, "alice-key"), (bobDevice, "bob-key")], true⟩
  match op with
  | .send _ _ plaintext => .ok { blank with message := some plaintext }
  | .receive _ message => .ok { blank with
      senderDevice := some bobDevice, aad := some message, kind := some "application"
      plaintext := some "text" }
  | _ => .ok blank

theorem sampleNative_state (device : Str) (n : Nat) (op : NativeOp) (seed : Unit)
    {result : NativeResult Nat} (h : sampleNative device (some n) op seed = .ok result) :
    result.state = some (n + 1) := by
  cases op <;> cases h <;> rfl

/-- Ratchets and native states that count. -/
def sampleLib : Lib where
  Account := Unit
  Ratchet := Nat
  Native := Nat
  Key := Unit
  Message := Unit
  PreKey := Unit
  Seed := Unit
  newAccount _ := ()
  identity _ := "identity"
  curve _ := .empty
  sign _ _ := "signature"
  oneTimeKeys _ := []
  generateOneTimeKeys _ _ _ := ()
  markKeysAsPublished _ := ()
  nativeKey _ := .ok ()
  fromParts _ _ := .error .value
  toPreKey _ := none
  createOutbound _ _ _ _ := 0
  createInbound _ _ _ := .error .value
  sessionId _ := "session"
  encrypt r bytes _ := (r + 1, 0, bytes)
  decrypt _ _ := .error .value
  native := sampleNative
  inspect _ := .error .value
  nfc s := s
  loads _ := .error .value
  dumps _ := .empty
  encodeUtf8 _ := .ok "hello".toUTF8
  decodeUtf8 _ := .ok "hello"
  encodeBase64url _ := "text"
  decodeBase64Strict _ _ _ := .error .value
  fingerprint _ := .ok "fingerprint"
  possessionMessage _ _ _ _ := .ok .empty
  approvalMessage _ _ _ _ _ := .ok .empty
  isFullFingerprint _ := true
  verifyEd25519 _ _ _ := true
  sha256 _ := "digest"
  fromIsoFormat _ := .ok 0

def sampleCount : KeyState sampleLib → Nat
  | .ratchet r => r
  | .native n => n

theorem sampleCount_le {x y : KeyState sampleLib} (h : Advanced x y) :
    sampleCount x ≤ sampleCount y := by
  induction h with
  | refl => exact le_rfl
  | tail _ hstep ih =>
      refine ih.trans ?_
      cases hstep with
      | encrypt r bytes seed => exact Nat.le_succ r
      | decrypt hcall => cases hcall
      | @native device n n' op seed result hcall hstate =>
          have hsucc := sampleNative_state device n op seed hcall
          obtain rfl := Option.some.inj (hsucc.symm.trans hstate)
          exact Nat.le_succ n

theorem sampleLib_neverRepeats : sampleLib.NeverRepeats := by
  rintro u text hmade hadv
  have hle := sampleCount_le hadv
  cases hmade with
  | ratchet id r content seed => exact Nat.not_succ_le_self r hle
  | @native device n n' op seed result content text hcall hstate hcontent htext =>
      obtain rfl := Option.some.inj ((sampleNative_state device n op seed hcall).symm.trans hstate)
      exact Nat.not_succ_le_self n hle

/-- Alice opens the vault, makes a group and sends a message. -/
def sampleLabels : List (Label (Op sampleLib) Answer) := [
  .boot (.openPrivate "https://scap.example" () aliceDevice),
  .answered (.response 200 (.json (.obj [("id", .str "alice"), ("username", .str "alice")]))),
  .saved, .start (.openMls ()), .saved, .start (.create "Group" ()),
  .answered (.response 201 (.json (.obj [("id", .str "group")]))), .saved,
  .start (.sendMls "group" "hello" "message" ()),
  .answered (.response 200 (.json (.obj [("epoch", .int 1)]))), .saved,
  .answered (.response 200 (.json (.obj [("epoch", .int 1)])))]

/-- The steps that draw no session. -/
def drawsNothing : Device L → Label (Op L) Answer → Bool
  | _, .boot op => quiet op
  | _, .start op => quiet op
  | _, _ => true
where
  quiet : Op L → Bool
    | .prepare .. => false
    | .send .. => false
    | _ => true

theorem drawsNothing_draws (s : Device L) (l : Label (Op L) Answer)
    (h : drawsNothing s l = true) : (software L).Draws s l := by
  have hop : ∀ (m : Mem L) op, drawsNothing.quiet op = true → op.draws m := by
    intro m op hquiet
    cases op <;> first | exact trivial | cases hquiet
  obtain ⟨w, proc⟩ := s
  cases l with
  | boot op => exact hop _ op h
  | start op =>
      cases proc with
      | none => exact trivial
      | some p => cases p <;> first | exact hop _ op h | exact trivial
  | _ => cases proc <;> exact trivial

def sampleDevice : Device sampleLib :=
  (System.exec (System.checked drawsNothing (software sampleLib).next)
    ⟨⟨Vault.blank sampleLib, [], false⟩, none⟩ sampleLabels).getD ⟨⟨Vault.blank _, [], false⟩, none⟩

/-- The envelope that is about to leave. -/
def leaving (s : Device sampleLib) : Option (Str × Nat) :=
  match s.proc with
  | some (.ask _ (.envelope conversation _ u) _) => some (conversation, u.content.size)
  | _ => none

theorem sampleDevice_reached : Reached sampleDevice := by
  have hsome : (System.exec (System.checked drawsNothing (software sampleLib).next)
      ⟨⟨Vault.blank sampleLib, [], false⟩, none⟩ sampleLabels).isSome := by decide +kernel
  obtain ⟨s, hs⟩ := Option.isSome_iff_exists.mp hsome
  refine ⟨_, sampleLabels, rfl, System.run_of_exec_checked drawsNothing_draws ?_⟩
  rw [sampleDevice, hs]
  rfl

/-- What is about to leave waits on disk. -/
theorem durable_sample : ∃ m envelope u k,
    sampleDevice.proc = some (.ask m (.envelope "group" envelope u) k) ∧
      Holding sampleDevice.world.disk "group" envelope u ∧ Past sampleDevice.world.disk u := by
  have hleaving : leaving sampleDevice = some (("group" : Str), 5) := by decide +kernel
  rw [leaving] at hleaving
  split at hleaving
  · next m conversation envelope u k hproc =>
    obtain ⟨rfl, -⟩ := Prod.mk.inj (Option.some.inj hleaving)
    obtain ⟨hholding, -, hpast⟩ :=
      (durable_before_send sampleLib_neverRepeats sampleDevice_reached).1 m _ envelope u k hproc
    exact ⟨m, envelope, u, k, hproc, hholding, hpast⟩
  · cases hleaving

end Scap.Client
