import Scap.E2ee.Strict
import Scap.Client.DurableSend
import Scap.Client.Rows

/-!
# Receiving is authenticated and atomic

`Lib.Ideal` is what is assumed of Olm and OpenMLS: what they open was written by the holder of the
key that they opened it with, and a message that has been opened moves them on. A plaintext that a
client returns was then written by a pinned device under the context of its row (`OlmAuthentic`,
`MlsAuthentic`).

`receive_authenticated` says so of every call of the two `receive` in every run, and that the vault
is between two rows whenever the client waits. The memory is too, unless the relay has not named the
owner of a group when a row of it was processed (`HalfTaken`).
-/

namespace Scap.Client

open Scap.Lib Scap.Py Proc

variable {L : Lib} {wrote : L.Key → ByteArray → Prop} {spoke : Str → Str → Str → Str → Prop}

/-! ## Authenticated channels -/

/-- Olm and OpenMLS as authenticated channels. `wrote key bytes`: the holder of the key has
encrypted the bytes for this device. `spoke key group aad text`: the member with this signing key
has sent the text to the group under the associated data. -/
structure Lib.Ideal (L : Lib) (wrote : L.Key → ByteArray → Prop)
    (spoke : Str → Str → Str → Str → Prop) : Prop where
  inbound : ∀ {account account' key prekey r bytes},
    L.createInbound account key prekey = .ok (account', r, bytes) → wrote key bytes
  decrypt : ∀ {key sid r message r' bytes}, L.Session key sid r →
    L.decrypt r message = .ok (r', bytes) → wrote key bytes
  sessionId_encrypt : ∀ r bytes seed, L.sessionId (L.encrypt r bytes seed).1 = L.sessionId r
  sessionId_decrypt : ∀ {r message r' bytes}, L.decrypt r message = .ok (r', bytes) →
    L.sessionId r' = L.sessionId r
  receive : ∀ {device state group message seed result sender aad text members},
    L.native device state (.receive group message) seed = .ok result →
    result.kind = some (Str.ofString "application") → result.senderDevice = some sender →
    result.aad = some aad → result.plaintext = some text → result.members = some members →
    ∃ key, (sender, key) ∈ members ∧ spoke key group aad text
  join : ∀ {device state group message seed result},
    L.native device state (.join group message) seed = .ok result → result.kind = none
  advances : ∀ {device state op seed result native},
    L.native device (some state) op seed = .ok result → result.state = some native →
    (∃ group message, op = .join group message ∨ op = .receive group message) → native ≠ state

/-- The identifier of a session does not change. -/
theorem Lib.Session.sessionId_eq (hideal : L.Ideal wrote spoke) {key : L.Key} {sid : Str}
    {r : L.Ratchet} (h : L.Session key sid r) : L.sessionId r = sid := by
  induction h with
  | outbound account oneTime seed hsid => exact hsid
  | inbound hcall hsid => exact hsid
  | encrypt _ bytes seed ih => exact (hideal.sessionId_encrypt _ bytes seed).trans ih
  | decrypt _ hcall ih => exact (hideal.sessionId_decrypt hcall).trans ih

/-- A name of a session names one device. -/
theorem device_of_ratchetName {conversation conversation' device device' sid : Str}
    (h : ratchetName (ratchetKey conversation device) sid =
      ratchetName (ratchetKey conversation' device') sid)
    (hlength : device.length = device'.length) : device = device' := by
  unfold ratchetName ratchetKey at h
  have hcut := List.append_cancel_right (List.append_cancel_right h)
  exact (List.append_inj' hcut hlength).2

/-! ## Olm rows -/

/-- The message was written for this device by the pinned sender of its row, under the session, the
epoch and the identifier of the row. -/
def OlmAuthentic (wrote : L.Key → ByteArray → Prop) (peers : Dict Str Peer)
    (device conversation : Str) (envelope : Json) (received : Received) : Prop :=
  ∃ row peer key bytes bound body, readOlmRow envelope = .ok row ∧ row.recipient = device ∧
    received.senderDevice = row.sender ∧ peers.get row.sender = some peer ∧
    L.nativeKey (.str peer.signedPrekey) = .ok key ∧ wrote key bytes ∧ L.loads bytes = .ok bound ∧
    bound.get? "payload" = some body ∧ repeatsRow conversation device row body = true ∧
    body.getStr? "text" = some received.text

theorem payloadText_ok {conversation device text : Str} {row : OlmRow} {bound : Json}
    (h : payloadText conversation device row bound = .ok text) :
    ∃ body, bound.get? "payload" = some body ∧ repeatsRow conversation device row body = true ∧
      body.getStr? "text" = some text := by
  unfold payloadText at h
  split at h
  · next body hbody =>
    split_ifs at h
    split at h
    · next text' htext =>
      split_ifs at h with hchecks
      cases h
      simp only [Bool.and_eq_true] at hchecks
      exact ⟨body, hbody, hchecks.1.1.1.2, htext⟩
    · cases h
  · cases h

/-- The plaintext of a row that has been opened was written by the pinned sender. -/
theorem RowOpened.written (hideal : L.Ideal wrote spoke) {m : Mem L} {account account' : L.Account}
    {conversation name text : Str} {row : OlmRow} {ratchet : L.Ratchet} {peer : Peer}
    {plaintext : ByteArray} {bound : Json}
    (hopen : RowOpened m account conversation row name account' ratchet text peer plaintext bound)
    (hpinned : Pinned m.state.peers m.state.sessions) :
    ∃ key, L.nativeKey (.str peer.signedPrekey) = .ok key ∧ wrote key plaintext := by
  obtain ⟨message, hdecrypted⟩ := hopen.decrypted
  rcases decryptWith_ok hdecrypted with ⟨r, hr, hdecrypt⟩ | ⟨-, key, prekey, hkey, hinbound⟩
  · obtain ⟨conversation', device, peer', key, sid, hname, hpeer, hkey, hsession⟩ :=
      hpinned.belongs name r hr
    -- the ratchet goes by the name of this sender, so it is a session with this sender
    have hsid : L.sessionId ratchet = sid :=
      (hideal.sessionId_decrypt hdecrypt).trans (hsession.sessionId_eq hideal)
    have hnamed := hopen.named
    rw [hsid] at hnamed
    obtain rfl : row.sender = device := device_of_ratchetName (hnamed.symm.trans hname)
      ((hpinned.length _ _ hopen.sender).trans (hpinned.length _ _ hpeer).symm)
    obtain rfl := Option.some.inj (hopen.sender.symm.trans hpeer)
    exact ⟨key, hkey, hideal.decrypt hsession hdecrypt⟩
  · exact ⟨key, hkey, hideal.inbound hinbound⟩

/-- What an accepted row of the Olm client keeps, and that its message is authentic. -/
theorem authentic_acceptOlm (hideal : L.Ideal wrote spoke) {m m' : Mem L} {conversation : Str}
    {envelope : Json} {received : Received}
    (hpinned : m.failed = false → Pinned m.state.peers m.state.sessions)
    (h : acceptOlm conversation m envelope = .ok (m', received)) :
    (m'.failed = false → Pinned m'.state.peers m'.state.sessions) ∧
      m'.state.peers = m.state.peers ∧ m'.deviceId = m.deviceId ∧
      OlmAuthentic wrote m.state.peers m.deviceId conversation envelope received := by
  obtain ⟨⟨m₁, received₁⟩, haccept, heq⟩ := map_eq_ok.mp h
  obtain ⟨rfl, rfl⟩ := Prod.mk.inj heq
  obtain ⟨cursor, account, row, name, account', ratchet, text, peer, plaintext, bound, -, hfailed,
    -, hrow, hopen, rfl, rfl⟩ := acceptRow_ok haccept
  have hnow := hpinned hfailed
  obtain ⟨key, hkey, hwrote⟩ := hopen.written hideal hnow
  obtain ⟨body, hbody, hrepeats, htext⟩ := payloadText_ok hopen.text
  exact ⟨fun _ => hnow.set (hopen.belongs hnow), rfl, rfl, row, peer, key, plaintext, bound, body,
    hrow, hopen.recipient, rfl, hopen.sender, hkey, hwrote, hopen.loads, hbody, hrepeats, htext⟩

theorem authentic_olmRows (hideal : L.Ideal wrote spoke) {m₀ m : Mem L} {conversation : Str}
    {rows : List (Json × Received)} (h : Chain (acceptOlm conversation) m₀ rows m)
    (hpinned : m₀.failed = false → Pinned m₀.state.peers m₀.state.sessions) :
    ∀ p ∈ rows, OlmAuthentic wrote m₀.state.peers m₀.deviceId conversation p.1 p.2 := by
  refine (h.induct (I := fun m => (m.failed = false → Pinned m.state.peers m.state.sessions) ∧
    m.state.peers = m₀.state.peers ∧ m.deviceId = m₀.deviceId) ⟨hpinned, rfl, rfl⟩ ?_).2
  rintro m envelope m' received ⟨hm, hpeers, hdevice⟩ haccept
  obtain ⟨hm', hpeers', hdevice', hauthentic⟩ := authentic_acceptOlm hideal hm haccept
  rw [hpeers, hdevice] at hauthentic
  exact ⟨⟨hm', hpeers'.trans hpeers, hdevice'.trans hdevice⟩, hauthentic⟩

/-! ## Group rows -/

/-- The message was sent to the group by the pinned sender of its row, with the session, the epoch,
the identifier and the kind of the row as associated data. -/
def MlsAuthentic (spoke : Str → Str → Str → Str → Prop) (pins : Dict Str Offer) (conversation : Str)
    (j : Json) (received : Received) : Prop :=
  ∃ row pin aad text bytes, readMlsRow j = .ok row ∧ received.senderDevice = row.sender ∧
    pins.get row.sender = some pin ∧
    contextBytes (L := L) conversation row.epoch row.messageId row.kind row.sender = .ok aad ∧
    spoke pin.signingKey conversation (L.encodeBase64url aad) text ∧
    L.decodeBase64Strict (.str text) false 32768 = .ok bytes ∧
    L.decodeUtf8 bytes = .ok received.text

/-- The pinned offers. -/
def pinned (m : Mem L) : Dict Str Offer := (m.state.mls.map (·.pins)).getD .empty

theorem checkRoster_ok {data : MlsData L} {device : Str} {members : Option (List (Str × Str))}
    (h : checkRoster data device members = .ok ()) :
    ∃ ms, members = some ms ∧ ∀ p ∈ ms, expectedKey data device p.1 = some p.2 := by
  unfold checkRoster at h
  split at h
  · next first rest =>
    split_ifs at h with hall
    exact ⟨first :: rest, rfl, fun p hp => of_decide_eq_true (List.all_eq_true.mp hall p hp)⟩
  · cases h

/-- The plaintext of a row that the helper has processed was sent by the pinned sender. -/
theorem RowProcessed.authentic (hideal : L.Ideal wrote spoke) {m : Mem L} {data : MlsData L}
    {conversation : Str} {j : Json} {row : MlsRow} {native : L.Native} {received : Received}
    {result : NativeResult L.Native} {op : NativeOp} {seed : L.Seed}
    (hrow : readMlsRow j = .ok row) (hsender : row.sender ≠ m.deviceId)
    (h : RowProcessed m data conversation row native (some received) result op seed) :
    MlsAuthentic (L := L) spoke data.pins conversation j received := by
  obtain ⟨hkind, text, bytes, htext, hbytes, hdecoded, hdevice⟩ := h.carries
  have hcall := h.call
  cases h.called with
  | join hwelcome =>
      rw [hideal.join hcall] at hkind
      cases hkind
  | @receive aad haad hkind' hsender' hresult =>
      obtain ⟨members, hmembers, hall⟩ := checkRoster_ok h.roster
      obtain ⟨key, hmem, hspoke⟩ := hideal.receive hcall hkind hsender' hresult htext hmembers
      have hexpected := hall _ hmem
      unfold expectedKey at hexpected
      split at hexpected
      · next pin hpin =>
        obtain rfl := Option.some.inj hexpected
        exact ⟨row, pin, aad, text, bytes, hrow, hdevice, hpin, haad, hspoke, hbytes, hdecoded⟩
      · rw [if_neg hsender] at hexpected
        cases hexpected

/-- What an accepted row of the group client keeps, and that its message is authentic. -/
theorem authentic_acceptMls (hideal : L.Ideal wrote spoke) {m m' : Mem L}
    {conversation owner : Str} {routing j : Json} {draw : Str → L.Seed} {r : Option Received}
    (h : acceptMls conversation owner routing draw m j = .ok (m', r)) :
    pinned m' = pinned m ∧
      ∀ received, r = some received →
        MlsAuthentic (L := L) spoke (pinned m) conversation j received := by
  obtain ⟨data, hdata, h⟩ := bind_eq_ok.mp h
  obtain ⟨⟨row, opened⟩, hopen, h⟩ := bind_eq_ok.mp h
  obtain ⟨ownerId, -, h⟩ := bind_eq_ok.mp h
  cases h
  have hpins : pinned m = data.pins := by rw [pinned, (readyData_ok hdata).2]; rfl
  refine ⟨?_, ?_⟩
  · rw [hpins]
    cases opened <;> rfl
  · intro received hreceived
    cases opened with
    | processed native received' =>
        obtain rfl : received' = some received := hreceived
        obtain ⟨hrow, hsender, result, op, hprocessed⟩ := openMlsRow_ok hopen
        rw [hpins]
        exact hprocessed.authentic hideal hrow hsender
    | _ => cases hreceived

theorem authentic_mlsRows (hideal : L.Ideal wrote spoke) {m₀ m : Mem L} {conversation owner : Str}
    {routing : Json} {draw : Str → L.Seed} {rows : List (Json × Option Received)}
    (h : Chain (acceptMls conversation owner routing draw) m₀ rows m) :
    ∀ p ∈ rows, ∀ received, p.2 = some received →
      MlsAuthentic (L := L) spoke (pinned m₀) conversation p.1 received := by
  refine (h.induct (I := fun m => pinned m = pinned m₀)
    (P := fun j r => ∀ received, r = some received →
      MlsAuthentic (L := L) spoke (pinned m₀) conversation j received) rfl ?_).2
  intro m j m' r hm haccept
  obtain ⟨hpins, hauthentic⟩ := authentic_acceptMls hideal haccept
  rw [hm] at hauthentic
  exact ⟨hpins.trans hm, hauthentic⟩

/-- A row that is half taken has changed the vault in memory. -/
theorem HalfTaken.not_same (hideal : L.Ideal wrote spoke) {m m' : Mem L} {conversation owner : Str}
    {routing : Json} {draw : Str → L.Seed} (h : HalfTaken conversation owner routing draw m m') :
    m'.state ≠ m.state := by
  obtain ⟨data, j, row, native, received, e, hdata, hopen, -, rfl⟩ := h
  intro hsame
  have hmls := (readyData_ok hdata).2
  obtain ⟨-, -, result, op, hprocessed⟩ := openMlsRow_ok hopen
  have hnative : data.native = some native := by
    have hstate := congrArg (fun s : Vault L => s.mls) hsame
    rw [hmls] at hstate
    exact (congrArg MlsData.native (Option.some.inj hstate)).symm
  have hcall := hprocessed.call
  rw [hnative] at hcall
  refine hideal.advances hcall hprocessed.state ?_ rfl
  cases hprocessed.called with
  | join => exact ⟨_, _, .inl rfl⟩
  | receive => exact ⟨_, _, .inr rfl⟩

theorem HalfTaken.unnamed {m m' : Mem L} {conversation owner : Str} {routing : Json}
    {draw : Str → L.Seed} (h : HalfTaken conversation owner routing draw m m') (ownerId : Json) :
    routing.sub "owner_id" ≠ .ok ownerId := by
  obtain ⟨data, j, row, native, received, e, -, -, howner, -⟩ := h
  rw [howner]
  exact nofun

/-! ## Runs -/

/-- The memory of a process that waits for its next operation, or of a new one. -/
def atRest (s : Device L) : Option (Mem L) :=
  match s.proc with
  | none => some (Mem.load L s.world.disk)
  | some (.done m _) => some m
  | some _ => none

theorem started {s s₁ : Device L} {m : Mem L} {op : Op L} {l : Label (Op L) Answer}
    (hs : Reached s) (hrest : atRest s = some m) (hl : l = .boot op ∨ l = .start op)
    (hstart : (software L).next s l = some s₁) :
    ∃ w, s₁ = ⟨w, some (op.run m)⟩ ∧ w.disk = s.world.disk ∧ Kept w m := by
  have hfine := fine_of_reached hs
  obtain ⟨w, proc⟩ := s
  rcases hl with rfl | rfl
  · cases proc with
    | none =>
        obtain rfl := Option.some.inj hrest
        exact ⟨_, (Option.some.inj hstart).symm, rfl, kept_load hfine.holds⟩
    | some p => cases p <;> cases hstart
  · cases proc with
    | none => cases hstart
    | some p =>
        cases p with
        | done m' r =>
            obtain rfl := Option.some.inj hrest
            exact ⟨w, (Option.some.inj hstart).symm, rfl, hfine.proc _ rfl⟩
        | _ => cases hstart

/-- The answers of a run. -/
def Answered (ls : List (Label (Op L) Answer)) (a : Answer) : Prop := .answered a ∈ ls

/-- What a call has come to: the rows that it has accepted, the memory after them, and a copy that
has them all; the save of one more may have failed. -/
structure Settled {ρ : Type} (accept : Mem L → Json → Except Err (Mem L × ρ)) (d₀ : Vault L)
    (m₀ : Mem L) (rows : List (Json × ρ)) (m₁ : Mem L) (disk : Vault L) (failed : Bool) : Prop where
  chain : Chain accept m₀ rows m₁
  disk : disk = durable snapshot d₀ rows m₁ ∨
    failed = true ∧ ∃ j m₂ r, accept m₁ j = .ok (m₂, r) ∧ disk = m₂.state

theorem settled_of_halted {ρ : Type} {accept : Mem L → Json → Except Err (Mem L × ρ)}
    {slip : Mem L → Mem L → Prop} {d₀ : Vault L} {m₀ m : Mem L} {rows : List (Json × ρ)}
    {w : World (Vault L) (Request L)}
    (h : Halted accept snapshot d₀ m₀ Mem.fail slip rows w m) :
    ∃ m₁, Settled accept d₀ m₀ rows m₁ w.disk m.failed ∧
      (m = m₁ ∨ m.failed = true ∨ slip m₁ m) := by
  cases h with
  | between h => exact ⟨m, ⟨h.chain, .inl h.disk⟩, .inl rfl⟩
  | unsaved h =>
      obtain ⟨m₁, m₂, j, r, hchain, haccept, rfl, hdisk⟩ := h.item
      exact ⟨m₁, ⟨hchain, hdisk.imp_right fun hd => ⟨rfl, j, m₂, r, haccept, hd⟩⟩, .inr (.inl rfl)⟩
  | @slipped m₁ h hslip => exact ⟨m₁, ⟨h.chain, .inl h.disk⟩, .inr (.inr hslip)⟩

/-- A call of an operation that returns messages, in a run. -/
theorem called_under {inv : Vault L → Prop} {ls : List (Label (Op L) Answer)} {α : Type}
    {x : M L α} {g : α → Out} {Q : World (Vault L) (Request L) → Except Err α → Mem L → Prop}
    {w : World (Vault L) (Request L)} {t : Device L} {m : Mem L} (hinv : inv w.disk)
    (hunder : (x m).under snapshot inv (Answered ls) Q w)
    (hrun : ((software L).system (Vault.blank L)).Run
      ⟨w, some ((do return g (← x) : M L Out) m)⟩ ls t) (hls : ∀ l ∈ ls, l.inner = true) :
    inv t.world.disk ∧ ∀ m' r, t.proc = some (.done m' r) →
      ∃ r', Q t.world r' m' ∧ ∀ out, r = .ok out → ∃ a, r' = .ok a ∧ out = g a := by
  have hcall : ((do return g (← x) : M L Out) m).under snapshot inv (Answered ls)
      (fun w r m' => ∃ r', Q w r' m' ∧ ∀ out, r = .ok out → ∃ a, r' = .ok a ∧ out = g a) w := by
    apply Proc.under_bind.mpr
    refine Prog.under_mono hunder (fun _ hd => hd) ?_
    intro w' r m' hr
    cases r with
    | error e => exact ⟨_, hr, nofun⟩
    | ok a => exact ⟨_, hr, fun out hout => ⟨a, rfl, (Except.ok.inj hout).symm⟩⟩
  obtain ⟨hdisk, p', hp', hunder'⟩ :=
    Software.under_of_run hls (fun _ ha => ha) hinv rfl hcall hrun
  refine ⟨hdisk, ?_⟩
  intro m' r hdone
  obtain rfl := Option.some.inj (hp'.symm.trans hdone)
  exact hunder'

/-- **Receiving is authenticated and atomic.** In any run of the two clients of a device, whatever
the relay answers and whichever saves fail, a `receive` leaves the copy between two rows at any
time. When it is done, every message that it returns is one of an accepted row and was written by
the pinned sender of that row under its context, and the memory is as after the last accepted row;
that of the group client if the relay has named the owner of the group, and else unless the last row
was half taken. -/
theorem receive_authenticated (hideal : L.Ideal wrote spoke) {s s₁ t : Device L} {m : Mem L}
    {op : Op L} {l : Label (Op L) Answer} {ls : List (Label (Op L) Answer)} (hs : Reached s)
    (hrest : atRest s = some m) (hl : l = .boot op ∨ l = .start op)
    (hstart : (software L).next s l = some s₁)
    (hrun : ((software L).system (Vault.blank L)).Run s₁ ls t)
    (hls : ∀ l ∈ ls, l.inner = true) :
    (∀ conversation, op = .receive conversation →
      AtBoundary (acceptOlm conversation) snapshot s.world.disk { m with lastReceiveError := none }
        t.world.disk ∧
      ∀ m' r, t.proc = some (.done m' r) → ∃ rows m₁,
        Settled (acceptOlm conversation) s.world.disk { m with lastReceiveError := none } rows m₁
          t.world.disk m'.failed ∧
        (∀ p ∈ rows, Gave (Answered ls) p.1 ∧
          OlmAuthentic wrote m.state.peers m.deviceId conversation p.1 p.2) ∧
        (∀ out, r = .ok out → out = .messages (rows.map Prod.snd)) ∧
        (m'.failed = false → m'.Same m₁)) ∧
    ∀ conversation ownerDevice draw, op = .receiveMls conversation ownerDevice draw →
      (t.world.disk = s.world.disk ∨ ∃ routing owner,
        Routed (Answered ls) conversation ownerDevice m routing owner ∧
        AtBoundary (acceptMls conversation owner routing draw) snapshot s.world.disk
          { m with mlsLastReceiveError := none } t.world.disk) ∧
      ∀ m' r, t.proc = some (.done m' r) →
        (m' = m ∧ t.world.disk = s.world.disk ∧ ∃ e, r = .error e) ∨
        ∃ routing owner, Routed (Answered ls) conversation ownerDevice m routing owner ∧
          ∃ rows m₁, Settled (acceptMls conversation owner routing draw) s.world.disk
              { m with mlsLastReceiveError := none } rows m₁ t.world.disk m'.failed ∧
            (∀ p ∈ rows, Gave (Answered ls) p.1 ∧ ∀ received, p.2 = some received →
              MlsAuthentic (L := L) spoke (pinned m) conversation p.1 received) ∧
            (∀ out, r = .ok out → out = .messages (messages rows)) ∧
            (m'.failed = false →
              (∀ ownerId, routing.sub "owner_id" = .ok ownerId → m'.Same m₁) ∧
              (m'.Same m₁ ↔
                ¬ ∃ m₂, HalfTaken conversation owner routing draw m₁ m₂ ∧ m'.Same m₂)) := by
  -- A run of the software is a call of the operation from what its start leaves.
  obtain ⟨w, rfl, hdisk, hkept⟩ := started hs hrest hl hstart
  rw [← hdisk]
  refine ⟨?_, ?_⟩
  · rintro conversation rfl
    obtain ⟨hboundary, hdone⟩ := called_under ⟨[], _, .start, rfl⟩ (receive_under conversation)
      hrun hls
    refine ⟨hboundary, ?_⟩
    intro m' r hproc
    obtain ⟨r', ⟨rows, m₂, hhalted, hsame, hgave, hrows⟩, hout⟩ := hdone m' r hproc
    obtain ⟨m₁, hsettled, hwhere⟩ := settled_of_halted hhalted
    rw [← hsame.failed] at hsettled
    refine ⟨rows, m₁, hsettled, ?_, ?_, ?_⟩
    · have hauthentic := authentic_olmRows hideal hsettled.chain hkept.pinned
      exact fun p hp => ⟨hgave p hp, hauthentic p hp⟩
    · intro out h
      obtain ⟨a, rfl, rfl⟩ := hout out h
      rw [hrows a rfl]
    · intro hfailed
      -- a failed save is excluded here, and an Olm row is never half taken
      rcases hwhere with rfl | hwhere | hwhere
      · exact hsame
      · exact absurd (hwhere.symm.trans (hsame.failed.symm.trans hfailed)) nofun
      · exact hwhere.elim
  · rintro conversation ownerDevice draw rfl
    obtain ⟨hboundary, hdone⟩ := called_under (.inl rfl)
      (receiveMls_under conversation ownerDevice draw) hrun hls
    refine ⟨hboundary, ?_⟩
    intro m' r hproc
    obtain ⟨r', hr', hout⟩ := hdone m' r hproc
    -- either the routing refuses, and nothing has changed, or the rows are worked off
    rcases hr' with ⟨⟨e, rfl⟩, rfl, hdisk'⟩ | ⟨routing, owner, hrouted, rows, m₂, hhalted, hsame,
      hgave, hrows⟩
    · refine .inl ⟨rfl, hdisk', ?_⟩
      cases r with
      | error e' => exact ⟨e', rfl⟩
      | ok out =>
          obtain ⟨a, ha, -⟩ := hout out rfl
          cases ha
    · obtain ⟨m₁, hsettled, hwhere⟩ := settled_of_halted hhalted
      rw [← hsame.failed] at hsettled
      refine .inr ⟨routing, owner, hrouted, rows, m₁, hsettled, ?_, ?_, ?_⟩
      · intro p hp
        exact ⟨hgave p hp, authentic_mlsRows hideal hsettled.chain p hp⟩
      · intro out h
        obtain ⟨a, rfl, rfl⟩ := hout out h
        rw [hrows a rfl]
      · intro hfailed
        -- the only other memory is that of a last row taken by the native group alone
        have hwhole : (¬ ∃ m₂, HalfTaken conversation owner routing draw m₁ m₂ ∧ m'.Same m₂) →
            m'.Same m₁ := by
          intro hnot
          rcases hwhere with rfl | hwhere | hwhere
          · exact hsame
          · exact absurd (hwhere.symm.trans (hsame.failed.symm.trans hfailed)) nofun
          · exact absurd ⟨m₂, hwhere, hsame⟩ hnot
        refine ⟨?_, ?_, hwhole⟩
        · intro ownerId hnamed
          apply hwhole
          rintro ⟨m₃, hhalf, -⟩
          exact absurd hnamed (hhalf.unnamed ownerId)
        · rintro hsame₁ ⟨m₃, hhalf, hsame₃⟩
          exact hhalf.not_same hideal (hsame₃.state.symm.trans hsame₁.state)

/-! ## A sample -/

/-- What the helper has been given is what Bob has written. -/
def relayNative (device : Str) (state : Option Nat) (op : NativeOp) (seed : Unit) :
    Except Err (NativeResult Nat) :=
  match op with
  | .receive _ _ =>
      (sampleNative device state op seed).map fun result => { result with plaintext := some "aGk=" }
  | _ => sampleNative device state op seed

/-- The context of Bob's message, in base64url. -/
def bobContext : Str :=
  match contextBytes (L := sampleLib) "group" 1 "message" "application" bobDevice with
  | .ok bytes => E2ee.Strict.encodeBase64url bytes.data.toList
  | .error _ => []

/-- The encodings of what is looked at: the context, Bob's text and his signed prekey. -/
def relayLib : Lib := { sampleLib with
  native := relayNative
  inspect := fun _ => .ok (bobDevice, "bob-key")
  encodeBase64url := fun _ => bobContext
  decodeBase64Strict := fun j _ _ =>
    if j.eqStr bobContext then
      contextBytes (L := sampleLib) "group" 1 "message" "application" bobDevice
    else if j.eqStr "aGk=" then .ok "hi".toUTF8
    else .ok ⟨(List.replicate 32 0).toArray⟩
  decodeUtf8 := fun _ => .ok "hi" }

def bobSpoke (key _group _aad text : Str) : Prop := key = "bob-key" ∧ text = "aGk="

theorem relayNative_state {device : Str} {n : Nat} {op : NativeOp} {seed : Unit}
    {result : NativeResult Nat} (h : relayNative device (some n) op seed = .ok result) :
    result.state = some (n + 1) := by
  cases op <;> cases h <;> rfl

theorem relayLib_ideal : relayLib.Ideal (fun _ _ => False) bobSpoke where
  inbound := nofun
  decrypt := by
    intro key sid r message r' bytes _ h
    cases h
  sessionId_encrypt _ _ _ := rfl
  sessionId_decrypt := nofun
  receive := by
    intro device state group message seed result sender aad text members h hkind hsender haad htext
      hmembers
    cases h
    obtain rfl := Option.some.inj hsender
    obtain rfl := Option.some.inj htext
    obtain rfl := Option.some.inj hmembers
    exact ⟨"bob-key", List.mem_cons_of_mem _ List.mem_cons_self, rfl, rfl⟩
  join := by
    intro device state group message seed result h
    cases h
    rfl
  advances := by
    rintro device state op seed result native h hstate -
    obtain rfl := Option.some.inj ((relayNative_state h).symm.trans hstate)
    exact Nat.succ_ne_self state

def bobBundle : Json := .obj [("device_id", .str bobDevice), ("identity_key", .str "identity"),
  ("signed_prekey", .str (Str.ofString (String.ofList (List.replicate 43 'A')))),
  ("signed_prekey_signature", .str "signature"), ("user_id", .str "bob-id")]

def bobOffer : Json := .obj [("server", .str "https://scap.example"), ("username", .str "bob"),
  ("account_id", .str "bob-id"), ("device_id", .str bobDevice), ("key_package", .str "package"),
  ("signing_key", .str "bob-key"), ("signature", .str "signature")]

/-- Alice pins Bob and makes a group. -/
def memberLabels : List (Label (Op relayLib) Answer) := [
  .boot (.openPrivate "https://scap.example" () aliceDevice),
  .answered (.response 200 (.json (.obj [("id", .str "alice"), ("username", .str "alice")]))),
  .saved, .start (.openMls ()), .saved, .start (.pinPeer "bob" "fingerprint" (some bobDevice)),
  .answered (.response 200 (.json bobBundle)), .saved,
  .start (.pinOffer "https://scap.example" bobOffer), .saved, .start (.create "Group" ()),
  .answered (.response 201 (.json (.obj [("id", .str "group")]))), .saved]

/-- A device after these steps. -/
def stepped (s : Device relayLib) (ls : List (Label (Op relayLib) Answer)) : Device relayLib :=
  (System.exec (System.checked drawsNothing (software relayLib).next) s ls).getD s

theorem run_stepped {s : Device relayLib} {ls : List (Label (Op relayLib) Answer)}
    (h : (System.exec (System.checked drawsNothing (software relayLib).next) s ls).isSome) :
    ((software relayLib).system (Vault.blank relayLib)).Run s ls (stepped s ls) := by
  obtain ⟨t, ht⟩ := Option.isSome_iff_exists.mp h
  refine System.run_of_exec_checked drawsNothing_draws ?_
  rw [stepped, ht]
  rfl

def memberDevice : Device relayLib :=
  stepped ⟨⟨Vault.blank relayLib, [], false⟩, none⟩ memberLabels

/-- Alice asks for the messages of her group. -/
def receiveLabel : Label (Op relayLib) Answer := .start (.receiveMls "group" none fun _ => ())

def receivingDevice : Device relayLib :=
  ((software relayLib).next memberDevice receiveLabel).getD memberDevice

def bobRow : Json := .obj [("protocol", .str protocolMls),
  ("id", .str "33333333-3333-4333-8333-333333333333"),
  ("created_at", .str "2026-01-01T00:00:00+00:00"), ("sender_device_id", .str bobDevice),
  ("message_kind", .str "application"), ("client_message_id", .str "message"),
  ("header", .str bobContext), ("ciphertext", .str bobContext), ("group_epoch", .int 1)]

/-- Bob's message comes after this answer to the state request. -/
def receiveLabels (routing : Json) : List (Label (Op relayLib) Answer) :=
  [.answered (.response 200 (.json routing)), .answered (.response 200 (.json (.list [bobRow])))]

/-- What an operation that is done has left and returned. -/
def ended (s : Device relayLib) : Option (Mem relayLib × Except Err Out) :=
  match s.proc with
  | some (.done m r) => some (m, r)
  | _ => none

theorem proc_of_ended {s : Device relayLib} {m : Mem relayLib} {r : Except Err Out}
    (h : ended s = some (m, r)) : s.proc = some (.done m r) := by
  unfold ended at h
  split at h
  · next hproc =>
    cases h
    exact hproc
  · cases h

/-- A process that waits has gone through steps that end it. -/
theorem run_of_ended {s : Device relayLib} {ls : List (Label (Op relayLib) Answer)}
    {p : Mem relayLib × Except Err Out} (hs : ended s = none) (h : ended (stepped s ls) = some p) :
    ((software relayLib).system (Vault.blank relayLib)).Run s ls (stepped s ls) := by
  apply run_stepped
  rw [Option.isSome_iff_ne_none]
  intro hnone
  rw [stepped, hnone, Option.getD_none, hs] at h
  cases h

/-- The messages that an operation has returned. -/
def returned (r : Except Err Out) : Option (List Received) :=
  match r with
  | .ok (.messages ms) => some ms
  | _ => none

theorem ok_of_returned {r : Except Err Out} {ms : List Received} (h : returned r = some ms) :
    r = .ok (.messages ms) := by
  unfold returned at h
  split at h
  · cases h
    rfl
  · cases h

/-- The native state and the cursor of the group. -/
def progress (s : Vault relayLib) : Option Nat × Option (Str × Str) :=
  (s.mls.bind fun d : MlsData relayLib => d.native,
    s.mls.bind fun d : MlsData relayLib => d.cursors.get "group")

theorem acceptMls_cursor {m m' : Mem L} {conversation owner : Str} {routing j : Json}
    {draw : Str → L.Seed} {r : Option Received}
    (h : acceptMls conversation owner routing draw m j = .ok (m', r)) :
    ∃ data cursor, m'.state.mls = some data ∧ data.cursors.get conversation = some cursor := by
  obtain ⟨data, -, h⟩ := bind_eq_ok.mp h
  obtain ⟨⟨row, opened⟩, -, h⟩ := bind_eq_ok.mp h
  obtain ⟨ownerId, -, h⟩ := bind_eq_ok.mp h
  cases h
  refine ⟨applied conversation owner row ownerId data opened, (row.createdAt, row.id), rfl, ?_⟩
  cases opened <;> exact Dict.get_set_self

/-- The message of Bob, when the relay names the owner of the group. -/
def receivedDevice : Device relayLib :=
  stepped receivingDevice
    (receiveLabels (.obj [("epoch", .int 1), ("owner_id", .str "alice")]) ++ [.saved])

/-- The message of Bob, when it does not. -/
def slippedDevice : Device relayLib :=
  stepped receivingDevice (receiveLabels (.obj [("epoch", .int 1)]))

/-- Where the three runs lead. They have their beginning in common, so the kernel computes them
together. -/
theorem sample_devices :
    (System.exec (System.checked drawsNothing (software relayLib).next)
      ⟨⟨Vault.blank relayLib, [], false⟩, none⟩ memberLabels).isSome ∧
    ((software relayLib).next memberDevice receiveLabel).isSome ∧
    (ended receivingDevice).isNone ∧
    (ended memberDevice).map (fun p => progress p.1.state) = some (some 2, none) ∧
    (ended receivedDevice).bind (fun p => returned p.2) = some [⟨bobDevice, "hi"⟩] ∧
    (ended slippedDevice).map (fun p => (progress p.1.state, p.1.failed, p.2.isOk)) =
      some ((some 3, none), false, false) := by
  decide +kernel

theorem memberDevice_reached : Reached memberDevice :=
  ⟨_, memberLabels, rfl, run_stepped sample_devices.1⟩

theorem next_memberDevice :
    (software relayLib).next memberDevice receiveLabel = some receivingDevice := by
  obtain ⟨s, hs⟩ := Option.isSome_iff_exists.mp sample_devices.2.1
  rw [receivingDevice, hs]
  rfl

theorem receivingDevice_waits : ended receivingDevice = none :=
  Option.isNone_iff_eq_none.mp sample_devices.2.2.1

theorem memberDevice_rests :
    ∃ m, atRest memberDevice = some m ∧ progress m.state = (some 2, none) := by
  obtain ⟨⟨m, r⟩, h, hm⟩ := Option.map_eq_some_iff.mp sample_devices.2.2.2.1
  exact ⟨m, by rw [atRest, proc_of_ended h], hm⟩

theorem received_sample : ∃ m m' routing owner rows m₁, atRest memberDevice = some m ∧
    receivedDevice.proc = some (.done m' (.ok (.messages (messages rows)))) ∧
    messages rows = [⟨bobDevice, "hi"⟩] ∧
    Settled (acceptMls (L := relayLib) "group" owner routing fun _ => ()) memberDevice.world.disk
      { m with mlsLastReceiveError := none } rows m₁ receivedDevice.world.disk m'.failed ∧
    ∀ p ∈ rows, ∀ received, p.2 = some received →
      MlsAuthentic (L := relayLib) bobSpoke (pinned m) "group" p.1 received := by
  obtain ⟨⟨m', r⟩, hended, hr⟩ := Option.bind_eq_some_iff.mp sample_devices.2.2.2.2.1
  obtain rfl := ok_of_returned hr
  obtain ⟨m, hrest, -⟩ := memberDevice_rests
  have hrun : ((software relayLib).system (Vault.blank relayLib)).Run receivingDevice _
      receivedDevice := run_of_ended receivingDevice_waits hended
  have hreceive := receive_authenticated relayLib_ideal memberDevice_reached hrest (.inr rfl)
    next_memberDevice hrun (by simp [receiveLabels, Label.inner])
  rcases (hreceive.2 _ _ _ rfl).2 m' _ (proc_of_ended hended) with ⟨-, -, e, he⟩ |
    ⟨routing, owner, -, rows, m₁, hsettled, hrows, hout, -⟩
  · cases he
  · have hmessages := hout _ rfl
    refine ⟨m, m', routing, owner, rows, m₁, hrest, ?_, ?_, hsettled, fun p hp => (hrows p hp).2⟩
    · rw [proc_of_ended hended, hmessages]
    · exact (Out.messages.inj hmessages).symm

/-- The `receive` has failed at its first row, and no list of accepted rows leads to the memory that
it leaves: the native state has moved on, the cursor has not. -/
theorem receive_half_taken : Reached slippedDevice ∧ ∃ m m' e, atRest memberDevice = some m ∧
    slippedDevice.proc = some (.done m' (.error e)) ∧ m'.failed = false ∧
    ∀ owner routing draw rows m₁,
      Chain (acceptMls "group" owner routing draw) { m with mlsLastReceiveError := none } rows m₁ →
      ¬ m'.Same m₁ := by
  obtain ⟨m, hrest, hm⟩ := memberDevice_rests
  obtain ⟨⟨m', r'⟩, hended', hm'⟩ := Option.map_eq_some_iff.mp sample_devices.2.2.2.2.2
  obtain ⟨hprogress, hfailed⟩ := Prod.mk.inj hm'
  obtain ⟨hfailed, herror⟩ := Prod.mk.inj hfailed
  have hreached : Reached receivingDevice :=
    memberDevice_reached.step ⟨next_memberDevice, drawsNothing_draws _ _ rfl⟩
  have hrun := run_of_ended receivingDevice_waits hended'
  have hproc := proc_of_ended hended'
  cases r' with
  | ok out => cases herror
  | error e =>
      refine ⟨hreached.run hrun, m, m', e, hrest, hproc, hfailed, ?_⟩
      intro owner routing draw rows m₁ hchain hsame
      rw [hsame.state] at hprogress
      cases hchain with
      | start => cases hm.symm.trans hprogress
      | item _ haccept =>
          obtain ⟨data, cursor, hmls, hcursor⟩ := acceptMls_cursor haccept
          have hnone := congrArg Prod.snd hprogress
          rw [progress, hmls] at hnone
          cases hcursor.symm.trans hnone

end Scap.Client
