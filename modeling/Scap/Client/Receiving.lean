import Scap.Client.Sending

/-!
# Receiving, one row at a time

`acceptRow` is what a row of a page does to the memory of the Olm client, all of it at once or
nothing: `receiveRow_eq` says that the client computes it and saves. `openMlsRow_ok` is what is known
of a row of a group once the native helper has processed it.

Every accepted row keeps `Kept`, and so do the pages.
-/

namespace Scap.Client

open Scap.Lib Scap.Py Proc

variable {L : Lib} {α β : Type}

/-! ## Olm rows -/

/-- A row that the Olm client has opened. -/
structure RowOpened (m : Mem L) (account : L.Account) (conversation : Str) (row : OlmRow)
    (name : Str) (account' : L.Account) (ratchet : L.Ratchet) (text : Str) (peer : Peer)
    (plaintext : ByteArray) (bound : Json) : Prop where
  sender : m.state.peers.get row.sender = some peer
  recipient : row.recipient = m.deviceId
  named : name = ratchetName (ratchetKey conversation row.sender) (L.sessionId ratchet)
  decrypted : ∃ message,
    decryptWith m.state account peer name message = .ok (account', ratchet, plaintext)
  loads : L.loads plaintext = .ok bound
  text : payloadText conversation m.deviceId row bound = .ok text

theorem openRow_ok {m : Mem L} {account account' : L.Account} {conversation name text : Str}
    {envelope : Json} {row : OlmRow} {ratchet : L.Ratchet}
    (h : openRow m account conversation envelope = .ok (row, name, account', ratchet, text)) :
    readOlmRow envelope = .ok row ∧ ∃ peer plaintext bound,
      RowOpened m account conversation row name account' ratchet text peer plaintext bound := by
  obtain ⟨row', hrow, h⟩ := bind_eq_ok.mp h
  cases hpeer : m.state.peers.get row'.sender with
  | none => simp only [hpeer] at h; cases h
  | some peer =>
      simp only [hpeer] at h
      split_ifs at h with haddress
      obtain ⟨⟨ratchetId, type⟩, -, h⟩ := bind_eq_ok.mp h
      obtain ⟨ciphertext, -, h⟩ := bind_eq_ok.mp h
      cases type with
      | int type =>
          simp only at h
          split_ifs at h
          obtain ⟨message, -, h⟩ := bind_eq_ok.mp h
          obtain ⟨⟨account'', ratchet', plaintext⟩, hdecrypted, h⟩ := bind_eq_ok.mp h
          simp only at h
          split_ifs at h with hid
          rw [not_not] at hid
          cases hloads : L.loads plaintext with
          | error e => simp only [hloads] at h; cases h
          | ok bound =>
              simp only [hloads] at h
              obtain ⟨text', htext, h⟩ := bind_eq_ok.mp h
              cases h
              rw [not_or, not_not] at haddress
              exact ⟨hrow, peer, plaintext, bound, hpeer, haddress.1, by rw [hid],
                ⟨message, hdecrypted⟩, hloads, htext⟩
      | _ => cases h

/-- The memory after an Olm row. -/
def acceptedRow (m : Mem L) (conversation : Str) (row : OlmRow) (name : Str)
    (account : L.Account) (ratchet : L.Ratchet) (cursor : Str × Str) : Mem L :=
  { m with
    account := some account
    state := { m.state with
      sessions := m.state.sessions.set name ratchet
      active := m.state.active.set (ratchetKey conversation row.sender) name
      cursors := m.state.cursors.set conversation cursor } }

/-- The account of a client that is there and has not failed to save. -/
def readyAccount (m : Mem L) : Except Err L.Account :=
  if m.failed then .error .persistence
  else match m.account with
    | some account => if m.ready then .ok account else .error .other
    | none => .error .other

/-- What an Olm row does to the memory, and the message that it carries. -/
def acceptRow (m : Mem L) (conversation : Str) (envelope : Json) :
    Except Err (Mem L × Received) := do
  let cursor ← readCursor envelope
  let account ← readyAccount m
  let (row, name, account, ratchet, text) ← openRow m account conversation envelope
  .ok (acceptedRow m conversation row name account ratchet cursor, ⟨row.sender, text⟩)

/-- `_require_healthy` and `self.account`. -/
theorem readyAccount_eq {f : L.Account → M L α} (m : Mem L) :
    (do requireHealthy; let account ← theAccount; f account : M L α) m =
      match readyAccount m with
      | .error e => .done m (.error e)
      | .ok account => f account m := by
  obtain ⟨state, account, deviceId, accountId, username, ready, failed, error, mlsError⟩ := m
  cases failed <;> cases account <;> cases ready <;> rfl

theorem readyAccount_ok {m : Mem L} {account : L.Account} (h : readyAccount m = .ok account) :
    m.failed = false ∧ m.account = some account := by
  obtain ⟨state, account', deviceId, accountId, username, ready, failed, error, mlsError⟩ := m
  cases failed <;> cases account' <;> cases ready <;> cases h
  exact ⟨rfl, rfl⟩

/-- A change of the memory that is saved at once, or an error that changes nothing. -/
def saveOrRaise (m : Mem L) : Except Err (Mem L × α) →
    Prog (Mem L) (Request L) Answer Err α
  | .error e => .done m (.error e)
  | .ok (m', a) => (save >>= fun _ => pure a) m'

/-- **A row is accepted as a whole or changes nothing**; what is accepted is saved at once. -/
theorem receiveRow_eq (m : Mem L) (conversation : Str) (envelope : Json) :
    receiveRow conversation envelope m = saveOrRaise m (acceptRow m conversation envelope) := by
  rw [acceptRow, receiveRow]
  cases readCursor envelope with
  | error e => rfl
  | ok cursor =>
      show Prog.bind (decrypt conversation envelope false m) _ = _
      rw [decrypt, readyAccount_eq]
      show _ = saveOrRaise m ((readyAccount m).bind _)
      cases readyAccount m with
      | error e => rfl
      | ok account =>
          show Prog.bind (Prog.bind (ofExcept (openRow m account conversation envelope) m) _) _ =
            saveOrRaise m ((openRow m account conversation envelope).bind _)
          cases openRow m account conversation envelope with
          | error e => rfl
          | ok p => rfl

/-- What decrypting a message has done: a ratchet of the vault has moved on, or there is a new
one. -/
theorem decryptWith_ok {state : Vault L} {account account' : L.Account} {peer : Peer} {name : Str}
    {message : L.Message} {ratchet : L.Ratchet} {plaintext : ByteArray}
    (h : decryptWith state account peer name message = .ok (account', ratchet, plaintext)) :
    (∃ r, state.sessions.get name = some r ∧ L.decrypt r message = .ok (ratchet, plaintext)) ∨
      (state.sessions.get name = none ∧ ∃ key prekey,
        L.nativeKey (.str peer.signedPrekey) = .ok key ∧
        L.createInbound account key prekey = .ok (account', ratchet, plaintext)) := by
  rw [decryptWith] at h
  cases hget : state.sessions.get name with
  | some r =>
      simp only [hget] at h
      obtain ⟨⟨advanced, bytes⟩, hdecrypt, h⟩ := bind_eq_ok.mp h
      cases h
      exact .inl ⟨r, rfl, hdecrypt⟩
  | none =>
      simp only [hget] at h
      split at h
      · cases h
      · next prekey _ =>
        split_ifs at h
        obtain ⟨key, hkey, h⟩ := bind_eq_ok.mp h
        exact .inr ⟨rfl, key, prekey, hkey, h⟩

/-- The ratchet of a row that has been opened belongs to the pinned peer that it names. -/
theorem RowOpened.belongs {m : Mem L} {account account' : L.Account} {conversation name text : Str}
    {row : OlmRow} {ratchet : L.Ratchet} {peer : Peer} {plaintext : ByteArray} {bound : Json}
    (hopen : RowOpened m account conversation row name account' ratchet text peer plaintext bound)
    (hpinned : Pinned m.state.peers m.state.sessions) : Belongs m.state.peers name ratchet := by
  obtain ⟨message, hdecrypted⟩ := hopen.decrypted
  rcases decryptWith_ok hdecrypted with ⟨r, hr, hdecrypt⟩ | ⟨-, key, prekey, hkey, hinbound⟩
  · obtain ⟨conversation', device, peer', key, sid, hname, hpeer, hkey, hsession⟩ :=
      hpinned.belongs name r hr
    exact ⟨conversation', device, peer', key, sid, hname, hpeer, hkey, hsession.decrypt hdecrypt⟩
  · exact ⟨conversation, row.sender, peer, key, _, hopen.named, hopen.sender, hkey,
      .inbound hinbound rfl⟩

theorem Kept.acceptedRow {w : World (Vault L) (Request L)} {m : Mem L} (h : Kept w m)
    {account account' : L.Account} {conversation name text : Str} {row : OlmRow}
    {ratchet : L.Ratchet} {peer : Peer} {plaintext : ByteArray} {bound : Json}
    (cursors : Dict Str (Str × Str))
    (hopen : RowOpened m account conversation row name account' ratchet text peer plaintext bound) :
    Kept w { m with
      account := some account'
      state := { m.state with
        sessions := m.state.sessions.set name ratchet
        active := m.state.active.set (ratchetKey conversation row.sender) name
        cursors } } := by
  obtain ⟨message, hdecrypted⟩ := hopen.decrypted
  refine h.step rfl (fun _ => ⟨?_, fun _ hp => hp, fun p hp => ⟨p, hp, rfl, rfl, fun _ he => he⟩⟩)
    fun hok => (h.pinned hok).set (hopen.belongs (h.pinned hok))
  intro slot x hx
  cases slot with
  | native => exact ⟨x, hx, .refl⟩
  | ratchet id =>
      by_cases heq : id = name
      · subst heq
        obtain ⟨r, hr, rfl⟩ := Option.map_eq_some_iff.mp hx
        rcases decryptWith_ok hdecrypted with ⟨r', hr', hdecrypt⟩ | ⟨hnone, -⟩
        · obtain rfl := Option.some.inj (hr.symm.trans hr')
          exact ⟨.ratchet ratchet, by simp [slotState], .single (.decrypt hdecrypt)⟩
        · rw [hnone] at hr
          cases hr
      · refine ⟨x, ?_, .refl⟩
        simp only [slotState, Dict.get_set_of_ne heq]
        exact hx

theorem acceptRow_ok {m m' : Mem L} {conversation : Str} {envelope : Json} {received : Received}
    (h : acceptRow m conversation envelope = .ok (m', received)) :
    ∃ cursor account row name account' ratchet text peer plaintext bound,
      readCursor envelope = .ok cursor ∧ m.failed = false ∧ m.account = some account ∧
      readOlmRow envelope = .ok row ∧
      RowOpened m account conversation row name account' ratchet text peer plaintext bound ∧
      m' = Client.acceptedRow m conversation row name account' ratchet cursor ∧
      received = ⟨row.sender, text⟩ := by
  obtain ⟨cursor, hcursor, h⟩ := bind_eq_ok.mp h
  obtain ⟨account, haccount, h⟩ := bind_eq_ok.mp h
  obtain ⟨⟨row, name, account', ratchet, text⟩, hopen, h⟩ := bind_eq_ok.mp h
  cases h
  obtain ⟨hrow, peer, plaintext, bound, hopened⟩ := openRow_ok hopen
  obtain ⟨hfailed, haccount⟩ := readyAccount_ok haccount
  exact ⟨cursor, account, row, name, account', ratchet, text, peer, plaintext, bound, hcursor,
    hfailed, haccount, hrow, hopened, rfl, rfl⟩

theorem Kept.acceptRow {w : World (Vault L) (Request L)} {m m' : Mem L} (h : Kept w m)
    {conversation : Str} {envelope : Json} {received : Received}
    (haccept : Client.acceptRow m conversation envelope = .ok (m', received)) : Kept w m' := by
  obtain ⟨cursor, account, row, name, account', ratchet, text, peer, plaintext, bound, -, -, -, -,
    hopened, rfl, -⟩ := acceptRow_ok haccept
  exact h.acceptedRow _ hopened

/-! ## The Olm client -/

theorem keeps_decrypt (conversation : Str) (envelope : Json) (persist : Bool) :
    KeepsIt (decrypt (L := L) conversation envelope persist) := by
  intro w m hm
  rw [decrypt, readyAccount_eq]
  cases readyAccount m with
  | error e => exact hm
  | ok account =>
      apply Proc.wp_bind.mpr
      apply Proc.wp_memory.mpr
      apply Proc.wp_bind.mpr
      apply Proc.wp_ofExcept.mpr
      cases hopen : openRow m account conversation envelope with
      | error e => exact hm
      | ok p =>
          obtain ⟨row, name, account', ratchet, text⟩ := p
          obtain ⟨-, peer, plaintext, bound, hopened⟩ := openRow_ok hopen
          apply Proc.wp_bind.mpr
          apply Proc.wp_modify.mpr
          have hkept := hm.acceptedRow m.state.cursors hopened
          have hsave : KeepsIt (if persist then save else pure () : M L Unit) := by
            split
            · exact keeps_save
            · exact (reads_pure ()).keeps
          exact (hsave.bind fun _ => (reads_pure _).keeps) w _ hkept

theorem keeps_receiveRow (conversation : Str) (envelope : Json) :
    KeepsIt (receiveRow (L := L) conversation envelope) := by
  intro w m hm
  rw [receiveRow_eq]
  cases haccept : acceptRow m conversation envelope with
  | error e => exact hm
  | ok p =>
      obtain ⟨m', received⟩ := p
      exact (keeps_save.bind fun _ => (reads_pure _).keeps) w m' (hm.acceptRow haccept)

theorem keeps_receiveRows (conversation : Str) (rows : List Json) :
    KeepsIt (receiveRows (L := L) conversation rows) := by
  induction rows with
  | nil => exact (reads_pure _).keeps
  | cons envelope rest ih =>
      refine Keeps.bind (.attempt (keeps_receiveRow _ _)) fun r => ?_
      cases r with
      | error e => exact (reads_pure _).keeps
      | ok received => exact ih.bind fun p => (reads_pure _).keeps

theorem reads_nextPage (conversation : Str) : Reads (nextPage (L := L) conversation) := by
  refine reads_memory.bind fun m => ?_
  exact (reads_request rfl).bind fun page => reads_ofExcept _

theorem keeps_receivePages (conversation : Str) (fuel : Nat) :
    KeepsIt (receivePages (L := L) conversation fuel) := by
  induction fuel with
  | zero => exact (reads_pure _).keeps
  | succ fuel ih =>
      refine Keeps.bind (.attempt (reads_nextPage _).keeps) fun r => ?_
      cases r with
      | error e => exact (reads_pure _).keeps
      | ok rows =>
          refine (keeps_receiveRows _ _).bind fun p => ?_
          by_cases hstop : p.2.isSome ∨ rows.length < receivePageSize
          · simp only [hstop, if_true]
            exact (reads_pure _).keeps
          · simp only [hstop, if_false]
            exact ih.bind fun q => (reads_pure _).keeps

theorem keeps_receive (conversation : Str) : KeepsIt (receive (L := L) conversation) := by
  refine reads_requireHealthy.seq fun _ => ?_
  refine modify_seq (fun _ => ⟨rfl, rfl, rfl, rfl, rfl, rfl⟩) ?_
  refine (keeps_receivePages _ _).bind fun p => ?_
  obtain ⟨received, stop⟩ := p
  cases stop with
  | none => exact (reads_pure _).keeps
  | some e =>
      dsimp only
      split
      · refine modify_seq (fun _ => ⟨rfl, rfl, rfl, rfl, rfl, rfl⟩) ?_
        exact (reads_ite (reads_raise _) (reads_pure _)).keeps
      · exact (reads_raise _).keeps

/-! ## The group client -/

/-- The message of a result: an application message has a text, nothing else has. -/
def Carries (row : MlsRow) (result : NativeResult L.Native) : Option Received → Prop
  | none => True
  | some received => result.kind = some (Str.ofString "application") ∧
      ∃ plaintext bytes, result.plaintext = some plaintext ∧
        L.decodeBase64Strict (.str plaintext) false 32768 = .ok bytes ∧
        L.decodeUtf8 bytes = .ok received.text ∧ received.senderDevice = row.sender

/-- How the helper was called for a row: a Welcome is joined, anything else is received, under the
associated data of the row. -/
inductive Called (conversation : Str) (row : MlsRow) (result : NativeResult L.Native) :
    NativeOp → Prop where
  | join (hkind : row.kind = Str.ofString "welcome") :
      Called conversation row result (.join conversation row.ciphertext)
  | receive {aad : ByteArray}
      (haad : contextBytes (L := L) conversation row.epoch row.messageId row.kind row.sender =
        .ok aad)
      (hkind : result.kind = some row.kind) (hsender : result.senderDevice = some row.sender)
      (hresult : result.aad = some (L.encodeBase64url aad)) :
      Called conversation row result (.receive conversation row.ciphertext)

/-- A row of another device that the helper has processed. -/
structure RowProcessed (m : Mem L) (data : MlsData L) (conversation : Str) (row : MlsRow)
    (native : L.Native) (received : Option Received) (result : NativeResult L.Native)
    (op : NativeOp) (seed : L.Seed) : Prop where
  call : L.native m.deviceId data.native op seed = .ok result
  called : Called conversation row result op
  state : result.state = some native
  roster : checkRoster data m.deviceId result.members = .ok ()
  carries : Carries row result received

theorem acceptResult_ok {data : MlsData L} {device : Str} {row : MlsRow}
    {result : NativeResult L.Native} {opened : Opened L}
    (h : acceptResult data device row result = .ok opened) :
    checkRoster data device result.members = .ok () ∧ ∃ native received,
      opened = .processed native received ∧ result.state = some native ∧
      Carries row result received := by
  obtain ⟨_, hroster, h⟩ := bind_eq_ok.mp h
  refine ⟨hroster, ?_⟩
  split at h
  · next epoch native _ hstate =>
    split_ifs at h with hepoch hkind
    · cases hplaintext : result.plaintext with
      | none => simp only [hplaintext] at h; cases h
      | some plaintext =>
          simp only [hplaintext] at h
          obtain ⟨bytes, hbytes, h⟩ := bind_eq_ok.mp h
          obtain ⟨text, htext, h⟩ := bind_eq_ok.mp h
          cases h
          exact ⟨native, _, rfl, hstate, hkind, plaintext, bytes, hplaintext, hbytes, htext, rfl⟩
    · cases h
      exact ⟨native, none, rfl, hstate, trivial⟩
  · cases h

/-- What is known of a row of another device that has been opened. -/
theorem openForeign_ok {m : Mem L} {data : MlsData L} {conversation owner : Str} {row : MlsRow}
    {seed : L.Seed} {native : L.Native} {received : Option Received}
    (h : openForeign m data conversation row owner seed = .ok (.processed native received)) :
    ∃ result op, RowProcessed m data conversation row native received result op seed := by
  obtain ⟨aad, haad, h⟩ := bind_eq_ok.mp h
  obtain ⟨header, -, h⟩ := bind_eq_ok.mp h
  split_ifs at h with hheader howner hkind hunexpected hskipped
  · obtain ⟨result, hcall, h⟩ := bind_eq_ok.mp h
    split_ifs at h
    obtain ⟨hroster, native', received', heq, hstate, hcarries⟩ := acceptResult_ok h
    cases heq
    exact ⟨result, _, hcall, .join hkind, hstate, hroster, hcarries⟩
  · cases h
  · obtain ⟨result, hcall, h⟩ := bind_eq_ok.mp h
    split_ifs at h with hmeta
    simp only [not_or, not_not] at hmeta
    obtain ⟨hroster, native', received', heq, hstate, hcarries⟩ := acceptResult_ok h
    cases heq
    exact ⟨result, _, hcall, .receive haad hmeta.1 hmeta.2.1 hmeta.2.2, hstate, hroster, hcarries⟩

theorem openMlsRow_ok {m : Mem L} {data : MlsData L} {conversation owner : Str} {j : Json}
    {draw : Str → L.Seed} {row : MlsRow} {native : L.Native} {received : Option Received}
    (h : openMlsRow m data conversation j owner draw = .ok (row, .processed native received)) :
    readMlsRow j = .ok row ∧ row.sender ≠ m.deviceId ∧ ∃ result op,
      RowProcessed m data conversation row native received result op (draw row.id) := by
  obtain ⟨row', hrow, h⟩ := bind_eq_ok.mp h
  obtain ⟨_, -, h⟩ := bind_eq_ok.mp h
  split_ifs at h with hown
  · obtain ⟨bytes, -, h⟩ := bind_eq_ok.mp h
    split_ifs at h
    cases h
  · obtain ⟨opened, hopened, h⟩ := bind_eq_ok.mp h
    cases h
    exact ⟨hrow, hown, openForeign_ok hopened⟩

/-- The native state of a row that has been opened comes from the one at hand. -/
theorem openMlsRow_step {m : Mem L} {data : MlsData L} {conversation owner : Str} {j : Json}
    {draw : Str → L.Seed} {row : MlsRow} {native n₀ : L.Native} {received : Option Received}
    (h : openMlsRow m data conversation j owner draw = .ok (row, .processed native received))
    (hn₀ : data.native = some n₀) : LibStep L (.native n₀) (.native native) := by
  obtain ⟨-, -, result, op, hprocessed⟩ := openMlsRow_ok h
  have hcall := hprocessed.call
  rw [hn₀] at hcall
  exact .native hcall hprocessed.state

theorem keeps_receiveMlsRow (conversation owner : Str) (routing : Json) (draw : Str → L.Seed)
    (j : Json) : KeepsIt (receiveMlsRow conversation owner routing draw j) := by
  refine reads_requireHealthy.seq fun _ => ?_
  refine (mlsData_spec _).bind (fun data => ?_) fun _ _ _ h => h.1
  refine Triple.memory_bind fun m₀ => ?_
  refine Triple.ofExcept_bind ?_ fun _ _ _ h => h.1.1
  rintro ⟨row, opened⟩ hopen
  have hrest : ∀ received, KeepsIt (do
      setMls fun d => { d with cursors := d.cursors.set conversation (row.createdAt, row.id) }
      save
      pure received : M L (Option Received)) := by
    intro received
    refine setMls_seq (fun _ => ⟨rfl, rfl⟩) ?_
    exact keeps_save.bind fun _ => (reads_pure _).keeps
  cases opened with
  | own =>
      refine Triple.conseq (P := Kept) (R := fun w _ m => Kept w m) ?_ (fun _ _ h => h.1.1)
        fun _ _ _ h => h
      exact Keeps.bind (setMls_seq (fun _ => ⟨rfl, rfl⟩) (reads_pure _).keeps) hrest
  | skipped =>
      refine Triple.conseq (P := Kept) (R := fun w _ m => Kept w m) ?_ (fun _ _ h => h.1.1)
        fun _ _ _ h => h
      exact (reads_pure _).seq hrest
  | processed native received =>
      refine Triple.conseq (P := KeptAnd fun m => m.state.mls = some data)
        (R := fun w _ m => Kept w m) ?_ (fun _ _ h => ⟨h.1.1, h.1.2 data rfl⟩) fun _ _ _ h => h
      refine Triple.bind (R := fun w _ m => Kept w m) ?_ hrest fun _ _ _ h => h
      refine setNative_seq (n := native) (fun _ => ⟨rfl, rfl⟩) ?_ ?_
      · intro m hm n₀ hn₀
        rw [hm] at hn₀
        exact openMlsRow_step hopen hn₀
      · refine (reads_ofExcept _).seq fun ownerId => ?_
        exact setMls_seq (fun _ => ⟨rfl, rfl⟩) (reads_pure _).keeps

theorem keeps_receiveMlsRows (conversation owner : Str) (routing : Json) (draw : Str → L.Seed)
    (rows : List Json) : KeepsIt (receiveMlsRows conversation owner routing draw rows) := by
  induction rows with
  | nil => exact (reads_pure _).keeps
  | cons j rest ih =>
      refine Keeps.bind (.attempt (keeps_receiveMlsRow _ _ _ _ _)) fun r => ?_
      cases r with
      | error e => exact (reads_pure _).keeps
      | ok received => exact ih.bind fun p => (reads_pure _).keeps

theorem reads_nextMlsPage (conversation : Str) : Reads (nextMlsPage (L := L) conversation) := by
  refine reads_mlsData.bind fun data => ?_
  refine reads_memory.bind fun m => ?_
  exact (reads_request rfl).bind fun page => reads_ofExcept _

theorem keeps_receiveMlsPages (conversation owner : Str) (routing : Json) (draw : Str → L.Seed)
    (fuel : Nat) : KeepsIt (receiveMlsPages conversation owner routing draw fuel) := by
  induction fuel with
  | zero => exact (reads_pure _).keeps
  | succ fuel ih =>
      refine Keeps.bind (.attempt (reads_nextMlsPage _).keeps) fun r => ?_
      cases r with
      | error e => exact (reads_pure _).keeps
      | ok rows =>
          refine (keeps_receiveMlsRows _ _ _ _ _).bind fun p => ?_
          obtain ⟨received, stop⟩ := p
          cases stop with
          | some e => exact (reads_pure _).keeps
          | none =>
              dsimp only
              split
              · exact (reads_pure _).keeps
              · exact ih.bind fun q => (reads_pure _).keeps

theorem keeps_receiveMls (conversation : Str) (ownerDevice : Option Str) (draw : Str → L.Seed) :
    KeepsIt (receiveMls conversation ownerDevice draw) := by
  refine reads_idle.seq fun _ => ?_
  refine (reads_request rfl).seq fun routing => ?_
  refine reads_mlsData.seq fun data => ?_
  refine (reads_ofExcept _).seq fun owner => ?_
  refine modify_seq (fun _ => ⟨rfl, rfl, rfl, rfl, rfl, rfl⟩) ?_
  refine (keeps_receiveMlsPages _ _ _ _ _).bind fun p => ?_
  obtain ⟨messages, stop⟩ := p
  cases stop with
  | complete => exact (reads_pure _).keeps
  | budget => exact modify_seq (fun _ => ⟨rfl, rfl, rfl, rfl, rfl, rfl⟩) (reads_pure _).keeps
  | raised e =>
      dsimp only
      split
      · exact (reads_raise _).keeps
      · exact modify_seq (fun _ => ⟨rfl, rfl, rfl, rfl, rfl, rfl⟩) (reads_pure _).keeps

end Scap.Client
