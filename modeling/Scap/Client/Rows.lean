import Scap.Client.Receiving
import Scap.Lib.Boundaries

/-!
# The rows of a `receive`

For both clients: what an accepted row makes of the memory, `acceptOlm` and `acceptMls`, and that
the loops over the rows and the pages go from one such memory to the next, each saved before the
next row is looked at (`receive_under`, `receiveMls_under`).

A row of the group client can also be `HalfTaken`: the native state is assigned before the answer of
the relay is asked for the owner of the conversation.
-/

namespace Scap.Client

open Scap.Lib Scap.Py Proc

variable {L : Lib}

/-- The vault as `_save` leaves it. -/
def Mem.synced (m : Mem L) : Mem L := { m with state := { m.state with account := m.account } }

def Mem.fail (m : Mem L) : Mem L := { m with failed := true }

/-- `save`, of a process that has not failed. -/
theorem save_eq {α : Type} {m : Mem L} (hfailed : m.failed = false) (a : α) :
    (save >>= fun _ => pure a : M L α) m =
      .save m.synced (.done m.synced (.ok a)) (.done m.synced.fail (.error .persistence)) := by
  obtain ⟨state, account, deviceId, accountId, username, ready, failed, error, mlsError⟩ := m
  obtain rfl : failed = false := hfailed
  rfl

/-- `_require_healthy`. -/
theorem requireHealthy_bind {α : Type} {m : Mem L} {f : M L α} (hfailed : m.failed = false) :
    (requireHealthy >>= fun _ => f) m = f m := by
  obtain ⟨state, account, deviceId, accountId, username, ready, failed, error, mlsError⟩ := m
  obtain rfl : failed = false := hfailed
  rfl

theorem requireHealthy_failed {α : Type} {m : Mem L} {f : M L α} (hfailed : m.failed = true) :
    (requireHealthy >>= fun _ => f) m = .done m (.error .persistence) := by
  obtain ⟨state, account, deviceId, accountId, username, ready, failed, error, mlsError⟩ := m
  obtain rfl : failed = true := hfailed
  rfl

/-! ## What a row does -/

/-- A row of the Olm client, which is saved as a whole. -/
def acceptOlm (conversation : Str) (m : Mem L) (envelope : Json) :
    Except Err (Mem L × Received) :=
  (acceptRow m conversation envelope).map fun p => (p.1.synced, p.2)

theorem receiveRow_saveOr (conversation : Str) (envelope : Json) (m : Mem L) :
    receiveRow conversation envelope m =
      saveOr Mem.fail .persistence m (acceptOlm conversation m envelope) := by
  rw [receiveRow_eq, acceptOlm]
  cases haccept : acceptRow m conversation envelope with
  | error e => rfl
  | ok p =>
      obtain ⟨m', received⟩ := p
      obtain ⟨cursor, account, row, name, account', ratchet, text, peer, plaintext, bound, -,
        hfailed, -, -, -, rfl, -⟩ := acceptRow_ok haccept
      exact save_eq (m := acceptedRow m conversation row name account' ratchet cursor) hfailed
        received

/-- `self.data`, of a client that is there and has not failed to save. -/
def readyData (m : Mem L) : Except Err (MlsData L) :=
  if m.failed then .error .persistence
  else match m.state.mls with
    | some data => if m.ready && data.native.isSome then .ok data else .error .other
    | none => .error .other

theorem readyData_ok {m : Mem L} {data : MlsData L} (h : readyData m = .ok data) :
    m.failed = false ∧ m.state.mls = some data := by
  unfold readyData at h
  split_ifs at h with hfailed
  split at h
  · next data' hdata =>
    split_ifs at h
    cases h
    exact ⟨Bool.eq_false_iff.mpr hfailed, hdata⟩
  · cases h

/-- The message of a row. -/
def Opened.received : Opened L → Option Received
  | .processed _ received => received
  | _ => none

/-- The owner in the answer of the relay, which only a row that was processed asks for. -/
def ownerIdOf (routing : Json) : Opened L → Except Err Json
  | .processed _ _ => routing.sub "owner_id"
  | _ => .ok .null

/-- The group data after a row. -/
def applied (conversation ownerDevice : Str) (row : MlsRow) (ownerId : Json) (data : MlsData L) :
    Opened L → MlsData L
  | .own => { data with
      own := forgetOwn data.own conversation row.messageId
      cursors := data.cursors.set conversation (row.createdAt, row.id) }
  | .skipped => { data with cursors := data.cursors.set conversation (row.createdAt, row.id) }
  | .processed native _ => { data with
      native := some native
      groups := data.groups.set conversation ⟨row.epoch, ownerId, ownerDevice⟩
      cursors := data.cursors.set conversation (row.createdAt, row.id) }

def Mem.setData (m : Mem L) (data : MlsData L) : Mem L :=
  { m with state := { m.state with mls := some data } }

/-- A row of the group client, which is saved as a whole. -/
def acceptMls (conversation ownerDevice : Str) (routing : Json) (draw : Str → L.Seed) (m : Mem L)
    (j : Json) : Except Err (Mem L × Option Received) := do
  let data ← readyData m
  let (row, opened) ← openMlsRow m data conversation j ownerDevice draw
  let ownerId ← ownerIdOf routing opened
  .ok ((m.setData (applied conversation ownerDevice row ownerId data opened)).synced,
    opened.received)

/-- The helper has processed a row, its state is in the memory, and the relay has not named the
owner. -/
def HalfTaken (conversation ownerDevice : Str) (routing : Json) (draw : Str → L.Seed)
    (m m' : Mem L) : Prop :=
  ∃ data j row native received e, readyData m = .ok data ∧
    openMlsRow m data conversation j ownerDevice draw = .ok (row, .processed native received) ∧
    routing.sub "owner_id" = .error e ∧ m' = m.setData { data with native := some native }

/-- `_require_healthy` and `self.data`. -/
theorem readyData_eq {α : Type} {f : MlsData L → M L α} (m : Mem L) :
    (do requireHealthy; let data ← mlsData; f data : M L α) m =
      match readyData m with
      | .error e => .done m (.error e)
      | .ok data => f data m := by
  obtain ⟨⟨_, _, _, _, _, _, _, _, _, _, mls⟩, _, _, _, _, ready, failed, _, _⟩ := m
  cases failed with
  | true => rfl
  | false =>
      rcases mls with - | ⟨native, _, _, _, _, _, _, _⟩
      · rfl
      · cases ready <;> cases native <;> rfl

/-- `_receive_one`, once the row has been opened. -/
def takeRow (conversation ownerDevice : Str) (routing : Json) (row : MlsRow) (opened : Opened L) :
    M L (Option Received) := do
  let received ← applyOpened conversation row ownerDevice routing opened
  setMls fun d => { d with cursors := d.cursors.set conversation (row.createdAt, row.id) }
  save
  pure received

theorem takeRow_ok {conversation ownerDevice : Str} {routing ownerId : Json} {row : MlsRow}
    {opened : Opened L} {m : Mem L} {data : MlsData L} (hfailed : m.failed = false)
    (hmls : m.state.mls = some data) (howner : ownerIdOf routing opened = .ok ownerId) :
    takeRow conversation ownerDevice routing row opened m =
      saveOr Mem.fail .persistence m
        (.ok ((m.setData (applied conversation ownerDevice row ownerId data opened)).synced,
          opened.received)) := by
  obtain ⟨⟨_, _, _, _, _, _, _, _, _, _, mls⟩, _, _, _, _, _, failed, _, _⟩ := m
  obtain rfl : mls = some data := hmls
  obtain rfl : failed = false := hfailed
  cases opened with
  | own => rfl
  | skipped => rfl
  | processed native received =>
      have howner' : routing.sub "owner_id" = .ok ownerId := howner
      rw [takeRow, applyOpened, howner']
      rfl

theorem takeRow_error {conversation ownerDevice : Str} {routing : Json} {row : MlsRow}
    {native : L.Native} {received : Option Received} {m : Mem L} {data : MlsData L} {e : Err}
    (hmls : m.state.mls = some data) (howner : routing.sub "owner_id" = .error e) :
    takeRow conversation ownerDevice routing row (.processed native received) m =
      .done (m.setData { data with native := some native }) (.error e) := by
  obtain ⟨⟨_, _, _, _, _, _, _, _, _, _, mls⟩, _, _, _, _, _, _, _, _⟩ := m
  obtain rfl : mls = some data := hmls
  rw [takeRow, applyOpened, howner]
  rfl

theorem receiveMlsRow_eq {conversation ownerDevice : Str} {routing : Json} {draw : Str → L.Seed}
    {j : Json} {m : Mem L} {data : MlsData L} (hdata : readyData m = .ok data) :
    receiveMlsRow conversation ownerDevice routing draw j m =
      Prog.bind (ofExcept (openMlsRow m data conversation j ownerDevice draw) m)
        fun p => takeRow conversation ownerDevice routing p.1 p.2 := by
  rw [receiveMlsRow, readyData_eq, hdata]
  rfl

/-- **A row of a group is accepted as a whole, changes nothing, or is half taken.** -/
theorem receiveMlsRow_saveOr (conversation ownerDevice : Str) (routing : Json)
    (draw : Str → L.Seed) (j : Json) (m : Mem L) :
    receiveMlsRow conversation ownerDevice routing draw j m =
        saveOr Mem.fail .persistence m (acceptMls conversation ownerDevice routing draw m j) ∨
      ∃ m' e, receiveMlsRow conversation ownerDevice routing draw j m = .done m' (.error e) ∧
        HalfTaken conversation ownerDevice routing draw m m' := by
  cases hdata : readyData m with
  | error e =>
      rw [receiveMlsRow, readyData_eq, acceptMls, hdata]
      exact .inl rfl
  | ok data =>
      obtain ⟨hfailed, hmls⟩ := readyData_ok hdata
      rw [receiveMlsRow_eq hdata, acceptMls, hdata]
      cases hopen : openMlsRow m data conversation j ownerDevice draw with
      | error e =>
          refine .inl ?_
          show _ = saveOr _ _ m ((openMlsRow m data conversation j ownerDevice draw).bind _)
          rw [hopen]
          rfl
      | ok p =>
          obtain ⟨row, opened⟩ := p
          cases howner : ownerIdOf routing opened with
          | ok ownerId =>
              refine .inl ((takeRow_ok hfailed hmls howner).trans ?_)
              show _ = saveOr _ _ m ((openMlsRow m data conversation j ownerDevice draw).bind
                fun p => (ownerIdOf routing p.2).bind _)
              rw [hopen]
              show _ = saveOr _ _ m ((ownerIdOf routing opened).bind _)
              rw [howner]
              rfl
          | error e =>
              cases opened with
              | processed native received =>
                  exact .inr ⟨_, e, takeRow_error hmls howner, data, j, row, native, received, e,
                    hdata, hopen, howner, rfl⟩
              | _ => cases howner

/-! ## Requests -/

section Requests

variable {inv : Vault L → Prop} {given : Answer → Prop} {w : World (Vault L) (Request L)}
  {m : Mem L}

/-- The relay has answered with this value, or with nothing. -/
def Told (given : Answer → Prop) (j : Json) : Prop :=
  ∃ status body, given (.response status body) ∧ (body = .json j ∨ body = .empty ∧ j = .null)

theorem request_under {q : Request L} (hinv : inv w.disk) :
    (request q m).under (fun m : Mem L => m.state) inv given
      (fun w' r m' => m' = m ∧ w'.disk = w.disk ∧ ∀ j, r = .ok j → Told given j) w := by
  obtain ⟨state, account, deviceId, accountId, username, ready, failed, error, mlsError⟩ := m
  cases failed with
  | true => exact ⟨rfl, rfl, nofun⟩
  | false =>
      refine ⟨hinv, fun a ha => ?_⟩
      cases a with
      | failed => exact ⟨rfl, rfl, nofun⟩
      | response status body =>
          cases body with
          | empty =>
              show Prog.under _ _ _ _
                ((if 400 ≤ status then raise _ else pure .null : M L Json) _) _
              split
              · exact ⟨rfl, rfl, nofun⟩
              · refine ⟨rfl, rfl, ?_⟩
                rintro _ h
                obtain rfl := Except.ok.inj h
                exact ⟨status, _, ha, .inr ⟨rfl, rfl⟩⟩
          | invalid =>
              show Prog.under _ _ _ _ ((if 400 ≤ status then raise _ else raise _ : M L Json) _) _
              split <;> exact ⟨rfl, rfl, nofun⟩
          | json j =>
              show Prog.under _ _ _ _ ((if 400 ≤ status then raise _ else pure j : M L Json) _) _
              split
              · exact ⟨rfl, rfl, nofun⟩
              · refine ⟨rfl, rfl, ?_⟩
                rintro _ h
                obtain rfl := Except.ok.inj h
                exact ⟨status, _, ha, .inl rfl⟩

end Requests

/-! ## The rows and the pages of the Olm client -/

section Pages

variable {given : Answer → Prop} {w : World (Vault L) (Request L)} {m m₀ : Mem L} {d₀ : Vault L}

/-- A row of a page of the relay. -/
def Gave (given : Answer → Prop) (j : Json) : Prop := ∃ rows, Told given (.list rows) ∧ j ∈ rows

abbrev snapshot (m : Mem L) : Vault L := m.state

theorem readPage_ok {page : Json} {rows : List Json} (h : readPage page = .ok rows) :
    page = .list rows := by
  unfold readPage at h
  split at h
  · split_ifs at h
    cases h
    rfl
  · cases h

theorem nextPage_under {inv : Vault L → Prop} {conversation : Str} (hinv : inv w.disk) :
    (nextPage conversation m).under snapshot inv given
      (fun w' r m' => m' = m ∧ w'.disk = w.disk ∧ ∀ rows, r = .ok rows → ∀ j ∈ rows, Gave given j)
      w := by
  show Prog.under _ _ _ _ (Prog.bind (request _ m) fun page => ofExcept (readPage page)) _
  apply Prog.under_bind.mpr
  refine Prog.under_mono (request_under hinv) (fun _ hd => hd) ?_
  rintro w' r m' ⟨rfl, hdisk, htold⟩
  cases r with
  | error e => exact ⟨rfl, hdisk, nofun⟩
  | ok page =>
      refine Proc.under_ofExcept.mpr ⟨rfl, hdisk, ?_⟩
      intro rows hrows j hj
      refine ⟨rows, ?_, hj⟩
      rw [← readPage_ok hrows]
      exact htold page rfl

/-- Between two rows of the Olm client, or where it stops. -/
abbrev HaltedOlm (conversation : Str) (d₀ : Vault L) (m₀ : Mem L) (done : List (Json × Received))
    (w : World (Vault L) (Request L)) (m : Mem L) : Prop :=
  Halted (acceptOlm conversation) snapshot d₀ m₀ Mem.fail (fun _ _ => False) done w m

theorem receiveRows_each (conversation : Str) (rows : List Json) :
    receiveRows (L := L) conversation rows =
      each (receiveRow conversation) (fun received => [received]) rows := by
  induction rows with
  | nil => rfl
  | cons envelope rest ih =>
      rw [receiveRows, each, ih]
      refine bind_congr fun r => ?_
      cases r <;> rfl

theorem receiveRows_under {conversation : Str} {done : List (Json × Received)}
    (h : Between (acceptOlm conversation) snapshot d₀ m₀ done w m) (rows : List Json) :
    (receiveRows conversation rows m).under snapshot
      (AtBoundary (acceptOlm conversation) snapshot d₀ m₀) given
      (fun w r m' => ∃ new stop, r = .ok (new.map Prod.snd, stop) ∧ (∀ p ∈ new, p.1 ∈ rows) ∧
        (stop = none → Between (acceptOlm conversation) snapshot d₀ m₀ (done ++ new) w m') ∧
        HaltedOlm conversation d₀ m₀ (done ++ new) w m') w := by
  rw [receiveRows_each]
  refine Prog.under_mono (h.items (fun _ _ => False) (fun received => [received])
    (fun j m => .inl (receiveRow_saveOr conversation j m)) rows) (fun _ hd => hd) ?_
  rintro w r m' ⟨new, stop, rfl, hmem, hbetween, hhalted⟩
  refine ⟨new, stop, ?_, hmem, hbetween, hhalted⟩
  rw [List.map_eq_flatMap]

theorem receivePages_under {conversation : Str} {done : List (Json × Received)}
    (h : Between (acceptOlm conversation) snapshot d₀ m₀ done w m) (fuel : Nat) :
    (receivePages conversation fuel m).under snapshot
      (AtBoundary (acceptOlm conversation) snapshot d₀ m₀) given
      (fun w r m' => ∃ new stop, r = .ok (new.map Prod.snd, stop) ∧
        (∀ p ∈ new, Gave given p.1) ∧ HaltedOlm conversation d₀ m₀ (done ++ new) w m') w := by
  induction fuel generalizing done w m with
  | zero => exact ⟨[], none, rfl, by simp, .between (by simpa using h)⟩
  | succ fuel ih =>
      rw [receivePages]
      apply Prog.under_bind.mpr
      apply Prog.under_attempt.mpr
      refine Prog.under_mono (nextPage_under h.boundary) (fun _ hd => hd) ?_
      rintro w' r m' ⟨rfl, hdisk, hgave⟩
      have hnow : Between (acceptOlm conversation) snapshot d₀ m₀ done w' m' :=
        ⟨h.chain, hdisk.trans h.disk⟩
      cases r with
      | error e => exact ⟨[], some e, rfl, by simp, .between (by simpa using hnow)⟩
      | ok rows =>
          apply Prog.under_bind.mpr
          refine Prog.under_mono (receiveRows_under hnow rows) (fun _ hd => hd) ?_
          rintro w r m'' ⟨new, stop, rfl, hmem, hbetween, hhalted⟩
          have hgiven : ∀ p ∈ new, Gave given p.1 := fun p hp => hgave rows rfl _ (hmem p hp)
          dsimp only
          split
          · exact ⟨new, stop, rfl, hgiven, hhalted⟩
          · next hgo =>
            rw [not_or, Bool.not_eq_true, Option.isSome_eq_false_iff,
              Option.isNone_iff_eq_none] at hgo
            apply Prog.under_bind.mpr
            refine Prog.under_mono (ih (hbetween hgo.1)) (fun _ hd => hd) ?_
            rintro w r m₃ ⟨more, stop', rfl, hmore, hhalted'⟩
            refine ⟨new ++ more, stop', by simp, ?_, by simpa using hhalted'⟩
            intro p hp
            rcases List.mem_append.mp hp with hp | hp
            · exact hgiven p hp
            · exact hmore p hp

/-- The same vault, and the same account that will be saved with it. -/
structure Mem.Same (m m' : Mem L) : Prop where
  state : m.state = m'.state
  account : m.account = m'.account
  failed : m.failed = m'.failed

theorem Mem.Same.refl (m : Mem L) : m.Same m := ⟨rfl, rfl, rfl⟩

/-- **`PrivateClient.receive`** goes from row to row, and returns what the accepted ones carry. -/
theorem receive_under (conversation : Str) :
    (receive conversation m).under snapshot
      (AtBoundary (acceptOlm conversation) snapshot w.disk { m with lastReceiveError := none })
      given (fun w' r m' => ∃ rows m₁, HaltedOlm conversation w.disk
          { m with lastReceiveError := none } rows w' m₁ ∧ m'.Same m₁ ∧
        (∀ p ∈ rows, Gave given p.1) ∧ ∀ out, r = .ok out → out = rows.map Prod.snd) w := by
  rw [receive]
  by_cases hfailed : m.failed = true
  · rw [requireHealthy_failed hfailed]
    exact ⟨[], _, .between ⟨.start, rfl⟩, ⟨rfl, rfl, rfl⟩, by simp, nofun⟩
  rw [requireHealthy_bind (Bool.eq_false_iff.mpr hfailed)]
  show Prog.under _ _ _ _
    (Prog.bind (receivePages conversation 100 { m with lastReceiveError := none }) _) w
  apply Prog.under_bind.mpr
  refine Prog.under_mono (receivePages_under ⟨.start, rfl⟩ 100) (fun _ hd => hd) ?_
  rintro w' r m₁ ⟨rows, stop, rfl, hgave, hhalted⟩
  cases stop with
  | none => exact ⟨rows, m₁, hhalted, .refl m₁, hgave, fun out h => (Except.ok.inj h).symm⟩
  | some e =>
      dsimp only
      split
      · show Prog.under _ _ _ _ ((if rows.map Prod.snd = [] then raise e else
          pure (rows.map Prod.snd) : M L (List Received)) _) w'
        split
        · exact ⟨rows, m₁, hhalted, ⟨rfl, rfl, rfl⟩, hgave, nofun⟩
        · exact ⟨rows, m₁, hhalted, ⟨rfl, rfl, rfl⟩, hgave, fun out h => (Except.ok.inj h).symm⟩
      · exact ⟨rows, m₁, hhalted, .refl m₁, hgave, nofun⟩

/-! ## The rows and the pages of the group client -/

/-- `_idle`, which nothing but an operation that waits or a missing client stops. -/
theorem idle_cases (m : Mem L) : (∃ e, idle m = .done m (.error e)) ∨
    ∃ data, readyData m = .ok data ∧ idle m = .done m (.ok ()) ∧
      mlsData m = .done m (.ok data) := by
  obtain ⟨⟨_, _, _, _, _, _, _, _, _, _, mls⟩, _, _, _, _, ready, failed, _, _⟩ := m
  cases failed with
  | true => exact .inl ⟨_, rfl⟩
  | false =>
      rcases mls with - | ⟨native, _, _, _, _, _, outbox, _⟩
      · exact .inl ⟨_, rfl⟩
      · cases ready with
        | false => exact .inl ⟨_, rfl⟩
        | true =>
            cases native with
            | none => exact .inl ⟨_, rfl⟩
            | some native =>
                cases outbox with
                | some pending => exact .inl ⟨_, rfl⟩
                | none => exact .inr ⟨_, rfl, rfl, rfl⟩

theorem mlsData_done (m : Mem L) : ∃ r, mlsData m = .done m r := by
  obtain ⟨⟨_, _, _, _, _, _, _, _, _, _, mls⟩, _, _, _, _, ready, _, _, _⟩ := m
  rcases mls with - | ⟨native, _, _, _, _, _, _, _⟩
  · exact ⟨_, rfl⟩
  · cases ready <;> cases native <;> exact ⟨_, rfl⟩

theorem readMlsPage_ok {page : Json} {rows : List Json} (h : readMlsPage page = .ok rows) :
    page = .list rows := by
  unfold readMlsPage at h
  split at h
  · split_ifs at h
    cases h
    rfl
  · cases h

theorem nextMlsPage_under {inv : Vault L → Prop} {conversation : Str} (hinv : inv w.disk) :
    (nextMlsPage conversation m).under snapshot inv given
      (fun w' r m' => m' = m ∧ w'.disk = w.disk ∧ ∀ rows, r = .ok rows → ∀ j ∈ rows, Gave given j)
      w := by
  obtain ⟨r, hdata⟩ := mlsData_done m
  rw [nextMlsPage]
  apply Proc.under_bind.mpr
  rw [hdata]
  cases r with
  | error e => exact ⟨rfl, rfl, nofun⟩
  | ok data =>
      show Prog.under _ _ _ _ (Prog.bind (request _ m) fun page => ofExcept (readMlsPage page)) _
      apply Prog.under_bind.mpr
      refine Prog.under_mono (request_under hinv) (fun _ hd => hd) ?_
      rintro w' r m' ⟨rfl, hdisk, htold⟩
      cases r with
      | error e => exact ⟨rfl, hdisk, nofun⟩
      | ok page =>
          refine Proc.under_ofExcept.mpr ⟨rfl, hdisk, ?_⟩
          intro rows hrows j hj
          refine ⟨rows, ?_, hj⟩
          rw [← readMlsPage_ok hrows]
          exact htold page rfl

variable {conversation owner : Str} {routing : Json} {draw : Str → L.Seed}
  {done : List (Json × Option Received)}

/-- Between two rows of the group client, or where it stops. -/
abbrev HaltedMls (conversation owner : Str) (routing : Json) (draw : Str → L.Seed) (d₀ : Vault L)
    (m₀ : Mem L) (done : List (Json × Option Received)) (w : World (Vault L) (Request L))
    (m : Mem L) : Prop :=
  Halted (acceptMls conversation owner routing draw) snapshot d₀ m₀ Mem.fail
    (HalfTaken conversation owner routing draw) done w m

/-- The messages of rows. -/
def messages (rows : List (Json × Option Received)) : List Received :=
  rows.flatMap fun p => p.2.toList

theorem messages_append (rows more : List (Json × Option Received)) :
    messages (rows ++ more) = messages rows ++ messages more := List.flatMap_append

theorem receiveMlsRows_each (conversation owner : Str) (routing : Json) (draw : Str → L.Seed)
    (rows : List Json) : receiveMlsRows conversation owner routing draw rows =
      each (receiveMlsRow conversation owner routing draw) Option.toList rows := by
  induction rows with
  | nil => rfl
  | cons j rest ih =>
      rw [receiveMlsRows, each, ih]
      refine bind_congr fun r => ?_
      cases r <;> rfl

theorem receiveMlsPages_under
    (h : Between (acceptMls conversation owner routing draw) snapshot d₀ m₀ done w m) (fuel : Nat) :
    (receiveMlsPages conversation owner routing draw fuel m).under snapshot
      (AtBoundary (acceptMls conversation owner routing draw) snapshot d₀ m₀) given
      (fun w r m' => ∃ new stop, r = .ok (messages new, stop) ∧ (∀ p ∈ new, Gave given p.1) ∧
        HaltedMls conversation owner routing draw d₀ m₀ (done ++ new) w m') w := by
  induction fuel generalizing done w m with
  | zero => exact ⟨[], .budget, rfl, by simp, .between (by simpa using h)⟩
  | succ fuel ih =>
      rw [receiveMlsPages]
      apply Proc.under_bind.mpr
      apply Proc.under_attempt.mpr
      refine Prog.under_mono (nextMlsPage_under h.boundary) (fun _ hd => hd) ?_
      rintro w' r m' ⟨rfl, hdisk, hgave⟩
      have hnow : Between (acceptMls conversation owner routing draw) snapshot d₀ m₀ done w' m' :=
        ⟨h.chain, hdisk.trans h.disk⟩
      cases r with
      | error e => exact ⟨[], .raised e, rfl, by simp, .between (by simpa using hnow)⟩
      | ok rows =>
          apply Proc.under_bind.mpr
          rw [receiveMlsRows_each]
          refine Prog.under_mono (hnow.items (HalfTaken conversation owner routing draw)
            Option.toList (receiveMlsRow_saveOr conversation owner routing draw) rows)
            (fun _ hd => hd) ?_
          rintro w r m₁ ⟨new, stop, rfl, hmem, hbetween, hhalted⟩
          have hgiven : ∀ p ∈ new, Gave given p.1 := fun p hp => hgave rows rfl _ (hmem p hp)
          cases stop with
          | some e => exact ⟨new, .raised e, rfl, hgiven, hhalted⟩
          | none =>
              dsimp only
              split
              · exact ⟨new, .complete, rfl, hgiven, hhalted⟩
              · apply Proc.under_bind.mpr
                refine Prog.under_mono (ih (hbetween rfl)) (fun _ hd => hd) ?_
                rintro w r m₂ ⟨more, stop', rfl, hmore, hhalted'⟩
                refine ⟨new ++ more, stop', ?_, ?_, by simpa using hhalted'⟩
                · rw [messages_append]
                  rfl
                · intro p hp
                  rcases List.mem_append.mp hp with hp | hp
                  · exact hgiven p hp
                  · exact hmore p hp

/-- What the relay has answered to the state request, and the owner that goes with it. -/
def Routed (given : Answer → Prop) (conversation : Str) (ownerDevice : Option Str) (m : Mem L)
    (routing : Json) (owner : Str) : Prop :=
  Told given routing ∧ ∃ data, readyData m = .ok data ∧
    ownerOf data conversation ownerDevice routing = .ok owner

/-- **`MlsClient.receive`** does nothing, or goes from row to row, and returns what the accepted
ones carry. -/
theorem receiveMls_under (conversation : Str) (ownerDevice : Option Str) (draw : Str → L.Seed) :
    (receiveMls conversation ownerDevice draw m).under snapshot
      (fun d => d = w.disk ∨ ∃ routing owner,
        Routed given conversation ownerDevice m routing owner ∧
        AtBoundary (acceptMls conversation owner routing draw) snapshot w.disk
          { m with mlsLastReceiveError := none } d)
      given (fun w' r m' => ((∃ e, r = .error e) ∧ m' = m ∧ w'.disk = w.disk) ∨
        ∃ routing owner, Routed given conversation ownerDevice m routing owner ∧
          ∃ rows m₁, HaltedMls conversation owner routing draw w.disk
              { m with mlsLastReceiveError := none } rows w' m₁ ∧ m'.Same m₁ ∧
            (∀ p ∈ rows, Gave given p.1) ∧ ∀ out, r = .ok out → out = messages rows) w := by
  rw [receiveMls]
  apply Proc.under_bind.mpr
  rcases idle_cases m with ⟨e, hidle⟩ | ⟨data, hdata, hidle, hmls⟩
  · rw [hidle]
    exact .inl ⟨⟨e, rfl⟩, rfl, rfl⟩
  rw [hidle]
  apply Proc.under_bind.mpr
  refine Prog.under_mono (request_under (.inl rfl)) (fun _ hd => hd) ?_
  rintro w' r m' ⟨rfl, hdisk, htold⟩
  cases r with
  | error e => exact .inl ⟨⟨e, rfl⟩, rfl, hdisk⟩
  | ok routing =>
      apply Proc.under_bind.mpr
      rw [hmls]
      apply Proc.under_bind.mpr
      apply Proc.under_ofExcept.mpr
      cases howner : ownerOf data conversation ownerDevice routing with
      | error e => exact .inl ⟨⟨e, rfl⟩, rfl, hdisk⟩
      | ok owner =>
          have hrouted : Routed given conversation ownerDevice m' routing owner :=
            ⟨htold routing rfl, data, hdata, howner⟩
          show Prog.under _ _ _ _ (Prog.bind (receiveMlsPages conversation owner routing draw
            maxReceivePages { m' with mlsLastReceiveError := none }) _) w'
          apply Prog.under_bind.mpr
          refine Prog.under_mono (receiveMlsPages_under ⟨.start, hdisk⟩ maxReceivePages)
            (fun d hd => .inr ⟨routing, owner, hrouted, hd⟩) ?_
          rintro w₂ r m₁ ⟨rows, stop, rfl, hgave, hhalted⟩
          -- the message for the user is all that is still written
          cases stop with
          | complete =>
              exact .inr ⟨routing, owner, hrouted, rows, m₁, hhalted, .refl m₁, hgave,
                fun out h => (Except.ok.inj h).symm⟩
          | budget =>
              exact .inr ⟨routing, owner, hrouted, rows, m₁, hhalted, ⟨rfl, rfl, rfl⟩, hgave,
                fun out h => (Except.ok.inj h).symm⟩
          | raised e =>
              dsimp only
              split
              · exact .inr ⟨routing, owner, hrouted, rows, m₁, hhalted, .refl m₁, hgave, nofun⟩
              · exact .inr ⟨routing, owner, hrouted, rows, m₁, hhalted, ⟨rfl, rfl, rfl⟩, hgave,
                  fun out h => (Except.ok.inj h).symm⟩

end Pages

end Scap.Client
