import Scap.Sessions.Sends

/-!
# Messages and everything but sends

Whatever is not a send leaves the messages of a conversation as they are, or they go with it.
-/

namespace Scap.Sessions

open Scap.Lib Scap.E2ee

variable {cfg : Settings} {digest : ReplayPayload → String} {s t u : Store}

/-! ## What else happens to messages -/

/-- The index and the role of the messages of a conversation. -/
def turns (messages : KeyedTable SecureMessage.key) (id : String) : List (Nat × Role) :=
  (messages.rows.filter fun m => m.sessionId = id).map fun m => (m.messageIndex, m.role)

def Store.hasSession (s : Store) (id : String) : Prop := (s.relay.sessions.find? id).isSome

def Housed (s : Store) : Prop := ∀ m ∈ s.messages.rows, s.hasSession m.sessionId

/-- The messages of the conversations that are left are those that they had. -/
structure Carried (s t : Store) : Prop where
  kept : ∀ id, t.hasSession id → turns t.messages id = turns s.messages id
  housed : Housed t

theorem turns_eq_nil {id : String} (hs : Housed s) (hid : ¬ s.hasSession id) :
    turns s.messages id = [] := by
  apply List.map_eq_nil_iff.mpr
  apply List.filter_eq_nil_iff.mpr
  intro m hm hsame
  apply hid
  rw [← of_decide_eq_true hsame]
  exact hs m hm

theorem housed_of_turns (h : ∀ id, turns s.messages id ≠ [] → s.hasSession id) : Housed s := by
  intro m hm
  apply h
  intro hnone
  have hmem : (m.messageIndex, m.role) ∈ turns s.messages m.sessionId :=
    List.mem_map.mpr ⟨m, List.mem_filter.mpr ⟨hm, decide_eq_true rfl⟩, rfl⟩
  rw [hnone] at hmem
  cases hmem

theorem carried_cascade (s : Store) (relay : Relay) : Carried s (cascade s relay) where
  kept := by
    intro id hid
    show ((s.messages.rows.filter _).filter _).map _ = _
    rw [List.filter_filter]
    unfold turns
    congr 1
    apply List.filter_congr
    intro m _
    by_cases hm : m.sessionId = id
    · have hkept : (relay.sessions.find? m.sessionId).isSome = true := hm ▸ hid
      simp [hm, hm ▸ hkept]
    · simp [hm]
  housed m hm := (KeyedTable.mem_filter.mp hm).2

/-- Where no message row and no conversation goes. -/
theorem Carried.of_messages (hs : Housed s) (hmessages : t.messages.rows.map
      (fun m => (m.sessionId, m.messageIndex, m.role)) =
        s.messages.rows.map fun m => (m.sessionId, m.messageIndex, m.role))
    (hsessions : ∀ id, s.hasSession id → t.hasSession id) : Carried s t where
  kept := by
    intro id _
    have hturns (rows : List SecureMessage) :
        (rows.filter fun m => m.sessionId = id).map (fun m => (m.messageIndex, m.role)) =
          ((rows.map fun m => (m.sessionId, m.messageIndex, m.role)).filter
            fun k => k.1 = id).map (·.2) := by
      rw [List.filter_map, List.map_map]
      rfl
    unfold turns
    rw [hturns, hmessages, ← hturns]
  housed := by
    intro m hm
    have hmem : (m.sessionId, m.messageIndex, m.role) ∈
        t.messages.rows.map fun m => (m.sessionId, m.messageIndex, m.role) :=
      List.mem_map.mpr ⟨m, hm, rfl⟩
    rw [hmessages] at hmem
    obtain ⟨n, hn, hsame⟩ := List.mem_map.mp hmem
    rw [← (Prod.mk.inj hsame).1]
    exact hsessions n.sessionId (hs n hn)

theorem Carried.refl (hs : Housed s) : Carried s s := ⟨fun _ _ => rfl, hs⟩

theorem hasSession_setEpoch {r : Relay} {sessionId : String} {epoch : Nat} {id : String}
    (h : (r.sessions.find? id).isSome) :
    ((setEpoch r sessionId epoch).sessions.find? id).isSome := by
  unfold setEpoch
  rw [KeyedTable.find?_modify, Option.isSome_map]
  exact h

theorem hasSession_ensureSessionKey {row row' : ChatSession} {generated : Option WrappedDek}
    {id : String} (h : ensureSessionKey s row generated = .ok (t, row')) (hid : s.hasSession id) :
    t.hasSession id := by
  obtain ⟨-, -, -, -, hrelay, -⟩ := ensureSessionKey_ok h
  unfold Store.hasSession
  rcases hrelay with hrelay | hrelay <;> rw [hrelay]
  · exact hid
  · exact hasSession_setEpoch hid

theorem encryptMessage_ok {row row' : ChatSession} {generated : Option WrappedDek}
    {sealed : Option String} {ciphertext : String}
    (h : encryptMessage s row generated sealed = .ok (t, row', ciphertext)) :
    ensureSessionKey s row generated = .ok (t, row') := by
  unfold encryptMessage at h
  split at h
  · cases h
  · next hkey =>
    split at h
    · cases h
    · cases h
      exact hkey

theorem carried_createSession {userId id : String} {payload : PolicyPayload}
    {refusal : Option HttpError} {generated : Option WrappedDek} (hs : Housed s) :
    Carried s (createSession cfg s userId payload refusal generated id).1 := by
  unfold createSession
  split
  · exact .refl hs
  · split
    · exact .refl hs
    · next relay row hcreate =>
      obtain ⟨-, -, -, hsessions, -⟩ := createSession_ok hcreate
      have hkept (i : String) (hi : s.hasSession i) :
          ({ s with relay := relay } : Store).hasSession i := by
        obtain ⟨c, hfind⟩ := Option.isSome_iff_exists.mp hi
        obtain ⟨hc, rfl⟩ := KeyedTable.find?_eq_some hfind
        show (relay.sessions.find? c.id).isSome = true
        rw [hsessions, KeyedTable.find?_of_mem (KeyedTable.mem_insertNew_of_mem hc)]
        rfl
      dsimp only
      split
      · exact .of_messages hs rfl hkept
      · split
        · exact .refl hs
        · next hkey =>
          obtain ⟨-, -, -, hmessages, -⟩ := ensureSessionKey_ok hkey
          apply Carried.of_messages hs (by rw [hmessages])
          intro i hi
          exact hasSession_ensureSessionKey hkey (hkept i hi)

/-- A new policy leaves every conversation where it is. -/
theorem hasSession_repoliced {r r' : Relay} {userId sessionId classification id : String}
    {mode : SecurityMode} {hasMessages : Bool} {refusal : Option HttpError}
    (h : E2ee.updateSessionSecurity cfg r userId sessionId mode classification hasMessages refusal =
      (r', .ok ())) (hid : (r.sessions.find? id).isSome) : (r'.sessions.find? id).isSome := by
  unfold E2ee.updateSessionSecurity at h
  split at h
  · cases h
  · next row howned =>
    obtain ⟨rfl, -⟩ := requireOwnedSession_ok howned
    dsimp only at h
    split at h
    · cases h
    · split at h
      · cases h
      · cases h
        unfold relabel
        rw [KeyedTable.find?_modify, Option.isSome_map]
        unfold switchMode
        split
        · exact hid
        · rw [KeyedTable.find?_modify, Option.isSome_map]
          exact hid

theorem carried_updateSessionSecurity {userId sessionId : String} {payload : PolicyPayload}
    {refusal : Option HttpError} {generated : Option WrappedDek} (hs : Housed s) :
    Carried s (updateSessionSecurity cfg s userId sessionId payload refusal generated).1 := by
  unfold updateSessionSecurity
  split
  · exact .refl hs
  · split
    · exact .refl hs
    · exact carried_cascade s _
    · next row relay _ hupdate =>
      have hkept (id : String) (hid : s.hasSession id) :
          ({ s with relay := relay } : Store).hasSession id := hasSession_repoliced hupdate hid
      dsimp only
      split
      · exact .of_messages hs rfl hkept
      · split
        · exact .of_messages hs rfl hkept
        · split
          · split
            · exact .refl hs
            · next hkey =>
              obtain ⟨-, -, -, hmessages, -⟩ := ensureSessionKey_ok hkey
              apply Carried.of_messages hs (by rw [hmessages])
              intro id hid
              exact hasSession_ensureSessionKey hkey (hkept id hid)
          · exact .of_messages hs rfl hkept

theorem carried_migrateLegacyMessage {m : SecureMessage} {generated : Option WrappedDek}
    {sealed : Option String} (hs : Housed s) :
    Carried s (migrateLegacyMessage s m generated sealed) := by
  unfold migrateLegacyMessage
  split
  · split
    · exact .refl hs
    · split
      · exact .refl hs
      · next hencrypt =>
        have hkey := encryptMessage_ok hencrypt
        obtain ⟨-, -, -, hmessages, -⟩ := ensureSessionKey_ok hkey
        have hkept (id : String) (hid : s.hasSession id) := hasSession_ensureSessionKey hkey hid
        refine Carried.of_messages hs ?_ hkept
        simp only [KeyedTable.modify, List.map_map, hmessages]
        apply List.map_congr_left
        intro x _
        dsimp only [Function.comp_apply]
        split <;> rfl
  · exact .refl hs

theorem carried_rewrapSessionKeys {sessionId : String} {rewrap : WrappedDek → WrappedDek}
    (hs : Housed s) : Carried s (rewrapSessionKeys s sessionId rewrap) := by
  unfold rewrapSessionKeys
  dsimp only
  repeat' split
  all_goals exact .of_messages hs rfl fun _ hid => hid

theorem carried_exportSession {userId sessionId : String} {refusal : Option HttpError}
    (hs : Housed s) : Carried s (exportSession cfg s userId sessionId refusal).1 := by
  unfold exportSession
  split
  · exact carried_cascade s _
  · exact .refl hs

/-- **Only sends create messages, and only the end of a conversation takes them away.** -/
theorem carried_of_step {a : Action} (hs : Housed s) (ha : sendsMessage a = false)
    (h : stepStore cfg digest s a = some t) : Carried s t := by
  cases a with
  | sendMessage => cases ha
  | relay a =>
      simp only [stepStore] at h
      split at h
      · cases h
      · obtain ⟨relay, -, rfl⟩ := Option.map_eq_some_iff.mp h
        exact carried_cascade s relay
  | createSession userId payload refusal generated id =>
      obtain ⟨-, rfl⟩ := of_guarded h
      exact carried_createSession hs
  | updateSecurity userId sessionId payload refusal generated =>
      exact Option.some.inj h ▸ carried_updateSessionSecurity hs
  | exportSession userId sessionId refusal => exact Option.some.inj h ▸ carried_exportSession hs
  | migrateMessage m generated sealed => exact Option.some.inj h ▸ carried_migrateLegacyMessage hs
  | rewrapKeys sessionId rewrap => exact Option.some.inj h ▸ carried_rewrapSessionKeys hs

end Scap.Sessions
