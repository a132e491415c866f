import Scap.E2ee.Envelopes

/-!
# Epochs

`Advances`: epochs never fall and rise with every change of an active membership, except where a
conversation without content changes its trust boundary. A revoked device is never trusted again,
and its revocation advances every conversation its account takes part in.
-/

namespace Scap.E2ee

open Scap.Lib

variable {cfg : Settings} {digest : ReplayPayload → String} {s t : Relay} {a : Action}

/-! ## Epochs and memberships -/

/-- The action that may set the epoch of a conversation back. -/
def Switches (sessionId : String) : Action → Prop
  | .updateSecurity _ id _ _ _ _ => id = sessionId
  | _ => False

/-- Every conversation of `t` that `s` has as well has an epoch at least as high, and a higher one
if an active membership of it is not what it was. -/
structure Advances (a : Action) (s t : Relay) : Prop where
  drawn : s.drawn ⊆ t.drawn
  epoch : ∀ row' ∈ t.sessions.rows, ¬ Switches row'.id a → row'.id ∉ s.drawn ∨
    ∃ row ∈ s.sessions.rows, row.id = row'.id ∧
      row.currentCryptoEpoch ≤ row'.currentCryptoEpoch ∧
      ((∃ u, s.activeMember? row.id u ≠ t.activeMember? row.id u) →
        row.currentCryptoEpoch < row'.currentCryptoEpoch)

theorem Advances.refl (s : Relay) : Advances a s s :=
  ⟨List.Subset.refl _, fun row hrow _ => .inr ⟨row, hrow, rfl, le_refl _, fun ⟨_, h⟩ => absurd rfl h⟩⟩

theorem Advances.trans {u : Relay} (h₁ : Advances a s t) (h₂ : Advances a t u) :
    Advances a s u := by
  refine ⟨List.Subset.trans h₁.drawn h₂.drawn, fun w hw hswitch => ?_⟩
  rcases h₂.epoch w hw hswitch with hnew | ⟨v, hv, hvw, hle₂, hlt₂⟩
  · exact .inl fun h => hnew (h₁.drawn h)
  · rcases h₁.epoch v hv (hvw ▸ hswitch) with hnew | ⟨x, hx, hxv, hle₁, hlt₁⟩
    · exact .inl (hvw ▸ hnew)
    · refine .inr ⟨x, hx, hxv.trans hvw, hle₁.trans hle₂, fun ⟨user, hchange⟩ => ?_⟩
      -- the membership changed on one of the two ways
      by_cases hfirst : s.activeMember? x.id user = t.activeMember? x.id user
      · have hsecond : t.activeMember? v.id user ≠ u.activeMember? v.id user := by
          rwa [← hxv, ← hfirst]
        exact lt_of_le_of_lt hle₁ (hlt₂ ⟨user, hsecond⟩)
      · exact lt_of_lt_of_le (hlt₁ ⟨user, hfirst⟩) hle₂

/-- An effect that leaves epochs and memberships alone. -/
theorem Advances.of_rows (hdrawn : s.drawn ⊆ t.drawn)
    (hrows : ∀ row' ∈ t.sessions.rows, row'.id ∉ s.drawn ∨ ∃ row ∈ s.sessions.rows,
      row.id = row'.id ∧ row.currentCryptoEpoch ≤ row'.currentCryptoEpoch ∧
        ∀ u, s.activeMember? row.id u = t.activeMember? row.id u) : Advances a s t := by
  refine ⟨hdrawn, fun row' hrow' _ => ?_⟩
  rcases hrows row' hrow' with hnew | ⟨row, hrow, hid, hle, hmember⟩
  · exact .inl hnew
  · exact .inr ⟨row, hrow, hid, hle, fun ⟨u, hchange⟩ => absurd (hmember u) hchange⟩

theorem activeMember?_congr {sessionId userId : String}
    (h : ∀ m : ConversationMember, m.key = toLex (sessionId, userId) →
      (m ∈ s.members.rows ↔ m ∈ t.members.rows)) :
    s.activeMember? sessionId userId = t.activeMember? sessionId userId := by
  apply Option.ext
  intro m
  rw [activeMember?_eq_some, activeMember?_eq_some]
  constructor
  · rintro ⟨hm, hsession, huser, hactive⟩
    have hkey := ConversationMember.key_eq.mpr ⟨hsession, huser⟩
    exact ⟨(h m hkey).mp hm, hsession, huser, hactive⟩
  · rintro ⟨hm, hsession, huser, hactive⟩
    have hkey := ConversationMember.key_eq.mpr ⟨hsession, huser⟩
    exact ⟨(h m hkey).mpr hm, hsession, huser, hactive⟩

theorem mem_advanceEpoch {sessionId : String} {x : ChatSession}
    (h : x ∈ (advanceEpoch s sessionId).sessions.rows) :
    ∃ r ∈ s.sessions.rows, r.id = x.id ∧ x.currentCryptoEpoch =
      if r.id = sessionId then r.currentCryptoEpoch + 1 else r.currentCryptoEpoch := by
  obtain ⟨r, hr, rfl⟩ := List.mem_map.mp h
  refine ⟨r, hr, ?_⟩
  split
  · exact ⟨rfl, rfl⟩
  · exact ⟨rfl, rfl⟩

/-- An effect on one conversation that advances its epoch. -/
theorem Advances.of_advanced (sessionId : String) (hdrawn : s.drawn ⊆ t.drawn)
    (hsessions : t.sessions = (advanceEpoch s sessionId).sessions)
    (hmembers : ∀ m : ConversationMember, m.sessionId ≠ sessionId →
      (m ∈ s.members.rows ↔ m ∈ t.members.rows)) : Advances a s t := by
  refine ⟨hdrawn, fun x hx _ => .inr ?_⟩
  rw [hsessions] at hx
  obtain ⟨r, hr, hid, hepoch⟩ := mem_advanceEpoch hx
  refine ⟨r, hr, hid, ?_, fun ⟨u, hchange⟩ => ?_⟩
  · rw [hepoch]
    split <;> omega
  · by_cases hsession : r.id = sessionId
    · rw [hepoch, if_pos hsession]
      omega
    · apply absurd (activeMember?_congr fun m hm => hmembers m ?_) hchange
      rw [(ConversationMember.key_eq.mp hm).1]
      exact hsession

theorem mem_map_of_ne {rows : List ConversationMember}
    {f : ConversationMember → ConversationMember} {key : String ×ₗ String}
    {m : ConversationMember} (hkey : ∀ x, (f x).key = x.key)
    (hfix : ∀ x : ConversationMember, x.key ≠ key → f x = x) (hne : m.key ≠ key) :
    m ∈ rows.map f ↔ m ∈ rows := by
  constructor
  · intro hm
    obtain ⟨x, hx, rfl⟩ := List.mem_map.mp hm
    have hxne : x.key ≠ key := by rwa [hkey] at hne
    rwa [hfix x hxne]
  · exact fun hm => List.mem_map.mpr ⟨m, hm, hfix m hne⟩

theorem key_ne {m : ConversationMember} {sessionId userId : String}
    (h : m.sessionId ≠ sessionId) : m.key ≠ toLex (sessionId, userId) :=
  fun hkey => h (ConversationMember.key_eq.mp hkey).1

theorem mem_insertNew_of_ne {members : KeyedTable ConversationMember.key}
    {new m : ConversationMember} (hne : m ≠ new) :
    m ∈ (members.insertNew new).rows ↔ m ∈ members.rows :=
  ⟨fun h => (KeyedTable.mem_insertNew_or h).resolve_left hne, KeyedTable.mem_insertNew_of_mem⟩

/-- An effect changes the active members of a conversation only together with its epoch. -/
theorem advances_effect (h : Effect a s t) : Advances a s t := by
  have hsame : ∀ row' ∈ s.sessions.rows, row'.id ∉ s.drawn ∨ ∃ row ∈ s.sessions.rows,
      row.id = row'.id ∧ row.currentCryptoEpoch ≤ row'.currentCryptoEpoch ∧
        ∀ u, s.activeMember? row.id u = s.activeMember? row.id u :=
    fun row hrow => .inr ⟨row, hrow, rfl, le_refl _, fun _ => rfl⟩
  cases h with
  | register id username mfaEnabled hfresh =>
      exact .of_rows (List.subset_cons_self _ _) hsame
  | createSession userId classification refusal row hfresh ha =>
      refine .of_rows (List.subset_cons_self _ _) fun row' hrow' => ?_
      -- a created conversation is a new one: its id was not drawn before
      by_cases hid : row'.id = row.id
      · exact .inl (hid ▸ hfresh)
      · have hold : row' ∈ s.sessions.rows := by
          rcases KeyedTable.mem_insertNew_or hrow' with rfl | hold
          · exact absurd rfl hid
          · exact hold
        refine .inr ⟨row', hold, rfl, le_refl _, fun u => activeMember?_congr fun m hm => ?_⟩
        dsimp only
        split
        · refine (mem_insertNew_of_ne ?_).symm
          rintro rfl
          exact key_ne (Ne.symm hid) hm
        · exact Iff.rfl
  | dropSession sessionId =>
      refine .of_rows (List.Subset.refl _) fun row' hrow' => ?_
      obtain ⟨hold, hne⟩ := KeyedTable.mem_filter.mp hrow'
      refine .inr ⟨row', hold, rfl, le_refl _, fun u => activeMember?_congr fun m hm => ?_⟩
      refine ⟨fun h => KeyedTable.mem_filter.mpr ⟨h, ?_⟩, fun h => (KeyedTable.mem_filter.mp h).1⟩
      rwa [(ConversationMember.key_eq.mp hm).1]
  | switchMode row mode classification hasMessages refusal hrow hempty ha =>
      subst ha
      unfold switchMode
      split
      · exact .refl s
      · refine ⟨List.Subset.refl _, fun row' hrow' hswitch => .inr ?_⟩
        obtain ⟨r, hr, rfl⟩ := List.mem_map.mp hrow'
        -- of the conversation whose mode changes nothing is promised, and no other is touched
        have hne : r.id ≠ row.id := by
          intro hid
          apply hswitch
          show row.id = _
          rw [if_pos hid, hid]
        rw [if_neg hne]
        refine ⟨r, hr, rfl, le_refl _, ?_⟩
        rintro ⟨u, hchange⟩
        apply absurd (activeMember?_congr fun m hm => ?_) hchange
        have hsession := (ConversationMember.key_eq.mp hm).1
        dsimp only
        split
        · refine (mem_insertNew_of_ne ?_).symm
          rintro rfl
          exact hne hsession.symm
        · split
          · refine ⟨fun h => KeyedTable.mem_filter.mpr ⟨h, ?_⟩,
              fun h => (KeyedTable.mem_filter.mp h).1⟩
            rw [hsession]
            simpa using hne
          · exact Iff.rfl
  | relabel row classification deadline =>
      refine .of_rows (List.Subset.refl _) fun row' hrow' => ?_
      obtain ⟨r, hr, rfl⟩ := List.mem_map.mp hrow'
      refine .inr ⟨r, hr, ?_⟩
      split <;> exact ⟨rfl, le_refl _, fun _ => rfl⟩
  | beginMembership ownerId refusal row target hrow htarget hinactive ha =>
      refine .of_advanced row.id (List.Subset.refl _) rfl fun m hm => ?_
      refine Iff.trans ?_ (mem_insertNew_of_ne ?_).symm
      · refine (mem_map_of_ne (fun x => ?_) (fun x hx => if_neg hx) (key_ne hm)).symm
        split <;> rfl
      · rintro rfl
        exact hm rfl
  | endMembership row userId hrow =>
      refine .of_advanced row.id (List.Subset.refl _) rfl fun m hm => ?_
      refine (mem_map_of_ne (fun x => ?_) (fun x hx => if_neg hx) (key_ne hm)).symm
      split <;> rfl
  | advanceEpoch sessionId =>
      exact .of_advanced sessionId (List.Subset.refl _) rfl fun m _ => Iff.rfl
  | _ => exact .of_rows (List.Subset.refl _) hsame

theorem advances_effects (h : Effects a s t) : Advances a s t := by
  induction h with
  | refl => exact .refl _
  | tail _ hlast ih => exact ih.trans (advances_effect hlast)

theorem advances_change (h : Change a s t) : Advances a s t := by
  have hsame : Advances a s s := .refl s
  cases h with
  | control heffects => exact advances_effects heffects
  | addDevice device keys hnew hkeys => exact ⟨hsame.drawn, hsame.epoch⟩
  | upload userId deviceId raw keys refusal hupload ha =>
      exact ⟨hsame.drawn, hsame.epoch⟩
  | handOut candidate hmem hleft => exact ⟨hsame.drawn, hsame.epoch⟩
  | store userId sessionId p refusal e hunder hfresh hnow hreplay ha =>
      exact ⟨List.subset_cons_self _ _, hsame.epoch⟩
  | sweep heffects prekeyIds =>
      have hcontrol := advances_effects heffects
      exact ⟨hcontrol.drawn, hcontrol.epoch⟩

/-! ## Devices -/

/-- The device is known and not trusted. -/
def Distrusted (s : Relay) (deviceId : String) : Prop :=
  ∃ d ∈ s.devices.rows, d.id = deviceId ∧ d.trusted = false

theorem distrusted_effect {deviceId : String} (h : Effect a s t) (hs : Distrusted s deviceId) :
    Distrusted t deviceId := by
  cases h with
  | switchMode row mode classification hasMessages refusal hrow hempty ha =>
      unfold switchMode
      split <;> exact hs
  | distrust revoked =>
      obtain ⟨d, hd, hid, htrusted⟩ := hs
      refine ⟨_, List.mem_map_of_mem hd, ?_⟩
      split
      · exact ⟨hid, rfl⟩
      · exact ⟨hid, htrusted⟩
  | _ => exact hs

theorem distrusted_effects {deviceId : String} (h : Effects a s t) (hs : Distrusted s deviceId) :
    Distrusted t deviceId := by
  induction h with
  | refl => exact hs
  | tail _ hlast ih => exact distrusted_effect hlast ih

theorem distrusted_change {deviceId : String} (h : Change a s t) (hs : Distrusted s deviceId) :
    Distrusted t deviceId := by
  cases h with
  | control heffects => exact distrusted_effects heffects hs
  | addDevice device keys hnew hkeys =>
      obtain ⟨d, hd, hd'⟩ := hs
      exact ⟨d, KeyedTable.mem_insertNew_of_mem hd, hd'⟩
  | sweep heffects prekeyIds =>
      obtain ⟨d, hd, hd'⟩ := distrusted_effects heffects hs
      exact ⟨d, hd, hd'⟩
  | _ => exact hs

theorem mem_advanceEpoch_of_mem (sessionId : String) {r : ChatSession} (hr : r ∈ s.sessions.rows) :
    ∃ x ∈ (advanceEpoch s sessionId).sessions.rows, x.id = r.id ∧
      x.securityMode = r.securityMode ∧ r.currentCryptoEpoch ≤ x.currentCryptoEpoch ∧
      (r.id = sessionId → r.currentCryptoEpoch < x.currentCryptoEpoch) := by
  refine ⟨_, List.mem_map_of_mem hr, ?_⟩
  split
  · exact ⟨rfl, rfl, Nat.le_succ _, fun _ => Nat.lt_succ_self _⟩
  · next hne => exact ⟨rfl, rfl, le_refl _, fun h => absurd h hne⟩

/-- One turn of the loop leaves memberships alone, and its own conversation advances if the account
is an active member. -/
theorem ifStillActive_advance (userId sessionId : String) {r : ChatSession}
    (hr : r ∈ s.sessions.rows) :
    let u := ifStillActive (fun s row => advanceEpoch s row.id) userId s sessionId
    u.members = s.members ∧ ∃ x ∈ u.sessions.rows, x.id = r.id ∧
      x.securityMode = r.securityMode ∧ r.currentCryptoEpoch ≤ x.currentCryptoEpoch ∧
      (r.id = sessionId → r.securityMode = .privateE2ee →
        (s.activeMember? sessionId userId).isSome = true →
        r.currentCryptoEpoch < x.currentCryptoEpoch) := by
  unfold ifStillActive
  split
  · next row m hrow hm =>
    obtain ⟨hmem, hid⟩ := KeyedTable.find?_eq_some hrow
    split
    · obtain ⟨x, hx, hxr, hmode, hle, hlt⟩ := mem_advanceEpoch_of_mem row.id hr
      exact ⟨rfl, x, hx, hxr, hmode, hle, fun h _ _ => hlt (h.trans hid.symm)⟩
    · next hplain =>
      refine ⟨rfl, r, hr, rfl, rfl, le_refl _, fun h hprivate _ => ?_⟩
      rw [KeyedTable.eq_of_key hr hmem (h.trans hid.symm)] at hprivate
      exact absurd hprivate hplain
  · next hnone =>
    refine ⟨rfl, r, hr, rfl, rfl, le_refl _, fun h _ hactive => ?_⟩
    obtain ⟨m, hm⟩ := Option.isSome_iff_exists.mp hactive
    exact absurd hm (hnone r m (KeyedTable.find?_iff.mpr ⟨hr, h⟩))

/-- The loop advances every conversation on its list. -/
theorem advances_loop (userId : String) (is : List String) {s : Relay} {r : ChatSession}
    (hr : r ∈ s.sessions.rows) :
    ∃ x ∈ (is.foldl (ifStillActive (fun s row => advanceEpoch s row.id) userId) s).sessions.rows,
      x.id = r.id ∧ r.currentCryptoEpoch ≤ x.currentCryptoEpoch ∧
      (r.id ∈ is → r.securityMode = .privateE2ee →
        (s.activeMember? r.id userId).isSome = true →
        r.currentCryptoEpoch < x.currentCryptoEpoch) := by
  induction is generalizing s r with
  | nil => exact ⟨r, hr, rfl, le_refl _, fun h => absurd h List.not_mem_nil⟩
  | cons i is ih =>
      obtain ⟨hmembers, y, hy, hyr, hymode, hyle, hylt⟩ :=
        ifStillActive_advance userId i hr
      obtain ⟨x, hx, hxy, hxle, hxlt⟩ := ih hy
      refine ⟨x, hx, hxy.trans hyr, hyle.trans hxle, fun hi hprivate hactive => ?_⟩
      by_cases hhead : r.id = i
      · exact lt_of_lt_of_le (hylt hhead hprivate (hhead ▸ hactive)) hxle
      · have hrest : y.id ∈ is := hyr ▸ (List.mem_cons.mp hi).resolve_left hhead
        refine lt_of_le_of_lt hyle (hxlt hrest (hymode.trans hprivate) ?_)
        rwa [Relay.activeMember?, hmembers, hyr]

theorem advances_advanceActiveEpochs {userId : String} {row : ChatSession}
    (hrow : row ∈ s.sessions.rows) (hprivate : row.securityMode = .privateE2ee)
    (hactive : (s.activeMember? row.id userId).isSome = true) :
    ∃ row' ∈ (advanceActiveEpochs s userId).sessions.rows, row'.id = row.id ∧
      row.currentCryptoEpoch < row'.currentCryptoEpoch := by
  obtain ⟨m, hm⟩ := Option.isSome_iff_exists.mp hactive
  obtain ⟨hmrow, hmsession, hmuser, hmactive⟩ := activeMember?_eq_some.mp hm
  obtain ⟨x, hx, hxr, -, hlt⟩ := advances_loop userId (activePrivateSessions s userId) hrow
  refine ⟨x, hx, hxr, hlt ?_ hprivate hactive⟩
  refine List.mem_map.mpr ⟨m, List.mem_filter.mpr ⟨hmrow, ?_⟩, hmsession⟩
  have hfind : s.sessions.find? m.sessionId = some row :=
    KeyedTable.find?_iff.mpr ⟨hrow, hmsession.symm⟩
  simp [hmuser, hmactive, hfind, hprivate]

/-- A revoked device leaves every conversation of its account in a later epoch. -/
theorem revokeE2eeDevice_ok {userId deviceId : String} {refusal : Option HttpError}
    (h : revokeE2eeDevice s userId deviceId refusal = (t, .ok ())) :
    Distrusted t deviceId ∧
      ∀ row ∈ s.sessions.rows, row.securityMode = .privateE2ee →
        (s.activeMember? row.id userId).isSome = true →
        ∃ row' ∈ t.sessions.rows, row'.id = row.id ∧
          row.currentCryptoEpoch < row'.currentCryptoEpoch := by
  unfold revokeE2eeDevice at h
  split at h
  · cases h
  · next u hlock =>
    obtain ⟨-, hu, -⟩ := lockRequestMutation_ok hlock
    obtain rfl := (KeyedTable.find?_eq_some hu).2
    split at h
    · cases h
    · next device hdevice =>
      obtain ⟨hdevice, -⟩ := Option.filter_eq_some_iff.mp hdevice
      obtain ⟨hmem, rfl, -⟩ := trustedDevice?_eq_some.mp hdevice
      split at h
      · cases h
      · obtain ⟨rfl, -⟩ := Prod.mk.inj h
        refine ⟨?_, fun row hrow hprivate hactive => ?_⟩
        · refine distrusted_effects (a := .tick 0) effects_advanceActiveEpochs
            ⟨_, List.mem_map_of_mem hmem, ?_⟩
          rw [if_pos rfl]
          exact ⟨rfl, rfl⟩
        · exact advances_advanceActiveEpochs hrow hprivate hactive

end Scap.E2ee
