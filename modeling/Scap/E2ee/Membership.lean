import Scap.E2ee.Epochs

/-!
# Members

`inactive_change`: who is out stays out until added again.
`e2ee_membership_epoch_invariant` is what follows for runs about members, devices and epochs.
-/

namespace Scap.E2ee

open Scap.Lib

variable {cfg : Settings} {digest : ReplayPayload → String} {s t : Relay} {a : Action}

/-! ## Who is out stays out -/

/-- The account's identifier is drawn, and its name is `user.username`. -/
structure Named (user : Account) (s : Relay) : Prop where
  drawn : user.id ∈ s.drawn
  name : ∀ v ∈ s.users.rows, v.id = user.id → v.username = user.username

theorem named_effect {user : Account} (h : Effect a s t) (hs : Named user s) : Named user t := by
  have hdrawn := (advances_effect h).drawn hs.drawn
  cases h with
  | register id username mfaEnabled hfresh =>
      refine ⟨hdrawn, fun v hv hid => ?_⟩
      rcases KeyedTable.mem_insertNew_or hv with rfl | hv
      · have hid : id = user.id := hid
        exact absurd (hid ▸ hs.drawn) hfresh
      · exact hs.name v hv hid
  | setAccount f hid hname =>
      refine ⟨hdrawn, fun v hv hv' => ?_⟩
      obtain ⟨u, hu, rfl⟩ := List.mem_map.mp hv
      rw [hname]
      exact hs.name u hu ((hid u).symm.trans hv')
  | switchMode row mode classification hasMessages refusal hrow hempty ha =>
      refine ⟨hdrawn, ?_⟩
      unfold switchMode
      split <;> exact hs.name
  | _ => exact ⟨hdrawn, hs.name⟩

theorem named_effects {user : Account} (h : Effects a s t) (hs : Named user s) :
    Named user t := by
  induction h with
  | refl => exact hs
  | tail _ hlast ih => exact named_effect hlast ih

theorem named_change {user : Account} (h : Change a s t) (hs : Named user s) : Named user t := by
  have hdrawn := (advances_change h).drawn hs.drawn
  cases h with
  | control heffects => exact named_effects heffects hs
  | sweep heffects prekeyIds => exact ⟨hdrawn, (named_effects heffects hs).name⟩
  | _ => exact ⟨hdrawn, hs.name⟩

/-- The actions that make the account an active member of the conversation. -/
def Admits (user : Account) (sessionId : String) : Action → Prop
  | .createSession userId .privateE2ee _ _ id => userId = user.id ∧ id = sessionId
  | .updateSecurity userId id .privateE2ee _ _ _ => userId = user.id ∧ id = sessionId
  | .addMember _ id username _ => username = user.username ∧ id = sessionId
  | _ => False

theorem activeMember?_eq_none {sessionId userId : String} :
    s.activeMember? sessionId userId = none ↔
      ∀ m ∈ s.members.rows, m.sessionId = sessionId → m.userId = userId → m.removedAt ≠ none := by
  rw [Option.eq_none_iff_forall_ne_some]
  constructor
  · intro h m hm hsession huser hactive
    exact h m (activeMember?_eq_some.mpr ⟨hm, hsession, huser, hactive⟩)
  · intro h m hsome
    obtain ⟨hm, hsession, huser, hactive⟩ := activeMember?_eq_some.mp hsome
    exact h m hm hsession huser hactive

/-- Only an action that admits an account makes it an active member. -/
theorem inactive_effect {user : Account} {sessionId : String} (h : Effect a s t)
    (hnamed : Named user s) (hnot : ¬ Admits user sessionId a)
    (hs : s.activeMember? sessionId user.id = none) :
    t.activeMember? sessionId user.id = none := by
  rw [activeMember?_eq_none] at hs ⊢
  cases h with
  | createSession userId classification refusal row hfresh ha =>
      intro m hm hsession huser
      dsimp only at hm
      split at hm
      · next hprivate =>
        rcases KeyedTable.mem_insertNew_or hm with rfl | hm
        · apply absurd _ hnot
          rw [ha, hprivate]
          exact ⟨huser, hsession⟩
        · exact hs m hm hsession huser
      · exact hs m hm hsession huser
  | dropSession dropped =>
      intro m hm
      exact hs m (KeyedTable.mem_filter.mp hm).1
  | switchMode row mode classification hasMessages refusal hrow hempty ha =>
      unfold switchMode
      split
      · exact hs
      · intro m hm hsession huser
        dsimp only at hm
        split at hm
        · next hprivate =>
          rcases KeyedTable.mem_insertNew_or hm with rfl | hm
          · apply absurd _ hnot
            rw [ha, hprivate]
            exact ⟨huser, hsession⟩
          · exact hs m hm hsession huser
        · split at hm
          · exact hs m (KeyedTable.mem_filter.mp hm).1 hsession huser
          · exact hs m hm hsession huser
  | beginMembership ownerId refusal row target hrow htarget hnone ha =>
      -- the new member has another name, so it is another account
      have hother : row.id = sessionId → target.id ≠ user.id := by
        intro hsession hid
        apply hnot
        rw [ha]
        exact ⟨hnamed.name target (userByName?_eq_some htarget).1 hid, hsession⟩
      intro m hm hsession huser
      rcases KeyedTable.mem_insertNew_or hm with rfl | hm
      · exact absurd huser (hother hsession)
      · obtain ⟨x, hx, rfl⟩ := List.mem_map.mp hm
        by_cases hkey : x.key = toLex (row.id, target.id)
        · obtain ⟨hxsession, hxuser⟩ := ConversationMember.key_eq.mp hkey
          rw [if_pos hkey] at hsession huser
          exact absurd (hxuser.symm.trans huser) (hother (hxsession.symm.trans hsession))
        · rw [if_neg hkey] at hsession huser ⊢
          exact hs x hx hsession huser
  | endMembership row userId hrow =>
      intro m hm hsession huser
      obtain ⟨x, hx, rfl⟩ := List.mem_map.mp hm
      by_cases hkey : x.key = toLex (row.id, userId)
      · rw [if_pos hkey]
        exact Option.some_ne_none _
      · rw [if_neg hkey] at hsession huser ⊢
        exact hs x hx hsession huser
  | _ => exact hs

theorem inactive_effects {user : Account} {sessionId : String} (h : Effects a s t)
    (hnamed : Named user s) (hnot : ¬ Admits user sessionId a)
    (hs : s.activeMember? sessionId user.id = none) :
    t.activeMember? sessionId user.id = none := by
  induction h with
  | refl => exact hs
  | tail hfirst hlast ih => exact inactive_effect hlast (named_effects hfirst hnamed) hnot ih

theorem inactive_change {user : Account} {sessionId : String} (h : Change a s t)
    (hnamed : Named user s) (hnot : ¬ Admits user sessionId a)
    (hs : s.activeMember? sessionId user.id = none) :
    t.activeMember? sessionId user.id = none := by
  cases h with
  | control heffects => exact inactive_effects heffects hnamed hnot hs
  | sweep heffects prekeyIds =>
      have hcontrol := inactive_effects heffects hnamed hnot hs
      exact hcontrol
  | _ => exact hs

/-! ## The invariant -/

/-- What a page of envelopes contains. -/
theorem receiveE2eeEnvelopes_ok {userId sessionId deviceId : String} {after : Option Int}
    {afterId : Option String} {limit : Nat} {refusal : Option HttpError}
    {page : List E2eeEnvelope}
    (h : receiveE2eeEnvelopes cfg s userId sessionId deviceId after afterId limit refusal =
      (t, .ok page)) :
    ∃ m, s.activeMember? sessionId userId = some m ∧
      (∃ d ∈ s.devices.rows, d.id = deviceId ∧ d.userId = userId ∧ d.trusted = true) ∧
      ∀ e ∈ page, e ∈ s.envelopes.rows ∧ servedTo m deviceId e = true := by
  unfold receiveE2eeEnvelopes at h
  split at h
  · cases h
  · next row m hmember =>
    obtain ⟨rfl, -, -, -, -, -, hm⟩ := requirePrivateMemberSession_ok hmember
    split at h
    · cases h
    · next d hdevice =>
      obtain ⟨hdevice, howner⟩ := Option.filter_eq_some_iff.mp hdevice
      obtain ⟨hd, rfl, htrusted⟩ := trustedDevice?_eq_some.mp hdevice
      refine ⟨m, hm, ⟨d, hd, rfl, by simpa using howner, htrusted⟩, ?_⟩
      have hpage : ∀ e ∈ page, e ∈ s.envelopes.rows.filter (servedTo m d.id) := by
        dsimp only at h
        split at h
        · obtain ⟨-, hok⟩ := Prod.mk.inj h
          exact Except.ok.inj hok ▸ fun e he => List.mem_of_mem_take he
        · cases h
        · split at h
          · cases h
          · obtain ⟨-, hok⟩ := Prod.mk.inj h
            exact Except.ok.inj hok ▸
              fun e he => (List.mem_filter.mp (List.mem_of_mem_take he)).1
        · split at h
          · cases h
          · obtain ⟨-, hok⟩ := Prod.mk.inj h
            exact Except.ok.inj hok ▸
              fun e he => (List.mem_filter.mp (List.mem_of_mem_take he)).1
      exact fun e he => List.mem_filter.mp (hpage e he)

/-- **Members, devices and epochs.** Every stored envelope was stored in a step of the run before
which its sender was an active member, its device trusted and its epoch the conversation's, not
below the sender's join. A step that changes an active membership advances the epoch, and so does
the revocation of a device of an active member; only a change of trust boundary, which needs a
conversation without envelopes, may set an epoch back. Whoever is not an active member has no
further envelope stored before an action that admits them again, a revoked device never has, and
what a device is served is not older than its member's current join. -/
theorem e2ee_membership_epoch_invariant (cfg : Settings) (digest : ReplayPayload → String)
    (s : Relay) (h : (relaySystem cfg digest).Reachable s) :
    (∀ e ∈ s.envelopes.rows, ∃ p a q as, (relaySystem cfg digest).Reachable p ∧
      (relaySystem cfg digest).step p a q ∧ (relaySystem cfg digest).Run q as s ∧
      e ∉ p.envelopes.rows ∧ e ∈ q.envelopes.rows ∧ StoredUnder p e) ∧
    (∀ a t, (relaySystem cfg digest).step s a t → ∀ row ∈ s.sessions.rows,
      ∀ row' ∈ t.sessions.rows, row'.id = row.id → ¬ Switches row.id a →
      row.currentCryptoEpoch ≤ row'.currentCryptoEpoch ∧
        ∀ user, s.activeMember? row.id user ≠ t.activeMember? row.id user →
          row.currentCryptoEpoch < row'.currentCryptoEpoch) ∧
    (∀ userId deviceId refusal t, revokeE2eeDevice s userId deviceId refusal = (t, .ok ()) →
      ∀ row ∈ s.sessions.rows, row.securityMode = .privateE2ee →
        (s.activeMember? row.id userId).isSome = true →
        ∃ row' ∈ t.sessions.rows, row'.id = row.id ∧
          row.currentCryptoEpoch < row'.currentCryptoEpoch) ∧
    (∀ user ∈ s.users.rows, ∀ sessionId, s.activeMember? sessionId user.id = none →
      ∀ as t, (relaySystem cfg digest).Run s as t → ∀ a u, (relaySystem cfg digest).step t a u →
      ∀ e ∈ u.envelopes.rows, e ∉ t.envelopes.rows → e.sessionId = sessionId →
      e.senderUserId = user.id →
      ∃ bs p b q cs, as = bs ++ b :: cs ∧ (relaySystem cfg digest).Run s bs p ∧
        (relaySystem cfg digest).step p b q ∧ (relaySystem cfg digest).Run q cs t ∧
        Admits user sessionId b ∧ p.activeMember? sessionId user.id = none ∧
        (q.activeMember? sessionId user.id).isSome = true) ∧
    (∀ deviceId, Distrusted s deviceId → ∀ as t, (relaySystem cfg digest).Run s as t →
      ∀ a u, (relaySystem cfg digest).step t a u → ∀ e ∈ u.envelopes.rows,
      e ∉ t.envelopes.rows → e.senderDeviceId ≠ deviceId) ∧
    ∀ userId sessionId deviceId after afterId limit refusal t page,
      receiveE2eeEnvelopes cfg s userId sessionId deviceId after afterId limit refusal =
        (t, .ok page) →
      ∃ m, s.activeMember? sessionId userId = some m ∧
        ∀ e ∈ page, e.sessionId = sessionId ∧ m.joinedEpoch ≤ e.groupEpoch := by
  have hs := drawnInv_of_reachable h
  refine ⟨?_, ?_, fun _ _ _ _ hrevoke => (revokeE2eeDevice_ok hrevoke).2, ?_, ?_, ?_⟩
  · intro e he
    obtain ⟨s₀, as, ⟨clock, rfl⟩, hrun⟩ := h
    have hnone : e ∉ (Relay.initial clock).envelopes.rows := List.not_mem_nil
    obtain ⟨bs, p, a, q, cs, -, hbefore, hstep, hafter, hp, hq⟩ :=
      hrun.exists_step (P := fun s => e ∈ s.envelopes.rows) hnone he
    exact ⟨p, a, q, cs, ⟨_, bs, ⟨clock, rfl⟩, hbefore⟩, hstep, hafter, hp, hq,
      envelope_of_change (change_of_step hstep) hq hp⟩
  · intro a t hstep row hrow row' hrow' hid hswitch
    rcases (advances_change (change_of_step hstep)).epoch row' hrow' (hid ▸ hswitch) with
      hnew | ⟨x, hx, hxid, hle, hlt⟩
    · exact absurd (hid ▸ hs.sessions row hrow) hnew
    · obtain rfl := KeyedTable.eq_of_key hx hrow (hxid.trans hid)
      exact ⟨hle, fun user hchange => hlt ⟨user, hchange⟩⟩
  · intro user huser sessionId hinactive as t hrun a u hstep e he hnew hsession hsender
    have hnamed : Named user s := by
      refine ⟨hs.users user huser, fun v hv hid => ?_⟩
      rw [KeyedTable.eq_of_key hv huser hid]
    have hactive : t.activeMember? sessionId user.id ≠ none := by
      obtain ⟨m, hm, -⟩ := (envelope_of_change (change_of_step hstep) he hnew).member
      rw [hsession, hsender] at hm
      rw [hm]
      exact Option.some_ne_none m
    -- so some step before made the account active
    obtain ⟨bs, p, b, q, cs, has, hbefore, hadd, hafter, hp, hq⟩ :=
      hrun.exists_step (P := fun s => s.activeMember? sessionId user.id ≠ none)
        (not_not.mpr hinactive) hactive
    have hpnamed : Named user p := by
      apply hbefore.preserves (I := Named user) _ hnamed
      exact fun p a q hs hstep => named_change (change_of_step hstep) hs
    refine ⟨bs, p, b, q, cs, has, hbefore, hadd, hafter, ?_, not_not.mp hp,
      Option.isSome_iff_ne_none.mpr hq⟩
    by_contra hnot
    exact hq (inactive_change (change_of_step hadd) hpnamed hnot (not_not.mp hp))
  · intro deviceId hdistrusted as t hrun a u hstep e he hnew hdevice
    have htdistrusted : Distrusted t deviceId := by
      apply hrun.preserves (I := fun s => Distrusted s deviceId) _ hdistrusted
      exact fun p a q hs hstep => distrusted_change (change_of_step hstep) hs
    obtain ⟨d, hd, hid, hfalse⟩ := htdistrusted
    obtain ⟨d', hd', hid', -, htrue⟩ :=
      (envelope_of_change (change_of_step hstep) he hnew).device
    obtain rfl := KeyedTable.eq_of_key hd hd' (by rw [hid, hid', hdevice])
    rw [hfalse] at htrue
    cases htrue
  · intro userId sessionId deviceId after afterId limit refusal t page hok
    obtain ⟨m, hm, -, hpage⟩ := receiveE2eeEnvelopes_ok hok
    refine ⟨m, hm, fun e he => ?_⟩
    have hserved := (hpage e he).2
    simp only [servedTo, Bool.and_eq_true, decide_eq_true_eq] at hserved
    exact ⟨hserved.1.1.trans (activeMember?_eq_some.mp hm).2.1, hserved.1.2⟩

/-! ### A conversation of two -/

def sampleSettings : Settings := ⟨false, 5, 10, 90, 7⟩

def sampleDigest (r : ReplayPayload) : String :=
  r.clientMessageId ++ "/" ++ r.recipient ++ "/" ++ r.senderDeviceId

/-- From bob's device to alice's, in the epoch of bob's join. -/
def sampleSend (messageId : String) : EnvelopeSend where
  version := 1
  protocol := protocolDoubleRatchet
  recipient := "alice-device"
  recipientDeviceId := some "alice-device"
  epoch := 2
  clientMessageId := messageId
  senderDeviceId := "bob-device"
  messageKind := .application
  header := "AAAA"
  ciphertext := "AAAAAAAAAAAAAAAAAAAAAAAAAAAA"

def sampleRun : List Action := [
  .register "alice" "alice" false,
  .register "bob" "bob" false,
  .registerDevice "alice" "alice-device" [] none,
  .registerDevice "bob" "bob-device" [] none,
  .createSession "alice" .privateE2ee "e2ee_private" none "session",
  .addMember "alice" "session" "bob" none,
  .send "bob" "session" (sampleSend "m-1") none "00000000-0000-4000-8000-000000000001"]

def sampleRelay : Relay :=
  (System.exec (stepRelay sampleSettings sampleDigest) (Relay.initial 0) sampleRun).get
    (by decide +kernel)

theorem reachable_sampleRelay :
    (relaySystem sampleSettings sampleDigest).Reachable sampleRelay :=
  ⟨Relay.initial 0, sampleRun, ⟨0, rfl⟩, System.run_of_exec (Option.some_get _).symm⟩

/-- The conversation of two before anything is sent. -/
def quietRelay : Relay :=
  (System.exec (stepRelay sampleSettings sampleDigest) (Relay.initial 0) sampleRun.dropLast).get
    (by decide +kernel)

theorem reachable_quietRelay : (relaySystem sampleSettings sampleDigest).Reachable quietRelay :=
  ⟨Relay.initial 0, sampleRun.dropLast, ⟨0, rfl⟩, System.run_of_exec (Option.some_get _).symm⟩

theorem e2ee_membership_epoch_invariant_sample :
    ∃ e ∈ sampleRelay.envelopes.rows, ∃ p,
      (relaySystem sampleSettings sampleDigest).Reachable p ∧ StoredUnder p e := by
  have hmem : ∃ e, e ∈ sampleRelay.envelopes.rows :=
    List.exists_mem_of_ne_nil _ (by decide +kernel)
  obtain ⟨e, he⟩ := hmem
  obtain ⟨p, a, q, as, hp, -, -, -, -, hunder⟩ :=
    (e2ee_membership_epoch_invariant sampleSettings sampleDigest sampleRelay
      reachable_sampleRelay).1 e he
  exact ⟨e, he, p, hp, hunder⟩

end Scap.E2ee
