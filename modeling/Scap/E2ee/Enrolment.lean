import Scap.E2ee.Membership
import Scap.E2ee.TrustChain

/-!
# Enrolled devices over a run

What every step of the registry respects is one preorder, `Extends`: identifiers stay drawn, a
consumed challenge stays consumed and a new one has a new identifier, a device keeps its account and
its keys, and an account that has a trusted device keeps one. A device appears in the step that
enrols it (`Enrolled`).
-/

namespace Scap.E2ee

open Scap.Lib Scap.Py

variable {hash fingerprint : String → String} {cfg : Settings}
  {digest : ReplayPayload → String} {s t u : Registry} {a : TrustAction}

/-! ## What every step respects -/

/-- Two rows of keys for the same device, of the same account, that was approved by the same. -/
def SameIdentity (k k' : DeviceKeys) : Prop :=
  k'.deviceId = k.deviceId ∧ k'.userId = k.userId ∧ k'.identityKey = k.identityKey ∧
    k'.approvedBy = k.approvedBy

/-- What every step keeps. -/
structure Extends (s t : Registry) : Prop where
  drawn : s.relay.drawn ⊆ t.relay.drawn
  challenges : ∀ c' ∈ t.challenges.rows,
    (∃ c ∈ s.challenges.rows, c.id = c'.id ∧ (c'.consumedAt = none → c.consumedAt = none)) ∨
      c'.id ∉ s.relay.drawn ∧ c'.id ∈ t.relay.drawn
  keys : ∀ k ∈ s.deviceKeys.rows, ∃ k' ∈ t.deviceKeys.rows, SameIdentity k k'
  owns : ∀ userId deviceId, Owns s.relay userId deviceId → Owns t.relay userId deviceId
  trust : ∀ userId, HasTrusted s.relay userId → HasTrusted t.relay userId

theorem extends_refl (s : Registry) : Extends s s where
  drawn := List.Subset.refl _
  challenges c hc := .inl ⟨c, hc, rfl, id⟩
  keys k hk := ⟨k, hk, rfl, rfl, rfl, rfl⟩
  owns _ _ := id
  trust _ := id

theorem extends_trans (s t u : Registry) (h : Extends s t) (h' : Extends t u) : Extends s u where
  drawn := List.Subset.trans h.drawn h'.drawn
  challenges := by
    intro c'' hc''
    rcases h'.challenges c'' hc'' with ⟨c', hc', hid', hleft'⟩ | ⟨hnew, hdrawn⟩
    · rcases h.challenges c' hc' with ⟨c, hc, hid, hleft⟩ | ⟨hnew, hdrawn⟩
      · exact .inl ⟨c, hc, hid.trans hid', fun hnone => hleft (hleft' hnone)⟩
      · rw [← hid']
        exact .inr ⟨hnew, h'.drawn hdrawn⟩
    · exact .inr ⟨fun hold => hnew (h.drawn hold), hdrawn⟩
  keys := by
    intro k hk
    obtain ⟨k', hk', hid', huser', hkey', hby'⟩ := h.keys k hk
    obtain ⟨k'', hk'', hid'', huser'', hkey'', hby''⟩ := h'.keys k' hk'
    exact ⟨k'', hk'', hid''.trans hid', huser''.trans huser', hkey''.trans hkey',
      hby''.trans hby'⟩
  owns userId deviceId howns := h'.owns userId deviceId (h.owns userId deviceId howns)
  trust userId htrusted := h'.trust userId (h.trust userId htrusted)

/-- A step of the relay that keeps the devices. -/
theorem extends_relay {r : Relay} (hkeeps : KeepsDevices s.relay r)
    (hdrawn : s.relay.drawn ⊆ r.drawn) : Extends s { s with relay := r } where
  drawn := hdrawn
  challenges c hc := .inl ⟨c, hc, rfl, id⟩
  keys k hk := ⟨k, hk, rfl, rfl, rfl, rfl⟩
  owns userId deviceId := (hkeeps.owns userId deviceId).mpr
  trust := hkeeps.trust

theorem extends_burn (s : Registry) (challengeId : String) : Extends s (burn s challengeId) where
  drawn := List.Subset.refl _
  challenges := by
    intro c' hc'
    obtain ⟨c, hc, rfl⟩ := List.mem_map.mp hc'
    refine .inl ⟨c, hc, ?_, ?_⟩
    · split <;> rfl
    · split
      · intro hnone
        cases hnone
      · exact id
  keys k hk := ⟨k, hk, rfl, rfl, rfl, rfl⟩
  owns _ _ := id
  trust _ := id

theorem extends_setSignedPrekey (s : Registry) (deviceId : String)
    (signed signature : Option String) :
    Extends s (setSignedPrekey s deviceId signed signature) := by
  cases signed with
  | none => exact extends_refl s
  | some key =>
      have hsame := extends_refl s
      refine ⟨hsame.drawn, hsame.challenges, ?_, hsame.owns, hsame.trust⟩
      intro k hk
      refine ⟨_, List.mem_map_of_mem hk, ?_⟩
      split <;> exact ⟨rfl, rfl, rfl, rfl⟩

theorem extends_createDeviceChallenge {userId id raw : String} {refusal : Option HttpError}
    (hfresh : id ∉ s.relay.drawn) :
    Extends s (createDeviceChallenge hash s userId refusal id raw).1 := by
  unfold createDeviceChallenge
  split
  · exact extends_refl s
  · split
    · exact extends_refl s
    · have hsame := extends_refl s
      refine ⟨List.subset_cons_self _ _, ?_, hsame.keys, hsame.owns, hsame.trust⟩
      intro c' hc'
      rcases KeyedTable.mem_insertNew_or hc' with rfl | hc'
      · exact .inr ⟨hfresh, List.mem_cons_self⟩
      · exact hsame.challenges c' hc' |>.imp_right fun h => absurd h.2 h.1

/-! ## Registration -/

/-- A registration adds a trusted device of the account under an identifier that was free. -/
theorem registerE2eeDevice_ok {r r' : Relay} {userId deviceId : String} {keys : List String}
    {device : E2eeDevice}
    (h : registerE2eeDevice r userId deviceId keys none = (r', .ok device)) :
    (∀ d ∈ r.devices.rows, d.id ≠ device.id) ∧ device.id = deviceId ∧ device.userId = userId ∧
      device.trusted = true ∧ r'.devices = r.devices.insertNew device ∧ r'.drawn = r.drawn := by
  unfold registerE2eeDevice at h
  split at h
  · cases h
  · next u hlock =>
    obtain rfl := lockRequestMutation_id hlock
    split at h
    · cases h
    · next hfree =>
      split at h
      · cases h
      · split at h
        · cases h
        · cases h
          have hnone : r.devices.find? deviceId = none := by simpa using hfree
          exact ⟨KeyedTable.find?_eq_none.mp hnone, rfl, rfl, rfl, rfl, rfl⟩

/-- An update of prekeys keeps the devices. -/
theorem updateE2eePrekeys_devices (r : Relay) (userId deviceId : String) (keys : List String) :
    (updateE2eePrekeys r userId deviceId keys none).1.devices = r.devices ∧
      (updateE2eePrekeys r userId deviceId keys none).1.drawn = r.drawn := by
  rcases updateE2eePrekeys_cases r userId deviceId keys none with hsame | ⟨_, -, hupload⟩
  · rw [hsame]
    exact ⟨rfl, rfl⟩
  · rw [hupload]
    exact ⟨rfl, rfl⟩

theorem extends_registered {id userId deviceId : String} {keys : DeviceKeys}
    {prekeys : List String} {relay : Relay} {device : E2eeDevice}
    (h : registerE2eeDevice s.relay userId deviceId prekeys none = (relay, .ok device)) :
    Extends s (registered s id relay keys) := by
  obtain ⟨-, -, -, -, hdevices, hdrawn⟩ := registerE2eeDevice_ok h
  have hkept : ∀ d ∈ s.relay.devices.rows, d ∈ relay.devices.rows := by
    intro d hd
    rw [hdevices]
    exact KeyedTable.mem_insertNew_of_mem hd
  apply extends_trans s (burn s id) _ (extends_burn s id)
  refine ⟨hdrawn ▸ List.Subset.refl _, fun c hc => .inl ⟨c, hc, rfl, fun h => h⟩, ?_, ?_, ?_⟩
  · intro k hk
    exact ⟨k, KeyedTable.mem_insertNew_of_mem hk, rfl, rfl, rfl, rfl⟩
  · rintro u d ⟨row, hrow, hid, huser⟩
    exact ⟨row, hkept row hrow, hid, huser⟩
  · rintro u ⟨row, hrow, huser, htrusted⟩
    exact ⟨row, hkept row hrow, huser, htrusted⟩

theorem extends_registerDevice {userId : String} {p : DeviceRegister}
    {refusal : Option HttpError} :
    Extends s (registerDevice hash fingerprint s userId p refusal).1 := by
  rcases registerDevice_cases hash fingerprint s userId p refusal with
    ⟨_, -, hsame | ⟨id, hburnt⟩⟩ | ⟨_, c, keys, relay, device, -, -, -, hregister, hdone⟩
  · rw [hsame]
    exact extends_refl s
  · rw [hburnt]
    exact extends_burn s id
  · rw [hdone]
    exact extends_registered hregister

theorem extends_updatePrekeys {userId deviceId : String} {p : PrekeyUpdate}
    {refusal : Option HttpError} :
    Extends s (updatePrekeys hash s userId deviceId p refusal).1 := by
  rcases updatePrekeys_cases hash s userId deviceId p refusal with
    ⟨_, -, hsame | ⟨id, hburnt⟩⟩ | ⟨_, c, signed, relay, added, -, hupdate, hdone⟩
  · rw [hsame]
    exact extends_refl s
  · rw [hburnt]
    exact extends_burn s id
  · rw [hdone]
    have hrelay := updateE2eePrekeys_devices s.relay userId deviceId p.oneTimePrekeys
    rw [hupdate] at hrelay
    obtain ⟨hdevices, hdrawn⟩ := hrelay
    apply extends_trans s (burn s c.id) _ (extends_burn s c.id)
    apply extends_trans _ _ _ _ (extends_setSignedPrekey _ deviceId signed p.signedPrekeySignature)
    exact extends_relay (.of_devices hdevices) (hdrawn ▸ List.Subset.refl _)

/-- **Every step extends the registry.** -/
theorem extends_of_step (h : (registrySystem hash fingerprint cfg digest).step s a t) :
    Extends s t := by
  replace h : stepRegistry hash fingerprint cfg digest s a = some t := h
  cases a with
  | relay b =>
      simp only [stepRegistry] at h
      split at h
      · cases h
      · next hplain =>
        obtain ⟨r, hr, rfl⟩ := Option.map_eq_some_iff.mp h
        have hstep : (relaySystem cfg digest).step s.relay b r := hr
        exact extends_relay (keepsDevices_of_step hr (eq_false_of_ne_true hplain))
          (later_change (change_of_step hstep)).drawn
  | sign publicKey m signature =>
      obtain rfl := Option.some.inj h
      have hsame := extends_refl s
      exact ⟨hsame.drawn, hsame.challenges, hsame.keys, hsame.owns, hsame.trust⟩
  | challenge userId refusal id raw =>
      obtain ⟨hfresh, rfl⟩ := of_guarded h
      exact extends_createDeviceChallenge hfresh
  | register userId p refusal => exact Option.some.inj h ▸ extends_registerDevice
  | updatePrekeys userId deviceId p refusal => exact Option.some.inj h ▸ extends_updatePrekeys
  | sweepChallenges challengeIds =>
      obtain rfl := Option.some.inj h
      have hsame := extends_refl s
      refine ⟨hsame.drawn, ?_, hsame.keys, hsame.owns, hsame.trust⟩
      intro c hc
      exact hsame.challenges c (KeyedTable.mem_filter.mp hc).1

theorem extends_of_run {as : List TrustAction}
    (h : (registrySystem hash fingerprint cfg digest).Run s as t) : Extends s t :=
  h.mono extends_refl extends_trans fun _ _ _ => extends_of_step

/-! ## Devices and their keys -/

/-- The checks that the registration of a device has passed. -/
structure Enrolled (hash : String → String) (s : Registry) (userId : String) (p : DeviceRegister)
    (k : DeviceKeys) : Prop where
  free : ∀ d ∈ s.relay.devices.rows, d.id ≠ p.deviceId
  challenge : ∃ challenge c, canonicalChallenge "challenge" p.challenge = .ok challenge ∧
    redeemable s userId p.challengeId (hash challenge) = some c
  device : k.deviceId = p.deviceId
  owner : k.userId = userId
  identity : canonicalPublicKey "identity_key" p.identityKey = .ok k.identityKey
  approved : ¬ HasTrusted s.relay userId ∧ k.approvedBy = none ∨
    ∃ approverId, k.approvedBy = some approverId ∧ Approved s userId p k.identityKey approverId

theorem Enrolled.of_same {userId : String} {p : DeviceRegister} {k k' : DeviceKeys}
    (h : Enrolled hash s userId p k) (hsame : SameIdentity k k') : Enrolled hash s userId p k' := by
  obtain ⟨hid, huser, hkey, hby⟩ := hsame
  refine ⟨h.free, h.challenge, hid.trans h.device, huser.trans h.owner, ?_, ?_⟩
  · rw [hkey]
    exact h.identity
  · rw [hkey, hby]
    exact h.approved

/-- A step leaves the devices and their identities alone. -/
structure Settled (s t : Registry) : Prop where
  owns : ∀ userId deviceId, Owns t.relay userId deviceId → Owns s.relay userId deviceId
  keys : ∀ k' ∈ t.deviceKeys.rows, ∃ k ∈ s.deviceKeys.rows, SameIdentity k k'

theorem settled_of_eq (hdevices : t.relay.devices = s.relay.devices)
    (hkeys : t.deviceKeys = s.deviceKeys) : Settled s t where
  owns userId deviceId howns := by
    unfold Owns at howns
    rwa [hdevices] at howns
  keys k hk := ⟨k, hkeys ▸ hk, rfl, rfl, rfl, rfl⟩

theorem settled_setSignedPrekey {deviceId : String} {signed signature : Option String}
    {r : Relay} (hdevices : r.devices = s.relay.devices) :
    Settled s (setSignedPrekey { s with relay := r } deviceId signed signature) := by
  cases signed with
  | none => exact settled_of_eq hdevices rfl
  | some key =>
      have hsame : Settled s { s with relay := r } := settled_of_eq hdevices rfl
      refine ⟨hsame.owns, ?_⟩
      intro k' hk'
      obtain ⟨k, hk, rfl⟩ := List.mem_map.mp hk'
      refine ⟨k, hk, ?_⟩
      split <;> exact ⟨rfl, rfl, rfl, rfl⟩

/-- What a successful registration adds, and under which checks. -/
theorem registerDevice_enrolled (hash fingerprint : String → String) (s : Registry)
    (userId : String) (p : DeviceRegister) (refusal : Option HttpError) :
    Settled s (registerDevice hash fingerprint s userId p refusal).1 ∨
      ∃ k device, Enrolled hash s userId p k ∧ device.id = p.deviceId ∧ device.userId = userId ∧
        (registerDevice hash fingerprint s userId p refusal).1.deviceKeys =
          s.deviceKeys.insertNew k ∧
        (registerDevice hash fingerprint s userId p refusal).1.relay.devices =
          s.relay.devices.insertNew device := by
  rcases registerDevice_cases hash fingerprint s userId p refusal with
    ⟨_, -, hsame | ⟨id, hburnt⟩⟩ |
      ⟨challenge, c, k, relay, device, hredeem, hchallenge, hcheck, hregister, hdone⟩
  · rw [hsame]
    exact .inl (settled_of_eq rfl rfl)
  · rw [hburnt]
    exact .inl (settled_of_eq rfl rfl)
  · rw [hdone]
    obtain ⟨hfree, hid, huser, -, hdevices, -⟩ := registerE2eeDevice_ok hregister
    obtain ⟨hkid, hkuser, hidentity, happroved⟩ := checkRegistration_ok hcheck
    refine .inr ⟨k, device, ⟨hid ▸ hfree, ⟨challenge, c, hchallenge, hredeem⟩, hkid, hkuser,
      hidentity, ?_⟩, hid, huser, rfl, hdevices⟩
    rcases happroved with hfirst | ⟨approverId, hby, happroved⟩
    · exact .inl hfirst
    · exact .inr ⟨approverId, hby, happroved.trusted, happroved.signed⟩

/-- **Devices and keys come from registrations alone.** -/
theorem enrolled_of_step (h : (registrySystem hash fingerprint cfg digest).step s a t) :
    Settled s t ∨ ∃ userId p refusal k device, a = .register userId p refusal ∧
      Enrolled hash s userId p k ∧ device.id = p.deviceId ∧ device.userId = userId ∧
      t.deviceKeys = s.deviceKeys.insertNew k ∧
      t.relay.devices = s.relay.devices.insertNew device := by
  replace h : stepRegistry hash fingerprint cfg digest s a = some t := h
  cases a with
  | relay b =>
      simp only [stepRegistry] at h
      split at h
      · cases h
      · next hplain =>
        obtain ⟨r, hr, rfl⟩ := Option.map_eq_some_iff.mp h
        have hkeeps := keepsDevices_of_step hr (eq_false_of_ne_true hplain)
        exact .inl ⟨fun userId deviceId => (hkeeps.owns userId deviceId).mp,
          fun k hk => ⟨k, hk, rfl, rfl, rfl, rfl⟩⟩
  | sign publicKey m signature =>
      obtain rfl := Option.some.inj h
      exact .inl (settled_of_eq rfl rfl)
  | challenge userId refusal id raw =>
      obtain ⟨-, rfl⟩ := of_guarded h
      unfold createDeviceChallenge
      repeat' split
      all_goals exact .inl (settled_of_eq rfl rfl)
  | register userId p refusal =>
      obtain rfl := Option.some.inj h
      rcases registerDevice_enrolled hash fingerprint s userId p refusal with
        hsettled | ⟨k, device, henrolled⟩
      · exact .inl hsettled
      · exact .inr ⟨userId, p, refusal, k, device, rfl, henrolled⟩
  | updatePrekeys userId deviceId p refusal =>
      obtain rfl := Option.some.inj h
      left
      rcases updatePrekeys_cases hash s userId deviceId p refusal with
        ⟨_, -, hsame | ⟨id, hburnt⟩⟩ | ⟨_, c, signed, relay, added, -, hupdate, hdone⟩
      · rw [hsame]
        exact settled_of_eq rfl rfl
      · rw [hburnt]
        exact settled_of_eq rfl rfl
      · rw [hdone]
        have hrelay := (updateE2eePrekeys_devices s.relay userId deviceId p.oneTimePrekeys).1
        rw [hupdate] at hrelay
        have hset : Settled (burn s c.id) (setSignedPrekey { burn s c.id with relay := relay }
          deviceId signed p.signedPrekeySignature) := settled_setSignedPrekey hrelay
        exact ⟨hset.owns, hset.keys⟩
  | sweepChallenges challengeIds =>
      obtain rfl := Option.some.inj h
      exact .inl (settled_of_eq rfl rfl)

/-- Keys belong to devices, and challenges have drawn identifiers. -/
structure RegistryInv (s : Registry) : Prop where
  keys : ∀ k ∈ s.deviceKeys.rows, Owns s.relay k.userId k.deviceId
  challenges : ∀ c ∈ s.challenges.rows, c.id ∈ s.relay.drawn

theorem registryInv_of_reachable
    (h : (registrySystem hash fingerprint cfg digest).Reachable s) : RegistryInv s := by
  refine System.Reachable.induct (I := RegistryInv) ?_ ?_ h
  · rintro s ⟨clock, rfl⟩
    constructor <;> simp [Registry.initial]
  · intro s a t _ hs hstep
    have hextends := extends_of_step hstep
    constructor
    · intro k' hk'
      have hold : ∀ k ∈ s.deviceKeys.rows, SameIdentity k k' →
          Owns t.relay k'.userId k'.deviceId := by
        rintro k hk ⟨hid, huser, -, -⟩
        rw [hid, huser]
        exact hextends.owns _ _ (hs.keys k hk)
      rcases enrolled_of_step hstep with
        hsettled | ⟨userId, p, refusal, k, device, -, henrolled, hid, huser, hkeys, hdevices⟩
      · obtain ⟨k, hk, hsame⟩ := hsettled.keys k' hk'
        exact hold k hk hsame
      · rw [hkeys] at hk'
        rcases KeyedTable.mem_insertNew_or hk' with rfl | hk'
        · have hnew : device ∈ t.relay.devices.rows := by
            rw [hdevices]
            exact (KeyedTable.mem_insertNew (hid ▸ henrolled.free)).mpr (.inl rfl)
          exact ⟨device, hnew, hid.trans henrolled.device.symm, huser.trans henrolled.owner.symm⟩
        · exact hold k' hk' ⟨rfl, rfl, rfl, rfl⟩
    · intro c' hc'
      rcases hextends.challenges c' hc' with ⟨c, hc, hid, -⟩ | ⟨-, hdrawn⟩
      · rw [← hid]
        exact hextends.drawn (hs.challenges c hc)
      · exact hdrawn

/-- **Every device was enrolled in some step, under the account and the keys it has now.** -/
theorem enrolled_of_reachable (h : (registrySystem hash fingerprint cfg digest).Reachable t)
    {d : E2eeDevice} (hd : d ∈ t.relay.devices.rows) :
    ∃ k ∈ t.deviceKeys.rows, k.deviceId = d.id ∧
      ∃ s p refusal u as, (registrySystem hash fingerprint cfg digest).Reachable s ∧
        (registrySystem hash fingerprint cfg digest).step s (.register d.userId p refusal) u ∧
        (registrySystem hash fingerprint cfg digest).Run u as t ∧ p.deviceId = d.id ∧
        Enrolled hash s d.userId p k := by
  obtain ⟨s₀, as, h₀, hrun⟩ := h
  have hnone : ¬ ∃ userId, Owns s₀.relay userId d.id := by
    obtain ⟨clock, rfl⟩ := h₀
    rintro ⟨userId, row, hrow, -⟩
    cases hrow
  have hsome : ∃ userId, Owns t.relay userId d.id := ⟨d.userId, d, hd, rfl, rfl⟩
  obtain ⟨bs, s, a, u, cs, rfl, hbefore, hstep, hafter, hnot, userId, howns⟩ :=
    hrun.exists_step (P := fun s => ∃ userId, Owns s.relay userId d.id) hnone hsome
  have hs : (registrySystem hash fingerprint cfg digest).Reachable s := ⟨s₀, bs, h₀, hbefore⟩
  have hextends := extends_of_run hafter
  rcases enrolled_of_step hstep with
    hsettled | ⟨owner, p, refusal, k, device, rfl, henrolled, hid, huser, hkeys, hdevices⟩
  · exact absurd ⟨userId, hsettled.owns userId d.id howns⟩ hnot
  · -- the device that appears is the one that was missing, and `d` is what became of it
    have hmem : device ∈ u.relay.devices.rows := by
      rw [hdevices]
      exact (KeyedTable.mem_insertNew (hid ▸ henrolled.free)).mpr (.inl rfl)
    have hsame : device.id = d.id := by
      obtain ⟨row, hrow, hrowid, -⟩ := howns
      rw [hdevices] at hrow
      rcases KeyedTable.mem_insertNew_or hrow with rfl | hrow
      · exact hrowid
      · exact absurd ⟨row.userId, row, hrow, hrowid, rfl⟩ hnot
    obtain ⟨row, hrow, hrowid, hrowuser⟩ :=
      hextends.owns device.userId device.id ⟨device, hmem, rfl, rfl⟩
    obtain rfl := KeyedTable.eq_of_key hrow hd (hrowid.trans hsame)
    have howner : row.userId = owner := hrowuser.trans huser
    have hfree : ∀ k' ∈ s.deviceKeys.rows, k'.deviceId ≠ k.deviceId := by
      intro k' hk' hclash
      obtain ⟨d', hd', hd'id, -⟩ := (registryInv_of_reachable hs).keys k' hk'
      exact henrolled.free d' hd' (hd'id.trans (hclash.trans henrolled.device))
    have hk : k ∈ u.deviceKeys.rows := by
      rw [hkeys]
      exact (KeyedTable.mem_insertNew hfree).mpr (.inl rfl)
    obtain ⟨k', hk', hsamekeys⟩ := hextends.keys k hk
    have hpid : p.deviceId = row.id := hid.symm.trans hsame
    rw [howner]
    exact ⟨k', hk', hsamekeys.1.trans (henrolled.device.trans hpid), s, p, refusal, u, cs, hs,
      hstep, hafter, hpid, henrolled.of_same hsamekeys⟩

/-! ## Challenges -/

/-- The challenge has been drawn, and nobody can redeem it. -/
structure Spent (s : Registry) (challengeId : String) : Prop where
  drawn : challengeId ∈ s.relay.drawn
  consumed : ∀ c ∈ s.challenges.rows, c.id = challengeId → c.consumedAt ≠ none

theorem Spent.extends {challengeId : String} (h : Spent s challengeId) (hst : Extends s t) :
    Spent t challengeId := by
  refine ⟨hst.drawn h.drawn, ?_⟩
  rintro c' hc' rfl
  rcases hst.challenges c' hc' with ⟨c, hc, hid, hleft⟩ | ⟨hnew, -⟩
  · intro hnone
    exact h.consumed c hc hid (hleft hnone)
  · exact absurd h.drawn hnew

theorem redeemable_eq_some {userId challengeId challengeHash : String} {c : DeviceChallenge}
    (h : redeemable s userId challengeId challengeHash = some c) :
    c ∈ s.challenges.rows ∧ c.id = challengeId ∧ c.consumedAt = none := by
  obtain ⟨hfind, hchecks⟩ := Option.filter_eq_some_iff.mp h
  obtain ⟨hrow, hid⟩ := KeyedTable.find?_eq_some hfind
  simp only [Bool.and_eq_true, decide_eq_true_eq] at hchecks
  exact ⟨hrow, hid, hchecks.1.2⟩

theorem spent_burn {challengeId : String} (hdrawn : challengeId ∈ s.relay.drawn) :
    Spent (burn s challengeId) challengeId := by
  refine ⟨hdrawn, ?_⟩
  intro c' hc' hid
  obtain ⟨c, -, rfl⟩ := List.mem_map.mp hc'
  split at hid
  · next hsame =>
    rw [if_pos hsame]
    exact Option.some_ne_none _
  · next hother => exact absurd hid hother

/-- What is redeemed could be redeemed before, and is spent after. -/
theorem redeems_some {challengeId : String} (hs : RegistryInv s)
    (h : redeems hash fingerprint s a = some challengeId)
    (hstep : (registrySystem hash fingerprint cfg digest).step s a t) :
    (∃ userId challengeHash c, redeemable s userId challengeId challengeHash = some c) ∧
      Spent t challengeId := by
  have hburnt : ∀ {userId challengeHash c}, redeemable s userId challengeId challengeHash = some c →
      Spent (burn s c.id) challengeId := by
    intro userId challengeHash c hredeem
    obtain ⟨hrow, hid, -⟩ := redeemable_eq_some hredeem
    rw [hid]
    exact spent_burn (hid ▸ hs.challenges c hrow)
  replace hstep : stepRegistry hash fingerprint cfg digest s a = some t := hstep
  cases a with
  | register userId p refusal =>
      obtain rfl := Option.some.inj hstep
      simp only [redeems] at h
      rcases registerDevice_cases hash fingerprint s userId p refusal with
        ⟨e, herror, -⟩ | ⟨_, c, keys, relay, device, hredeem, -, -, hregister, hdone⟩
      · rw [herror] at h
        cases h
      · rw [hdone] at h ⊢
        obtain rfl := Option.some.inj h
        obtain ⟨-, -, -, -, -, hdrawn⟩ := registerE2eeDevice_ok hregister
        have hspent := hburnt hredeem
        exact ⟨⟨_, _, c, hredeem⟩, hdrawn ▸ hspent.drawn, hspent.consumed⟩
  | updatePrekeys userId deviceId p refusal =>
      obtain rfl := Option.some.inj hstep
      simp only [redeems] at h
      rcases updatePrekeys_cases hash s userId deviceId p refusal with
        ⟨e, herror, -⟩ | ⟨_, c, signed, relay, added, hredeem, hupdate, hdone⟩
      · rw [herror] at h
        cases h
      · rw [hdone] at h ⊢
        obtain rfl := Option.some.inj h
        have hdrawn := (updateE2eePrekeys_devices s.relay userId deviceId p.oneTimePrekeys).2
        rw [hupdate] at hdrawn
        have hspent := hburnt hredeem
        have hrelay : Spent { burn s c.id with relay := relay } p.challengeId :=
          ⟨hdrawn ▸ hspent.drawn, hspent.consumed⟩
        exact ⟨⟨_, _, c, hredeem⟩, hrelay.extends (extends_setSignedPrekey _ _ _ _)⟩
  | _ => cases h

/-- A challenge is redeemed once. -/
theorem redeems_once (hs : (registrySystem hash fingerprint cfg digest).Reachable s)
    (hstep : (registrySystem hash fingerprint cfg digest).step s a t) {challengeId : String}
    (h : redeems hash fingerprint s a = some challengeId) {as : List TrustAction}
    (hrun : (registrySystem hash fingerprint cfg digest).Run t as u) {b : TrustAction}
    {v : Registry} (hlast : (registrySystem hash fingerprint cfg digest).step u b v) :
    redeems hash fingerprint u b ≠ some challengeId := by
  intro hagain
  obtain ⟨-, hspent⟩ := redeems_some (registryInv_of_reachable hs) h hstep
  have hu : RegistryInv u := registryInv_of_reachable ((hs.step hstep).run hrun)
  obtain ⟨⟨userId, challengeHash, c, hredeem⟩, -⟩ := redeems_some hu hagain hlast
  obtain ⟨hrow, hid, hleft⟩ := redeemable_eq_some hredeem
  exact (hspent.extends (extends_of_run hrun)).consumed c hrow hid hleft

/-! ## The chain -/

/-- **The chain of trusted devices.** From any reachable state on, an account that has a trusted
device keeps one. Every device was registered when its account had none, or with an approval of it
by a device that was trusted at that moment. A challenge is redeemed at most once. -/
theorem trusted_device_chain (hash fingerprint : String → String) (cfg : Settings)
    (digest : ReplayPayload → String) (s : Registry)
    (hs : (registrySystem hash fingerprint cfg digest).Reachable s) :
    (∀ as t userId, (registrySystem hash fingerprint cfg digest).Run s as t →
      HasTrusted s.relay userId → HasTrusted t.relay userId) ∧
    (∀ d ∈ s.relay.devices.rows, ∃ k ∈ s.deviceKeys.rows, k.deviceId = d.id ∧
      ∃ p x refusal q as, (registrySystem hash fingerprint cfg digest).Reachable p ∧
        (registrySystem hash fingerprint cfg digest).step p (.register d.userId x refusal) q ∧
        (registrySystem hash fingerprint cfg digest).Run q as s ∧ x.deviceId = d.id ∧
        Enrolled hash p d.userId x k) ∧
    ∀ a t challengeId as u b v, (registrySystem hash fingerprint cfg digest).step s a t →
      redeems hash fingerprint s a = some challengeId →
      (registrySystem hash fingerprint cfg digest).Run t as u →
      (registrySystem hash fingerprint cfg digest).step u b v →
        redeems hash fingerprint u b ≠ some challengeId := by
  refine ⟨?_, fun d hd => enrolled_of_reachable hs hd, ?_⟩
  · intro as t userId hrun
    exact (extends_of_run hrun).trust userId
  · intro a t challengeId as u b v hstep h hrun hlast
    exact redeems_once hs hstep h hrun hlast

/-! ## Two devices -/

/-- 32 bytes in the canonical form. -/
def keyOf (b : UInt8) : String := urlsafeB64encode (List.replicate 32 b)

/-- The signature that every key makes here. -/
def sampleSignature : String := urlsafeB64encode (List.replicate 64 0)

theorem canonicalPublicKey_keyOf {field : String} {b : UInt8} :
    canonicalPublicKey field (keyOf b) = .ok (keyOf b) := by
  rw [canonicalPublicKey, keyOf, decodeBase64Strict_encode List.length_replicate (by decide)
    (by simp) (by simp)]
  rfl

theorem canonicalChallenge_keyOf {field : String} {b : UInt8} :
    canonicalChallenge field (keyOf b) = .ok (keyOf b) := by
  rw [canonicalChallenge, keyOf, decodeBase64Strict_encode List.length_replicate (by decide)
    (by simp) (by simp)]
  rfl

theorem verifySignature_of_mem {s : Registry} {b : UInt8} {m : Message}
    (h : (keyOf b, m, sampleSignature) ∈ s.signatures) :
    verifySignature s (keyOf b) sampleSignature m = true := by
  rw [verifySignature, canonicalPublicKey_keyOf, sampleSignature, decodeBase64Strict_encode
    List.length_replicate (by decide) (by simp) (by simp)]
  exact decide_eq_true h

/-- A request without one-time prekeys. -/
def sampleRequest (deviceId challengeId : String) (identity challenge : UInt8)
    (approverDeviceId : Option String) : DeviceRegister where
  challengeId := challengeId
  challenge := keyOf challenge
  deviceId := deviceId
  identityKey := keyOf identity
  possessionSignature := sampleSignature
  signedPrekey := keyOf 9
  signedPrekeySignature := sampleSignature
  oneTimePrekeys := []
  approverDeviceId := approverDeviceId
  approvalSignature := approverDeviceId.map fun _ => sampleSignature

variable {s : Registry} {deviceId challengeId : String} {identity challenge : UInt8}
  {approverDeviceId : Option String} {c : DeviceChallenge} {user : Account}

/-- A request whose key has signed what it must sign passes the checks. -/
theorem checkRegistration_sample {possession : String}
    (hfresh : s.relay.devices.find? deviceId = none)
    (hunique : s.deviceKeys.rows.any
      (fun k => k.userId = "alice" && k.fingerprint = keyOf identity) = false)
    (hbuilt : buildDevicePossessionMessage "alice" deviceId (keyOf identity) (keyOf challenge) =
      .ok possession)
    (hpossession : (keyOf identity, .statement possession, sampleSignature) ∈ s.signatures)
    (hprekey : (keyOf identity, .prekey (keyOf 9), sampleSignature) ∈ s.signatures)
    (happrover : approver s "alice"
      (sampleRequest deviceId challengeId identity challenge approverDeviceId) (keyOf identity) =
        .ok approverDeviceId) :
    checkRegistration id s "alice"
      (sampleRequest deviceId challengeId identity challenge approverDeviceId) =
      .ok ⟨deviceId, "alice", keyOf identity, keyOf 9, sampleSignature, keyOf identity,
        approverDeviceId⟩ := by
  have hpossessed := verifySignature_of_mem hpossession
  have hsigned := verifySignature_of_mem hprekey
  have hnone : canonicalPrekeys [] = .ok [] := rfl
  unfold checkRegistration
  simp only [sampleRequest, canonicalPublicKey_keyOf, hnone, verifyDevicePossession, hbuilt,
    verifyStatement, hfresh, id] at happrover ⊢
  rw [hpossessed, hsigned, happrover]
  simp [hunique]

/-- The registry after such a request. -/
def enrolled (s : Registry) (deviceId challengeId : String) (identity : UInt8)
    (approverDeviceId : Option String) : Registry :=
  { burn s challengeId with
    relay := (registerE2eeDevice s.relay "alice" deviceId [] none).1
    deviceKeys := s.deviceKeys.insertNew ⟨deviceId, "alice", keyOf identity, keyOf 9,
      sampleSignature, keyOf identity, approverDeviceId⟩ }

theorem registerDevice_sample (hlock : lockRequestMutation s.relay "alice" none = .ok user)
    (hid : user.id = "alice")
    (hredeem : redeemable s "alice" challengeId (keyOf challenge) = some c)
    (hc : c.id = challengeId)
    (hregistered : (registerE2eeDevice s.relay "alice" deviceId [] none).2.isOk)
    (hchecked : checkRegistration id (burn s challengeId) "alice"
      (sampleRequest deviceId challengeId identity challenge approverDeviceId) =
      .ok ⟨deviceId, "alice", keyOf identity, keyOf 9, sampleSignature, keyOf identity,
        approverDeviceId⟩) :
    (registerDevice id id s "alice"
      (sampleRequest deviceId challengeId identity challenge approverDeviceId) none).1 =
      enrolled s deviceId challengeId identity approverDeviceId := by
  generalize hr : registerE2eeDevice s.relay "alice" deviceId [] none = r at hregistered
  obtain ⟨relay, reply⟩ := r
  cases reply with
  | error e => cases hregistered
  | ok d =>
      have hr' : registerE2eeDevice (burn s challengeId).relay "alice" deviceId [] none =
        (relay, .ok d) := hr
      unfold registerDevice enrolled
      simp only [hlock, hid, sampleRequest, canonicalChallenge_keyOf, id, hredeem, hc, hr]
        at hchecked ⊢
      rw [hchecked]
      dsimp only
      rw [hr']
      rfl

/-- Keys may sign what they like. -/
theorem reachable_signed (hs : (registrySystem id id sampleSettings sampleDigest).Reachable s)
    (ms : List (String × Message × String)) :
    (registrySystem id id sampleSettings sampleDigest).Reachable
      { s with signatures := ms ++ s.signatures } := by
  induction ms with
  | nil => exact hs
  | cons m ms ih => exact ih.step (a := .sign m.1 m.2.1 m.2.2) rfl

/-- Alice has an account and two challenges. -/
def challengedActions : List TrustAction :=
  [.relay (.register "alice" "alice" true), .challenge "alice" none "c-1" (keyOf 2),
    .challenge "alice" none "c-2" (keyOf 4)]

def challenged : Registry :=
  (System.exec (stepRegistry id id sampleSettings sampleDigest) (Registry.initial 0)
    challengedActions).getD (Registry.initial 0)

theorem reachable_challenged :
    (registrySystem id id sampleSettings sampleDigest).Reachable challenged := by
  have hsome : (System.exec (stepRegistry id id sampleSettings sampleDigest) (Registry.initial 0)
    challengedActions).isSome := by decide +kernel
  refine ⟨Registry.initial 0, challengedActions, ⟨0, rfl⟩, System.run_of_exec ?_⟩
  rw [challenged, ← Option.get_eq_getD (h := hsome)]
  exact (Option.some_get hsome).symm

/-- What the key of a new device of Alice signs. -/
def possessionOf (deviceId : String) (identity challenge : UInt8) : String :=
  canonicalJson devicePossessionSchema [("account_id", .str "alice"),
    ("challenge", .str (keyOf challenge)), ("device_id", .str deviceId),
    ("identity_public_key", .str (keyOf identity))]

theorem buildDevicePossessionMessage_sample (halice : identifier "account_id" "alice" = .ok "alice")
    (hdevice : identifier "device_id" deviceId = .ok deviceId) :
    buildDevicePossessionMessage "alice" deviceId (keyOf identity) (keyOf challenge) =
      .ok (possessionOf deviceId identity challenge) := by
  simp only [buildDevicePossessionMessage, canonicalPublicKey_keyOf, halice,
    canonicalChallenge_keyOf, hdevice]
  rfl

def laptopApproval : String :=
  canonicalJson deviceApprovalSchema [("account_id", .str "alice"),
    ("approval_challenge", .str (keyOf 4)), ("approver_device_id", .str "alice-phone"),
    ("new_device_id", .str "alice-laptop"), ("new_device_public_key", .str (keyOf 3))]

/-- What the keys of the two devices sign. -/
def sampleSignatures : List (String × Message × String) := [
  (keyOf 1, .statement (possessionOf "alice-phone" 1 2), sampleSignature),
  (keyOf 1, .prekey (keyOf 9), sampleSignature),
  (keyOf 1, .statement laptopApproval, sampleSignature),
  (keyOf 3, .statement (possessionOf "alice-laptop" 3 4), sampleSignature),
  (keyOf 3, .prekey (keyOf 9), sampleSignature)]

/-- The registry before and after the first device, and after the second. -/
def beforePhone : Registry := { challenged with signatures := sampleSignatures }
def beforeLaptop : Registry := enrolled beforePhone "alice-phone" "c-1" 1 none
def bothDevices : Registry := enrolled beforeLaptop "alice-laptop" "c-2" 3 (some "alice-phone")

theorem ids_sample : identifier "account_id" "alice" = .ok "alice" ∧
    identifier "device_id" "alice-phone" = .ok "alice-phone" ∧
    identifier "device_id" "alice-laptop" = .ok "alice-laptop" ∧
    identifier "approver_device_id" "alice-phone" = .ok "alice-phone" ∧
    identifier "new_device_id" "alice-laptop" = .ok "alice-laptop" := by decide +kernel

/-- The first device needs nobody's approval. -/
theorem phone_registered : stepRegistry id id sampleSettings sampleDigest beforePhone
    (.register "alice" (sampleRequest "alice-phone" "c-1" 1 2 none) none) = some beforeLaptop := by
  obtain ⟨halice, hphone, -⟩ := ids_sample
  have hlock : lockRequestMutation beforePhone.relay "alice" none =
      .ok ⟨"alice", "alice", true, true⟩ := by decide +kernel
  have hredeem : redeemable beforePhone "alice" "c-1" (keyOf 2) =
      some ⟨"c-1", "alice", keyOf 2, 300000000, none⟩ := by decide +kernel
  have hfirst : approver (burn beforePhone "c-1") "alice"
      (sampleRequest "alice-phone" "c-1" 1 2 none) (keyOf 1) = .ok none := by decide +kernel
  exact congrArg some (registerDevice_sample hlock rfl hredeem rfl (by decide +kernel)
    (checkRegistration_sample (by decide +kernel) (by decide +kernel)
      (buildDevicePossessionMessage_sample halice hphone) (List.mem_cons_self) (List.mem_cons_of_mem _ List.mem_cons_self) hfirst))

/-- The second device is approved by the first, which is trusted by then. -/
theorem laptop_registered : stepRegistry id id sampleSettings sampleDigest beforeLaptop
    (.register "alice" (sampleRequest "alice-laptop" "c-2" 3 4 (some "alice-phone")) none) =
      some bothDevices := by
  obtain ⟨halice, -, hlaptop, happroverId, hnew⟩ := ids_sample
  have happroval : buildDeviceApprovalMessage "alice" "alice-phone" "alice-laptop" (keyOf 3)
      (keyOf 4) = .ok laptopApproval := by
    simp only [buildDeviceApprovalMessage, canonicalPublicKey_keyOf, halice,
      canonicalChallenge_keyOf, happroverId, hnew]
    rfl
  have hlock : lockRequestMutation beforeLaptop.relay "alice" none =
      .ok ⟨"alice", "alice", true, true⟩ := by decide +kernel
  have hredeem : redeemable beforeLaptop "alice" "c-2" (keyOf 4) =
      some ⟨"c-2", "alice", keyOf 4, 300000000, none⟩ := by decide +kernel
  have htrusted : (trustedDevices (burn beforeLaptop "c-2").relay "alice") =
      [⟨"alice-phone", "alice", true, 0⟩] := by decide +kernel
  have hkeys : (burn beforeLaptop "c-2").deviceKeys.find? "alice-phone" =
      some ⟨"alice-phone", "alice", keyOf 1, keyOf 9, sampleSignature, keyOf 1, none⟩ := by
    decide +kernel
  have hne : sampleSignature ≠ "" := by decide +kernel
  have happrover : approver (burn beforeLaptop "c-2") "alice"
      (sampleRequest "alice-laptop" "c-2" 3 4 (some "alice-phone")) (keyOf 3) =
        .ok (some "alice-phone") := by
    have hverified : verifySignature (burn beforeLaptop "c-2") (keyOf 1) sampleSignature
        (.statement laptopApproval) = true :=
      verifySignature_of_mem (List.mem_cons_of_mem _ (List.mem_cons_of_mem _ List.mem_cons_self))
    have hby : (some "alice-phone").filter (· ≠ "") = some "alice-phone" := by decide
    have hsigned : (some sampleSignature).filter (· ≠ "") = some sampleSignature :=
      Option.filter_some_pos (decide_eq_true hne)
    unfold approver
    rw [htrusted]
    simp only [sampleRequest, hby, Option.map_some, hsigned]
    simp [hkeys, verifyDeviceApproval, happroval, verifyStatement, hverified]
  have hsignatures : (burn beforeLaptop "c-2").signatures = sampleSignatures := rfl
  exact congrArg some (registerDevice_sample hlock rfl hredeem rfl (by decide +kernel)
    (checkRegistration_sample (by decide +kernel) (by decide +kernel)
      (buildDevicePossessionMessage_sample halice hlaptop)
      (by simp [hsignatures, sampleSignatures]) (by simp [hsignatures, sampleSignatures])
      happrover))

/-- The laptop was approved by the phone when it was registered, and the account keeps a trusted
device. -/
theorem trusted_device_chain_sample :
    (registrySystem id id sampleSettings sampleDigest).Reachable bothDevices ∧
      (∃ p x key, (registrySystem id id sampleSettings sampleDigest).Reachable p ∧
        x.deviceId = "alice-laptop" ∧ Approved p "alice" x key "alice-phone") ∧
      ∀ as t, (registrySystem id id sampleSettings sampleDigest).Run bothDevices as t →
        HasTrusted t.relay "alice" := by
  have hsigned := reachable_signed reachable_challenged sampleSignatures
  have hbefore : (registrySystem id id sampleSettings sampleDigest).Reachable beforePhone := by
    have : challenged.signatures = [] := by decide +kernel
    rw [this, List.append_nil] at hsigned
    exact hsigned
  have hboth : (registrySystem id id sampleSettings sampleDigest).Reachable bothDevices :=
    (hbefore.step phone_registered).step laptop_registered
  obtain ⟨hkept, henrolled, -⟩ :=
    trusted_device_chain id id sampleSettings sampleDigest bothDevices hboth
  have htrusted : ∃ d ∈ bothDevices.relay.devices.rows, d.userId = "alice" ∧ d.trusted = true := by
    decide +kernel
  have hlaptop : ∃ d ∈ bothDevices.relay.devices.rows,
      d.id = "alice-laptop" ∧ d.userId = "alice" := by
    decide +kernel
  have hby : ∀ k ∈ bothDevices.deviceKeys.rows, k.deviceId = "alice-laptop" →
      k.approvedBy = some "alice-phone" := by decide +kernel
  refine ⟨hboth, ?_, fun as t hrun => hkept as t "alice" hrun htrusted⟩
  obtain ⟨d, hd, hid, huser⟩ := hlaptop
  obtain ⟨k, hk, hdevice, p, x, _, _, _, hp, -, -, hx, hchecked⟩ := henrolled d hd
  have happrover := hby k hk (hdevice.trans hid)
  refine ⟨p, x, k.identityKey, hp, hx.trans hid, ?_⟩
  rw [huser] at hchecked
  rcases hchecked.approved with ⟨-, hnone⟩ | ⟨approverId, hsome, happroved⟩
  · rw [happrover] at hnone
    cases hnone
  · rw [happrover] at hsome
    exact Option.some.inj hsome ▸ happroved

end Scap.E2ee
