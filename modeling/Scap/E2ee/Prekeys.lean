import Scap.E2ee.Membership
import Scap.Lib.OneTime

/-!
# One-time prekeys

To the relay a device's prekeys are a pool of one-time tokens: the rows without `consumed_at` are
unused, the others used, and a retention sweep forgets. `pool_of_change` is this refinement. Next
to the relay stands one client that refills its device's prekeys and retries what it does not know
to have arrived.

`prekeys_one_time`: no key is handed out twice as long as no upload brings back a swept one.
-/

namespace Scap.E2ee

open Scap.Lib

variable {cfg : Settings} {digest : ReplayPayload → String} {s t : Relay} {a : Action}

/-! ## The client -/

/-- The keys in the account that are not marked as published, and the upload that is pending; it
is marked as attempted from the start. -/
structure PrekeyClient where
  oneTimeKeys : List String
  prekeyUpload : Option (List String)
  deriving DecidableEq, Repr

/-- How far a call gets. A crash of the client is the loss of what it had not saved. -/
inductive Outcome where
  | noChallenge
  | requestLost
  | responseLost
  | answered
  deriving DecidableEq, Repr

structure PrekeyState where
  relay : Relay
  client : PrekeyClient

/-- The account's unpublished keys, `fresh` ones if there are none. -/
def accountKeys (c : PrekeyClient) (fresh : List String) : List String :=
  if c.oneTimeKeys = [] then fresh else c.oneTimeKeys

/-- What `refill` uploads: the pending upload, or the account's keys. -/
def uploadKeys (c : PrekeyClient) (fresh : List String) : List String :=
  c.prekeyUpload.getD (accountKeys c fresh)

/-- The client once the upload is saved and about to be sent. -/
def pendingUpload (c : PrekeyClient) (fresh : List String) : PrekeyClient where
  oneTimeKeys := if c.prekeyUpload.isSome then c.oneTimeKeys else accountKeys c fresh
  prekeyUpload := some (uploadKeys c fresh)

/-- `mark_keys_as_published`. -/
def markKeysAsPublished : PrekeyClient := ⟨[], none⟩

/-- `PrivateClient.refill`. -/
def refill (userId deviceId : String) (st : PrekeyState) (fresh : List String)
    (refusal : Option HttpError) (outcome : Outcome) : PrekeyState :=
  let pending := pendingUpload st.client fresh
  let upload := updateE2eePrekeys st.relay userId deviceId (uploadKeys st.client fresh) refusal
  match outcome with
  | .noChallenge => st
  | .requestLost => ⟨st.relay, pending⟩
  | .responseLost => ⟨upload.1, pending⟩
  | .answered =>
    match upload with
    | (s, .ok _) => ⟨s, markKeysAsPublished⟩
    | (s, .error e) =>
      -- a retry takes the verdict on duplicate keys as the answer to an earlier attempt
      if st.client.prekeyUpload.isSome ∧ e = prekeyReused then ⟨s, markKeysAsPublished⟩
      else ⟨s, pending⟩

inductive PrekeyAction where
  | relay (a : Action)
  | refill (fresh : List String) (refusal : Option HttpError) (outcome : Outcome)
  deriving DecidableEq, Repr

/-- The client of the device `deviceId` of `userId`, and everything else at the relay. -/
def stepPrekeys (cfg : Settings) (digest : ReplayPayload → String) (userId deviceId : String)
    (st : PrekeyState) : PrekeyAction → Option PrekeyState
  | .relay a => (stepRelay cfg digest st.relay a).map fun s => ⟨s, st.client⟩
  | .refill fresh refusal outcome =>
      if fresh = [] ∨ 100 < fresh.length then none
      else some (refill userId deviceId st fresh refusal outcome)

def prekeySystem (cfg : Settings) (digest : ReplayPayload → String) (userId deviceId : String) :
    System PrekeyState PrekeyAction :=
  System.ofFun (fun st => ∃ clock, st.relay = Relay.initial clock)
    (stepPrekeys cfg digest userId deviceId)

/-- No accepted upload brings back a key whose row a retention sweep has deleted. -/
def BringsBackNone (s : Relay) : Action → Prop
  | .updatePrekeys userId deviceId raw refusal =>
      ∀ keys, UploadAccepted s userId deviceId raw refusal keys →
        ∀ key ∈ keys, (deviceId, key) ∉ s.sweptKeys
  | _ => True

/-- The same of an upload by the client. -/
def RefillsFresh (userId deviceId : String) (st : PrekeyState) : PrekeyAction → Prop
  | .relay a => BringsBackNone st.relay a
  | .refill fresh refusal .responseLost | .refill fresh refusal .answered =>
      BringsBackNone st.relay
        (.updatePrekeys userId deviceId (uploadKeys st.client fresh) refusal)
  | _ => True

/-! ## The rows -/

/-- A key is a token of its device. -/
def E2eePreKey.token (p : E2eePreKey) : String × String := (p.deviceId, p.publicKey)

/-- One row to a key, and the device of every key is known. -/
structure PrekeyRows (s : Relay) : Prop where
  unique : (s.prekeys.map (·.token)).Nodup
  owner : ∀ p ∈ s.prekeys, ∃ d ∈ s.devices.rows, d.id = p.deviceId
  swept : ∀ x ∈ s.sweptKeys, ∃ d ∈ s.devices.rows, d.id = x.1

theorem PrekeyRows.eq_of_token (h : PrekeyRows s) {p q : E2eePreKey} (hp : p ∈ s.prekeys)
    (hq : q ∈ s.prekeys) (htoken : p.token = q.token) : p = q :=
  List.inj_on_of_nodup_map h.unique hp hq htoken

/-- Rows whose devices stay and whose keys are the same. -/
theorem PrekeyRows.of_tokens (h : PrekeyRows s)
    (hkeys : t.prekeys.map (·.token) = s.prekeys.map (·.token))
    (hswept : t.sweptKeys = s.sweptKeys)
    (hdevices : ∀ d ∈ s.devices.rows, ∃ x ∈ t.devices.rows, x.id = d.id) : PrekeyRows t := by
  have hstay : ∀ id, (∃ d ∈ s.devices.rows, d.id = id) → ∃ d ∈ t.devices.rows, d.id = id := by
    intro id ⟨d, hd, hid⟩
    obtain ⟨x, hx, hxd⟩ := hdevices d hd
    exact ⟨x, hx, hxd.trans hid⟩
  refine ⟨hkeys ▸ h.unique, fun p hp => ?_, fun x hx => hstay _ (h.swept x (hswept ▸ hx))⟩
  have hmem : p.token ∈ s.prekeys.map (·.token) := hkeys ▸ List.mem_map_of_mem hp
  obtain ⟨q, hq, hqp⟩ := List.mem_map.mp hmem
  have hdevice : q.deviceId = p.deviceId := congrArg Prod.fst hqp
  exact hstay _ (hdevice ▸ h.owner q hq)

theorem tokens_consumeWhere (s : Relay) (p : E2eePreKey → Bool) :
    (consumeWhere s p).prekeys.map (·.token) = s.prekeys.map (·.token) := by
  unfold consumeWhere
  rw [List.map_map]
  apply List.map_congr_left
  intro r _
  show E2eePreKey.token (if p r then _ else r) = r.token
  split <;> rfl

theorem prekeyRows_effect (h : Effect a s t) (hs : PrekeyRows s) : PrekeyRows t := by
  have hsame : ∀ d ∈ s.devices.rows, ∃ x ∈ s.devices.rows, x.id = d.id :=
    fun d hd => ⟨d, hd, rfl⟩
  cases h with
  | switchMode row mode classification hasMessages refusal hrow hempty ha =>
      unfold switchMode
      split <;> exact hs.of_tokens rfl rfl hsame
  | distrust deviceId =>
      refine hs.of_tokens rfl rfl fun d hd => ⟨_, List.mem_map_of_mem hd, ?_⟩
      split <;> rfl
  | consume p => exact hs.of_tokens (tokens_consumeWhere s p) rfl hsame
  | _ => exact hs.of_tokens rfl rfl hsame

theorem prekeyRows_effects (h : Effects a s t) (hs : PrekeyRows s) : PrekeyRows t := by
  induction h with
  | refl => exact hs
  | tail _ hlast ih => exact prekeyRows_effect hlast ih

theorem tokens_prekeyRows (s : Relay) (deviceId : String) (keys : List String) :
    (prekeyRows s deviceId keys).map (·.token) = keys.map fun key => (deviceId, key) := by
  unfold prekeyRows
  apply List.ext_getElem
  · simp
  · intro i _ _
    simp [E2eePreKey.token]

/-- Distinct keys that no row of the device has get rows of their own. -/
theorem prekeyRows_addPrekeys (hs : PrekeyRows s) {deviceId : String} {keys : List String}
    (hdevice : ∃ d ∈ s.devices.rows, d.id = deviceId) (hkeys : keys.Nodup)
    (hnew : ∀ p ∈ s.prekeys, p.deviceId = deviceId → p.publicKey ∉ keys) :
    PrekeyRows (addPrekeys s deviceId keys) := by
  have htokens : (addPrekeys s deviceId keys).prekeys.map (·.token) =
      s.prekeys.map (·.token) ++ keys.map fun key => (deviceId, key) := by
    rw [← tokens_prekeyRows s, ← List.map_append]
    rfl
  refine ⟨?_, fun p hp => ?_, hs.swept⟩
  · rw [htokens, List.nodup_append]
    refine ⟨hs.unique, hkeys.map fun _ _ h => (Prod.mk.inj h).2, ?_⟩
    rintro x hx y hy rfl
    obtain ⟨p, hp, rfl⟩ := List.mem_map.mp hx
    obtain ⟨key, hkey, htoken⟩ := List.mem_map.mp hy
    obtain ⟨hdevice, rfl⟩ := Prod.mk.inj htoken
    exact hnew p hp hdevice.symm hkey
  · rcases List.mem_append.mp hp with hp | hp
    · exact hs.owner p hp
    · have hmem := List.mem_map_of_mem (f := (·.token)) hp
      rw [tokens_prekeyRows] at hmem
      obtain ⟨key, -, htoken⟩ := List.mem_map.mp hmem
      have hid : deviceId = p.deviceId := congrArg Prod.fst htoken
      exact hid ▸ hdevice

/-- A sweep keeps the rows apart and remembers no more than it deletes. -/
theorem prekeyRows_sweepPrekeys (hs : PrekeyRows s) (prekeyIds : List Nat) :
    PrekeyRows (sweepPrekeys s prekeyIds) := by
  refine ⟨?_, fun p hp => hs.owner p (List.mem_filter.mp hp).1, fun x hx => ?_⟩
  · exact hs.unique.sublist (List.filter_sublist.map _)
  · rcases List.mem_append.mp hx with hx | hx
    · exact hs.swept x hx
    · obtain ⟨p, hp, rfl⟩ := List.mem_map.mp hx
      exact hs.owner p (List.mem_filter.mp hp).1

theorem prekeyRows_change (h : Change a s t) (hs : PrekeyRows s) : PrekeyRows t := by
  have hsame : ∀ d ∈ s.devices.rows, ∃ x ∈ s.devices.rows, x.id = d.id :=
    fun d hd => ⟨d, hd, rfl⟩
  cases h with
  | control heffects => exact prekeyRows_effects heffects hs
  | addDevice device keys hnew hkeys =>
      have hnone := KeyedTable.find?_eq_none.mp hnew
      have hadded : PrekeyRows { s with devices := s.devices.insertNew device } :=
        hs.of_tokens rfl rfl fun d hd => ⟨d, KeyedTable.mem_insertNew_of_mem hd, rfl⟩
      refine prekeyRows_addPrekeys hadded ⟨device, ?_, rfl⟩ hkeys ?_
      · exact (KeyedTable.mem_insertNew hnone).mpr (.inl rfl)
      · intro p hp hdevice
        obtain ⟨d, hd, hid⟩ := hs.owner p hp
        exact absurd (hid.trans hdevice) (hnone d hd)
  | upload userId deviceId raw keys refusal hupload ha =>
      obtain ⟨d, hd, -⟩ := hupload.device
      obtain ⟨hd, hid, -⟩ := trustedDevice?_eq_some.mp hd
      exact prekeyRows_addPrekeys hs ⟨d, hd, hid⟩ hupload.distinct hupload.unused
  | handOut candidate hmem hleft =>
      have hconsumed := hs.of_tokens (tokens_consumeWhere s fun p => p.id = candidate.id) rfl hsame
      exact ⟨hconsumed.unique, hconsumed.owner, hconsumed.swept⟩
  | store userId sessionId p refusal e hunder hfresh hnow hreplay ha =>
      exact hs.of_tokens rfl rfl hsame
  | sweep heffects prekeyIds =>
      exact prekeyRows_sweepPrekeys (prekeyRows_effects heffects hs) prekeyIds

/-! ## The pool -/

/-- The prekeys of all devices, as one pool. -/
def Relay.pool (s : Relay) : Pool (String × String) where
  unused := {x | ∃ p ∈ s.prekeys, p.token = x ∧ p.consumedAt = none}
  used := {x | ∃ p ∈ s.prekeys, p.token = x ∧ p.consumedAt ≠ none}
  forgotten := {x | x ∈ s.sweptKeys}
  handedOut := s.handedOut

/-- Runs of pools in which nothing forgotten is deposited. -/
abbrev PoolRun (p : Pool (String × String)) (as : List (Pool.Action (String × String)))
    (q : Pool (String × String)) : Prop :=
  ((Pool.system (String × String)).restrict Pool.KeepsOut).Run p as q

/-- The tokens of the rows that satisfy `p`. -/
def tokensWhere (s : Relay) (p : E2eePreKey → Bool) : Set (String × String) :=
  {x | ∃ r ∈ s.prekeys, r.token = x ∧ p r = true}

theorem mem_consumeWhere {p : E2eePreKey → Bool} {r : E2eePreKey} :
    r ∈ (consumeWhere s p).prekeys ↔
      ∃ x ∈ s.prekeys, (if p x then { x with consumedAt := some s.clock } else x) = r :=
  List.mem_map

/-- Consumed rows are withdrawn. -/
theorem pool_consumeWhere (hs : PrekeyRows s) (p : E2eePreKey → Bool) :
    (consumeWhere s p).pool = { s.pool with
      unused := s.pool.unused \ tokensWhere s p
      used := s.pool.used ∪ (s.pool.unused ∩ tokensWhere s p) } := by
  apply Pool.ext
  · ext x
    constructor
    · rintro ⟨r, hr, rfl, hnone⟩
      obtain ⟨y, hy, rfl⟩ := mem_consumeWhere.mp hr
      split at hnone
      · cases hnone
      · next hp =>
        rw [if_neg hp]
        refine ⟨⟨y, hy, rfl, hnone⟩, ?_⟩
        rintro ⟨z, hz, htoken, hpz⟩
        exact hp (hs.eq_of_token hz hy htoken ▸ hpz)
    · rintro ⟨⟨r, hr, rfl, hnone⟩, hnot⟩
      have hp : ¬ p r = true := fun h => hnot ⟨r, hr, rfl, h⟩
      exact ⟨r, mem_consumeWhere.mpr ⟨r, hr, if_neg hp⟩, rfl, hnone⟩
  · ext x
    constructor
    · rintro ⟨r, hr, rfl, hsome⟩
      obtain ⟨y, hy, rfl⟩ := mem_consumeWhere.mp hr
      split at hsome
      · next hp =>
        rw [if_pos hp]
        by_cases hleft : y.consumedAt = none
        · exact .inr ⟨⟨y, hy, rfl, hleft⟩, y, hy, rfl, hp⟩
        · exact .inl ⟨y, hy, rfl, hleft⟩
      · next hp =>
        rw [if_neg hp]
        exact .inl ⟨y, hy, rfl, hsome⟩
    · rintro (⟨r, hr, rfl, hsome⟩ | ⟨-, r, hr, rfl, hp⟩)
      · refine ⟨_, mem_consumeWhere.mpr ⟨r, hr, rfl⟩, ?_⟩
        split
        · exact ⟨rfl, Option.some_ne_none _⟩
        · exact ⟨rfl, hsome⟩
      · refine ⟨_, mem_consumeWhere.mpr ⟨r, hr, rfl⟩, ?_⟩
        rw [if_pos hp]
        exact ⟨rfl, Option.some_ne_none _⟩
  · rfl
  · rfl

theorem pool_addPrekeys (s : Relay) (deviceId : String) (keys : List String) :
    (addPrekeys s deviceId keys).pool =
      { s.pool with unused := s.pool.unused ∪ {x | x.1 = deviceId ∧ x.2 ∈ keys} } := by
  have hnew : ∀ x, (∃ p ∈ prekeyRows s deviceId keys, p.token = x) ↔
      x.1 = deviceId ∧ x.2 ∈ keys := by
    intro x
    rw [← List.mem_map, tokens_prekeyRows, List.mem_map]
    constructor
    · rintro ⟨key, hkey, rfl⟩
      exact ⟨rfl, hkey⟩
    · rintro ⟨rfl, hkey⟩
      exact ⟨x.2, hkey, rfl⟩
  have hunconsumed : ∀ p ∈ prekeyRows s deviceId keys, p.consumedAt = none := by
    intro p hp
    obtain ⟨i, hi, rfl⟩ := List.mem_mapIdx.mp hp
    rfl
  apply Pool.ext
  · ext x
    constructor
    · rintro ⟨p, hp, rfl, hnone⟩
      rcases List.mem_append.mp hp with hp | hp
      · exact .inl ⟨p, hp, rfl, hnone⟩
      · exact .inr ((hnew _).mp ⟨p, hp, rfl⟩)
    · rintro (⟨p, hp, rfl, hnone⟩ | hx)
      · exact ⟨p, List.mem_append_left _ hp, rfl, hnone⟩
      · obtain ⟨p, hp, rfl⟩ := (hnew x).mpr hx
        exact ⟨p, List.mem_append_right _ hp, rfl, hunconsumed p hp⟩
  · ext x
    constructor
    · rintro ⟨p, hp, rfl, hsome⟩
      rcases List.mem_append.mp hp with hp | hp
      · exact ⟨p, hp, rfl, hsome⟩
      · exact absurd (hunconsumed p hp) hsome
    · rintro ⟨p, hp, rfl, hsome⟩
      exact ⟨p, List.mem_append_left _ hp, rfl, hsome⟩
  · rfl
  · rfl

/-- What a sweep deletes is forgotten. -/
theorem pool_sweepPrekeys (hs : PrekeyRows s) (prekeyIds : List Nat) :
    (sweepPrekeys s prekeyIds).pool = { s.pool with
      used := s.pool.used \ tokensWhere s fun p => p.consumedAt.isSome && p.id ∈ prekeyIds
      forgotten := s.pool.forgotten ∪ (s.pool.used ∩
        tokensWhere s fun p => p.consumedAt.isSome && p.id ∈ prekeyIds) } := by
  apply Pool.ext
  · ext x
    constructor
    · rintro ⟨p, hp, rfl, hnone⟩
      exact ⟨p, (List.mem_filter.mp hp).1, rfl, hnone⟩
    · rintro ⟨p, hp, rfl, hnone⟩
      exact ⟨p, List.mem_filter.mpr ⟨hp, by simp [hnone]⟩, rfl, hnone⟩
  · ext x
    constructor
    · rintro ⟨p, hp, rfl, hsome⟩
      obtain ⟨hp, hnot⟩ := List.mem_filter.mp hp
      refine ⟨⟨p, hp, rfl, hsome⟩, ?_⟩
      rintro ⟨q, hq, htoken, hdue⟩
      rw [hs.eq_of_token hq hp htoken] at hdue
      simp [hdue] at hnot
    · rintro ⟨⟨p, hp, rfl, hsome⟩, hnot⟩
      refine ⟨p, List.mem_filter.mpr ⟨hp, ?_⟩, rfl, hsome⟩
      rw [Bool.not_eq_true']
      exact Bool.eq_false_iff.mpr fun hdue => hnot ⟨p, hp, rfl, hdue⟩
  · ext x
    constructor
    · intro hx
      rcases List.mem_append.mp hx with hx | hx
      · exact .inl hx
      · obtain ⟨p, hp, rfl⟩ := List.mem_map.mp hx
        obtain ⟨hp, hdue⟩ := List.mem_filter.mp hp
        refine .inr ⟨⟨p, hp, rfl, ?_⟩, p, hp, rfl, hdue⟩
        intro hnone
        simp [hnone] at hdue
    · rintro (hx | ⟨-, p, hp, rfl, hdue⟩)
      · exact List.mem_append_left _ hx
      · refine List.mem_append_right _ (List.mem_map.mpr ⟨p, List.mem_filter.mpr ⟨hp, hdue⟩, rfl⟩)
  · rfl

theorem pool_effect (h : Effect a s t) (hs : PrekeyRows s) : ∃ as, PoolRun s.pool as t.pool := by
  cases h with
  | switchMode row mode classification hasMessages refusal hrow hempty ha =>
      unfold switchMode
      split <;> exact ⟨[], .nil⟩
  | consume p =>
      rw [pool_consumeWhere hs]
      exact ⟨[.withdraw (tokensWhere s p)], System.Run.single ⟨.withdraw, trivial⟩⟩
  | _ => exact ⟨[], .nil⟩

theorem pool_effects (h : Effects a s t) (hs : PrekeyRows s) :
    ∃ as, PoolRun s.pool as t.pool := by
  induction h with
  | refl => exact ⟨[], .nil⟩
  | tail hbefore hlast ih =>
      obtain ⟨as, hrun⟩ := ih
      obtain ⟨bs, hrun'⟩ := pool_effect hlast (prekeyRows_effects hbefore hs)
      exact ⟨as ++ bs, hrun.append hrun'⟩

/-- A bundle hands out the candidate's token, and with it withdraws whatever has the same row
identifier. -/
theorem pool_handOut (hs : PrekeyRows s) {candidate : E2eePreKey} (hmem : candidate ∈ s.prekeys)
    (hleft : candidate.consumedAt = none) :
    ∃ as, PoolRun s.pool as (Relay.pool
      { consumeWhere s (fun p => p.id = candidate.id) with
        handedOut := s.handedOut ++ [(candidate.deviceId, candidate.publicKey)] }) := by
  have hout : candidate.token ∈ s.pool.unused := ⟨candidate, hmem, rfl, hleft⟩
  have hsame : candidate.token ∈ tokensWhere s fun p => p.id = candidate.id :=
    ⟨candidate, hmem, rfl, by simp⟩
  have hpool := pool_consumeWhere hs fun p => p.id = candidate.id
  have hunused := congrArg Pool.unused hpool
  have hused := congrArg Pool.used hpool
  have hafter : Relay.pool
      { consumeWhere s (fun p => p.id = candidate.id) with
        handedOut := s.handedOut ++ [(candidate.deviceId, candidate.publicKey)] } =
      { s.pool with
        unused := s.pool.unused \ tokensWhere s fun p => p.id = candidate.id
        used := s.pool.used ∪ (s.pool.unused ∩ tokensWhere s fun p => p.id = candidate.id)
        handedOut := s.pool.handedOut ++ [candidate.token] } :=
    Pool.ext hunused hused rfl rfl
  rw [hafter]
  exact ⟨_, Pool.run_handOut_withdraw hout hsame⟩

/-- **Every change at the relay is a run of the pool**, and deposits nothing forgotten if no upload
brings back a swept key. -/
theorem pool_of_change (h : Change a s t) (hs : PrekeyRows s) (hnone : BringsBackNone s a) :
    ∃ as, PoolRun s.pool as t.pool := by
  cases h with
  | control heffects => exact pool_effects heffects hs
  | addDevice device keys hnew hkeys =>
      have hunknown := KeyedTable.find?_eq_none.mp hnew
      rw [pool_addPrekeys]
      refine ⟨[.deposit {x | x.1 = device.id ∧ x.2 ∈ keys}], .single ⟨.deposit ?_, ?_⟩⟩
      · rw [Set.disjoint_left]
        rintro x ⟨hdevice, -⟩ ⟨p, hp, rfl, -⟩
        obtain ⟨d, hd, hid⟩ := hs.owner p hp
        exact hunknown d hd (hid.trans hdevice)
      · show Disjoint _ s.pool.forgotten
        rw [Set.disjoint_left]
        rintro x ⟨hdevice, -⟩ hswept
        obtain ⟨d, hd, hid⟩ := hs.swept x hswept
        exact hunknown d hd (hid.trans hdevice)
  | upload userId deviceId raw keys refusal hupload ha =>
      subst ha
      rw [pool_addPrekeys]
      refine ⟨[.deposit {x | x.1 = deviceId ∧ x.2 ∈ keys}], .single ⟨.deposit ?_, ?_⟩⟩
      · rw [Set.disjoint_left]
        rintro x ⟨hdevice, hkey⟩ ⟨p, hp, rfl, -⟩
        exact hupload.unused p hp hdevice hkey
      · show Disjoint _ s.pool.forgotten
        rw [Set.disjoint_left]
        rintro ⟨d, key⟩ ⟨rfl, hkey⟩ hswept
        exact hnone keys hupload key hkey hswept
  | handOut candidate hmem hleft => exact pool_handOut hs hmem hleft
  | store userId sessionId p refusal e hunder hfresh hnow hreplay ha => exact ⟨[], .nil⟩
  | @sweep u heffects prekeyIds =>
      obtain ⟨as, hrun⟩ := pool_effects heffects hs
      have hforget : Pool.Step u.pool
          (.forget (tokensWhere u fun p => p.consumedAt.isSome && p.id ∈ prekeyIds)) _ := .forget
      rw [← pool_sweepPrekeys (prekeyRows_effects heffects hs)] at hforget
      exact ⟨_, hrun.snoc ⟨hforget, trivial⟩⟩

/-! ## Runs -/

variable {userId deviceId : String} {st st' : PrekeyState} {b : PrekeyAction}

/-- A step is a change at the relay, and brings back no swept key if the step does not. -/
theorem change_of_prekeyStep (h : (prekeySystem cfg digest userId deviceId).step st b st')
    (hfresh : RefillsFresh userId deviceId st b) :
    ∃ a, Change a st.relay st'.relay ∧ BringsBackNone st.relay a := by
  replace h : stepPrekeys cfg digest userId deviceId st b = some st' := h
  cases b with
  | relay a =>
      simp only [stepPrekeys, Option.map_eq_some_iff] at h
      obtain ⟨s, hs, rfl⟩ := h
      exact ⟨a, change_of_step hs, hfresh⟩
  | refill fresh refusal outcome =>
      obtain ⟨-, rfl⟩ := of_guarded h
      have hstill : ∃ a, Change a st.relay st.relay ∧ BringsBackNone st.relay a :=
        ⟨.tick 0, .control .refl, trivial⟩
      have hupload : Change (.updatePrekeys userId deviceId (uploadKeys st.client fresh) refusal)
          st.relay (updateE2eePrekeys st.relay userId deviceId
            (uploadKeys st.client fresh) refusal).1 := change_updateE2eePrekeys
      cases outcome with
      | noChallenge => exact hstill
      | requestLost => exact hstill
      | responseLost => exact ⟨_, hupload, hfresh⟩
      | answered =>
          refine ⟨.updatePrekeys userId deviceId (uploadKeys st.client fresh) refusal, ?_, hfresh⟩
          unfold refill
          dsimp only
          split
          · next hreply =>
            rw [hreply] at hupload
            exact hupload
          · next hreply =>
            rw [hreply] at hupload
            split <;> exact hupload

theorem pool_reachable
    (h : ((prekeySystem cfg digest userId deviceId).restrict
      (RefillsFresh userId deviceId)).Reachable st) :
    PrekeyRows st.relay ∧
      ((Pool.system (String × String)).restrict Pool.KeepsOut).Reachable st.relay.pool := by
  refine System.Reachable.induct (I := fun st => PrekeyRows st.relay ∧
    ((Pool.system (String × String)).restrict Pool.KeepsOut).Reachable st.relay.pool) ?_ ?_ h
  · rintro st ⟨clock, hclock⟩
    rw [hclock]
    constructor
    · constructor <;> simp [Relay.initial]
    · apply System.Reachable.of_init
      show Relay.pool _ = Pool.empty
      apply Pool.ext <;> simp [Relay.pool, Relay.initial, Pool.empty]
  · rintro st b st' - ⟨hrows, hpool⟩ ⟨hstep, hfresh⟩
    obtain ⟨a, hchange, hnone⟩ := change_of_prekeyStep hstep hfresh
    obtain ⟨as, hrun⟩ := pool_of_change hchange hrows hnone
    exact ⟨prekeyRows_change hchange hrows, hpool.run hrun⟩

/-- **One-time prekeys are one time** in every run in which no accepted upload brings back a key
whose consumed row a retention sweep has deleted. -/
theorem prekeys_one_time (cfg : Settings) (digest : ReplayPayload → String)
    (userId deviceId : String) (st : PrekeyState)
    (h : ((prekeySystem cfg digest userId deviceId).restrict
      (RefillsFresh userId deviceId)).Reachable st) : st.relay.handedOut.Nodup :=
  Pool.handedOut_nodup (pool_reachable h).2

/-! ### A refill whose answer is lost -/

def sampleKey : String := "AAAAAAAAAAAAAAAAAAAAAAAAAAAAAAAAAAAAAAAAAAA"
def sampleKey' : String := "AQAAAAAAAAAAAAAAAAAAAAAAAAAAAAAAAAAAAAAAAAA"

/-- Alice's device is registered with one key and refills with another; bob fetches both, and a
sweep deletes the rows. -/
def refillRun : List PrekeyAction := [
  .relay (.register "alice" "alice" false),
  .relay (.register "bob" "bob" false),
  .relay (.registerDevice "alice" "alice-device" [sampleKey] none),
  .refill [sampleKey'] none .responseLost,
  .relay (.bundle "bob" "alice" none none 0 0),
  .relay (.bundle "bob" "alice" none none 0 0),
  .relay (.retention [] [0, 1])]

/-- The retry does not know the answer, and bob fetches once more. -/
def retryRun : List PrekeyAction := [
  .refill [sampleKey'] none .answered,
  .relay (.bundle "bob" "alice" none none 0 0)]

def quietClient : PrekeyState := ⟨Relay.initial 0, ⟨[], none⟩⟩

/-- As long as nothing is swept, nothing can be brought back. -/
theorem refillsFresh_of_isEmpty (st : PrekeyState) (b : PrekeyAction)
    (h : st.relay.sweptKeys.isEmpty = true) : RefillsFresh userId deviceId st b := by
  have hnone : ∀ a, BringsBackNone st.relay a := by
    intro a
    unfold BringsBackNone
    rw [List.isEmpty_iff.mp h]
    split
    · exact fun _ _ _ _ => List.not_mem_nil
    · trivial
  unfold RefillsFresh
  split
  · exact hnone _
  · exact hnone _
  · exact hnone _
  · trivial

def refilled : PrekeyState :=
  (System.exec (System.checked (fun st _ => st.relay.sweptKeys.isEmpty)
    (stepPrekeys sampleSettings sampleDigest "alice" "alice-device")) quietClient
    refillRun).get (by decide +kernel)

def retried : PrekeyState :=
  (System.exec (stepPrekeys sampleSettings sampleDigest "alice" "alice-device") refilled
    retryRun).get (by decide +kernel)

theorem run_refilled : ((prekeySystem sampleSettings sampleDigest "alice" "alice-device").restrict
    (RefillsFresh "alice" "alice-device")).Run quietClient refillRun refilled :=
  System.run_of_exec_checked refillsFresh_of_isEmpty (Option.some_get _).symm

theorem run_retried : (prekeySystem sampleSettings sampleDigest "alice" "alice-device").Run
    refilled retryRun retried := System.run_of_exec (Option.some_get _).symm

theorem prekeys_one_time_sample :
    refilled.relay.handedOut.length = 2 ∧ refilled.relay.handedOut.Nodup :=
  ⟨by decide +kernel, prekeys_one_time sampleSettings sampleDigest "alice" "alice-device" refilled
    ⟨quietClient, refillRun, ⟨0, rfl⟩, run_refilled⟩⟩

/-- The retried key goes out twice. -/
theorem prekey_handed_out_twice :
    (prekeySystem sampleSettings sampleDigest "alice" "alice-device").Reachable retried ∧
      ¬ retried.relay.handedOut.Nodup :=
  ⟨⟨quietClient, _, ⟨0, rfl⟩, run_refilled.of_restrict.append run_retried⟩, by decide +kernel⟩

end Scap.E2ee
