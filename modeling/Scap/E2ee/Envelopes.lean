import Scap.E2ee.Effects

/-!
# Stored envelopes

`envelope_of_change` is the one change that adds an envelope and what holds before it;
`DrawnInv` says that the identifiers the server drew are told apart from new ones, and
`EnvelopeInv` that no envelope is from the future.
-/

namespace Scap.E2ee

open Scap.Lib

variable {cfg : Settings} {digest : ReplayPayload → String} {s t : Relay} {a : Action}

/-! ## Storing -/

/-- Nothing but a store adds an envelope. -/
theorem envelopes_effect (h : Effect a s t) : t.envelopes.rows ⊆ s.envelopes.rows := by
  cases h with
  | dropSession sessionId => exact fun e he => (KeyedTable.mem_filter.mp he).1
  | switchMode row mode classification hasMessages refusal hrow hempty ha =>
      unfold switchMode
      split <;> exact List.Subset.refl _
  | _ => exact List.Subset.refl _

theorem envelopes_effects (h : Effects a s t) : t.envelopes.rows ⊆ s.envelopes.rows := by
  induction h with
  | refl => exact List.Subset.refl _
  | tail _ hlast ih => exact List.Subset.trans (envelopes_effect hlast) ih

/-- A new envelope is stored under the conditions that hold before the step. -/
theorem envelope_of_change (h : Change a s t) {e : E2eeEnvelope} (he : e ∈ t.envelopes.rows)
    (hnew : e ∉ s.envelopes.rows) : StoredUnder s e := by
  cases h with
  | control heffects => exact absurd (envelopes_effects heffects he) hnew
  | store userId sessionId p refusal x hunder hfresh hnow hreplay ha =>
      rcases KeyedTable.mem_insertNew_or he with rfl | hold
      · exact hunder
      · exact absurd hold hnew
  | sweep heffects prekeyIds => exact absurd (envelopes_effects heffects he) hnew
  | _ => exact absurd he hnew

/-! ## Identifiers -/

/-- Accounts and conversations have identifiers that were drawn. -/
structure DrawnInv (s : Relay) : Prop where
  users : ∀ u ∈ s.users.rows, u.id ∈ s.drawn
  sessions : ∀ c ∈ s.sessions.rows, c.id ∈ s.drawn

theorem DrawnInv.of_ids (hs : DrawnInv s) (hdrawn : s.drawn ⊆ t.drawn)
    (husers : ∀ u ∈ t.users.rows, ∃ v ∈ s.users.rows, v.id = u.id)
    (hsessions : ∀ c ∈ t.sessions.rows, ∃ b ∈ s.sessions.rows, b.id = c.id) : DrawnInv t where
  users u hu := by
    obtain ⟨v, hv, hid⟩ := husers u hu
    exact hid ▸ hdrawn (hs.users v hv)
  sessions c hc := by
    obtain ⟨b, hb, hid⟩ := hsessions c hc
    exact hid ▸ hdrawn (hs.sessions b hb)

theorem drawnInv_effect (hs : DrawnInv s) (h : Effect a s t) : DrawnInv t := by
  have husers : ∀ u ∈ s.users.rows, ∃ v ∈ s.users.rows, v.id = u.id := fun u hu => ⟨u, hu, rfl⟩
  have hsessions : ∀ c ∈ s.sessions.rows, ∃ b ∈ s.sessions.rows, b.id = c.id :=
    fun c hc => ⟨c, hc, rfl⟩
  have hmapped : ∀ f : ChatSession → ChatSession, (∀ c, (f c).id = c.id) →
      ∀ c ∈ s.sessions.rows.map f, ∃ b ∈ s.sessions.rows, b.id = c.id := by
    intro f hf c hc
    obtain ⟨b, hb, rfl⟩ := List.mem_map.mp hc
    exact ⟨b, hb, (hf b).symm⟩
  cases h with
  | register id username mfaEnabled hfresh =>
      refine ⟨fun u hu => ?_, fun c hc => List.mem_cons_of_mem _ (hs.sessions c hc)⟩
      rcases KeyedTable.mem_insertNew_or hu with rfl | hu
      · exact List.mem_cons_self
      · exact List.mem_cons_of_mem _ (hs.users u hu)
  | setAccount f hid hname =>
      refine hs.of_ids (List.Subset.refl _) (fun u hu => ?_) hsessions
      obtain ⟨v, hv, rfl⟩ := List.mem_map.mp hu
      exact ⟨v, hv, (hid v).symm⟩
  | createSession userId classification refusal row hfresh ha =>
      refine ⟨fun u hu => List.mem_cons_of_mem _ (hs.users u hu), fun c hc => ?_⟩
      rcases KeyedTable.mem_insertNew_or hc with rfl | hc
      · exact List.mem_cons_self
      · exact List.mem_cons_of_mem _ (hs.sessions c hc)
  | dropSession sessionId =>
      exact hs.of_ids (List.Subset.refl _) husers
        fun c hc => hsessions c (KeyedTable.mem_filter.mp hc).1
  | switchMode row mode classification hasMessages refusal hrow hempty ha =>
      unfold switchMode
      split
      · exact hs
      · exact hs.of_ids (List.Subset.refl _) husers (hmapped _ fun c => by split <;> rfl)
  | relabel row classification deadline =>
      exact hs.of_ids (List.Subset.refl _) husers (hmapped _ fun c => by split <;> rfl)
  | beginMembership ownerId refusal row target hrow htarget hinactive ha =>
      exact hs.of_ids (List.Subset.refl _) husers (hmapped _ fun c => by split <;> rfl)
  | endMembership row userId hrow =>
      exact hs.of_ids (List.Subset.refl _) husers (hmapped _ fun c => by split <;> rfl)
  | advanceEpoch sessionId =>
      exact hs.of_ids (List.Subset.refl _) husers (hmapped _ fun c => by split <;> rfl)
  | _ => exact hs.of_ids (List.Subset.refl _) husers hsessions

theorem drawnInv_effects (hs : DrawnInv s) (h : Effects a s t) : DrawnInv t := by
  induction h with
  | refl => exact hs
  | tail _ hlast ih => exact drawnInv_effect ih hlast

theorem drawnInv_change (hs : DrawnInv s) (h : Change a s t) : DrawnInv t := by
  cases h with
  | control heffects => exact drawnInv_effects hs heffects
  | store userId sessionId p refusal e hunder hfresh hnow hreplay ha =>
      exact ⟨fun u hu => List.mem_cons_of_mem _ (hs.users u hu),
        fun c hc => List.mem_cons_of_mem _ (hs.sessions c hc)⟩
  | sweep heffects prekeyIds =>
      have hcontrol := drawnInv_effects hs heffects
      exact ⟨hcontrol.users, hcontrol.sessions⟩
  | _ => exact ⟨hs.users, hs.sessions⟩

theorem drawnInv_of_reachable (h : (relaySystem cfg digest).Reachable s) : DrawnInv s := by
  refine System.Reachable.induct (I := DrawnInv) ?_ ?_ h
  · rintro s ⟨clock, rfl⟩
    constructor <;> simp [Relay.initial]
  · exact fun s a t _ hs hstep => drawnInv_change hs (change_of_step hstep)

/-! ## Time -/

/-- Identifiers stay drawn and the clock does not go back. -/
structure Later (s t : Relay) : Prop where
  drawn : s.drawn ⊆ t.drawn
  clock : s.clock ≤ t.clock

theorem Later.refl (s : Relay) : Later s s := ⟨List.Subset.refl _, le_refl _⟩

theorem later_effect (h : Effect a s t) : Later s t := by
  have hsame := Later.refl s
  cases h with
  | tick d => exact ⟨List.Subset.refl _, by show s.clock ≤ s.clock + d; omega⟩
  | register id username mfaEnabled hfresh => exact ⟨List.subset_cons_self _ _, le_refl _⟩
  | createSession userId classification refusal row hfresh ha =>
      exact ⟨List.subset_cons_self _ _, le_refl _⟩
  | switchMode row mode classification hasMessages refusal hrow hempty ha =>
      unfold switchMode
      split <;> exact ⟨hsame.drawn, hsame.clock⟩
  | _ => exact ⟨hsame.drawn, hsame.clock⟩

theorem later_effects (h : Effects a s t) : Later s t := by
  induction h with
  | refl => exact .refl s
  | tail _ hlast ih =>
      have hlater := later_effect hlast
      exact ⟨List.Subset.trans ih.drawn hlater.drawn, ih.clock.trans hlater.clock⟩

theorem later_change (h : Change a s t) : Later s t := by
  have hsame := Later.refl s
  cases h with
  | control heffects => exact later_effects heffects
  | store userId sessionId p refusal e hunder hfresh hnow hreplay ha =>
      exact ⟨List.subset_cons_self _ _, le_refl _⟩
  | sweep heffects prekeyIds =>
      have hcontrol := later_effects heffects
      exact ⟨hcontrol.drawn, hcontrol.clock⟩
  | _ => exact ⟨hsame.drawn, hsame.clock⟩

/-- Every envelope has a drawn identifier and was stored at some time up to now. -/
structure EnvelopeInv (s : Relay) : Prop where
  drawn : ∀ e ∈ s.envelopes.rows, e.id ∈ s.drawn
  past : ∀ e ∈ s.envelopes.rows, e.createdAt ≤ s.clock

theorem envelopeInv_effects (h : Effects a s t) (hs : EnvelopeInv s) : EnvelopeInv t := by
  have hlater := later_effects h
  have hrows := envelopes_effects h
  constructor
  · intro e he
    exact hlater.drawn (hs.drawn e (hrows he))
  · intro e he
    exact (hs.past e (hrows he)).trans hlater.clock

theorem envelopeInv_change (h : Change a s t) (hs : EnvelopeInv s) : EnvelopeInv t := by
  cases h with
  | control heffects => exact envelopeInv_effects heffects hs
  | store userId sessionId p refusal new hunder hfresh hnow hreplay ha =>
      constructor
      · intro e he
        rcases KeyedTable.mem_insertNew_or he with rfl | he
        · exact List.mem_cons_self
        · exact List.mem_cons_of_mem _ (hs.drawn e he)
      · intro e he
        rcases KeyedTable.mem_insertNew_or he with rfl | he
        · exact hnow.le
        · exact hs.past e he
  | sweep heffects prekeyIds =>
      have hcontrol := envelopeInv_effects heffects hs
      exact ⟨hcontrol.drawn, hcontrol.past⟩
  | _ => exact ⟨hs.drawn, hs.past⟩

theorem envelopeInv_of_reachable (h : (relaySystem cfg digest).Reachable s) : EnvelopeInv s := by
  refine System.Reachable.induct (I := EnvelopeInv) ?_ ?_ h
  · rintro s ⟨clock, rfl⟩
    constructor <;> simp [Relay.initial]
  · exact fun s a t _ hs hstep => envelopeInv_change (change_of_step hstep) hs

/-- A new identifier makes a new cursor. -/
theorem fresh_cursor {e : E2eeEnvelope} (hs : EnvelopeInv s) (hfresh : e.id ∉ s.drawn) :
    ∀ x ∈ s.envelopes.rows, x.cursor ≠ e.cursor := by
  intro x hx hsame
  have hid : x.id = e.id := congrArg (fun k => (ofLex k).2) hsame
  exact hfresh (hid ▸ hs.drawn x hx)

/-! ## Accepted uploads -/

/-- The relay accepts an upload as `envelope`, into the conversation `row`. -/
structure Accepted (cfg : Settings) (digest : ReplayPayload → String) (s : Relay)
    (userId sessionId : String) (p : EnvelopeSend) (refusal : Option HttpError)
    (row : ChatSession) (member : ConversationMember) (envelope : OpaqueEnvelope) : Prop where
  admitted : requirePrivateMemberSession cfg s userId sessionId refusal = (s, .ok (row, member))
  checked : checkEnvelope cfg s userId row member p = .ok envelope
  unused : ∀ x ∈ s.envelopes.rows, x.replayKey ≠
    digest ⟨envelope.clientMessageId, envelope.recipient, envelope.senderDeviceId⟩

section
variable {userId sessionId : String} {p : EnvelopeSend} {refusal : Option HttpError}

theorem sendE2eeEnvelope_of_accepted (id : String) {row : ChatSession} {member : ConversationMember}
    {envelope : OpaqueEnvelope}
    (h : Accepted cfg digest s userId sessionId p refusal row member envelope) :
    sendE2eeEnvelope cfg digest s userId sessionId p refusal id =
      (storeEnvelope s (envelopeRow digest s userId row p envelope id),
        .ok (envelopeRow digest s userId row p envelope id)) := by
  have hnone : ¬ (s.envelopes.rows.any fun x =>
      x.replayKey = (envelopeRow digest s userId row p envelope id).replayKey) = true := by
    intro hany
    obtain ⟨x, hx, hsame⟩ := List.any_eq_true.mp hany
    exact h.unused x hx (of_decide_eq_true hsame)
  unfold sendE2eeEnvelope
  rw [h.admitted]
  dsimp only
  rw [h.checked]
  dsimp only
  rw [if_neg hnone]

/-- An upload that is not accepted is refused, and changes nothing but for an expired
conversation. -/
theorem sendE2eeEnvelope_of_not_accepted (id : String)
    (h : ∀ row member envelope,
      ¬ Accepted cfg digest s userId sessionId p refusal row member envelope) :
    ∃ e, sendE2eeEnvelope cfg digest s userId sessionId p refusal id =
      ((requirePrivateMemberSession cfg s userId sessionId refusal).1, .error e) := by
  unfold sendE2eeEnvelope
  split
  · next e hmember => exact ⟨e, by rw [hmember]⟩
  · next row member hmember =>
    obtain ⟨rfl, -⟩ := requirePrivateMemberSession_ok hmember
    rw [hmember]
    split
    · next e _ => exact ⟨e, rfl⟩
    · next envelope hcheck =>
      dsimp only
      split
      · exact ⟨replayed, rfl⟩
      · next hreplay =>
        refine absurd ⟨hmember, hcheck, fun x hx hsame => hreplay ?_⟩ (h row member envelope)
        exact List.any_eq_true.mpr ⟨x, hx, decide_eq_true hsame⟩

end

/-- A refusal of the guard leaves the store alone or drops an expired conversation. -/
theorem requirePrivateMemberSession_fst (cfg : Settings) (s : Relay) (userId sessionId : String)
    (refusal : Option HttpError) :
    (requirePrivateMemberSession cfg s userId sessionId refusal).1 = s ∨
      ∃ id, (requirePrivateMemberSession cfg s userId sessionId refusal).1 = dropSession s id := by
  unfold requirePrivateMemberSession
  repeat' split
  all_goals first
    | exact .inl rfl
    | exact .inr ⟨_, rfl⟩

end Scap.E2ee
