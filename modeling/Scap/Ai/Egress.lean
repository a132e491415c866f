import Scap.Ai.Generate
import Scap.Dlp.Decision

/-!
# What reaches the provider

A run of `generate` that calls the provider has passed every check, and each text of the payload has
been cleared by itself: evaluated by the policy, or sanitised and found stable (`Cleared`). The
history is looked at only after the checks (`Admitted`).

* `cleared_of_forward`, `cleared_of_redactor` — the two ways to be cleared;
* `admitted_of_checks` — the checks before the history;
* `ai_egress_gate` — whole runs.
-/

namespace Scap.Ai

open Scap.Py Scap.Lib Scap.Dlp
open Scap.Sessions (DataClass)

variable {S : AIService} {r : Request} {declared : DataClass} {redactTypes : List FindingType}
  {content text : Str} {labels : List String} {copies sent : Outgoing} {items : List Turn}
  {budget : Budget} {payload : Payload}

/-! ## One text -/

/-- The text that may leave in the place of a content. -/
inductive Cleared (S : AIService) (r : Request) (declared : DataClass)
    (redactTypes : List FindingType) (content text : Str) : Prop
  | evaluated (hmode : r.sanitizeExternalAi = false)
      (haction : (S.dlp.evaluate content declared r.confirmed redactTypes).action = .allow ∨
        (S.dlp.evaluate content declared r.confirmed redactTypes).action = .redact)
      (htext : (S.dlp.evaluate content declared r.confirmed redactTypes).outputText = some text)
  | sanitised (hmode : r.sanitizeExternalAi = true) (htext : text = (S.dlp.redact content).1)
      (hcomplete : limited (S.dlp.redact content).2 = false)
      (hstable : (S.dlp.redact text).1 = text)
      (hverified : limited (S.dlp.redact text).2 = false)

theorem cleared_of_forward (hmode : r.sanitizeExternalAi = false)
    (h : S.forward r declared redactTypes content = .ok (text, labels)) :
    Cleared S r declared redactTypes content text := by
  unfold AIService.forward at h
  obtain ⟨hraised, h⟩ := error_else_eq_ok.mp h
  have haction : (S.dlp.evaluate content declared r.confirmed redactTypes).action = .allow ∨
      (S.dlp.evaluate content declared r.confirmed redactTypes).action = .redact := by
    -- the other three actions are raised
    cases haction : (S.dlp.evaluate content declared r.confirmed redactTypes).action with
    | allow => exact .inl rfl
    | redact => exact .inr rfl
    | confirm => exact absurd (.inr (.inr haction)) hraised
    | block => exact absurd (.inl haction) hraised
    | localOnly => exact absurd (.inr (.inl haction)) hraised
  have hout : (S.dlp.evaluate content declared r.confirmed redactTypes).outputText = _ :=
    Scanner.outputText_eq
  rw [if_pos haction] at hout
  obtain ⟨htext, -⟩ := Prod.mk.inj (Except.ok.inj h)
  apply Cleared.evaluated hmode haction
  rw [hout, Option.getD_some] at htext
  rw [hout, htext]

theorem cleared_of_redactor (hmode : r.sanitizeExternalAi = true)
    (h : S.redactor r content = .ok (text, labels)) :
    Cleared S r declared redactTypes content text := by
  unfold AIService.redactor at h
  rw [if_pos hmode] at h
  cases hsanitized : S.dlp.sanitizeExternalProjection content with
  | error e =>
      rw [hsanitized] at h
      cases h
  | ok copy =>
      rw [hsanitized] at h
      obtain rfl := Except.ok.inj h
      obtain ⟨htext, hcomplete, hstable, hverified, -⟩ := Scanner.sanitize_eq_ok_iff.mp hsanitized
      exact .sanitised hmode htext hcomplete hstable hverified

/-- The policy lets no private data through. -/
theorem not_private_of_forward (h : S.forward r declared redactTypes content = .ok (text, labels)) :
    declared ≠ .e2eePrivate := by
  rintro rfl
  unfold AIService.forward at h
  obtain ⟨hraised, -⟩ := error_else_eq_ok.mp h
  apply hraised
  have heffective : (S.dlp.evaluate content .e2eePrivate r.confirmed redactTypes).effectiveDataClass
      = .e2eePrivate := by
    have hle : DataClass.e2eePrivate.rank ≤
        (S.dlp.evaluate content .e2eePrivate r.confirmed redactTypes).effectiveDataClass.rank :=
      Scanner.declared_le_effective
    generalize (S.dlp.evaluate content .e2eePrivate r.confirmed redactTypes).effectiveDataClass =
      effective at hle
    cases effective <;> simp [DataClass.rank] at hle ⊢
  rw [Scanner.action_eq, heffective, S.e2ee_local]
  simp

/-! ## Before the history -/

/-- Both parts of a file. -/
structure ClearedFile (S : AIService) (r : Request) (declared : DataClass)
    (file copy : AttachedFile) : Prop where
  fileName : Cleared S r declared uneditableRedactTypes file.fileName copy.fileName
  fileContent : Cleared S r declared uneditableRedactTypes file.fileContent copy.fileContent

/-- What holds when the history is looked at. -/
structure Admitted (S : AIService) (r : Request) (declared : DataClass) (sent : Outgoing) : Prop where
  consent : r.allowExternalAi = true
  data_class : DataClass.ofValue? r.dataClass = some declared
  confirmed : AIService.NeedsConfirmation r declared → r.confirmed = true
  not_private : declared ≠ .e2eePrivate
  message : Cleared S r declared [] r.currentMessage sent.message
  file : Option.Rel (ClearedFile S r declared) r.file sent.file

/-- The sanitised copies are cleared. -/
theorem cleared_of_copies (hmode : r.sanitizeExternalAi = true)
    (h : S.firstCopies r = .ok copies) :
    Cleared S r declared [] r.currentMessage copies.message ∧
      Option.Rel (ClearedFile S r declared) r.file copies.file := by
  unfold AIService.firstCopies at h
  obtain ⟨⟨message, labels⟩, hmessage, h⟩ := seq_eq_ok.mp h
  cases hfile : r.file with
  | none =>
      rw [hfile] at h
      obtain rfl := Except.ok.inj h
      exact ⟨cleared_of_redactor hmode hmessage, .none⟩
  | some file =>
      rw [hfile] at h
      obtain ⟨⟨name, nameLabels⟩, hname, h⟩ := seq_eq_ok.mp h
      obtain ⟨⟨content, fileLabels⟩, hcontent, h⟩ := seq_eq_ok.mp h
      obtain rfl := Except.ok.inj h
      exact ⟨cleared_of_redactor hmode hmessage,
        .some ⟨cleared_of_redactor hmode hname, cleared_of_redactor hmode hcontent⟩⟩

/-- The copies of a run that is not to be sanitised are replaced by what the policy gives out. -/
theorem cleared_of_classify (hmode : r.sanitizeExternalAi = false)
    (hcopies : S.firstCopies r = .ok copies) (h : S.classify r declared copies = .ok sent) :
    declared ≠ .e2eePrivate ∧ Cleared S r declared [] r.currentMessage sent.message ∧
      Option.Rel (ClearedFile S r declared) r.file sent.file := by
  unfold AIService.classify at h
  rw [if_neg (by simp [hmode])] at h
  obtain ⟨⟨message, labels⟩, hmessage, h⟩ := seq_eq_ok.mp h
  refine ⟨not_private_of_forward hmessage, ?_⟩
  cases hfile : r.file with
  | none =>
      -- without a file there is no copy of one
      have hnone : copies.file = none := by
        unfold AIService.firstCopies at hcopies
        obtain ⟨first, -, hcopies⟩ := seq_eq_ok.mp hcopies
        rw [hfile] at hcopies
        obtain rfl := Except.ok.inj hcopies
        rfl
      rw [hfile] at h
      obtain rfl := Except.ok.inj h
      refine ⟨cleared_of_forward hmode hmessage, ?_⟩
      rw [hnone]
      exact .none
  | some file =>
      rw [hfile] at h
      obtain ⟨⟨name, nameLabels⟩, hname, h⟩ := seq_eq_ok.mp h
      obtain ⟨⟨content, fileLabels⟩, hcontent, h⟩ := seq_eq_ok.mp h
      obtain rfl := Except.ok.inj h
      exact ⟨cleared_of_forward hmode hmessage,
        .some ⟨cleared_of_forward hmode hname, cleared_of_forward hmode hcontent⟩⟩

theorem admitted_of_checks (hprivate : AIService.checkPrivate r = .ok ())
    (hcopies : S.firstCopies r = .ok copies)
    (h : S.checkRequest r copies = .ok (declared, sent)) : Admitted S r declared sent := by
  unfold AIService.checkRequest at h
  obtain ⟨_, hconsent, h⟩ := seq_eq_ok.mp h
  obtain ⟨declared', hdeclared, h⟩ := seq_eq_ok.mp h
  obtain ⟨_, hconfirmed, h⟩ := seq_eq_ok.mp h
  obtain ⟨outgoing, hclassify, h⟩ := seq_eq_ok.mp h
  obtain ⟨rfl, rfl⟩ := Prod.mk.inj (Except.ok.inj h)
  have hclass : DataClass.ofValue? r.dataClass = some declared' := by
    cases hvalue : DataClass.ofValue? r.dataClass with
    | none =>
        rw [hvalue] at hdeclared
        cases hdeclared
    | some d =>
        rw [hvalue] at hdeclared
        rw [Except.ok.inj hdeclared]
  have hconsent := require_eq_ok.mp hconsent
  have hconfirmed := require_eq_ok.mp hconfirmed
  cases hmode : r.sanitizeExternalAi with
  | false =>
      obtain ⟨hnot, hmessage, hfile⟩ := cleared_of_classify hmode hcopies hclassify
      exact ⟨hconsent, hclass, hconfirmed, hnot, hmessage, hfile⟩
  | true =>
      unfold AIService.classify at hclassify
      rw [if_pos hmode] at hclassify
      obtain rfl := Except.ok.inj hclassify
      have hnot : declared' ≠ .e2eePrivate := by
        unfold AIService.checkPrivate at hprivate
        rw [if_pos hmode, hclass] at hprivate
        exact require_eq_ok.mp hprivate
      obtain ⟨hmessage, hfile⟩ := cleared_of_copies hmode hcopies
      exact ⟨hconsent, hclass, hconfirmed, hnot, hmessage, hfile⟩

/-! ## The history -/

/-- A turn as it is sent. -/
structure ClearedTurn (S : AIService) (r : Request) (declared : DataClass) (item turn : Turn) :
    Prop where
  role : turn.role = item.role
  content : Cleared S r declared uneditableRedactTypes item.content turn.content

theorem clearedTurn_of_sendTurn {item : Turn} {answer : Turn × List String}
    (h : S.sendTurn r declared item = .ok answer) : ClearedTurn S r declared item answer.1 := by
  unfold AIService.sendTurn at h
  obtain ⟨⟨content, labels⟩, hcontent, rfl⟩ := map_eq_ok.mp h
  cases hmode : r.sanitizeExternalAi with
  | false =>
      rw [if_neg (by simp [hmode])] at hcontent
      exact ⟨rfl, cleared_of_forward hmode hcontent⟩
  | true =>
      rw [if_pos hmode] at hcontent
      exact ⟨rfl, cleared_of_redactor hmode hcontent⟩

/-- By induction on the items: each turn is cleared for itself. -/
theorem clearedTurns_of_mapM {answers : List (Turn × List String)}
    (h : items.mapM (S.sendTurn r declared) = .ok answers) :
    List.Forall₂ (ClearedTurn S r declared) items (answers.map Prod.fst) := by
  induction items generalizing answers with
  | nil =>
      obtain rfl := Except.ok.inj h
      exact .nil
  | cons item items ih =>
      rw [List.mapM_cons] at h
      obtain ⟨answer, hitem, h⟩ := seq_eq_ok.mp h
      obtain ⟨rest, hrest, h⟩ := seq_eq_ok.mp h
      obtain rfl := Except.ok.inj h
      exact .cons (clearedTurn_of_sendTurn hitem) (ih hrest)

/-! ## Runs -/

/-- What holds when the provider is called. -/
structure Released (S : AIService) (r : Request) (declared : DataClass) (sent : Outgoing)
    (payload : Payload) : Prop where
  admitted : Admitted S r declared sent
  message : payload.currentUserMessage = sent.message
  file : payload.attachedFile = sent.file
  history : ∃ items, r.history.load.2 = .ok items ∧
    List.Forall₂ (ClearedTurn S r declared) (AIService.lastItems S.aiHistoryMessages items)
      payload.conversationHistory

/-- How a run goes. -/
theorem generate_cases (S : AIService) (budget : Budget) (r : Request) :
    (S.generate budget r).1 = [] ∨ ∃ declared sent, Admitted S r declared sent ∧
      ((S.generate budget r).1 = r.history.load.1 ∨
        ∃ payload, Released S r declared sent payload ∧
          (S.generate budget r).1 = r.history.load.1 ++ [.providerCalled payload]) := by
  unfold AIService.generate
  split
  · exact .inl rfl
  · next copies hfirst =>
    obtain ⟨_, hprivate, hcopies⟩ := seq_eq_ok.mp hfirst
    split
    · exact .inl rfl
    · next client _ =>
      split
      · exact .inl rfl
      · next declared sent hchecks =>
        have hadmitted := admitted_of_checks hprivate hcopies hchecks
        refine .inr ⟨declared, sent, hadmitted, ?_⟩
        cases hload : r.history.load with
        | mk loaded answer =>
            dsimp only
            split
            · exact .inl rfl
            · next turns hturns =>
              obtain ⟨items, rfl, hturns⟩ := seq_eq_ok.mp hturns
              split
              · exact .inl rfl
              · refine .inr ⟨_, ⟨hadmitted, rfl, rfl, items, ?_, ?_⟩, rfl⟩
                · rw [hload]
                · exact clearedTurns_of_mapM hturns

theorem not_call_of_load (h : .providerCalled payload ∈ r.history.load.1) : False := by
  unfold History.load at h
  cases hhistory : r.history <;> simp [hhistory] at h

/-- **What reaches the provider.** If the provider is called, there was consent, a confirmation where
the class needs one, and the class is not private; the message, both parts of the file and each turn
of the history are sent as they were cleared. The history is loaded only when the checks have passed
for the message and the file, and the call is the last thing that is done outside. -/
theorem ai_egress_gate (S : AIService) (budget : Budget) (r : Request) :
    (∀ payload, .providerCalled payload ∈ (S.generate budget r).1 →
      (∃ declared sent, Released S r declared sent payload) ∧
        (S.generate budget r).1 = r.history.load.1 ++ [.providerCalled payload]) ∧
      (.historyLoaded ∈ (S.generate budget r).1 → ∃ declared sent, Admitted S r declared sent) := by
  rcases generate_cases S budget r with hnone | ⟨declared, sent, hadmitted, hevents⟩
  · rw [hnone]
    exact ⟨fun _ h => absurd h List.not_mem_nil, fun h => absurd h List.not_mem_nil⟩
  · refine ⟨fun payload hcall => ?_, fun _ => ⟨declared, sent, hadmitted⟩⟩
    rcases hevents with hloaded | ⟨payload', hreleased, hcalled⟩
    · rw [hloaded] at hcall
      exact (not_call_of_load hcall).elim
    · rw [hcalled] at hcall
      rcases List.mem_append.mp hcall with hload | hlast
      · exact (not_call_of_load hload).elim
      · obtain rfl := Event.providerCalled.inj (List.mem_singleton.mp hlast)
        exact ⟨⟨declared, sent, hreleased⟩, hcalled⟩

/-- A service that answers every prompt. -/
def sampleAI : AIService where
  dlp := { sampleScanner with policy := aiPolicy }
  e2ee_local := rfl
  client := some fun _ => some (some (Str.ofString "ok"))
  allowDemoAi := false
  aiHistoryMessages := 16
  aiMaxConcurrent := 2
  aiGlobalMaxAttempts := 60
  aiDailyMaxAttempts := 1000

/-- A question about an earlier turn with a telephone number in it. -/
def sampleQuestion : Request where
  currentMessage := Str.ofString "hi"
  history := .loader (some [⟨Str.ofString "user", Str.ofString "0912345678"⟩])
  allowExternalAi := true
  dataClass := "internal"
  confirmed := false
  sanitizeExternalAi := false
  fileName := none
  fileContent := none

def samplePayload : Payload where
  conversationHistory := [⟨Str.ofString "user", Str.ofString "[REDACTED:PHONE]"⟩]
  currentUserMessage := Str.ofString "hi"
  attachedFile := none

theorem ai_egress_gate_sample :
    ∃ declared sent, Released sampleAI sampleQuestion declared sent samplePayload := by
  have hevents : (sampleAI.generate ⟨0, fun _ _ _ => some (true, 0)⟩ sampleQuestion).1 =
      [.historyLoaded, .providerCalled samplePayload] := by decide +kernel
  have hgate := ai_egress_gate sampleAI ⟨0, fun _ _ _ => some (true, 0)⟩ sampleQuestion
  exact (hgate.1 samplePayload (by simp [hevents])).1

end Scap.Ai
