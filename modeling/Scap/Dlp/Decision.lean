import Scap.Dlp.Scanner

/-!
# The policy decision

What `evaluate` gives out: the normalised text without the spans that are removed, and nothing that
ranks above the class that the policy was asked about (`evaluate_sound`).
-/

namespace Scap.Dlp

open Scap.Lib Scap.Py
open Scap.Sessions (DataClass)

variable {S : Scanner} {text : Str} {spans : List DetectedSpan} {s : DetectedSpan}
  {classes : List DataClass} {a b c : DataClass}

/-! ## Classes -/

theorem rank_le_maxClass : a.rank ≤ (maxClass a b).rank ∧ b.rank ≤ (maxClass a b).rank := by
  unfold maxClass
  split
  · next hlt => exact ⟨hlt.le, le_rfl⟩
  · next hle => exact ⟨le_rfl, Nat.not_lt.mp hle⟩

theorem rank_le_foldl : a.rank ≤ (classes.foldl maxClass a).rank ∧
    ∀ c ∈ classes, c.rank ≤ (classes.foldl maxClass a).rank := by
  induction classes generalizing a with
  | nil => simp
  | cons b classes ih =>
      obtain ⟨hstart, hrest⟩ := ih (a := maxClass a b)
      obtain ⟨hleft, hright⟩ := rank_le_maxClass (a := a) (b := b)
      refine ⟨hleft.trans hstart, fun c hc => ?_⟩
      rcases List.mem_cons.mp hc with rfl | hc
      · exact hright.trans hstart
      · exact hrest c hc

/-! ## Findings -/

/-- An occurrence of the type and the class of a span. -/
def Occurs (d : OrderedDict (Nat × Nat × FindingType × DataClass) DetectedSpan)
    (s : DetectedSpan) : Prop :=
  ∃ item, d.get (s.start, s.stop, s.findingType, s.dataClass) = some item ∧
    item.findingType = s.findingType ∧ item.dataClass = s.dataClass

theorem occurs_set {d : OrderedDict (Nat × Nat × FindingType × DataClass) DetectedSpan}
    {t : DetectedSpan} (h : Occurs d s ∨ s = t) :
    Occurs (d.set (t.start, t.stop, t.findingType, t.dataClass) t) s := by
  unfold Occurs
  rw [OrderedDict.get_set]
  split
  · next hkey =>
    simp only [Prod.mk.injEq] at hkey
    exact ⟨t, rfl, hkey.2.2.1.symm, hkey.2.2.2.symm⟩
  · next hkey =>
    rcases h with h | rfl
    · exact h
    · exact absurd rfl hkey

theorem occurs_foldl {d : OrderedDict (Nat × Nat × FindingType × DataClass) DetectedSpan}
    (h : Occurs d s ∨ s ∈ spans) :
    Occurs (spans.foldl (fun d item =>
      d.set (item.start, item.stop, item.findingType, item.dataClass) item) d) s := by
  induction spans generalizing d with
  | nil =>
      rcases h with h | h
      · exact h
      · cases h
  | cons t spans ih =>
      apply ih
      rcases h with h | h
      · exact .inl (occurs_set (.inl h))
      · rcases List.mem_cons.mp h with rfl | h
        · exact .inl (occurs_set (.inr rfl))
        · exact .inr h

/-- The findings report the type and the class of each span. -/
theorem exists_finding (hs : s ∈ spans) : ∃ f ∈ safeFindings spans,
    f.findingType = s.findingType ∧ f.dataClass = s.dataClass := by
  obtain ⟨item, hget, htype, hclass⟩ := occurs_foldl (d := .empty) (.inr hs)
  have hitem : item ∈ (occurrences spans).values :=
    List.mem_map_of_mem (OrderedDict.get_eq_some.mp hget)
  refine ⟨findingOf (occurrences spans).values (item.findingType, item.dataClass), ?_, htype,
    hclass⟩
  rw [safeFindings, List.mem_insertionSort]
  exact List.mem_map_of_mem (List.mem_eraseDups.mpr (List.mem_map_of_mem hitem))

/-! ## Decisions -/

namespace Scanner

/-- The spans that a decision removes. -/
def removedSpans (S : Scanner) (text : Str) (action : DLPAction) (redactTypes : List FindingType) :
    List DetectedSpan :=
  let spans := S.detectSpans (S.normalize text)
  match action with
  | .allow => spans.filter fun item => redactTypes.contains item.findingType
  | .redact => spans
  | _ => []

variable {dataClass : DataClass} {confirmed : Bool} {redactTypes : List FindingType}

theorem outputText_eq : (S.evaluate text dataClass confirmed redactTypes).outputText =
    if (S.evaluate text dataClass confirmed redactTypes).action = .allow ∨
        (S.evaluate text dataClass confirmed redactTypes).action = .redact then
      some (redactSpans (S.normalize text) (S.removedSpans text
        (S.evaluate text dataClass confirmed redactTypes).action redactTypes))
    else none := by
  obtain ⟨action, haction⟩ :
      ∃ a, (S.evaluate text dataClass confirmed redactTypes).action = a := ⟨_, rfl⟩
  have hout : (S.evaluate text dataClass confirmed redactTypes).outputText =
      match (S.evaluate text dataClass confirmed redactTypes).action with
      | .allow => some (redactSpans (S.normalize text)
          ((S.detectSpans (S.normalize text)).filter fun item =>
            redactTypes.contains item.findingType))
      | .redact => some (redactSpans (S.normalize text) (S.detectSpans (S.normalize text)))
      | _ => none := rfl
  rw [hout, haction]
  cases action <;> rfl

theorem mem_of_removedSpans {action : DLPAction}
    (h : s ∈ S.removedSpans text action redactTypes) : s ∈ S.detectSpans (S.normalize text) := by
  unfold removedSpans at h
  split at h
  · exact List.mem_of_mem_filter h
  · exact h
  · cases h

theorem effectiveDataClass_eq :
    (S.evaluate text dataClass confirmed redactTypes).effectiveDataClass =
      maxClass dataClass ((((safeFindings (S.detectSpans (S.normalize text))).filter fun item =>
        !redactTypes.contains item.findingType).map DLPFinding.dataClass).foldl maxClass
          .publicData) := by
  unfold evaluate
  rfl

theorem action_eq : (S.evaluate text dataClass confirmed redactTypes).action =
    if S.policy (S.evaluate text dataClass confirmed redactTypes).effectiveDataClass = .confirm ∧
        confirmed = true then .allow
    else S.policy (S.evaluate text dataClass confirmed redactTypes).effectiveDataClass := by
  unfold evaluate
  rfl

/-- The policy is asked about a class that no span exceeds which it does not remove anyway. -/
theorem rank_le_effective (hs : s ∈ S.detectSpans (S.normalize text))
    (htype : s.findingType ∉ redactTypes) : s.dataClass.rank ≤
      (S.evaluate text dataClass confirmed redactTypes).effectiveDataClass.rank := by
  obtain ⟨f, hf, hftype, hfclass⟩ := exists_finding hs
  have hkept : f ∈ (safeFindings (S.detectSpans (S.normalize text))).filter fun item =>
      !redactTypes.contains item.findingType := by
    rw [List.mem_filter]
    exact ⟨hf, by simpa [hftype] using htype⟩
  have hclass : f.dataClass ∈ ((safeFindings (S.detectSpans (S.normalize text))).filter fun item =>
      !redactTypes.contains item.findingType).map DLPFinding.dataClass := List.mem_map_of_mem hkept
  rw [← hfclass, effectiveDataClass_eq]
  exact (rank_le_foldl.2 _ hclass).trans rank_le_maxClass.2

theorem declared_le_effective : dataClass.rank ≤
    (S.evaluate text dataClass confirmed redactTypes).effectiveDataClass.rank := by
  rw [effectiveDataClass_eq]
  exact rank_le_maxClass.1

end Scanner

/-- **The policy decision.** Only `ALLOW` and `REDACT` give a text out. It is the normalised one
with a placeholder for each run of removed characters; what remains of a span is not of a type that is
always removed and ranks no higher than the class of the decision, which the declared one does not
exceed. -/
theorem evaluate_sound (S : Scanner) (text : Str) (dataClass : DataClass) (confirmed : Bool)
    (redactTypes : List FindingType) :
    let decision := S.evaluate text dataClass confirmed redactTypes
    let spans := S.detectSpans (S.normalize text)
    let removed := if decision.action = .redact then spans
      else spans.filter fun item => redactTypes.contains item.findingType
    (decision.outputText ≠ none ↔ decision.action = .allow ∨ decision.action = .redact) ∧
      (∀ output, decision.outputText = some output →
        output = blackOutSpans (S.normalize text) removed ∧
        ∀ s ∈ spans, ∀ i, s.Covers i → (¬ ∃ r ∈ removed, r.Covers i) →
          s.findingType ∉ redactTypes ∧
            s.dataClass.rank ≤ decision.effectiveDataClass.rank) ∧
      decision.effectiveDataClass.rank ≥ dataClass.rank := by
  intro decision spans removed
  have hout : decision.outputText = if decision.action = .allow ∨ decision.action = .redact then
      some (redactSpans (S.normalize text) (S.removedSpans text decision.action redactTypes))
      else none := Scanner.outputText_eq
  refine ⟨by rw [hout, ite_ne_right_iff]; simp, ?_, Scanner.declared_le_effective⟩
  intro output houtput
  rw [hout] at houtput
  split at houtput
  · next haction =>
    have hremoved : S.removedSpans text decision.action redactTypes = removed := by
      rcases haction with haction | haction
      · simp [Scanner.removedSpans, removed, spans, haction]
      · simp [Scanner.removedSpans, removed, spans, haction]
    have hin : ∀ s ∈ removed, s.InText (S.normalize text) := by
      rw [← hremoved]
      exact fun s hs => Scanner.inText_detectSpans (Scanner.mem_of_removedSpans hs)
    obtain rfl := Option.some.inj houtput
    rw [hremoved]
    refine ⟨redactSpans_eq hin, ?_⟩
    intro s hs i hi hremains
    have htype : s.findingType ∉ redactTypes := by
      intro htype
      refine hremains ⟨s, ?_, hi⟩
      show s ∈ if decision.action = .redact then spans else _
      split
      · exact hs
      · exact List.mem_filter.mpr ⟨hs, by simpa using htype⟩
    exact ⟨htype, Scanner.rank_le_effective hs htype⟩
  · cases houtput

end Scap.Dlp
