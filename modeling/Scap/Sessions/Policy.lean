import Scap.E2ee.Model
import Scap.Py.Text

/-!
# The policy of a conversation

The validators of the payloads that name a security mode and a data classification, and the rank
of a classification.
-/

namespace Scap.Sessions

open Scap.E2ee (SecurityMode)
open Scap.Py

inductive DataClass where
  | publicData
  | internal
  | confidential
  | highlyConfidential
  | e2eePrivate
  deriving DecidableEq, Repr

namespace DataClass

/-- The value of the enumeration, which is what the database stores. -/
def value : DataClass → String
  | publicData => "public"
  | internal => "internal"
  | confidential => "confidential"
  | highlyConfidential => "highly_confidential"
  | e2eePrivate => "e2ee_private"

/-- `_CLASS_RANK`. -/
def rank : DataClass → Nat
  | publicData => 0
  | internal => 1
  | confidential => 2
  | highlyConfidential => 3
  | e2eePrivate => 4

/-- `DataClass(value)`. -/
def ofValue? (value : String) : Option DataClass :=
  [publicData, internal, confidential, highlyConfidential, e2eePrivate].find? fun d =>
    d.value = value

theorem ofValue?_value (d : DataClass) : ofValue? d.value = some d := by
  cases d <;> decide +kernel

theorem value_injective : Function.Injective value := by
  intro d e h
  have hsame : ofValue? d.value = ofValue? e.value := by rw [h]
  rwa [ofValue?_value, ofValue?_value, Option.some.injEq] at hsame

end DataClass

/-! ## Validators -/

/-- What a client sends as `security_mode` and `data_classification`. -/
structure PolicyPayload where
  securityMode : String
  dataClassification : String
  deriving DecidableEq, Repr

def validateSecurityMode (value : String) : Except String SecurityMode :=
  let cleaned := cleaned value
  if cleaned = "secure" then .ok .secure
  else if cleaned = "confidential" then .ok .confidential
  else if cleaned = "private_e2ee" then .ok .privateE2ee
  else .error "Chế độ bảo mật không hợp lệ."

def validateDataClassification (value : String) : Except String DataClass :=
  match DataClass.ofValue? (cleaned value) with
  | some d => .ok d
  | none => .error "Phân loại dữ liệu không hợp lệ."

/-- `align_private_mode`, the same in `SessionCreate` and in `SessionSecurityUpdate`. -/
def alignPrivateMode (mode : SecurityMode) (d : DataClass) :
    Except String (SecurityMode × DataClass) :=
  if mode = .privateE2ee then .ok (mode, .e2eePrivate)
  else if mode = .confidential ∧ d ∈ [.publicData, .internal] then .ok (mode, .confidential)
  else if d = .e2eePrivate then .error "e2ee_private chỉ dùng với chế độ private_e2ee."
  else if mode = .secure ∧ d ∈ [.confidential, .highlyConfidential] then
    .error "Dữ liệu nhạy cảm phải dùng chế độ confidential."
  else .ok (mode, d)

/-- The policy that a payload asks for. -/
def PolicyPayload.validate (p : PolicyPayload) : Except String (SecurityMode × DataClass) :=
  match validateSecurityMode p.securityMode with
  | .error text => .error text
  | .ok mode =>
    match validateDataClassification p.dataClassification with
    | .error text => .error text
    | .ok d => alignPrivateMode mode d

/-- A pair that the validators pass as it is. -/
def Allowed (mode : SecurityMode) (d : DataClass) : Prop := alignPrivateMode mode d = .ok (mode, d)

theorem allowed_of_align {mode m : SecurityMode} {d e : DataClass}
    (h : alignPrivateMode mode d = .ok (m, e)) : m = mode ∧ Allowed m e := by
  cases mode <;> cases d <;> simp_all [alignPrivateMode, Allowed]
  all_goals
    obtain ⟨rfl, rfl⟩ := h
    simp

/-- What passes the validators is allowed. -/
theorem allowed_of_validate {p : PolicyPayload} {mode : SecurityMode} {d : DataClass}
    (h : p.validate = .ok (mode, d)) : Allowed mode d := by
  unfold PolicyPayload.validate at h
  split at h
  · cases h
  · split at h
    · cases h
    · exact (allowed_of_align h).2

theorem Allowed.private_iff {mode : SecurityMode} {d : DataClass} (h : Allowed mode d) :
    mode = .privateE2ee ↔ d = .e2eePrivate := by
  cases mode <;> cases d <;> simp_all [Allowed, alignPrivateMode]

example : PolicyPayload.validate ⟨"Confidential ", "internal"⟩ =
    .ok (.confidential, .confidential) := by decide +kernel

end Scap.Sessions
