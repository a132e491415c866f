import Scap.E2ee.Strict

/-!
# What a client puts on the wire

The body of an envelope upload, and the checks of `e2ee.py` that read nothing but this body:

* `decodeBase64Strict` — canonical base64url. No route looks at the bytes themselves, so the result
  is the canonical text and the number of bytes;
* `identifier` — the character set of identifiers;
* `validateOpaqueEnvelope` — the checks in the order of the source, each with its message;
* `replayPayload` — what `make_replay_key` hashes.
-/

namespace Scap.E2ee

open Scap.Lib Scap.Py

/-! ## Constants -/

def protocolDoubleRatchet : String := "double-ratchet"
def protocolMls : String := "mls-rfc9420"

def e2eeEnvelopeVersion : Int := 1
def maxE2eeHeaderBytes : Nat := 16 * 1024
def maxE2eeCiphertextBytes : Nat := 1024 * 1024
def minE2eeCiphertextBytes : Nat := 16
def maxE2eeEpoch : Nat := 2 ^ 63 - 1
def maxIdentifierLength : Nat := 128

/-! ## Base64 -/

/-- The canonical text of the bytes, and their number. -/
structure Decoded where
  canonical : String
  size : Nat
  deriving DecidableEq, Repr

/-- `decode_base64_strict` of a string, and `encode_base64url` of what it returns. The bounds are
those of the callers, which are in order. -/
def decodeBase64Strict (field value : String) (minBytes : Nat)
    (maxBytes exactBytes : Option Nat) : Except String Decoded :=
  match Strict.decodeBase64Strict field (.str (Str.ofString value)) minBytes
      (maxBytes.map Int.ofNat) (exactBytes.map Int.ofNat) with
  | .ok data => .ok ⟨urlsafeB64encode data, data.length⟩
  | .error refusal => .error refusal.message

/-- The canonical form of a value of an admitted size is accepted as it is. -/
theorem decodeBase64Strict_encode {field : String} {data : Bytes} {size minBytes : Nat}
    {maxBytes exactBytes : Option Nat} (hsize : data.length = size) (hmin : minBytes ≤ size)
    (hmax : ∀ n ∈ maxBytes, size ≤ n) (hexact : ∀ n ∈ exactBytes, size = n) :
    decodeBase64Strict field (urlsafeB64encode data) minBytes maxBytes exactBytes =
      .ok ⟨urlsafeB64encode data, size⟩ := by
  subst hsize
  have hmax' : ∀ n ∈ maxBytes.map Int.ofNat, (data.length : Int) ≤ n := by
    intro n hn
    obtain ⟨m, hm, rfl⟩ := Option.map_eq_some_iff.mp hn
    exact Int.ofNat_le.mpr (hmax m hm)
  have hexact' : ∀ n ∈ exactBytes.map Int.ofNat, (data.length : Int) = n := by
    intro n hn
    obtain ⟨m, hm, rfl⟩ := Option.map_eq_some_iff.mp hn
    exact congrArg Int.ofNat (hexact m hm)
  have hmin' : (minBytes : Int) ≤ data.length := Int.ofNat_le.mpr hmin
  unfold decodeBase64Strict
  rw [← Strict.encodeBase64url_eq_ofString, Strict.decodeBase64Strict_spells
    ⟨Int.natCast_nonneg _, fun n hn => hmin'.trans (hmax' n hn),
      fun n hn => hexact' n hn ▸ Int.natCast_nonneg _⟩ ⟨hmin', hmax', hexact'⟩ (.inl rfl)]

/-! ## Identifiers -/

def isAlphanumeric (c : Char) : Bool :=
  ('A' ≤ c && c ≤ 'Z') || ('a' ≤ c && c ≤ 'z') || ('0' ≤ c && c ≤ '9')

/-- `[A-Za-z0-9][A-Za-z0-9._:@-]*`. -/
def matchesIdentifier : List Char → Bool
  | [] => false
  | c :: cs => isAlphanumeric c && cs.all fun c => isAlphanumeric c || c ∈ ['.', '_', ':', '@', '-']

/-- `_identifier`. -/
def identifier (field value : String) : Except String String :=
  if maxIdentifierLength < value.length ∨ matchesIdentifier value.toList = false then
    .error (field ++ " phải dài 1-128 ký tự ASCII định danh an toàn.")
  else .ok value

theorem identifier_ok {field value w : String} (h : identifier field value = .ok w) :
    w = value := by
  unfold identifier at h
  split at h
  · cases h
  · exact (Except.ok.inj h).symm

/-! ## Envelopes -/

inductive MessageKind where
  | application
  | commit
  | welcome
  deriving DecidableEq, Repr

/-- `E2eeEnvelopeSend`. -/
structure EnvelopeSend where
  version : Int
  protocol : String
  recipient : String
  recipientDeviceId : Option String
  epoch : Nat
  clientMessageId : String
  senderDeviceId : String
  messageKind : MessageKind
  header : String
  ciphertext : String
  deriving DecidableEq, Repr

/-- `OpaqueEnvelope`, with the fields the store keeps. -/
structure OpaqueEnvelope where
  protocol : String
  recipient : String
  epoch : Nat
  clientMessageId : String
  headerB64 : String
  ciphertextB64 : String
  senderDeviceId : String
  deriving DecidableEq, Repr

/-- `validate_opaque_envelope`. -/
def validateOpaqueEnvelope (p : EnvelopeSend) (expectedRecipient : String) :
    Except String OpaqueEnvelope := do
  require (p.version = e2eeEnvelopeVersion)
    "version envelope phải bằng 1; không tự động downgrade."
  require (p.protocol = protocolDoubleRatchet ∨ p.protocol = protocolMls)
    "protocol không được hỗ trợ; chỉ chấp nhận: double-ratchet, mls-rfc9420."
  let recipient ← identifier "recipient" p.recipient
  let expected ← identifier "expected_recipient" expectedRecipient
  require (recipient = expected) "recipient không khớp tài nguyên đã xác thực."
  require (p.epoch ≤ maxE2eeEpoch) "epoch phải là số nguyên trong 0-9223372036854775807."
  let clientMessageId ← identifier "client_message_id" p.clientMessageId
  let senderDeviceId ← identifier "sender_device_id" p.senderDeviceId
  let header ← decodeBase64Strict "header" p.header 1 (some maxE2eeHeaderBytes) none
  let ciphertext ← decodeBase64Strict "ciphertext" p.ciphertext minE2eeCiphertextBytes
    (some maxE2eeCiphertextBytes) none
  return ⟨p.protocol, recipient, p.epoch, clientMessageId, header.canonical, ciphertext.canonical,
    senderDeviceId⟩

/-- The statement `make_replay_key` hashes. -/
structure ReplayPayload where
  clientMessageId : String
  recipient : String
  senderDeviceId : String
  deriving DecidableEq, Repr

/-- The replay statement of an upload; epoch and ciphertext are left out on purpose. -/
def replayPayload (p : EnvelopeSend) : ReplayPayload :=
  ⟨p.clientMessageId, p.recipient, p.senderDeviceId⟩

/-- Validation only ever rewrites the two opaque texts. -/
theorem validateOpaqueEnvelope_ok {p : EnvelopeSend} {expected : String} {e : OpaqueEnvelope}
    (h : validateOpaqueEnvelope p expected = .ok e) :
    e.protocol = p.protocol ∧ e.recipient = p.recipient ∧ e.epoch = p.epoch ∧
      e.clientMessageId = p.clientMessageId ∧ e.senderDeviceId = p.senderDeviceId := by
  simp only [validateOpaqueEnvelope, seq_eq_ok, require_eq_ok, exists_const] at h
  obtain ⟨-, -, recipient, hrecipient, -, -, -, -, id, hid, sender, hsender, _, -, _, -, heq⟩ := h
  obtain rfl := Except.ok.inj heq
  exact ⟨rfl, identifier_ok hrecipient, rfl, identifier_ok hid, identifier_ok hsender⟩

end Scap.E2ee
