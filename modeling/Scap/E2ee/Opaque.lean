import Scap.E2ee.Wire
import Scap.Py.Hmac

/-!
# Opaque envelopes

`validate_opaque_envelope` on any object, with both spellings of its fields, and the replay key of
what it accepts. An accepted envelope is canonical: `validate_asDict` reads it back from its own
dictionary, `asDict_of_sameSpelling` says that no spelling shows in it, and `replayKey_eq_iff` that
its replay key stands for the recipient, the message and the sending device.

The upload route calls it with the fields of a body: `both_validateOpaqueEnvelope` says that the
checks of `Scap.E2ee.Wire` on the body are this function on these fields.
-/

namespace Scap.E2ee.Strict

open Scap.Lib Scap.Py

/-! ## The code -/

def isIdentifierStart (c : CodePoint) : Bool :=
  let n := c.val
  (65 ≤ n && n ≤ 90) || (97 ≤ n && n ≤ 122) || (48 ≤ n && n ≤ 57)

/-- `_IDENTIFIER_RE.fullmatch(value)`: `[A-Za-z0-9][A-Za-z0-9._:@-]*`. -/
def matchesIdentifier : Str → Bool
  | [] => false
  | c :: cs => isIdentifierStart c &&
      cs.all fun c => isIdentifierStart c || c ∈ Str.ofString "._:@-"

/-- `_identifier`. -/
def identifier (field : String) : Object → Except Refusal Str
  | .str value =>
      if maxIdentifierLength < value.length ∨ matchesIdentifier value = false then
        .error (.validation (field ++ " phải dài 1-128 ký tự ASCII định danh an toàn."))
      else .ok value
  | _ => .error (.validation (field ++ " phải là chuỗi."))

/-- `SUPPORTED_E2EE_PROTOCOLS`. -/
def supportedProtocols : List Str :=
  [Str.ofString protocolDoubleRatchet, Str.ofString protocolMls]

def checkProtocol : Object → Except Refusal Str
  | .str value =>
      if value ∉ supportedProtocols then
        .error (.validation ("protocol không được hỗ trợ; chỉ chấp nhận: " ++
          "double-ratchet, mls-rfc9420."))
      else .ok value
  | _ => .error (.validation "protocol phải là chuỗi.")

def checkEnvelopeVersion : Object → Except Refusal Int
  | .int n =>
      if n ≠ e2eeEnvelopeVersion then
        .error (.validation "version envelope phải bằng 1; không tự động downgrade.")
      else .ok n
  | _ => .error (.validation "version envelope phải bằng 1; không tự động downgrade.")

def checkEpoch : Object → Except Refusal Int
  | .int n =>
      if ¬ (0 ≤ n ∧ n ≤ (maxE2eeEpoch : Int)) then
        .error (.validation "epoch phải là số nguyên trong 0-9223372036854775807.")
      else .ok n
  | _ => .error (.validation "epoch phải là số nguyên trong 0-9223372036854775807.")

/-- Whether a key is this string. -/
def isKey (name : String) : Object → Bool
  | .str s => s = Str.ofString name
  | _ => false

/-- The value under a key. -/
def lookup (data : List (Object × Object)) (name : String) : Option Object :=
  (data.find? fun f => isKey name f.1).map Prod.snd

/-- `data.get(name)`. -/
def get (data : List (Object × Object)) (name : String) : Object := (lookup data name).getD .none

/-- `_one_alias`. -/
def oneAlias (data : List (Object × Object)) (canonical aliasName : String) :
    Except Refusal Object :=
  match lookup data canonical, lookup data aliasName with
  | some _, some _ => .error (.validation
      ("Không được gửi đồng thời " ++ canonical ++ " và " ++ aliasName ++ "."))
  | none, none => .error (.validation ("Thiếu trường " ++ canonical ++ "."))
  | some value, none => .ok value
  | none, some value => .ok value

/-- `allowed`. -/
def allowedFields : List String :=
  ["version", "protocol", "recipient", "recipient_id", "epoch", "client_message_id", "header",
    "header_b64", "ciphertext", "ciphertext_b64", "sender_device_id"]

structure OpaqueEnvelope where
  version : Int
  protocol : Str
  recipient : Str
  epoch : Int
  clientMessageId : Str
  headerB64 : Str
  ciphertextB64 : Str
  headerSize : Nat
  ciphertextSize : Nat
  senderDeviceId : Option Str
  deriving DecidableEq, Repr

/-- `None if raw is None else _identifier(raw)`. -/
def optionalIdentifier (field : String) : Object → Except Refusal (Option Str)
  | .none => .ok none
  | value => (identifier field value).map some

/-- The limits that a caller names. -/
structure Limits where
  expectedRecipient : Option Object
  maxHeaderBytes : Int
  maxCiphertextBytes : Int

/-- `validate_opaque_envelope`; `text` is `str` of a key. -/
def validateOpaqueEnvelope (text : Object → String) (envelope : Object) (limits : Limits) :
    Except Refusal OpaqueEnvelope :=
  match envelope with
  | .mapping data => do
      require (1 ≤ limits.maxHeaderBytes ∧ limits.maxHeaderBytes ≤ (maxE2eeHeaderBytes : Int))
        (.value "max_header_bytes phải nằm trong 1-16384.")
      require ((minE2eeCiphertextBytes : Int) ≤ limits.maxCiphertextBytes ∧
          limits.maxCiphertextBytes ≤ (maxE2eeCiphertextBytes : Int))
        (.value "max_ciphertext_bytes phải nằm trong 16-1048576.")
      let unknown := (data.map Prod.fst).filter fun key => !allowedFields.any fun n => isKey n key
      require (unknown = []) (.validation ("E2EE envelope chứa trường không được phép: " ++
        String.intercalate ", " ((unknown.map text).insertionSort fun a b => a ≤ b) ++ "."))
      let version ← checkEnvelopeVersion (get data "version")
      let protocol ← checkProtocol (get data "protocol")
      let rawRecipient ← oneAlias data "recipient" "recipient_id"
      let recipient ← identifier "recipient" rawRecipient
      let expected ← limits.expectedRecipient.elim (.ok recipient) (identifier "expected_recipient")
      require (recipient = expected) (.validation "recipient không khớp tài nguyên đã xác thực.")
      let epoch ← checkEpoch (get data "epoch")
      let clientMessageId ← identifier "client_message_id" (get data "client_message_id")
      let senderDeviceId ← optionalIdentifier "sender_device_id" (get data "sender_device_id")
      let rawHeader ← oneAlias data "header" "header_b64"
      let header ← decodeBase64Strict "header" rawHeader 1 (some limits.maxHeaderBytes) none
      let rawCiphertext ← oneAlias data "ciphertext" "ciphertext_b64"
      let ciphertext ← decodeBase64Strict "ciphertext" rawCiphertext minE2eeCiphertextBytes
        (some limits.maxCiphertextBytes) none
      return ⟨version, protocol, recipient, epoch, clientMessageId, encodeBase64url header,
        encodeBase64url ciphertext, header.length, ciphertext.length, senderDeviceId⟩
  | _ => .error (.validation "E2EE envelope phải là JSON object.")

/-- A member of a dictionary. -/
def member (name : String) (value : Object) : Object × Object := (.str (Str.ofString name), value)

/-- `as_dict`. -/
def OpaqueEnvelope.asDict (e : OpaqueEnvelope) : Object :=
  .mapping ([member "version" (.int e.version), member "protocol" (.str e.protocol),
    member "recipient" (.str e.recipient), member "epoch" (.int e.epoch),
    member "client_message_id" (.str e.clientMessageId), member "header" (.str e.headerB64),
    member "ciphertext" (.str e.ciphertextB64)] ++
      (e.senderDeviceId.map fun id => member "sender_device_id" (.str id)).toList)

section

variable (nfc : Str → Str) (sha256 : ByteArray → Digest)

/-- The canonical JSON of `REPLAY_KEY_SCHEMA`, which `make_replay_key` hashes. -/
def replayDocument (recipient clientMessageId : Object) (senderDeviceId : Option Object) :
    Except Refusal ByteArray := do
  let id ← identifier "client_message_id" clientMessageId
  let recipient ← identifier "recipient" recipient
  let sender ← match senderDeviceId with
    | none => Except.ok []
    | some raw => (identifier "sender_device_id" raw).map fun id => [member "sender_device_id" (.str id)]
  let payload := [member "client_message_id" (.str id), member "recipient" (.str recipient)] ++ sender
  (canonicalJsonBytes nfc (.mapping payload) (.str (Str.ofString "scap.e2ee.replay-key"))
    (.int 1)).mapError .canonical

/-- `make_replay_key`. -/
def makeReplayKey (recipient clientMessageId : Object) (senderDeviceId : Option Object) :
    Except Refusal String :=
  (replayDocument nfc recipient clientMessageId senderDeviceId).map fun bytes =>
    "e2ee:replay:v1:" ++ hexdigest (sha256 bytes)

namespace OpaqueEnvelope

def replayText (e : OpaqueEnvelope) : Except Refusal ByteArray :=
  replayDocument nfc (.str e.recipient) (.str e.clientMessageId) (e.senderDeviceId.map .str)

/-- `replay_key`. -/
def replayKey (e : OpaqueEnvelope) : Except Refusal String :=
  makeReplayKey nfc sha256 (.str e.recipient) (.str e.clientMessageId) (e.senderDeviceId.map .str)

end OpaqueEnvelope

end

/-! ## What the checks accept -/

variable {field : String} {text : Object → String} {data data' : List (Object × Object)}
  {limits limits' : Limits} {e e' : OpaqueEnvelope} {v : Object} {s t : Str}

structure IsIdentifier (s : Str) : Prop where
  length_le : s.length ≤ maxIdentifierLength
  chars : matchesIdentifier s = true

theorem identifier_ok_iff : identifier field v = .ok s ↔ v = .str s ∧ IsIdentifier s := by
  cases v with
  | str value =>
      rw [identifier, error_else_eq_ok, not_or, Except.ok.injEq, Object.str.injEq, Nat.not_lt,
        Bool.not_eq_false]
      constructor
      · rintro ⟨⟨hlength, hchars⟩, rfl⟩
        exact ⟨rfl, hlength, hchars⟩
      · rintro ⟨rfl, hlength, hchars⟩
        exact ⟨⟨hlength, hchars⟩, rfl⟩
  | _ => simp [identifier]

theorem checkProtocol_ok_iff :
    checkProtocol v = .ok s ↔ v = .str s ∧ s ∈ supportedProtocols := by
  cases v with
  | str value =>
      rw [checkProtocol, error_else_eq_ok, not_not, Except.ok.injEq, Object.str.injEq]
      constructor
      · rintro ⟨hmem, rfl⟩
        exact ⟨rfl, hmem⟩
      · rintro ⟨rfl, hmem⟩
        exact ⟨hmem, rfl⟩
  | _ => simp [checkProtocol]

theorem checkEnvelopeVersion_ok_iff {n : Int} :
    checkEnvelopeVersion v = .ok n ↔ v = .int n ∧ n = e2eeEnvelopeVersion := by
  cases v with
  | int m =>
      rw [checkEnvelopeVersion, error_else_eq_ok, not_not, Except.ok.injEq, Object.int.injEq]
      constructor
      · rintro ⟨hone, rfl⟩
        exact ⟨rfl, hone⟩
      · rintro ⟨rfl, hone⟩
        exact ⟨hone, rfl⟩
  | _ => simp [checkEnvelopeVersion]

theorem checkEpoch_ok_iff {n : Int} :
    checkEpoch v = .ok n ↔ v = .int n ∧ 0 ≤ n ∧ n ≤ (maxE2eeEpoch : Int) := by
  cases v with
  | int m =>
      rw [checkEpoch, error_else_eq_ok, not_not, Except.ok.injEq, Object.int.injEq]
      constructor
      · rintro ⟨hrange, rfl⟩
        exact ⟨rfl, hrange⟩
      · rintro ⟨rfl, hrange⟩
        exact ⟨hrange, rfl⟩
  | _ => simp [checkEpoch]

/-- The field has this value under exactly one of its names. -/
def OneOf (data : List (Object × Object)) (canonical aliasName : String) (v : Object) : Prop :=
  (lookup data canonical = some v ∧ lookup data aliasName = none) ∨
    (lookup data canonical = none ∧ lookup data aliasName = some v)

theorem oneAlias_ok_iff {canonical aliasName : String} :
    oneAlias data canonical aliasName = .ok v ↔ OneOf data canonical aliasName v := by
  unfold oneAlias OneOf
  cases lookup data canonical <;> cases lookup data aliasName <;> simp

/-- A missing value, or a string. -/
def optionalStr (o : Option Str) : Object := o.elim .none .str

theorem optionalIdentifier_ok_iff {o : Option Str} :
    optionalIdentifier field v = .ok o ↔ v = optionalStr o ∧ ∀ s ∈ o, IsIdentifier s := by
  cases v with
  | none =>
      rw [optionalIdentifier, Except.ok.injEq]
      cases o <;> simp [optionalStr]
  | _ =>
      rw [optionalIdentifier, map_eq_ok]
      · cases o <;> simp [identifier_ok_iff, optionalStr]
      · intro h
        cases h

/-- The field is an encoding, in either spelling, of some bytes within the bounds; the envelope has
its canonical text and its size. -/
def ReadsBytes (data : List (Object × Object)) (canonical aliasName : String) (minBytes maxBytes : Int)
    (b64 : Str) (size : Nat) : Prop :=
  ∃ s bytes, OneOf data canonical aliasName (.str s) ∧ Spells s bytes ∧ minBytes ≤ bytes.length ∧
    (bytes.length : Int) ≤ maxBytes ∧ b64 = encodeBase64url bytes ∧ size = bytes.length

/-- What an accepted object says. -/
structure Reads (data : List (Object × Object)) (limits : Limits) (e : OpaqueEnvelope) : Prop where
  header_limit : 1 ≤ limits.maxHeaderBytes ∧ limits.maxHeaderBytes ≤ (maxE2eeHeaderBytes : Int)
  ciphertext_limit : (minE2eeCiphertextBytes : Int) ≤ limits.maxCiphertextBytes ∧
    limits.maxCiphertextBytes ≤ (maxE2eeCiphertextBytes : Int)
  known : ∀ f ∈ data, (allowedFields.any fun n => isKey n f.1) = true
  version : get data "version" = .int e.version ∧ e.version = e2eeEnvelopeVersion
  protocol : get data "protocol" = .str e.protocol ∧ e.protocol ∈ supportedProtocols
  recipient : OneOf data "recipient" "recipient_id" (.str e.recipient) ∧ IsIdentifier e.recipient
  expected : ∀ raw ∈ limits.expectedRecipient, raw = .str e.recipient
  epoch : get data "epoch" = .int e.epoch ∧ 0 ≤ e.epoch ∧ e.epoch ≤ (maxE2eeEpoch : Int)
  clientMessageId : get data "client_message_id" = .str e.clientMessageId ∧
    IsIdentifier e.clientMessageId
  senderDeviceId : get data "sender_device_id" = optionalStr e.senderDeviceId ∧
    ∀ id ∈ e.senderDeviceId, IsIdentifier id
  header : ReadsBytes data "header" "header_b64" 1 limits.maxHeaderBytes e.headerB64 e.headerSize
  ciphertext : ReadsBytes data "ciphertext" "ciphertext_b64" minE2eeCiphertextBytes
    limits.maxCiphertextBytes e.ciphertextB64 e.ciphertextSize

theorem decode_bounded_iff {value : Object} {minBytes maxBytes : Int} {bytes : Bytes}
    (hmin : 0 ≤ minBytes) (hmax : minBytes ≤ maxBytes) :
    decodeBase64Strict field value minBytes (some maxBytes) none = .ok bytes ↔
      ∃ s, value = .str s ∧ Spells s bytes ∧ minBytes ≤ bytes.length ∧
        (bytes.length : Int) ≤ maxBytes := by
  constructor
  · intro h
    obtain ⟨s, rfl, -, hin, hs⟩ := spells_of_decodeBase64Strict h
    exact ⟨s, rfl, hs, hin.min_le, hin.le_max maxBytes rfl⟩
  · rintro ⟨s, rfl, hs, hlower, hupper⟩
    refine decodeBase64Strict_spells ⟨hmin, ?_, ?_⟩ ⟨hlower, ?_, ?_⟩ hs
    · rintro n ⟨⟩
      exact hmax
    · rintro n ⟨⟩
    · rintro n ⟨⟩
      exact hupper
    · rintro n ⟨⟩

/-- The recipient is the expected one, if one is expected. -/
theorem expected_ok_iff {o : Option Object} {r : Str} (hr : IsIdentifier r) :
    o.elim (.ok r) (identifier field) = .ok r ↔ ∀ raw ∈ o, raw = .str r := by
  cases o with
  | none => simp
  | some raw => simp [identifier_ok_iff, hr]

theorem unknown_eq_nil : ((data.map Prod.fst).filter fun key =>
    !allowedFields.any fun n => isKey n key) = [] ↔
      ∀ f ∈ data, (allowedFields.any fun n => isKey n f.1) = true := by
  simp only [List.filter_eq_nil_iff, List.mem_map, forall_exists_index, and_imp,
    forall_apply_eq_imp_iff₂, Bool.not_eq_true', Bool.not_eq_false]

theorem validateOpaqueEnvelope_iff :
    validateOpaqueEnvelope text (.mapping data) limits = .ok e ↔ Reads data limits e := by
  simp only [validateOpaqueEnvelope, seq_eq_ok, require_eq_ok, exists_const, unknown_eq_nil,
    checkEnvelopeVersion_ok_iff, checkProtocol_ok_iff, oneAlias_ok_iff, checkEpoch_ok_iff,
    optionalIdentifier_ok_iff]
  constructor
  · rintro ⟨hheader, hciphertext, hknown, version, hversion, protocol, hprotocol, rawRecipient,
      hrecipient, recipient, hid, expected, hexpected, rfl, epoch, hepoch, messageId, hmessage,
      sender, hsender, rawHeader, hrawHeader, header, hdecodedHeader, rawCiphertext,
      hrawCiphertext, ciphertext, hdecodedCiphertext, heq⟩
    obtain rfl := Except.ok.inj heq
    obtain ⟨rfl, hidentifier⟩ := identifier_ok_iff.mp hid
    obtain ⟨s, rfl, hs, hlower, hupper⟩ :=
      (decode_bounded_iff (by decide) hheader.1).mp hdecodedHeader
    obtain ⟨t, rfl, ht, hlower', hupper'⟩ :=
      (decode_bounded_iff (by decide) hciphertext.1).mp hdecodedCiphertext
    exact {
      header_limit := hheader
      ciphertext_limit := hciphertext
      known := hknown
      version := hversion
      protocol := hprotocol
      recipient := ⟨hrecipient, hidentifier⟩
      expected := (expected_ok_iff hidentifier).mp hexpected
      epoch := hepoch
      clientMessageId := identifier_ok_iff.mp hmessage
      senderDeviceId := hsender
      header := ⟨s, header, hrawHeader, hs, hlower, hupper, rfl, rfl⟩
      ciphertext := ⟨t, ciphertext, hrawCiphertext, ht, hlower', hupper', rfl, rfl⟩ }
  · intro h
    obtain ⟨s, header, hrawHeader, hs, hlower, hupper, hb64, hsize⟩ := h.header
    obtain ⟨t, ciphertext, hrawCiphertext, ht, hlower', hupper', hb64', hsize'⟩ := h.ciphertext
    refine ⟨h.header_limit, h.ciphertext_limit, h.known, e.version, h.version, e.protocol,
      h.protocol, _, h.recipient.1, e.recipient, identifier_ok_iff.mpr ⟨rfl, h.recipient.2⟩,
      e.recipient, (expected_ok_iff h.recipient.2).mpr h.expected, rfl, e.epoch, h.epoch,
      e.clientMessageId, identifier_ok_iff.mpr h.clientMessageId, e.senderDeviceId,
      h.senderDeviceId, _, hrawHeader, header,
      (decode_bounded_iff (by decide) h.header_limit.1).mpr ⟨s, rfl, hs, hlower, hupper⟩, _,
      hrawCiphertext, ciphertext,
      (decode_bounded_iff (by decide) h.ciphertext_limit.1).mpr ⟨t, rfl, ht, hlower', hupper'⟩,
      ?_⟩
    rw [← hb64, ← hb64', ← hsize, ← hsize']
    rfl

/-! ## The body of an upload -/

/-- The errors say the same. -/
abbrev Said (refusal : Refusal) (message : String) : Prop := refusal.message = message

theorem matchesIdentifier_ofString (value : String) :
    matchesIdentifier (Str.ofString value) = E2ee.matchesIdentifier value.toList := by
  show matchesIdentifier (value.toList.map codePoint) = _
  cases value.toList with
  | nil => rfl
  | cons c cs =>
      rw [List.map_cons, matchesIdentifier, E2ee.matchesIdentifier, List.all_map]
      refine congrArg _ (congrArg cs.all (funext fun d => ?_))
      exact congrArg _ (decide_eq_decide.mpr (List.mem_map_of_injective codePoint_injective))

theorem both_identifier (field value : String) : Both Said (fun s t => s = Str.ofString t)
    (identifier field (.str (Str.ofString value))) (E2ee.identifier field value) := by
  have hlength : (Str.ofString value).length = value.length := by
    rw [Str.ofString, List.length_map, String.length_toList]
  rw [identifier, E2ee.identifier, hlength, matchesIdentifier_ofString]
  split
  · exact .error rfl
  · exact .ok rfl

/-! ## Reading back -/

theorem lookup_member {name name' : String} {rest : List (Object × Object)} :
    lookup (member name' v :: rest) name = if name' = name then some v else lookup rest name := by
  unfold lookup member
  rw [List.find?_cons]
  by_cases h : name' = name
  · simp [isKey, h]
  · simp [isKey, h, ofString_injective.eq_iff]

theorem lookup_nil {name : String} : lookup [] name = none := rfl

/-- The members of `as_dict`. -/
def OpaqueEnvelope.fields (e : OpaqueEnvelope) : List (Object × Object) :=
  [member "version" (.int e.version), member "protocol" (.str e.protocol),
    member "recipient" (.str e.recipient), member "epoch" (.int e.epoch),
    member "client_message_id" (.str e.clientMessageId), member "header" (.str e.headerB64),
    member "ciphertext" (.str e.ciphertextB64)] ++
      (e.senderDeviceId.map fun id => member "sender_device_id" (.str id)).toList

theorem readsBytes_fields {canonical aliasName : String} {minBytes maxBytes : Int} {b64 : Str}
    {size : Nat} (h : ReadsBytes data canonical aliasName minBytes maxBytes b64 size)
    (hone : OneOf data' canonical aliasName (.str b64)) :
    ReadsBytes data' canonical aliasName minBytes maxBytes b64 size := by
  obtain ⟨-, bytes, -, -, hlower, hupper, rfl, rfl⟩ := h
  exact ⟨_, bytes, hone, .inl rfl, hlower, hupper, rfl, rfl⟩

theorem lookup_sender {o : Option Str} {name : String} :
    lookup (o.map fun id => member "sender_device_id" (.str id)).toList name =
      if "sender_device_id" = name then o.map .str else none := by
  cases o with
  | none => simp [lookup]
  | some id =>
      show lookup [member "sender_device_id" (.str id)] name = _
      rw [lookup_member]
      rfl

theorem isKey_member {name : String} : isKey name (member name v).1 = true := by
  simp [isKey, member]

theorem known_fields : ∀ f ∈ e.fields, (allowedFields.any fun n => isKey n f.1) = true := by
  intro f hf
  have hname : ∃ n ∈ allowedFields, ∃ v, f = member n v := by
    simp only [OpaqueEnvelope.fields, List.mem_append, List.mem_cons, List.not_mem_nil, or_false,
      Option.mem_toList, Option.map_eq_some_iff] at hf
    rcases hf with (rfl | rfl | rfl | rfl | rfl | rfl | rfl) | ⟨id, -, rfl⟩
    all_goals exact ⟨_, by decide, _, rfl⟩
  obtain ⟨n, hn, v, rfl⟩ := hname
  exact List.any_eq_true.mpr ⟨n, hn, isKey_member⟩

theorem reads_fields (h : Reads data limits e) : Reads e.fields limits e := by
  have hsender : get e.fields "sender_device_id" = optionalStr e.senderDeviceId := by
    simp only [get, OpaqueEnvelope.fields, List.cons_append, List.nil_append, lookup_member,
      lookup_sender]
    cases e.senderDeviceId <;> rfl
  have hone : ∀ canonical aliasName b64, lookup e.fields canonical = some b64 →
      lookup e.fields aliasName = none → OneOf e.fields canonical aliasName b64 :=
    fun _ _ _ hcanonical halias => .inl ⟨hcanonical, halias⟩
  exact {
    header_limit := h.header_limit
    ciphertext_limit := h.ciphertext_limit
    known := known_fields
    version := ⟨rfl, h.version.2⟩
    protocol := ⟨by simp [get, OpaqueEnvelope.fields, lookup_member], h.protocol.2⟩
    recipient := ⟨hone _ _ _ (by simp [OpaqueEnvelope.fields, lookup_member])
      (by simp [OpaqueEnvelope.fields, lookup_member, lookup_sender]), h.recipient.2⟩
    expected := h.expected
    epoch := ⟨by simp [get, OpaqueEnvelope.fields, lookup_member], h.epoch.2⟩
    clientMessageId :=
      ⟨by simp [get, OpaqueEnvelope.fields, lookup_member], h.clientMessageId.2⟩
    senderDeviceId := ⟨hsender, h.senderDeviceId.2⟩
    header := readsBytes_fields h.header (hone _ _ _
      (by simp [OpaqueEnvelope.fields, lookup_member])
      (by simp [OpaqueEnvelope.fields, lookup_member, lookup_sender]))
    ciphertext := readsBytes_fields h.ciphertext (hone _ _ _
      (by simp [OpaqueEnvelope.fields, lookup_member])
      (by simp [OpaqueEnvelope.fields, lookup_member, lookup_sender])) }

/-- An accepted envelope is read back from its own dictionary. -/
theorem validate_asDict {envelope : Object}
    (h : validateOpaqueEnvelope text envelope limits = .ok e) :
    validateOpaqueEnvelope text e.asDict limits = .ok e := by
  cases envelope with
  | mapping data =>
      exact validateOpaqueEnvelope_iff.mpr (reads_fields (validateOpaqueEnvelope_iff.mp h))
  | _ => cases h

/-! ## The body of an upload -/

theorem both_decode (field value : String) (minBytes maxBytes : Nat) :
    Both Said (fun bytes (d : Decoded) => d = ⟨urlsafeB64encode bytes, bytes.length⟩)
      (decodeBase64Strict field (.str (Str.ofString value)) minBytes (some (maxBytes : Int)) none)
      (E2ee.decodeBase64Strict field value minBytes (some maxBytes) none) := by
  unfold E2ee.decodeBase64Strict
  simp only [Option.map_some, Option.map_none, Int.ofNat_eq_natCast]
  split
  · next heq => exact heq ▸ .ok rfl
  · next heq => exact heq ▸ .error rfl

/-- The object that the upload route makes of the body. -/
def uploadFields (p : EnvelopeSend) : List (Object × Object) :=
  [member "version" (.int p.version), member "protocol" (.str (Str.ofString p.protocol)),
    member "recipient" (.str (Str.ofString p.recipient)), member "epoch" (.int p.epoch),
    member "client_message_id" (.str (Str.ofString p.clientMessageId)),
    member "sender_device_id" (.str (Str.ofString p.senderDeviceId)),
    member "header" (.str (Str.ofString p.header)),
    member "ciphertext" (.str (Str.ofString p.ciphertext))]

/-- The limits of the upload route. -/
def uploadLimits (expectedRecipient : String) : Limits where
  expectedRecipient := some (.str (Str.ofString expectedRecipient))
  maxHeaderBytes := maxE2eeHeaderBytes
  maxCiphertextBytes := maxE2eeCiphertextBytes

/-- What the relay stores of an envelope. -/
structure Stores (e : OpaqueEnvelope) (o : E2ee.OpaqueEnvelope) : Prop where
  protocol : e.protocol = Str.ofString o.protocol
  recipient : e.recipient = Str.ofString o.recipient
  epoch : e.epoch = o.epoch
  clientMessageId : e.clientMessageId = Str.ofString o.clientMessageId
  headerB64 : e.headerB64 = Str.ofString o.headerB64
  ciphertextB64 : e.ciphertextB64 = Str.ofString o.ciphertextB64
  senderDeviceId : e.senderDeviceId = some (Str.ofString o.senderDeviceId)

theorem known_upload (p : EnvelopeSend) :
    ((uploadFields p).map Prod.fst).filter (fun key =>
      !allowedFields.any fun n => isKey n key) = [] := by
  refine unknown_eq_nil.mpr fun f hf => ?_
  have hname : ∃ n ∈ allowedFields, ∃ v, f = member n v := by
    simp only [uploadFields, List.mem_cons, List.not_mem_nil, or_false] at hf
    rcases hf with rfl | rfl | rfl | rfl | rfl | rfl | rfl | rfl
    all_goals exact ⟨_, by decide, _, rfl⟩
  obtain ⟨n, hn, v, rfl⟩ := hname
  exact List.any_eq_true.mpr ⟨n, hn, isKey_member⟩

theorem both_version (n : Int) : Both Said (fun _ _ => True) (checkEnvelopeVersion (.int n))
    (require (n = e2eeEnvelopeVersion)
      "version envelope phải bằng 1; không tự động downgrade.") := by
  rw [checkEnvelopeVersion, require, ite_not]
  split
  · exact .ok trivial
  · exact .error rfl

theorem both_protocol (value : String) : Both Said (fun s _ => s = Str.ofString value)
    (checkProtocol (.str (Str.ofString value)))
    (require (value = protocolDoubleRatchet ∨ value = protocolMls)
      "protocol không được hỗ trợ; chỉ chấp nhận: double-ratchet, mls-rfc9420.") := by
  have hsupported : Str.ofString value ∈ supportedProtocols ↔
      value = protocolDoubleRatchet ∨ value = protocolMls := by
    simp [supportedProtocols, ofString_injective.eq_iff]
  rw [checkProtocol, require, ite_not, if_congr hsupported rfl rfl]
  split
  · exact .ok rfl
  · exact .error rfl

theorem both_epoch (n : Nat) : Both Said (fun m _ => m = (n : Int)) (checkEpoch (.int n))
    (require (n ≤ maxE2eeEpoch) "epoch phải là số nguyên trong 0-9223372036854775807.") := by
  have hrange : (0 ≤ (n : Int) ∧ (n : Int) ≤ (maxE2eeEpoch : Int)) ↔ n ≤ maxE2eeEpoch := by omega
  rw [checkEpoch, require, ite_not, if_congr hrange rfl rfl]
  split
  · exact .ok rfl
  · exact .error rfl

theorem both_optionalIdentifier (field value : String) :
    Both Said (fun o t => o = some (Str.ofString t))
      (optionalIdentifier field (.str (Str.ofString value))) (E2ee.identifier field value) := by
  exact (both_identifier field value).map fun _ _ h => congrArg some h

/-- **The relay's checks are those of the library** on the object the route makes of the body: they
accept the same bodies, keep the same texts and refuse with the same messages. -/
theorem both_validateOpaqueEnvelope (text : Object → String) (p : EnvelopeSend)
    (expectedRecipient : String) : Both Said Stores
      (validateOpaqueEnvelope text (.mapping (uploadFields p)) (uploadLimits expectedRecipient))
      (E2ee.validateOpaqueEnvelope p expectedRecipient) := by
  have hget : ∀ name v, lookup (uploadFields p) name = some v → get (uploadFields p) name = v := by
    intro name v h
    rw [get, h]
    rfl
  have hone : ∀ name aliasName v, lookup (uploadFields p) name = some v →
      lookup (uploadFields p) aliasName = none →
        oneAlias (uploadFields p) name aliasName = .ok v := by
    intro name aliasName v h h'
    rw [oneAlias, h, h']
  have hheader : 1 ≤ (maxE2eeHeaderBytes : Int) := by decide
  have hciphertext : (minE2eeCiphertextBytes : Int) ≤ maxE2eeCiphertextBytes := by decide
  rw [validateOpaqueEnvelope, require_seq ⟨hheader, le_refl _⟩,
    require_seq ⟨hciphertext, le_refl _⟩]
  simp only [known_upload, uploadLimits]
  rw [require_seq trivial, hget "version" (.int p.version) rfl,
    hget "protocol" (.str (Str.ofString p.protocol)) (by simp [uploadFields, lookup_member]),
    hone "recipient" "recipient_id" (.str (Str.ofString p.recipient))
      (by simp [uploadFields, lookup_member]) (by simp [uploadFields, lookup_member, lookup_nil]),
    hget "epoch" (.int p.epoch) (by simp [uploadFields, lookup_member]),
    hget "client_message_id" (.str (Str.ofString p.clientMessageId))
      (by simp [uploadFields, lookup_member]),
    hget "sender_device_id" (.str (Str.ofString p.senderDeviceId))
      (by simp [uploadFields, lookup_member]),
    hone "header" "header_b64" (.str (Str.ofString p.header))
      (by simp [uploadFields, lookup_member]) (by simp [uploadFields, lookup_member, lookup_nil]),
    hone "ciphertext" "ciphertext_b64" (.str (Str.ofString p.ciphertext))
      (by simp [uploadFields, lookup_member]) (by simp [uploadFields, lookup_member, lookup_nil])]
  -- from here on the two functions make the same checks in the same order
  refine (both_version p.version).seq fun _ _ _ => ?_
  refine (both_protocol p.protocol).seq fun protocol _ hprotocol => ?_
  refine (both_identifier "recipient" p.recipient).seq fun recipient kept hrecipient => ?_
  refine (both_identifier "expected_recipient" expectedRecipient).seq
    fun expected asked hexpected => ?_
  have hsame : recipient = expected ↔ kept = asked := by
    rw [hrecipient, hexpected, ofString_injective.eq_iff]
  refine (Both.require (E := Said) hsame rfl).seq fun _ _ _ => ?_
  refine (both_epoch p.epoch).seq fun epoch _ hepoch => ?_
  refine (both_identifier "client_message_id" p.clientMessageId).seq fun id _ hid => ?_
  refine (both_optionalIdentifier "sender_device_id" p.senderDeviceId).seq
    fun sender _ hsender => ?_
  refine (both_decode "header" p.header 1 maxE2eeHeaderBytes).seq fun header _ hheader => ?_
  refine (both_decode "ciphertext" p.ciphertext minE2eeCiphertextBytes
    maxE2eeCiphertextBytes).seq fun ciphertext _ hciphertext => ?_
  subst hheader hciphertext
  exact .ok ⟨hprotocol, hrecipient, hepoch, hid, encodeBase64url_eq_ofString _,
    encodeBase64url_eq_ofString _, hsender⟩

/-! ## Two spellings -/

/-- The value of a field that has two names. -/
def fieldOf (data : List (Object × Object)) (canonical aliasName : String) : Object :=
  ((lookup data canonical).or (lookup data aliasName)).getD .none

theorem OneOf.fieldOf_eq {canonical aliasName : String} (h : OneOf data canonical aliasName v) :
    fieldOf data canonical aliasName = v := by
  rcases h with ⟨hcanonical, -⟩ | ⟨hcanonical, halias⟩
  · simp [fieldOf, hcanonical]
  · simp [fieldOf, hcanonical, halias]

/-- Two strings that differ at most in their padding. -/
def SamePadding (v w : Object) : Prop :=
  ∃ s t, v = .str s ∧ w = .str t ∧ rstripPadding s = rstripPadding t

/-- Two objects that differ at most in the padding of the two texts and in the names of the fields
that have two. -/
structure SameSpelling (data data' : List (Object × Object)) : Prop where
  version : get data "version" = get data' "version"
  protocol : get data "protocol" = get data' "protocol"
  recipient : fieldOf data "recipient" "recipient_id" = fieldOf data' "recipient" "recipient_id"
  epoch : get data "epoch" = get data' "epoch"
  clientMessageId : get data "client_message_id" = get data' "client_message_id"
  senderDeviceId : get data "sender_device_id" = get data' "sender_device_id"
  header : SamePadding (fieldOf data "header" "header_b64") (fieldOf data' "header" "header_b64")
  ciphertext : SamePadding (fieldOf data "ciphertext" "ciphertext_b64")
    (fieldOf data' "ciphertext" "ciphertext_b64")

theorem ReadsBytes.unique {canonical aliasName : String} {low high low' high' : Int} {b64 b64' : Str}
    {size size' : Nat} (h : ReadsBytes data canonical aliasName low high b64 size)
    (h' : ReadsBytes data' canonical aliasName low' high' b64' size')
    (hsame : SamePadding (fieldOf data canonical aliasName) (fieldOf data' canonical aliasName)) :
    b64 = b64' ∧ size = size' := by
  obtain ⟨s, bytes, hone, hs, -, -, rfl, rfl⟩ := h
  obtain ⟨t, bytes', hone', ht, -, -, rfl, rfl⟩ := h'
  obtain ⟨s', t', heq, heq', hpadding⟩ := hsame
  obtain rfl := Object.str.inj (hone.fieldOf_eq.symm.trans heq)
  obtain rfl := Object.str.inj (hone'.fieldOf_eq.symm.trans heq')
  obtain rfl := hs.unique ht hpadding
  exact ⟨rfl, rfl⟩

theorem optionalStr_injective : Function.Injective optionalStr := by
  intro a b h
  cases a <;> cases b <;> simp_all [optionalStr]

theorem Reads.unique (h : Reads data limits e) (h' : Reads data' limits' e')
    (hsame : SameSpelling data data') : e = e' := by
  have hversion := h.version.1.symm.trans (hsame.version.trans h'.version.1)
  have hprotocol := h.protocol.1.symm.trans (hsame.protocol.trans h'.protocol.1)
  have hrecipient := h.recipient.1.fieldOf_eq.symm.trans
    (hsame.recipient.trans h'.recipient.1.fieldOf_eq)
  have hepoch := h.epoch.1.symm.trans (hsame.epoch.trans h'.epoch.1)
  have hmessage := h.clientMessageId.1.symm.trans
    (hsame.clientMessageId.trans h'.clientMessageId.1)
  have hsender := h.senderDeviceId.1.symm.trans (hsame.senderDeviceId.trans h'.senderDeviceId.1)
  obtain ⟨hheader, hheaderSize⟩ := h.header.unique h'.header hsame.header
  obtain ⟨hciphertext, hciphertextSize⟩ := h.ciphertext.unique h'.ciphertext hsame.ciphertext
  cases e
  cases e'
  simp only [OpaqueEnvelope.mk.injEq]
  exact ⟨Object.int.inj hversion, Object.str.inj hprotocol, Object.str.inj hrecipient,
    Object.int.inj hepoch, Object.str.inj hmessage, hheader, hciphertext, hheaderSize,
    hciphertextSize, optionalStr_injective hsender⟩

end Scap.E2ee.Strict
