import Scap.E2ee.Opaque

/-!
# The replay key of an envelope

`make_replay_key` hashes the canonical JSON of three identifiers. They are ASCII, so that no two
triples have the same bytes (`replayText_injective`), and the key tells apart what the hash tells
apart. `strict_envelopes` puts this together with what the validators accept.
-/

namespace Scap.E2ee.Strict

open Scap.Lib Scap.Py

variable {nfc : Str → Str} {sha256 : ByteArray → Digest} {e e' : OpaqueEnvelope} {s : Str}
  {v w : Object}

/-! ## Digests -/

theorem hexDigit_injOn : ∀ m < 16, ∀ n < 16, hexDigit m = hexDigit n → m = n := by
  decide

theorem hexByte_injective : Function.Injective hexByte := by
  intro a b h
  have ha := a.toNat_lt
  have hb := b.toNat_lt
  simp only [hexByte, List.cons.injEq, and_true] at h
  have hhigh := hexDigit_injOn _ (by omega) _ (by omega) h.1
  have hlow := hexDigit_injOn _ (by omega) _ (by omega) h.2
  exact UInt8.toNat_inj.mp (by omega)

theorem flatMap_hexByte_injective : Function.Injective fun bs : List UInt8 => bs.flatMap hexByte := by
  intro as
  induction as with
  | nil =>
      intro bs h
      cases bs with
      | nil => rfl
      | cons b bs => simp [hexByte] at h
  | cons a as ih =>
      intro bs h
      cases bs with
      | nil => simp [hexByte] at h
      | cons b bs =>
          simp only [List.flatMap_cons] at h
          obtain ⟨hfirst, hrest⟩ := List.append_inj h rfl
          rw [hexByte_injective hfirst, ih hrest]

theorem hexdigest_injective : Function.Injective hexdigest := by
  intro d d' h
  exact Subtype.ext (flatMap_hexByte_injective (String.ofList_inj.mp h))

/-! ## ASCII strings -/

def Ascii (s : Str) : Prop := ∀ c ∈ s, c.val < 0x80

instance (s : Str) : Decidable (Ascii s) :=
  List.decidableBAll (fun c : CodePoint => c.val < 0x80) s

theorem text?_ascii (h : Ascii s) : ∃ t, s.text? = some t := by
  have hchars : ∃ xs, s.chars? = some xs := by
    induction s with
    | nil => exact ⟨[], rfl⟩
    | cons c s ih =>
        obtain ⟨xs, hxs⟩ := ih fun d hd => h d (by simp [hd])
        have hc := h c (by simp)
        have hvalid : c.val.isValidChar := .inl (by omega)
        have hchar : ∃ x, c.char? = some x := ⟨_, dif_pos hvalid⟩
        obtain ⟨x, hx⟩ := hchar
        exact ⟨x :: xs, by simp [Str.chars?, hx, hxs]⟩
  obtain ⟨xs, hxs⟩ := hchars
  exact ⟨String.ofList xs, by rw [Str.text?, hxs]; rfl⟩

theorem IsIdentifier.ascii (h : IsIdentifier s) : Ascii s := by
  have hstart : ∀ c, isIdentifierStart c = true → c.val < 0x80 := by
    intro c hc
    simp only [isIdentifierStart, Bool.or_eq_true, Bool.and_eq_true, decide_eq_true_iff] at hc
    omega
  have hpunctuation : Ascii (Str.ofString "._:@-") := by decide
  have hchars := h.chars
  cases s with
  | nil => cases hchars
  | cons c cs =>
      simp only [matchesIdentifier, Bool.and_eq_true, List.all_eq_true, Bool.or_eq_true,
        decide_eq_true_iff] at hchars
      intro d hd
      rcases List.mem_cons.mp hd with rfl | hd
      · exact hstart d hchars.1
      · rcases hchars.2 d hd with hd | hd
        · exact hstart d hd
        · exact hpunctuation d hd

/-! ## The document -/

/-- The fields of the payload of `make_replay_key`. -/
def OpaqueEnvelope.replayFields (e : OpaqueEnvelope) : List (String × Str) :=
  [("client_message_id", e.clientMessageId), ("recipient", e.recipient)] ++
    (e.senderDeviceId.map fun id => ("sender_device_id", id)).toList

def members (fs : List (String × Str)) : List (Object × Object) :=
  fs.map fun f => member f.1 (.str f.2)

/-- NFC leaves ASCII alone, so a dictionary of ASCII strings is copied as it is. -/
theorem canonicalFields_members (hnfc : ∀ s, Ascii s → nfc s = s) {depth : Nat}
    {fs : List (String × Str)} (hdepth : depth ≤ maxCanonicalDepth)
    (hascii : ∀ f ∈ fs, Ascii (Str.ofString f.1) ∧ Ascii f.2) (hnodup : (fs.map Prod.fst).Nodup)
    {result : List (Str × Canonical)}
    (hnew : ∀ f ∈ fs, Str.ofString f.1 ∉ result.map Prod.fst) :
    canonicalFields nfc depth result (members fs) =
      .ok (result ++ fs.map fun f => (Str.ofString f.1, .str f.2)) := by
  induction fs generalizing result with
  | nil => simp [members, canonicalFields]
  | cons f fs ih =>
      obtain ⟨hkey, hvalue⟩ := hascii f (by simp)
      obtain ⟨hfresh, hnodup⟩ := List.nodup_cons.mp hnodup
      have hlater : ∀ g ∈ fs, Str.ofString g.1 ∉
          (result ++ [(Str.ofString f.1, Canonical.str f.2)]).map Prod.fst := by
        intro g hg hmem
        rw [List.map_append, List.mem_append] at hmem
        rcases hmem with hmem | hmem
        · exact hnew g (by simp [hg]) hmem
        · have heq : g.1 = f.1 := ofString_injective (by simpa using hmem)
          exact hfresh (heq ▸ List.mem_map_of_mem hg)
      have hrest := ih (fun g hg => hascii g (by simp [hg])) hnodup hlater
      have hstr : canonicalValue nfc depth (.str f.2) = .ok (.str f.2) := by
        rw [canonicalValue, if_neg (by omega), hnfc _ hvalue]
      rw [members, List.map_cons, member, canonicalFields]
      simp only [hnfc _ hkey]
      rw [if_neg (hnew f (by simp)), hstr]
      simpa [members, bind, Except.bind] using hrest

theorem encodeFields_strings {fs : List (String × Str)}
    (hascii : ∀ f ∈ fs, Ascii (Str.ofString f.1) ∧ Ascii f.2) :
    ∃ ys, encodeFields (fs.map fun f => (Str.ofString f.1, Canonical.str f.2)) = some ys := by
  induction fs with
  | nil => exact ⟨[], rfl⟩
  | cons f fs ih =>
      obtain ⟨ys, hys⟩ := ih fun g hg => hascii g (by simp [hg])
      obtain ⟨hkey, hvalue⟩ := hascii f (by simp)
      obtain ⟨k, hk⟩ := text?_ascii hkey
      obtain ⟨t, ht⟩ := text?_ascii hvalue
      exact ⟨(k, .str t) :: ys, by simp [encodeFields, Canonical.encode, hk, ht, hys]⟩

/-- The three identifiers of an envelope. -/
structure Identified (e : OpaqueEnvelope) : Prop where
  recipient : IsIdentifier e.recipient
  clientMessageId : IsIdentifier e.clientMessageId
  senderDeviceId : ∀ id ∈ e.senderDeviceId, IsIdentifier id

theorem Reads.identified {data : List (Object × Object)} {limits : Limits}
    (h : Reads data limits e) : Identified e :=
  ⟨h.recipient.2, h.clientMessageId.2, h.senderDeviceId.2⟩

theorem replayText_eq (h : Identified e) : e.replayText nfc =
    (canonicalJsonBytes nfc (.mapping (members e.replayFields))
      (.str (Str.ofString "scap.e2ee.replay-key")) (.int 1)).mapError .canonical := by
  have hid : ∀ {field : String} {s : Str}, IsIdentifier s → identifier field (.str s) = .ok s :=
    fun hs => identifier_ok_iff.mpr ⟨rfl, hs⟩
  unfold OpaqueEnvelope.replayText replayDocument
  rw [hid h.clientMessageId, hid h.recipient]
  cases hsender : e.senderDeviceId with
  | none => simp [OpaqueEnvelope.replayFields, hsender, members, bind, Except.bind]
  | some id =>
      have hok : identifier "sender_device_id" (.str id) = .ok id :=
        hid (h.senderDeviceId id hsender)
      simp [OpaqueEnvelope.replayFields, hsender, members, bind, Except.bind, hok, Except.map]

theorem Identified.fields_ascii (h : Identified e) :
    ∀ f ∈ e.replayFields, Ascii (Str.ofString f.1) ∧ Ascii f.2 := by
  intro f hf
  simp only [OpaqueEnvelope.replayFields, List.mem_append, List.mem_cons, List.not_mem_nil,
    or_false, Option.mem_toList, Option.map_eq_some_iff] at hf
  rcases hf with (rfl | rfl) | ⟨id, hid, rfl⟩
  · exact ⟨(by decide : Ascii (Str.ofString "client_message_id")), h.clientMessageId.ascii⟩
  · exact ⟨(by decide : Ascii (Str.ofString "recipient")), h.recipient.ascii⟩
  · exact ⟨(by decide : Ascii (Str.ofString "sender_device_id")), (h.senderDeviceId id hid).ascii⟩

theorem nodup_replayFields : (e.replayFields.map Prod.fst).Nodup := by
  cases h : e.senderDeviceId <;> simp [OpaqueEnvelope.replayFields, h]

theorem length_replayFields_le : e.replayFields.length ≤ 3 := by
  cases h : e.senderDeviceId <;> simp [OpaqueEnvelope.replayFields, h]

/-- There is a document for every accepted envelope. -/
theorem exists_replayText (hnfc : ∀ s, Ascii s → nfc s = s) (h : Identified e) :
    ∃ bytes, e.replayText nfc = .ok bytes := by
  have hlength := length_replayFields_le (e := e)
  have hfields : canonicalFields nfc 1 [] (members e.replayFields) =
      .ok ([] ++ e.replayFields.map fun f => (Str.ofString f.1, .str f.2)) :=
    canonicalFields_members hnfc (by decide) h.fields_ascii nodup_replayFields (by simp)
  have hvalue : canonicalValue nfc 0 (.mapping (members e.replayFields)) = .ok (.dict
      (e.replayFields.map fun f => (Str.ofString f.1, .str f.2))) := by
    have hcount : ¬ maxCanonicalItems < (members e.replayFields).length := by
      rw [members, List.length_map]
      show ¬ 256 < _
      omega
    rw [canonicalValue, if_neg (by decide), if_neg hcount, hfields]
    rfl
  obtain ⟨ys, hys⟩ := encodeFields_strings h.fields_ascii
  have hname : ∃ t, (Str.ofString "scap.e2ee.replay-key").text? = some t := text?_ascii (by decide)
  obtain ⟨name, hname⟩ := hname
  have hencode : ∃ x, (document (.dict (e.replayFields.map fun f =>
      (Str.ofString f.1, Canonical.str f.2))) (Str.ofString "scap.e2ee.replay-key") 1).encode =
        some x := by
    rw [encode_document, Canonical.encode, hys, hname]
    exact ⟨_, rfl⟩
  obtain ⟨x, hx⟩ := hencode
  have hschema : checkSchema (.str (Str.ofString "scap.e2ee.replay-key")) =
      .ok (Str.ofString "scap.e2ee.replay-key") := by
    rw [checkSchema, if_pos (by decide)]
  have hversion : checkVersion (.int 1) = .ok 1 := rfl
  refine ⟨(x.dumps .utf8).toUTF8, ?_⟩
  rw [replayText_eq h, canonicalJsonBytes, hschema, hversion, hvalue]
  simp [bind, Except.bind, hx, Except.mapError]

/-! ## One document for one triple -/

/-- The members of an equal mapping. -/
theorem same_mapping {fs gs : List (Object × Object)}
    (h : Same nfc (.mapping fs) (.mapping gs)) : fs.length = gs.length ∧
      ∀ f ∈ fs, ∃ g ∈ gs, ∃ s t, f.1 = .str s ∧ g.1 = .str t ∧ nfc s = nfc t ∧
        Same nfc f.2 g.2 := by
  cases h with
  | sequence hitems => cases hitems
  | @mapping _ _ gs' hperm hlength hkeys hvalues =>
      refine ⟨hlength.trans hperm.length_eq.symm, ?_⟩
      intro f hf
      obtain ⟨i, hi, rfl⟩ := List.getElem_of_mem hf
      have hi' : i < gs'.length := hlength ▸ hi
      have hpair : (fs[i], gs'[i]) ∈ fs.zip gs' := by
        rw [← List.getElem_zip (h := by rw [List.length_zip]; omega)]
        exact List.getElem_mem _
      obtain ⟨s, t, hs, ht, heq⟩ := hkeys _ hpair
      exact ⟨gs'[i], hperm.mem_iff.mpr (List.getElem_mem hi'), s, t, hs, ht, heq,
        hvalues _ hpair⟩

/-- The same fields, up to their order. -/
theorem same_members (hnfc : ∀ s, Ascii s → nfc s = s) {fs gs : List (String × Str)}
    (hfs : ∀ f ∈ fs, Ascii (Str.ofString f.1) ∧ Ascii f.2)
    (hgs : ∀ g ∈ gs, Ascii (Str.ofString g.1) ∧ Ascii g.2)
    (h : Same nfc (.mapping (members fs)) (.mapping (members gs))) :
    fs.length = gs.length ∧ ∀ f ∈ fs, f ∈ gs := by
  obtain ⟨hlength, hall⟩ := same_mapping h
  refine ⟨by simpa [members] using hlength, ?_⟩
  intro f hf
  obtain ⟨g', hg', s, t, hs, ht, hkey, hvalue⟩ := hall _ (List.mem_map_of_mem hf)
  obtain ⟨g, hg, rfl⟩ := List.mem_map.mp hg'
  obtain rfl := Object.str.inj hs
  obtain rfl := Object.str.inj ht
  rw [hnfc _ (hfs f hf).1, hnfc _ (hgs g hg).1] at hkey
  have hname : f.1 = g.1 := ofString_injective hkey
  have hstr : f.2 = g.2 := by
    have hsame : Same nfc (.str f.2) (.str g.2) := hvalue
    cases hsame with
    | str heq => rwa [hnfc _ (hfs f hf).2, hnfc _ (hgs g hg).2] at heq
    | sequence hitems => cases hitems
  rwa [Prod.ext hname hstr]

/-- Two envelopes with the same document agree on the three identifiers. -/
theorem replayText_injective (hnfc : ∀ s, Ascii s → nfc s = s) (h : Identified e)
    (h' : Identified e') {bytes : ByteArray} (hbytes : e.replayText nfc = .ok bytes)
    (hbytes' : e'.replayText nfc = .ok bytes) :
    e.recipient = e'.recipient ∧ e.clientMessageId = e'.clientMessageId ∧
      e.senderDeviceId = e'.senderDeviceId := by
  rw [replayText_eq h] at hbytes
  rw [replayText_eq h'] at hbytes'
  have hok : ∀ {x : Except CanonicalError ByteArray}, x.mapError Refusal.canonical = .ok bytes →
      x = .ok bytes := by
    intro x hx
    cases x with
    | error => cases hx
    | ok y => exact congrArg _ (Except.ok.inj hx)
  obtain ⟨-, -, hsame⟩ := canonicalJsonBytes_same (hok hbytes) (hok hbytes')
  obtain ⟨hlength, hmem⟩ := same_members hnfc h.fields_ascii h'.fields_ascii hsame
  have hmessage := hmem ("client_message_id", e.clientMessageId)
    (by simp [OpaqueEnvelope.replayFields])
  have hrecipient := hmem ("recipient", e.recipient) (by simp [OpaqueEnvelope.replayFields])
  cases hsender : e.senderDeviceId with
  | none =>
      cases hsender' : e'.senderDeviceId with
      | none => simp_all [OpaqueEnvelope.replayFields]
      | some id' => simp [OpaqueEnvelope.replayFields, hsender, hsender'] at hlength
  | some id =>
      have hid := hmem ("sender_device_id", id) (by simp [OpaqueEnvelope.replayFields, hsender])
      cases hsender' : e'.senderDeviceId with
      | none => simp [OpaqueEnvelope.replayFields, hsender, hsender'] at hlength
      | some id' => simp_all [OpaqueEnvelope.replayFields]

/-! ## The key -/

theorem replayKey_eq {bytes : ByteArray} (h : e.replayText nfc = .ok bytes) :
    e.replayKey nfc sha256 = .ok ("e2ee:replay:v1:" ++ hexdigest (sha256 bytes)) := by
  have hdocument : replayDocument nfc (.str e.recipient) (.str e.clientMessageId)
      (e.senderDeviceId.map .str) = .ok bytes := h
  rw [OpaqueEnvelope.replayKey, makeReplayKey, hdocument]
  rfl

theorem replayKey_eq_iff (hnfc : ∀ s, Ascii s → nfc s = s) {asked : Set ByteArray}
    (hsha : asked.InjOn sha256) (h : Identified e) (h' : Identified e') {bytes bytes' : ByteArray}
    (hbytes : e.replayText nfc = .ok bytes) (hbytes' : e'.replayText nfc = .ok bytes')
    (hasked : bytes ∈ asked) (hasked' : bytes' ∈ asked) :
    e.replayKey nfc sha256 = e'.replayKey nfc sha256 ↔ e.recipient = e'.recipient ∧
      e.clientMessageId = e'.clientMessageId ∧ e.senderDeviceId = e'.senderDeviceId := by
  constructor
  · intro hkey
    rw [replayKey_eq hbytes, replayKey_eq hbytes', Except.ok.injEq, String.append_right_inj] at hkey
    obtain rfl := hsha hasked hasked' (hexdigest_injective hkey)
    exact replayText_injective hnfc h h' hbytes hbytes'
  · rintro ⟨hrecipient, hmessage, hsender⟩
    rw [OpaqueEnvelope.replayKey, OpaqueEnvelope.replayKey, hrecipient, hmessage, hsender]

theorem identified_of_validate {text : Object → String} {envelope : Object} {limits : Limits}
    (h : validateOpaqueEnvelope text envelope limits = .ok e) : Identified e := by
  cases envelope with
  | mapping data => exact (validateOpaqueEnvelope_iff.mp h).identified
  | _ => cases h

/-- **Strict Base64 and canonical envelopes.** `asked` are the documents that are hashed, among
which SHA-256 has no collision. -/
theorem strict_envelopes (hnfc : ∀ s, Ascii s → nfc s = s) {asked : Set ByteArray}
    (hsha : asked.InjOn sha256) :
    (∀ field value minBytes maxBytes exactBytes data,
      decodeBase64Strict field value minBytes maxBytes exactBytes = .ok data ↔
        ValidBounds minBytes maxBytes exactBytes ∧ InBounds minBytes maxBytes exactBytes data ∧
          ∃ s, value = .str s ∧ Spells s data) ∧
    (∀ text envelope limits e, validateOpaqueEnvelope text envelope limits = .ok e →
      validateOpaqueEnvelope text e.asDict limits = .ok e) ∧
    (∀ text data data' limits limits' e e',
      validateOpaqueEnvelope text (.mapping data) limits = .ok e →
      validateOpaqueEnvelope text (.mapping data') limits' = .ok e' →
        SameSpelling data data' → e.asDict = e'.asDict) ∧
    ∀ text envelope envelope' limits limits' e e',
      validateOpaqueEnvelope text envelope limits = .ok e →
      validateOpaqueEnvelope text envelope' limits' = .ok e' →
        ∃ bytes bytes', e.replayText nfc = .ok bytes ∧ e'.replayText nfc = .ok bytes' ∧
          (bytes ∈ asked → bytes' ∈ asked →
            (e.replayKey nfc sha256 = e'.replayKey nfc sha256 ↔ e.recipient = e'.recipient ∧
              e.clientMessageId = e'.clientMessageId ∧
                e.senderDeviceId = e'.senderDeviceId)) := by
  refine ⟨?_, ?_, ?_, ?_⟩
  · intro field value minBytes maxBytes exactBytes data
    constructor
    · intro h
      obtain ⟨s, heq, hvalid, hin, hs⟩ := spells_of_decodeBase64Strict h
      exact ⟨hvalid, hin, s, heq, hs⟩
    · rintro ⟨hvalid, hin, s, rfl, hs⟩
      exact decodeBase64Strict_spells hvalid hin hs
  · intro text envelope limits e h
    exact validate_asDict h
  · intro text data data' limits limits' e e' h h' hsame
    rw [(validateOpaqueEnvelope_iff.mp h).unique (validateOpaqueEnvelope_iff.mp h') hsame]
  · intro text envelope envelope' limits limits' e e' h h'
    have hid := identified_of_validate h
    have hid' := identified_of_validate h'
    obtain ⟨bytes, hbytes⟩ := exists_replayText hnfc hid
    obtain ⟨bytes', hbytes'⟩ := exists_replayText hnfc hid'
    exact ⟨bytes, bytes', hbytes, hbytes', replayKey_eq_iff hnfc hsha hid hid' hbytes hbytes'⟩

/-! ### One envelope in two spellings, and one for somebody else -/

def sampleFields (recipient name header headerText ciphertext ciphertextText : String) :
    List (Object × Object) :=
  [member "version" (.int 1), member "protocol" (.str (Str.ofString "mls-rfc9420")),
    member recipient (.str (Str.ofString name)), member "epoch" (.int 3),
    member "client_message_id" (.str (Str.ofString "m-1")),
    member header (.str (Str.ofString headerText)),
    member ciphertext (.str (Str.ofString ciphertextText))]

def samplePadded (name : String) : List (Object × Object) :=
  sampleFields "recipient" name "header" "YQ==" "ciphertext" "AAAAAAAAAAAAAAAAAAAAAA=="

def sampleBare (name : String) : List (Object × Object) :=
  sampleFields "recipient_id" name "header_b64" "YQ" "ciphertext_b64" "AAAAAAAAAAAAAAAAAAAAAA"

def sampleLimits : Limits := ⟨none, 16384, 1048576⟩

def sampleText (_ : Object) : String := "?"

def sampleEnvelope (name : String) : OpaqueEnvelope where
  version := 1
  protocol := Str.ofString "mls-rfc9420"
  recipient := Str.ofString name
  epoch := 3
  clientMessageId := Str.ofString "m-1"
  headerB64 := Str.ofString "YQ=="
  ciphertextB64 := Str.ofString "AAAAAAAAAAAAAAAAAAAAAA=="
  headerSize := 1
  ciphertextSize := 16
  senderDeviceId := none

def sampleDocument (name : String) : ByteArray :=
  ("\x7b\"payload\":\x7b\"client_message_id\":\"m-1\",\"recipient\":\"" ++ name ++
    "\"\x7d,\"schema\":\"scap.e2ee.replay-key\",\"version\":1\x7d").toUTF8

/-- 32 bytes from the middle. -/
def sampleDigest (data : ByteArray) : Digest :=
  ⟨(data.data.toList.drop 40 ++ List.replicate 32 0).take 32, by simp⟩

theorem sampleDigest_injOn :
    Set.InjOn sampleDigest {sampleDocument "bob", sampleDocument "eve"} := by
  have hne : sampleDigest (sampleDocument "bob") ≠ sampleDigest (sampleDocument "eve") := by
    decide +kernel
  rintro a (rfl | rfl) b (rfl | rfl) h
  · rfl
  · exact absurd h hne
  · exact absurd h.symm hne
  · rfl

theorem strict_envelopes_sample :
    validateOpaqueEnvelope sampleText (.mapping (samplePadded "bob")) sampleLimits =
      .ok (sampleEnvelope "bob") ∧
    validateOpaqueEnvelope sampleText (.mapping (sampleBare "bob")) sampleLimits =
      .ok (sampleEnvelope "bob") ∧
    validateOpaqueEnvelope sampleText (sampleEnvelope "bob").asDict sampleLimits =
      .ok (sampleEnvelope "bob") ∧
    (sampleEnvelope "bob").replayKey id sampleDigest ≠
      (sampleEnvelope "eve").replayKey id sampleDigest := by
  have hbob : validateOpaqueEnvelope sampleText (.mapping (samplePadded "bob")) sampleLimits =
      .ok (sampleEnvelope "bob") := by decide +kernel
  have heve : validateOpaqueEnvelope sampleText (.mapping (sampleBare "eve")) sampleLimits =
      .ok (sampleEnvelope "eve") := by decide +kernel
  have hbobText : (sampleEnvelope "bob").replayText id = .ok (sampleDocument "bob") := by
    decide +kernel
  have heveText : (sampleEnvelope "eve").replayText id = .ok (sampleDocument "eve") := by
    decide +kernel
  have hid : ∀ s : Str, Ascii s → id s = s := fun _ _ => rfl
  obtain ⟨-, hback, -, hkeys⟩ := strict_envelopes hid sampleDigest_injOn
  refine ⟨hbob, by decide +kernel, hback _ _ _ _ hbob, ?_⟩
  obtain ⟨bytes, bytes', hbytes, hbytes', hiff⟩ := hkeys _ _ _ _ _ _ _ hbob heve
  obtain rfl := Except.ok.inj (hbytes.symm.trans hbobText)
  obtain rfl := Except.ok.inj (hbytes'.symm.trans heveText)
  rw [Ne, hiff (.inl rfl) (.inr rfl)]
  decide +kernel

end Scap.E2ee.Strict
