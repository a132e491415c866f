import Scap.Workbench.Keys

/-!
# Encrypted texts

`encrypt` and `decrypt` of the workbench. The decoder removes a byte order mark at the beginning of
the text (`openPacket_sealPacket`), which nothing before it rejects. So the text comes back if and
only if it does not begin with one.
-/

namespace Scap.Workbench

open Scap.Py (Bytes)
open Scap.Js

variable {P S ν : Type}

/-! ## The operations -/

def suite : Str := ofString "RSA-OAEP-3072-SHA256+A256GCM"

def packetFormat : Str := ofString "scap-encrypted-text"

def maxTextBytes : Nat := 65536

def maxPacketBytes : Nat := 96000

def maxContextBytes : Nat := 256

/-- The members of `packetHeader(recipient, context)`. -/
def packetHeader (N : Numbers ν) (recipient context : Value ν) : List (Str × Value ν) :=
  [(ofString "format", .str packetFormat), (ofString "version", .num (N.ofNat 1)),
    (ofString "suite", .str suite), (ofString "recipient", recipient),
    (ofString "context", context)]

/-- The members of a packet. -/
def packetMembers (N : Numbers ν) (recipient context : Value ν)
    (nonce wrappedKey ciphertext : Bytes) : List (Str × Value ν) :=
  packetHeader N recipient context ++
    [(ofString "nonce", .str (btoa64 nonce)), (ofString "wrappedKey", .str (btoa64 wrappedKey)),
      (ofString "ciphertext", .str (btoa64 ciphertext))]

def packetFields : List Str :=
  [ofString "format", ofString "version", ofString "suite", ofString "recipient",
    ofString "context", ofString "nonce", ofString "wrappedKey", ofString "ciphertext"]

/-- The recipient's key and its fingerprint, if they belong together. -/
def checkedRecipient (subtle : WebCrypto P S) (recipient : Option (Recipient P ν)) :
    Option (P × Value ν) := do
  let recipient ← recipient
  guard (validRsa recipient.publicKey .publicKey ∧ validFingerprint recipient.fingerprint)
  let publicDer ← subtle.exportKey recipient.publicKey
  guard (isText recipient.fingerprint (fingerprint subtle publicDer))
  return (recipient.publicKey.material, recipient.fingerprint)

/-- The body of `encrypt`. -/
def sealPacket (N : Numbers ν) (draw : Draw) (recipient : Option (Recipient P ν))
    (plaintext context : Value ν) (subtle : WebCrypto P S) : Option Str := do
  let (publicKey, own) ← checkedRecipient subtle recipient
  let plaintextBytes ← boundedText plaintext maxTextBytes
  let _ ← boundedText context maxContextBytes
  let aad := encode (stringify N (.obj (packetHeader N own context)))
  let wrappedKey ← subtle.oaepEncrypt publicKey aad draw.seed draw.key
  let ciphertext := subtle.gcmEncrypt draw.key draw.nonce aad plaintextBytes
  return stringify N (.obj (packetMembers N own context draw.nonce wrappedKey ciphertext))

/-- `encrypt(recipient, plaintext, context = "")`. -/
def encrypt (N : Numbers ν) (provider : Option (WebCrypto P S)) (draw : Draw)
    (recipient : Option (Recipient P ν)) (plaintext : Value ν) (context : Option (Value ν)) :
    Except Failure Str :=
  guarded provider .encrypt (sealPacket N draw recipient plaintext (context.getD (.str [])))

/-- The body of `decrypt`. -/
def openPacket (N : Numbers ν) (privateKey : CryptoKey S) (ownFingerprint packetJSON : Value ν)
    (subtle : WebCrypto P S) : Option Str := do
  guard (validRsa privateKey .privateKey ∧ validFingerprint ownFingerprint)
  let packet ← (parse N packetJSON maxPacketBytes).bind fun value => object value packetFields
  let format ← property packet (ofString "format")
  let version ← property packet (ofString "version")
  let packetSuite ← property packet (ofString "suite")
  let recipient ← property packet (ofString "recipient")
  guard (isText format packetFormat ∧ isNatural N version 1 ∧ isText packetSuite suite ∧
    sameText recipient ownFingerprint)
  let context ← property packet (ofString "context")
  let _ ← boundedText context maxContextBytes
  let nonce ← (property packet (ofString "nonce")).bind fun value => decode64 value 12 12
  let wrappedKey ← (property packet (ofString "wrappedKey")).bind fun value =>
    decode64 value 384 384
  let ciphertext ← (property packet (ofString "ciphertext")).bind fun value =>
    decode64 value 16 (maxTextBytes + 16)
  let aad := encode (stringify N (.obj (packetHeader N recipient context)))
  let keyBytes ← subtle.oaepDecrypt privateKey.material aad wrappedKey
  guard (keyBytes.length = 32)
  let plaintextBytes ← subtle.gcmDecrypt keyBytes nonce aad ciphertext
  decode plaintextBytes

def decrypt (N : Numbers ν) (provider : Option (WebCrypto P S)) (privateKey : CryptoKey S)
    (ownFingerprint packetJSON : Value ν) : Except Failure Str :=
  guarded provider .decrypt (openPacket N privateKey ownFingerprint packetJSON)

/-! ## Packets -/

theorem some_bind {α β : Type} {a : α} {f : α → Option β} : (some a >>= f) = f a := rfl

theorem guard_bind {α : Type} {p : Prop} [Decidable p] (h : p) (f : Unit → Option α) :
    (guard p >>= f) = f () := by
  rw [guard, if_pos h]
  rfl

section Packet

variable {N : Numbers ν} {own context : Str} {nonce wrappedKey ciphertext : Bytes}

theorem packetMembers_keys : (packetMembers N (.str own) (.str context) nonce wrappedKey
    ciphertext).map Prod.fst = packetFields := rfl

theorem nodup_packetFields : packetFields.Nodup := by decide

theorem readable_packetMembers :
    Readable N (.obj (packetMembers N (.str own) (.str context) nonce wrappedKey ciphertext)) := by
  have hindex : ∀ key ∈ packetFields, arrayIndex? key = none := by decide
  refine .obj _ ?_ nodup_packetFields ?_
  · intro m hm
    simp only [packetMembers, packetHeader, List.cons_append, List.nil_append, List.mem_cons,
      List.not_mem_nil, or_false] at hm
    rcases hm with rfl | rfl | rfl | rfl | rfl | rfl | rfl | rfl
    · exact .str _
    · exact .num 1 (by decide)
    · exact .str _
    · exact .str _
    · exact .str _
    · exact .str _
    · exact .str _
    · exact .str _
  · intro m hm
    exact hindex m.1 (packetMembers_keys (N := N) ▸ List.mem_map_of_mem hm)

theorem unescaped_btoa64 (data : Bytes) : Unescaped (btoa64 data) := by
  intro u hu
  have hdigit := isUrlsafe_of_mem_btoa64 hu
  have hquote : (code '"').toNat = 34 := by decide
  have hbackslash : (code '\\').toNat = 92 := by decide
  simp only [isUrlsafe, Bool.or_eq_true, Bool.and_eq_true, decide_eq_true_eq] at hdigit
  refine ⟨by omega, by omega, ?_, ?_⟩
  · rintro rfl
    omega
  · rintro rfl
    omega

theorem unescaped_fingerprint (subtle : WebCrypto P S) (der : Bytes) :
    Unescaped (fingerprint subtle der) := by
  intro u hu
  obtain ⟨n, hn, rfl⟩ := mem_fingerprint hu
  have hspec := hexDigit_spec hn
  have hquote : (code '"').toNat = 34 := by decide
  have hbackslash : (code '\\').toNat = 92 := by decide
  refine ⟨by omega, by omega, ?_, ?_⟩
  · intro h
    rw [h] at hspec
    omega
  · intro h
    rw [h] at hspec
    omega

/-- **A packet is within the limit of the reader**: its longest parts are the Base64 text of the
ciphertext and a context of control characters. -/
theorem length_packet_le (hN : N.Lawful) (hown : Unescaped own) (hownLength : own.length = 64)
    (hcontext : (encode context).length ≤ maxContextBytes) (hnonce : nonce.length = 12)
    (hwrapped : wrappedKey.length = 384) (hciphertext : ciphertext.length ≤ maxTextBytes + 16) :
    (encode (stringify N (.obj (packetMembers N (.str own) (.str context) nonce wrappedKey
      ciphertext)))).length ≤ maxPacketBytes := by
  have hfields : ∀ key ∈ packetFields, Unescaped key := by decide
  have hkeys : packetFields.map (fun key => (encode (quote key)).length) =
      [8, 9, 7, 11, 9, 7, 12, 12] := by
    rw [List.map_congr_left fun key hkey => length_encode_quote (hfields key hkey)]
    decide
  have hformat : (encode (quote packetFormat)).length = 21 := length_encode_quote (by decide)
  have hsuite : (encode (quote suite)).length = 30 := length_encode_quote (by decide)
  have hversion : (encode (N.text (N.ofNat 1))).length = 1 := by
    rw [hN.text_ofNat (by decide)]
    exact length_encode_ascii (by decide)
  have hquoted := length_encode_quote_le context
  have hrecipient := length_encode_quote hown
  have hbase64 := fun data => length_encode_quote (unescaped_btoa64 data)
  have hnonceText := hbase64 nonce
  have hwrappedText := hbase64 wrappedKey
  have hciphertextText := hbase64 ciphertext
  rw [length_btoa64] at hnonceText hwrappedText hciphertextText
  refine (length_encode_obj_le hN readable_packetMembers).trans ?_
  simp only [packetFields, List.map_cons, List.map_nil, List.cons.injEq, and_true] at hkeys
  simp only [packetMembers, packetHeader, List.cons_append, List.nil_append, List.map_cons,
    List.map_nil, List.sum_cons, List.sum_nil, memberSize, stringify]
  unfold maxContextBytes at hcontext
  unfold maxTextBytes at hciphertext
  unfold maxPacketBytes
  omega

end Packet

/-! ## The round trip -/

section RoundTrip

variable {N : Numbers ν} {subtle : WebCrypto P S} {Pair : P → S → Prop}
  {recipient : Recipient P ν} {privateKey : CryptoKey S} {text context : Str}

theorem checkedRecipient_of_matching (hideal : subtle.Ideal Pair)
    (hmatch : Matching subtle Pair recipient privateKey) :
    checkedRecipient subtle (some recipient) =
      some (recipient.publicKey.material, recipient.fingerprint) := by
  have hvalid := validFingerprint_fingerprint (ν := ν) hideal
    (subtle.exportSpki recipient.publicKey.material)
  have hexported : subtle.exportKey recipient.publicKey =
      some (subtle.exportSpki recipient.publicKey.material) := if_pos hmatch.extractable
  rw [← hmatch.fingerprint_eq] at hvalid
  rw [checkedRecipient, Option.bind_eq_bind, Option.bind_some,
    guard_bind ⟨hmatch.valid_public, hvalid⟩, hexported, Option.bind_eq_bind, Option.bind_some,
    guard_bind (isText_iff.mpr hmatch.fingerprint_eq)]
  rfl

/-- How a packet is opened that was written as `sealPacket` writes it. -/
theorem openPacket_packet (subtle : WebCrypto P S) (hN : N.Lawful) {own : Str}
    {nonce wrappedKey : Bytes} (ciphertext : Bytes)
    (hprivate : validRsa privateKey .privateKey = true)
    (hvalid : validFingerprint (Value.str (ν := ν) own) = true) (hown : Unescaped own)
    (hownLength : own.length = 64) (hcontext : WellFormed context)
    (hcontextSize : (encode context).length ≤ maxContextBytes) (hnonce : nonce.length = 12)
    (hwrapped : wrappedKey.length = 384) (hmin : 16 ≤ ciphertext.length)
    (hmax : ciphertext.length ≤ maxTextBytes + 16) {aad : Bytes}
    (haad : encode (stringify N (.obj (packetHeader N (.str own) (.str context)))) = aad) :
    openPacket N privateKey (.str own) (.str (stringify N (.obj (packetMembers N (.str own)
      (.str context) nonce wrappedKey ciphertext)))) subtle =
      (subtle.oaepDecrypt privateKey.material aad wrappedKey).bind fun keyBytes =>
        (guard (keyBytes.length = 32) : Option Unit).bind fun _ =>
          (subtle.gcmDecrypt keyBytes nonce aad ciphertext).bind decode := by
  have hlength := length_packet_le hN hown hownLength hcontextSize hnonce hwrapped hmax
  have hparse := parse_stringify hN readable_packetMembers hlength
  -- From here on the packet is some object with the fields of a packet.
  generalize hpacket :
    packetMembers N (.str own) (.str context) nonce wrappedKey ciphertext = packet at hparse ⊢
  have hkeys : packet.map Prod.fst = packetFields := hpacket ▸ packetMembers_keys
  have hproperty : ∀ key value, (key, value) ∈ packet → property packet key = some value := by
    intro key value h
    exact property_of_mem (hkeys ▸ nodup_packetFields) h
  have hbounded :
      boundedText (Value.str (ν := ν) context) maxContextBytes = some (encode context) :=
    boundedText_eq_some.mpr ⟨context, rfl, hcontext, hcontextSize, rfl⟩
  have hnonce64 : decode64 (Value.str (ν := ν) (btoa64 nonce)) 12 12 = some nonce :=
    decode64_btoa64 (List.ne_nil_of_length_pos (by omega)) (by omega) (by omega)
  have hwrapped64 : decode64 (Value.str (ν := ν) (btoa64 wrappedKey)) 384 384 = some wrappedKey :=
    decode64_btoa64 (List.ne_nil_of_length_pos (by omega)) (by omega) (by omega)
  have hciphertext64 : decode64 (Value.str (ν := ν) (btoa64 ciphertext)) 16 (maxTextBytes + 16) =
      some ciphertext :=
    decode64_btoa64 (List.ne_nil_of_length_pos (by omega)) hmin hmax
  have hversion : isNatural N (.num (N.ofNat 1)) 1 = true := by
    simp [isNatural, hN.safeInteger_ofNat 1 (by decide)]
  have hheader : isText (Value.str (ν := ν) packetFormat) packetFormat = true ∧
      isNatural N (.num (N.ofNat 1)) 1 = true ∧ isText (Value.str (ν := ν) suite) suite = true ∧
      sameText (Value.str (ν := ν) own) (.str own) = true :=
    ⟨isText_iff.mpr rfl, hversion, isText_iff.mpr rfl, sameText_iff.mpr ⟨own, rfl, rfl⟩⟩
  -- the checks of `decryptPacket` in their order, each by the fact prepared for it
  unfold openPacket
  unfold packetMembers packetHeader at hpacket
  rw [guard_bind ⟨hprivate, hvalid⟩, hparse, Option.bind_some, object_obj hkeys, some_bind,
    hproperty (ofString "format") (.str packetFormat) (by simp [← hpacket]), some_bind,
    hproperty (ofString "version") (.num (N.ofNat 1)) (by simp [← hpacket]), some_bind,
    hproperty (ofString "suite") (.str suite) (by simp [← hpacket]), some_bind,
    hproperty (ofString "recipient") (.str own) (by simp [← hpacket]), some_bind,
    guard_bind hheader,
    hproperty (ofString "context") (.str context) (by simp [← hpacket]), some_bind,
    hbounded, some_bind,
    hproperty (ofString "nonce") (.str (btoa64 nonce)) (by simp [← hpacket]),
    Option.bind_some, hnonce64, some_bind,
    hproperty (ofString "wrappedKey") (.str (btoa64 wrappedKey)) (by simp [← hpacket]),
    Option.bind_some, hwrapped64, some_bind,
    hproperty (ofString "ciphertext") (.str (btoa64 ciphertext)) (by simp [← hpacket]),
    Option.bind_some, hciphertext64, some_bind]
  dsimp only
  rw [haad]
  rfl

/-- **What is decrypted**: the text without the byte order mark it may begin with. -/
theorem openPacket_sealPacket (hN : N.Lawful) (hideal : subtle.Ideal Pair)
    (hmatch : Matching subtle Pair recipient privateKey) (htext : WellFormed text)
    (hsize : (encode text).length ≤ maxTextBytes) (hcontext : WellFormed context)
    (hcontextSize : (encode context).length ≤ maxContextBytes) (draw : Draw) :
    ∃ packet, sealPacket N draw (some recipient) (.str text) (.str context) subtle = some packet ∧
      openPacket N privateKey recipient.fingerprint (.str packet) subtle =
        some (dropMark text) := by
  have hrecipient := checkedRecipient_of_matching hideal hmatch
  have hfingerprint := hmatch.fingerprint_eq
  generalize hown : fingerprint subtle (subtle.exportSpki recipient.publicKey.material) = own
    at hfingerprint
  have hvalid : validFingerprint (Value.str (ν := ν) own) = true :=
    hown ▸ validFingerprint_fingerprint hideal _
  have hplaintext : boundedText (Value.str (ν := ν) text) maxTextBytes = some (encode text) :=
    boundedText_eq_some.mpr ⟨text, rfl, htext, hsize, rfl⟩
  have hbounded :
      boundedText (Value.str (ν := ν) context) maxContextBytes = some (encode context) :=
    boundedText_eq_some.mpr ⟨context, rfl, hcontext, hcontextSize, rfl⟩
  generalize haad : encode (stringify N (.obj (packetHeader N (.str own) (.str context)))) = aad
  obtain ⟨wrappedKey, hwrap, hwrapped, hunwrap⟩ :=
    hideal.oaep _ _ hmatch.pair aad draw.seed draw.key draw.length_key
  generalize hseal : subtle.gcmEncrypt draw.key draw.nonce aad (encode text) = ciphertext
  have hciphertext : ciphertext.length = (encode text).length + 16 := by
    rw [← hseal, hideal.length_gcm]
  have hopen : subtle.gcmDecrypt draw.key draw.nonce aad ciphertext = some (encode text) := by
    rw [← hseal]
    exact hideal.gcm _ _ _ _ draw.length_key draw.length_nonce
  refine ⟨stringify N (.obj (packetMembers N (.str own) (.str context) draw.nonce wrappedKey
    ciphertext)), ?_, ?_⟩
  · unfold sealPacket
    rw [hrecipient, hplaintext, hbounded, hfingerprint]
    simp only [Option.bind_eq_bind, Option.bind_some]
    rw [haad, hwrap, Option.bind_some, hseal]
    rfl
  · have hread := openPacket_packet subtle hN ciphertext
      hmatch.valid_private hvalid (hown ▸ unescaped_fingerprint subtle _)
      (hown ▸ length_fingerprint hideal _) hcontext hcontextSize draw.length_nonce hwrapped
      (by omega) (by omega) haad
    rw [hfingerprint, hread, hunwrap, Option.bind_some, guard, if_pos draw.length_key]
    show (subtle.gcmDecrypt draw.key draw.nonce aad ciphertext).bind decode = _
    rw [hopen, Option.bind_some, decode_encode htext]

/-- **A text comes back if and only if it does not begin with a byte order mark.** -/
theorem decrypt_encrypt_iff (hN : N.Lawful) (hideal : subtle.Ideal Pair)
    (hmatch : Matching subtle Pair recipient privateKey) (htext : WellFormed text)
    (hsize : (encode text).length ≤ maxTextBytes) (hcontext : WellFormed context)
    (hcontextSize : (encode context).length ≤ maxContextBytes) (draw : Draw) :
    ∃ packet, encrypt N (some subtle) draw (some recipient) (.str text) (some (.str context)) =
        .ok packet ∧
      (decrypt N (some subtle) privateKey recipient.fingerprint (.str packet) = .ok text ↔
        text.head? ≠ some byteOrderMark) := by
  obtain ⟨packet, hsealed, hopened⟩ :=
    openPacket_sealPacket hN hideal hmatch htext hsize hcontext hcontextSize draw
  refine ⟨packet, guarded_eq_ok.mpr hsealed, ?_⟩
  rw [decrypt, guarded_eq_ok, hopened, Option.some.injEq]
  exact dropMark_eq_self_iff

end RoundTrip

/-- An ordinary text comes back. -/
theorem decrypt_encrypt_hello : ∃ packet,
    encrypt naturals (some sampleSubtle) sampleDraw (some sampleRecipient)
        (.str (ofString "hello")) (some (.str (ofString "demo"))) = .ok packet ∧
      (decrypt naturals (some sampleSubtle) samplePrivateKey sampleRecipient.fingerprint
        (.str packet) = .ok (ofString "hello") ↔
        (ofString "hello").head? ≠ some byteOrderMark) :=
  decrypt_encrypt_iff lawful_naturals ideal_sampleSubtle matching_sample (by decide)
    (by rw [length_encode_ascii (by decide)]; decide) (by decide)
    (by rw [length_encode_ascii (by decide)]; decide) sampleDraw

/-- A text that begins with a byte order mark does not, and nothing fails. -/
theorem decrypt_encrypt_mark : ∃ packet,
    encrypt naturals (some sampleSubtle) sampleDraw (some sampleRecipient)
        (.str (ofString "\uFEFFhello")) (some (.str [])) = .ok packet ∧
      decrypt naturals (some sampleSubtle) samplePrivateKey sampleRecipient.fingerprint
        (.str packet) = .ok (ofString "hello") ∧ ofString "hello" ≠ ofString "\uFEFFhello" := by
  have hsize : (encode (ofString "\uFEFFhello")).length ≤ maxTextBytes := by
    rw [length_encode_codePoints]
    decide
  obtain ⟨packet, hsealed, hopened⟩ := openPacket_sealPacket lawful_naturals ideal_sampleSubtle
    matching_sample (show WellFormed (ofString "\uFEFFhello") by decide) hsize
    (show WellFormed [] by decide) (Nat.zero_le _) sampleDraw
  have hdropped : dropMark (ofString "\uFEFFhello") = ofString "hello" := by decide
  rw [hdropped] at hopened
  exact ⟨packet, guarded_eq_ok.mpr hsealed, guarded_eq_ok.mpr hopened, by decide⟩

end Scap.Workbench
