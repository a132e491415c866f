import Scap.Workbench.Files

/-!
# Containers

`openFile_sealFile`: whatever `encryptFile` accepts is decrypted to the same content, name and
context. `openFile_canonical`: what is decrypted is a container in the layout of the writer, byte
for byte, and its two blocks of JSON are those of the values returned.
-/

namespace Scap.Workbench

open Scap.Py (Bytes)
open Scap.Js

variable {P S ν : Type} {N : Numbers ν} {subtle : WebCrypto P S} {Pair : P → S → Prop}
  {recipient : Recipient P ν} {privateKey : CryptoKey S}

/-- The header block for a recipient and a context. -/
def headerBytes (N : Numbers ν) (own context : Str) : Bytes :=
  encode (stringify N (.obj (fileHeader N (.str own) (.str context))))

/-- The metadata block for a name and a content. -/
def metadataBytes (N : Numbers ν) (subtle : WebCrypto P S) (name : Str) (content : Bytes) : Bytes :=
  encode (stringify N (.obj (fileMetadata N (.str name) content.length
    (fingerprint subtle content))))

/-! ## From the writer to the reader -/

theorem two_le_length_obj (ms : List (Str × Value ν)) :
    2 ≤ (encode (stringify N (.obj ms))).length := by
  have hunits := length_le_encode (stringify N (.obj ms))
  rw [stringify, List.length_cons, List.length_append, List.length_singleton] at hunits
  rw [stringify]
  omega

theorem isFileSize_ofNat (hN : N.Lawful) {size : Nat} (h : size ≤ maxFileBytes) :
    isFileSize N (.num (N.ofNat size)) size = true := by
  have hsafe := hN.safeInteger_ofNat size (h.trans (by decide))
  simp only [isFileSize, hsafe, decide_true, Bool.and_true, Bool.and_eq_true, decide_eq_true_eq]
  omega

/-- What `encryptFile` puts into the container is what `decryptFile` takes out of it. -/
theorem openPayload_filePayload (hN : N.Lawful) (hideal : subtle.Ideal Pair) {name : Str}
    {content : Bytes} (context : Value ν)
    (hname : checkedFileName (Value.str (ν := ν) name) = some (.str name))
    (hcontent : content.length ≤ maxFileBytes) :
    openPayload N (filePayload (metadataBytes N subtle name content) content) context subtle =
      some ⟨content, .str name, context, .str (fingerprint subtle content)⟩ := by
  obtain ⟨s, hs, -, hnameSize, hprintable⟩ := checkedFileName_eq_some hname
  obtain rfl : name = s := by injection hs
  have hblock : canonicalObject N (metadataBytes N subtle name content) maxFileMetadataBytes
      metadataFields =
        some (fileMetadata N (.str name) content.length (fingerprint subtle content)) :=
    canonicalObject_stringify hN (readable_fileMetadata hcontent) rfl
      (length_fileMetadata_le hN hnameSize hprintable hcontent (unescaped_fingerprint subtle _)
        (length_fingerprint hideal _))
  have hmax : (metadataBytes N subtle name content).length ≤ maxFileMetadataBytes :=
    length_fileMetadata_le hN hnameSize hprintable hcontent (unescaped_fingerprint subtle _)
      (length_fingerprint hideal _)
  have hmin : 2 ≤ (metadataBytes N subtle name content).length := two_le_length_obj _
  have hproperty : ∀ key value,
      (key, value) ∈ fileMetadata N (.str name) content.length (fingerprint subtle content) →
      property (fileMetadata N (.str name) content.length (fingerprint subtle content)) key =
        some value :=
    fun key value h => property_of_mem (show metadataFields.Nodup by decide) h
  have hchecks : isFileSize N (.num (N.ofNat content.length)) content.length = true ∧
      validFingerprint (Value.str (ν := ν) (fingerprint subtle content)) = true ∧
      isText (Value.str (ν := ν) (fingerprint subtle content)) (fingerprint subtle content) =
        true :=
    ⟨isFileSize_ofNat hN hcontent, validFingerprint_fingerprint hideal content, isText_iff.mpr rfl⟩
  -- from here on the metadata are some bytes of a bounded length
  generalize metadataBytes N subtle name content = metadata at hblock hmax hmin ⊢
  have hlength := length_filePayload metadata content
  have hread : readLength (filePayload metadata content) 0 = some metadata.length := by
    have hsize : metadata.length < 256 ^ 4 := hmax.trans_lt (by decide)
    have := readLength_append (a := []) (b := metadata ++ content) (i := 0) rfl hsize
    rwa [List.nil_append, ← List.append_assoc] at this
  have hmetadata : subarray (filePayload metadata content) 4 (4 + metadata.length) = metadata := by
    rw [filePayload, List.append_assoc]
    exact subarray_append (length_lengthPrefix _) rfl
  have hrest : (filePayload metadata content).drop (4 + metadata.length) = content := by
    apply List.drop_left'
    rw [List.length_append, length_lengthPrefix]
  unfold openPayload
  rw [guard_bind (by omega), hread]
  simp only [Option.bind_eq_bind, Option.bind_some]
  rw [guard, if_pos ⟨hmin, hmax, by omega⟩, hmetadata, hblock, hrest]
  show ((property _ _).bind checkedFileName).bind _ = _
  rw [hproperty (ofString "name") (.str name) (by simp [fileMetadata]), Option.bind_some, hname,
    Option.bind_some, hproperty (ofString "size") (.num (N.ofNat content.length))
      (by simp [fileMetadata]), Option.bind_some,
    hproperty (ofString "sha256") (.str (fingerprint subtle content)) (by simp [fileMetadata]),
    Option.bind_some, guard, if_pos hchecks]
  rfl

/-- How a container is opened that was written as `sealFile` writes it. -/
theorem openFile_container (subtle : WebCrypto P S) (hN : N.Lawful) {own context : Str}
    {nonce wrappedKey : Bytes} (ciphertext : Bytes)
    (hprivate : validRsa privateKey .privateKey = true)
    (hvalid : validFingerprint (Value.str (ν := ν) own) = true) (hown : Unescaped own)
    (hownLength : own.length = 64) (hcontext : WellFormed context)
    (hcontextSize : (encode context).length ≤ maxContextBytes) (hnonce : nonce.length = 12)
    (hwrapped : wrappedKey.length = 384) (hmin : 4 + 2 + 16 ≤ ciphertext.length)
    (hmax : ciphertext.length ≤ 4 + maxFileMetadataBytes + maxFileBytes + 16) {label : Bytes}
    (hlabel : fileLabel (headerBytes N own context) nonce = label) :
    openFile N privateKey (.str own) (label ++ wrappedKey ++ ciphertext) subtle =
      (subtle.oaepDecrypt privateKey.material label wrappedKey).bind fun keyBytes =>
        (guard (keyBytes.length = 32) : Option Unit).bind fun _ =>
          (subtle.gcmDecrypt keyBytes nonce (label ++ wrappedKey) ciphertext).bind fun payload =>
            openPayload N payload (.str context) subtle := by
  have hheaderMax : (headerBytes N own context).length ≤ maxFileHeaderBytes :=
    length_fileHeader_le hN hown hownLength hcontextSize
  have hheaderMin : 2 ≤ (headerBytes N own context).length := two_le_length_obj _
  have hblock : canonicalObject N (headerBytes N own context) maxFileHeaderBytes headerFields =
      some (fileHeader N (.str own) (.str context)) :=
    canonicalObject_stringify hN readable_fileHeader rfl hheaderMax
  have hproperty : ∀ key value, (key, value) ∈ fileHeader N (.str own) (.str context) →
      property (fileHeader N (.str own) (.str context)) key = some value :=
    fun key value h => property_of_mem (show headerFields.Nodup by decide) h
  have hbounded :
      boundedText (Value.str (ν := ν) context) maxContextBytes = some (encode context) :=
    boundedText_eq_some.mpr ⟨context, rfl, hcontext, hcontextSize, rfl⟩
  have hversion : isNatural N (.num (N.ofNat 1)) 1 = true := by
    simp [isNatural, hN.safeInteger_ofNat 1 (by decide)]
  have hchecks : isText (Value.str (ν := ν) fileFormat) fileFormat = true ∧
      isNatural N (.num (N.ofNat 1)) 1 = true ∧ isText (Value.str (ν := ν) suite) suite = true ∧
      validFingerprint (Value.str (ν := ν) own) = true ∧
      sameText (Value.str (ν := ν) own) (.str own) = true :=
    ⟨isText_iff.mpr rfl, hversion, isText_iff.mpr rfl, hvalid, sameText_iff.mpr ⟨own, rfl, rfl⟩⟩
  -- From here on the header is some bytes of a bounded length, and so is the container.
  generalize headerBytes N own context = header at hlabel hheaderMax hheaderMin hblock
  have hlength : (label ++ wrappedKey ++ ciphertext).length =
      12 + header.length + 12 + 384 + ciphertext.length := by
    rw [List.length_append, List.length_append, ← hlabel, length_fileLabel, hnonce, hwrapped]
  obtain ⟨hmagic, hread, hheader, hnoncePart, hwrappedPart, hlabelPart, haadPart, hrest⟩ :=
    container_parts ciphertext hnonce hwrapped (hheaderMax.trans_lt (by decide))
      (congrArg (· ++ wrappedKey ++ ciphertext) hlabel.symm)
  rw [hlabel] at hlabelPart haadPart
  generalize label ++ wrappedKey ++ ciphertext = container at *
  have hbinary : boundedBinary container (12 + 1 + 12 + 384 + 4 + 2 + 16) maxFileContainerBytes =
      some container := by
    rw [boundedBinary, if_neg]
    unfold maxFileContainerBytes
    omega
  have hsizes : 4 + 2 + 16 ≤ container.length - (12 + header.length + 12 + 384) ∧
      container.length - (12 + header.length + 12 + 384) ≤
        4 + maxFileMetadataBytes + maxFileBytes + 16 := by omega
  -- the checks of `decryptFile` in their order, each by the fact prepared for it
  unfold openFile
  rw [guard_bind ⟨hprivate, hvalid⟩, hbinary, Option.bind_eq_bind, Option.bind_some,
    guard_bind hmagic, hread, Option.bind_eq_bind, Option.bind_some,
    guard_bind ⟨hheaderMin, hheaderMax⟩]
  simp only
  rw [guard_bind hsizes, hheader, hblock, hnoncePart, hwrappedPart, hlabelPart, haadPart, hrest]
  simp only [Option.bind_eq_bind, Option.bind_some]
  rw [hproperty (ofString "format") (.str fileFormat) (by simp [fileHeader]),
    hproperty (ofString "version") (.num (N.ofNat 1)) (by simp [fileHeader]),
    hproperty (ofString "suite") (.str suite) (by simp [fileHeader]),
    hproperty (ofString "recipient") (.str own) (by simp [fileHeader]),
    hproperty (ofString "context") (.str context) (by simp [fileHeader])]
  simp only [Option.bind_some]
  rw [guard, if_pos hchecks, hbounded]
  rfl

/-- What `encryptFile` accepts, besides the recipient. -/
structure Accepts (options : Value ν) (content : Bytes) (name context : Str) : Prop where
  options_eq : fileOptions options = some (.str name, .str context)
  name_checked : checkedFileName (Value.str (ν := ν) name) = some (.str name)
  context_bounded : WellFormed context ∧ (encode context).length ≤ maxContextBytes
  content_bounded : content.length ≤ maxFileBytes

/-- **What is accepted comes back.** -/
theorem openFile_sealFile (hN : N.Lawful) (hideal : subtle.Ideal Pair)
    (hmatch : Matching subtle Pair recipient privateKey) {options : Value ν} {content : Bytes}
    {name context : Str} (haccepts : Accepts options content name context) (draw : Draw) :
    ∃ container, sealFile N draw (some recipient) content options subtle = some container ∧
      openFile N privateKey recipient.fingerprint container subtle =
        some ⟨content, .str name, .str context, .str (fingerprint subtle content)⟩ := by
  have hrecipient := checkedRecipient_of_matching hideal hmatch
  have hfingerprint := hmatch.fingerprint_eq
  generalize hown : fingerprint subtle (subtle.exportSpki recipient.publicKey.material) = own
    at hfingerprint
  have hvalid : validFingerprint (Value.str (ν := ν) own) = true :=
    hown ▸ validFingerprint_fingerprint hideal _
  have hunescaped : Unescaped own := hown ▸ unescaped_fingerprint subtle _
  have hownLength : own.length = 64 := hown ▸ length_fingerprint hideal _
  -- each bound that `encryptFile` checks is one that `decryptFile` checks again
  obtain ⟨hoptions, hname, ⟨hcontext, hcontextSize⟩, hcontent⟩ := haccepts
  obtain ⟨s, hs, -, hnameSize, hprintable⟩ := checkedFileName_eq_some hname
  obtain rfl : name = s := by injection hs
  have hbounded :
      boundedText (Value.str (ν := ν) context) maxContextBytes = some (encode context) :=
    boundedText_eq_some.mpr ⟨context, rfl, hcontext, hcontextSize, rfl⟩
  have hbinary : boundedBinary content 0 maxFileBytes = some content := by
    rw [boundedBinary, if_neg (by omega)]
  have hmetadataMax : (metadataBytes N subtle name content).length ≤ maxFileMetadataBytes :=
    length_fileMetadata_le hN hnameSize hprintable hcontent (unescaped_fingerprint subtle _)
      (length_fingerprint hideal _)
  have hmetadataMin : 2 ≤ (metadataBytes N subtle name content).length := two_le_length_obj _
  have hmetadata : boundedText (Value.str (ν := ν) (stringify N (.obj (fileMetadata N (.str name)
      content.length (fingerprint subtle content))))) maxFileMetadataBytes =
      some (metadataBytes N subtle name content) :=
    boundedText_eq_some.mpr
      ⟨_, rfl, wellFormed_stringify hN (readable_fileMetadata hcontent), hmetadataMax, rfl⟩
  have hheader : boundedText (Value.str (ν := ν) (stringify N (.obj (fileHeader N (.str own)
      (.str context))))) maxFileHeaderBytes = some (headerBytes N own context) :=
    boundedText_eq_some.mpr ⟨_, rfl, wellFormed_stringify hN readable_fileHeader,
      length_fileHeader_le hN hunescaped hownLength hcontextSize, rfl⟩
  have hpayload := openPayload_filePayload hN hideal (.str context) hname hcontent
  have hpayloadLength := length_filePayload (metadataBytes N subtle name content) content
  generalize hlabel : fileLabel (headerBytes N own context) draw.nonce = label
  -- the nonce is the last part of the label
  have hnonce : label.drop (label.length - 12) = draw.nonce := by
    have hlength := draw.length_nonce
    have hwhole : label.length - 12 =
        (fileMagic ++ lengthPrefix (headerBytes N own context).length ++
          headerBytes N own context).length := by
      rw [← hlabel, fileLabel, List.length_append, hlength, Nat.add_sub_cancel]
    rw [hwhole, ← hlabel, fileLabel, List.drop_left]
  -- the two ideal laws: the wrapped key unwraps, and the sealed payload opens under it
  obtain ⟨wrappedKey, hwrap, hwrapped, hunwrap⟩ :=
    hideal.oaep _ _ hmatch.pair label draw.seed draw.key draw.length_key
  generalize hfile : filePayload (metadataBytes N subtle name content) content = payload
    at hpayload hpayloadLength
  generalize hseal :
    subtle.gcmEncrypt draw.key draw.nonce (label ++ wrappedKey) payload = ciphertext
  have hciphertext : ciphertext.length = payload.length + 16 := by
    rw [← hseal, hideal.length_gcm]
  have hopen : subtle.gcmDecrypt draw.key draw.nonce (label ++ wrappedKey) ciphertext =
      some payload := by
    rw [← hseal]
    exact hideal.gcm _ _ _ _ draw.length_key draw.length_nonce
  refine ⟨label ++ wrappedKey ++ ciphertext, ?_, ?_⟩
  · unfold sealFile
    rw [hrecipient, hoptions, hfingerprint]
    simp only [Option.bind_eq_bind, Option.bind_some]
    rw [hname, Option.bind_some, hbounded, Option.bind_some, hbinary, Option.bind_some, hmetadata,
      Option.bind_some, hheader, Option.bind_some]
    show (subtle.oaepEncrypt _ (fileLabel (headerBytes N own context) draw.nonce) _ _).bind _ = _
    rw [hlabel, hwrap, Option.bind_some]
    show some (fileLabel (headerBytes N own context) draw.nonce ++ wrappedKey ++
      subtle.gcmEncrypt draw.key ((fileLabel (headerBytes N own context) draw.nonce).drop
        ((fileLabel (headerBytes N own context) draw.nonce).length - 12))
        (fileLabel (headerBytes N own context) draw.nonce ++ wrappedKey)
        (filePayload (metadataBytes N subtle name content) content)) = _
    rw [hlabel, hnonce, hfile, hseal]
  · have hread := openFile_container subtle hN ciphertext
      hmatch.valid_private hvalid hunescaped hownLength hcontext hcontextSize draw.length_nonce
      hwrapped (by omega) (by omega) hlabel
    rw [hfingerprint, hread, hunwrap, Option.bind_some, guard, if_pos draw.length_key]
    show (subtle.gcmDecrypt draw.key draw.nonce (label ++ wrappedKey) ciphertext).bind _ = _
    rw [hopen, Option.bind_some, hpayload]

/-- Nothing else is accepted. -/
theorem accepts_of_sealFile {recipient : Option (Recipient P ν)} {options : Value ν}
    {content container : Bytes} {draw : Draw}
    (h : sealFile N draw recipient content options subtle = some container) :
    ∃ name context, Accepts options content name context := by
  obtain ⟨⟨publicKey, own⟩, -, h⟩ := Option.bind_eq_some_iff.mp h
  obtain ⟨⟨given, context⟩, hoptions, h⟩ := Option.bind_eq_some_iff.mp h
  obtain ⟨checked, hname, h⟩ := Option.bind_eq_some_iff.mp h
  obtain ⟨data, hcontext, h⟩ := Option.bind_eq_some_iff.mp h
  obtain ⟨input, hinput, -⟩ := Option.bind_eq_some_iff.mp h
  obtain ⟨name, rfl, rfl, -⟩ := checkedFileName_eq_some hname
  obtain ⟨text, rfl, hwell, hsize, -⟩ := boundedText_eq_some.mp hcontext
  refine ⟨name, text, hoptions, hname, ⟨hwell, hsize⟩, ?_⟩
  rw [boundedBinary] at hinput
  split_ifs at hinput with hbad
  omega

/-! ## From the reader back to the writer -/

theorem text_of_isNatural (hN : N.Lawful) {value : Value ν} {n : Nat}
    (h : isNatural N value n = true) (hn : n ≤ maxSafeInteger) :
    stringify N value = stringify N (.num (N.ofNat n)) := by
  cases value with
  | num x =>
      have hx : N.safeInteger x = some (n : Int) := by simpa [isNatural] using h
      rw [stringify, stringify, hN.text_of_safe x n hx, hN.text_ofNat hn]
  | null => cases h
  | bool b => cases h
  | str s => cases h
  | arr vs => cases h
  | obj ms => cases h

theorem isNatural_of_isFileSize {value : Value ν} {n : Nat} (h : isFileSize N value n = true) :
    isNatural N value n = true ∧ n ≤ maxFileBytes := by
  cases value with
  | num x =>
      cases hx : N.safeInteger x with
      | none => simp [isFileSize, hx] at h
      | some i =>
          simp only [isFileSize, hx, Bool.and_eq_true, decide_eq_true_eq] at h
          obtain ⟨⟨-, hmax⟩, rfl⟩ := h
          exact ⟨by simp [isNatural, hx], by omega⟩
  | null => cases h
  | bool b => cases h
  | str s => cases h
  | arr vs => cases h
  | obj ms => cases h

/-- Objects under the same keys with the same texts are written the same. -/
theorem stringify_congr {ms ns : List (Str × Value ν)}
    (h : ms.map (fun m => (m.1, stringify N m.2)) = ns.map fun n => (n.1, stringify N n.2)) :
    stringify N (.obj ms) = stringify N (.obj ns) := by
  rw [stringify, stringify, valueTexts_eq, valueTexts_eq, h]

/-- **What the payload of a file is**: the metadata of what is returned and its content, and nothing
else. -/
theorem openPayload_canonical (hN : N.Lawful) {payload : Bytes} {context : Value ν}
    {file : OpenedFile ν} (h : openPayload N payload context subtle = some file) :
    ∃ name, file.name = .str name ∧ file.context = context ∧
      file.sha256 = .str (fingerprint subtle file.bytes) ∧
      payload = filePayload (metadataBytes N subtle name file.bytes) file.bytes := by
  obtain ⟨hlong, h⟩ := guard_bind_eq_some h
  obtain ⟨metadataLength, hread, h⟩ := Option.bind_eq_some_iff.mp h
  obtain ⟨⟨-, hmax, hfits⟩, h⟩ := guard_bind_eq_some h
  obtain ⟨metadata, hblock, h⟩ := Option.bind_eq_some_iff.mp h
  obtain ⟨checked, hname, h⟩ := Option.bind_eq_some_iff.mp h
  obtain ⟨given, hgiven, hname⟩ := Option.bind_eq_some_iff.mp hname
  obtain ⟨size, hsize, h⟩ := Option.bind_eq_some_iff.mp h
  obtain ⟨sha256, hsha, h⟩ := Option.bind_eq_some_iff.mp h
  obtain ⟨⟨hsizeCheck, -, hdigest⟩, h⟩ := guard_bind_eq_some h
  obtain rfl := Option.some.inj h
  obtain ⟨name, rfl, rfl, -⟩ := checkedFileName_eq_some hname
  obtain ⟨hnatural, hcontent⟩ := isNatural_of_isFileSize hsizeCheck
  have hsizeText := text_of_isNatural hN hnatural (hcontent.trans (by decide))
  rw [isText_iff] at hdigest
  refine ⟨name, rfl, rfl, hdigest, ?_⟩
  have hbytes := encode_of_canonicalObject hblock
  have hmetadata : metadataBytes N subtle name (payload.drop (4 + metadataLength)) =
      subarray payload 4 (4 + metadataLength) := by
    rw [← hbytes]
    apply congrArg encode
    apply stringify_congr
    simp only [fileMetadata, metadataFields, List.map_cons, List.map_nil, hgiven, hsize, hsha,
      Option.getD_some, hdigest, hsizeText]
  show payload = filePayload (metadataBytes N subtle name (payload.drop (4 + metadataLength)))
    (payload.drop (4 + metadataLength))
  have hpre := lengthPrefix_of_readLength hread
  rw [Nat.zero_add, subarray_start] at hpre
  rw [hmetadata, filePayload, length_subarray (Nat.le_add_right 4 _) hfits, Nat.add_sub_cancel_left,
    hpre, take_append_subarray (Nat.le_add_right 4 _), List.take_append_drop]

/-- The layout of a container for a file: every byte is in the label, the wrapped key or the
ciphertext, the first two are the additional data of the third, and the two blocks are those of the
file. -/
def ContainerOf (N : Numbers ν) (subtle : WebCrypto P S) (privateKey : CryptoKey S)
    (ownFingerprint : Value ν) (container : Bytes) (file : OpenedFile ν) : Prop :=
  ∃ own name context nonce wrappedKey ciphertext key,
    ownFingerprint = .str own ∧ file.name = .str name ∧ file.context = .str context ∧
    file.sha256 = .str (fingerprint subtle file.bytes) ∧
    nonce.length = 12 ∧ wrappedKey.length = 384 ∧ key.length = 32 ∧
    container = fileLabel (headerBytes N own context) nonce ++ wrappedKey ++ ciphertext ∧
    subtle.oaepDecrypt privateKey.material (fileLabel (headerBytes N own context) nonce)
      wrappedKey = some key ∧
    subtle.gcmDecrypt key nonce (fileLabel (headerBytes N own context) nonce ++ wrappedKey)
      ciphertext = some (filePayload (metadataBytes N subtle name file.bytes) file.bytes)

/-- **What is opened is such a container.** -/
theorem openFile_canonical (hN : N.Lawful) {ownFingerprint : Value ν} {container : Bytes}
    {file : OpenedFile ν} (h : openFile N privateKey ownFingerprint container subtle = some file) :
    ContainerOf N subtle privateKey ownFingerprint container file := by
  obtain ⟨-, h⟩ := guard_bind_eq_some h
  obtain ⟨given, hbinary, h⟩ := Option.bind_eq_some_iff.mp h
  obtain rfl : container = given := by
    rw [boundedBinary] at hbinary
    split_ifs at hbinary
    exact Option.some.inj hbinary
  obtain ⟨hmagic, h⟩ := guard_bind_eq_some h
  obtain ⟨headerLength, hread, h⟩ := Option.bind_eq_some_iff.mp h
  obtain ⟨-, h⟩ := guard_bind_eq_some h
  obtain ⟨⟨hmin, -⟩, h⟩ := guard_bind_eq_some h
  obtain ⟨header, hblock, h⟩ := Option.bind_eq_some_iff.mp h
  obtain ⟨format, hformat, h⟩ := Option.bind_eq_some_iff.mp h
  obtain ⟨version, hversion, h⟩ := Option.bind_eq_some_iff.mp h
  obtain ⟨fileSuite, hsuite, h⟩ := Option.bind_eq_some_iff.mp h
  obtain ⟨recipient, hrecipient, h⟩ := Option.bind_eq_some_iff.mp h
  obtain ⟨⟨hformatText, hversionNumber, hsuiteText, -, hsame⟩, h⟩ := guard_bind_eq_some h
  obtain ⟨given, hcontext, h⟩ := Option.bind_eq_some_iff.mp h
  obtain ⟨data, hbounded, h⟩ := Option.bind_eq_some_iff.mp h
  obtain ⟨key, hunwrap, h⟩ := Option.bind_eq_some_iff.mp h
  obtain ⟨hkey, h⟩ := guard_bind_eq_some h
  obtain ⟨payload, hopen, h⟩ := Option.bind_eq_some_iff.mp h
  obtain ⟨own, rfl, rfl⟩ := sameText_iff.mp hsame
  obtain ⟨context, rfl, -⟩ := boundedText_eq_some.mp hbounded
  obtain ⟨name, hname, hfileContext, hsha, rfl⟩ := openPayload_canonical hN h
  rw [isText_iff] at hformatText hsuiteText
  have hversionText := text_of_isNatural hN hversionNumber (by decide)
  -- The offsets lie in the container, since the ciphertext after them is not empty.
  have hlength : 12 + headerLength + 12 + 384 ≤ container.length := by omega
  have hheader : headerBytes N own context = subarray container 12 (12 + headerLength) := by
    rw [← encode_of_canonicalObject hblock]
    apply congrArg encode
    apply stringify_congr
    simp only [fileHeader, headerFields, List.map_cons, List.map_nil, hformat, hversion, hsuite,
      hrecipient, hcontext, Option.getD_some, hformatText, hsuiteText, hversionText]
  have hheaderLength : (headerBytes N own context).length = headerLength := by
    rw [hheader, length_subarray (Nat.le_add_right 12 _) (by omega), Nat.add_sub_cancel_left]
  have hpre := lengthPrefix_of_readLength hread
  have hlabel : fileLabel (headerBytes N own context)
      (subarray container (12 + headerLength) (12 + headerLength + 12)) =
      subarray container 0 (12 + headerLength + 12) := by
    rw [fileLabel, hheaderLength, hpre, ← hmagic, hheader, take_append_subarray (by omega),
      take_append_subarray (by omega), take_append_subarray (by omega), subarray_start]
  have haad : subarray container 0 (12 + headerLength + 12) ++
      subarray container (12 + headerLength + 12) (12 + headerLength + 12 + 384) =
      subarray container 0 (12 + headerLength + 12 + 384) := by
    rw [subarray_start, subarray_start, take_append_subarray (by omega)]
  refine ⟨own, name, context, subarray container (12 + headerLength) (12 + headerLength + 12),
    subarray container (12 + headerLength + 12) (12 + headerLength + 12 + 384),
    container.drop (12 + headerLength + 12 + 384), key, rfl, hname, hfileContext, hsha, ?_, ?_,
    hkey, ?_, ?_, ?_⟩
  · rw [length_subarray (by omega) (by omega), Nat.add_sub_cancel_left]
  · rw [length_subarray (by omega) (by omega), Nat.add_sub_cancel_left]
  · rw [hlabel, haad, subarray_start, List.take_append_drop]
  · rw [hlabel]
    exact hunwrap
  · rw [hlabel, haad]
    exact hopen

/-! ## The whole -/

/-- **Files come back, and only canonical containers are opened.** The writer accepts exactly what
its checks of the name, the context and the size accept, and the reader then opens what it wrote. -/
theorem encrypted_files (hN : N.Lawful) (hideal : subtle.Ideal Pair)
    (hmatch : Matching subtle Pair recipient privateKey) :
    (∀ draw content options,
      (∀ name context, Accepts options content name context → ∃ container,
        encryptFile N (some subtle) draw (some recipient) content options = .ok container ∧
          decryptFile N (some subtle) privateKey recipient.fingerprint container =
            .ok ⟨content, .str name, .str context, .str (fingerprint subtle content)⟩) ∧
      ∀ container,
        encryptFile N (some subtle) draw (some recipient) content options = .ok container →
          ∃ name context, Accepts options content name context) ∧
    ∀ (key : CryptoKey S) ownFingerprint container file,
      decryptFile N (some subtle) key ownFingerprint container = .ok file →
        ContainerOf N subtle key ownFingerprint container file := by
  refine ⟨fun draw content options => ⟨?_, ?_⟩, ?_⟩
  · intro name context haccepts
    obtain ⟨container, hsealed, hopened⟩ := openFile_sealFile hN hideal hmatch haccepts draw
    exact ⟨container, guarded_eq_ok.mpr hsealed, guarded_eq_ok.mpr hopened⟩
  · intro container h
    exact accepts_of_sealFile (guarded_eq_ok.mp h)
  · intro key ownFingerprint container file h
    exact openFile_canonical hN (guarded_eq_ok.mp h)

def sampleOptions {ν : Type} : Value ν :=
  .obj [(ofString "name", .str (ofString "a.txt")), (ofString "context", .str (ofString "demo"))]

theorem accepts_sample {ν : Type} :
    Accepts (sampleOptions (ν := ν)) [1, 2, 3] (ofString "a.txt") (ofString "demo") where
  options_eq := rfl
  name_checked := by
    have hlength : (encode (ofString "a.txt")).length ≤ maxFileNameBytes := by
      rw [length_encode_ascii (by decide)]
      decide
    have hplain : ¬((ofString "a.txt").all isSpace = true ∨ ofString "a.txt" = ofString "." ∨
        ofString "a.txt" = ofString ".." ∨ (ofString "a.txt").any forbidden = true) := by decide
    exact checkedFileName_str (by decide) hlength hplain
  context_bounded := by
    have hascii : Ascii (ofString "demo") := by decide
    have hlength : (ofString "demo").length = 4 := by decide
    refine ⟨hascii.wellFormed, ?_⟩
    rw [length_encode_ascii hascii, hlength]
    show 4 ≤ 256
    omega
  content_bounded := by
    show 3 ≤ 5 * 1024 * 1024
    omega

/-- A file of three bytes. -/
theorem encrypted_files_sample : ∃ container file,
    encryptFile naturals (some sampleSubtle) sampleDraw (some sampleRecipient) [1, 2, 3]
        sampleOptions = .ok container ∧
      decryptFile naturals (some sampleSubtle) samplePrivateKey sampleRecipient.fingerprint
        container = .ok file ∧ file.bytes = [1, 2, 3] ∧
      ContainerOf naturals sampleSubtle samplePrivateKey sampleRecipient.fingerprint container
        file := by
  have hfiles := encrypted_files lawful_naturals ideal_sampleSubtle matching_sample
  obtain ⟨container, hsealed, hopened⟩ :=
    (hfiles.1 sampleDraw [1, 2, 3] sampleOptions).1 _ _ accepts_sample
  exact ⟨container, _, hsealed, hopened, rfl, hfiles.2 _ _ _ _ hopened⟩

end Scap.Workbench
