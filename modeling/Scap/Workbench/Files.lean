import Scap.Py.Struct
import Scap.Workbench.Packets

/-!
# Encrypted files

`encryptFile` and `decryptFile` of the workbench, and the container between them: a magic number,
the length of the header, the header, a nonce, the wrapped key and the ciphertext of a payload that
holds the length of the metadata, the metadata and the content.

A block of JSON is written with the limits of the reader kept (`length_fileHeader_le`,
`length_fileMetadata_le`) and is read only if it is canonical (`encode_of_canonicalObject`).
-/

namespace Scap.Workbench

open Scap.Py (Bytes)
open Scap.Py.Struct (packInt unpackInt length_packInt unpackInt_packInt packInt_unpackInt)
open Scap.Js

variable {P S ν : Type}

/-! ## Limits -/

def fileFormat : Str := ofString "scap-encrypted-file"

/-- `SCAPFIL1`. -/
def fileMagic : Bytes := [83, 67, 65, 80, 70, 73, 76, 49]

def maxFileBytes : Nat := 5 * 1024 * 1024

def maxFileHeaderBytes : Nat := 2048

def maxFileMetadataBytes : Nat := 1024

def maxFileNameBytes : Nat := 255

def maxFileContainerBytes : Nat :=
  12 + maxFileHeaderBytes + 12 + 384 + 4 + maxFileMetadataBytes + maxFileBytes + 16

/-! ## Binary data -/

def boundedBinary (value : Bytes) (minimum maximum : Nat) : Option Bytes :=
  if value.length < minimum ∨ maximum < value.length then none else some value

/-- `setUint32(0, size, false)` in four bytes. -/
def lengthPrefix (size : Nat) : Bytes := packInt 4 size

/-- `getUint32(offset, false)`, or `none` for the `RangeError`. -/
def readLength (value : Bytes) (offset : Nat) : Option Nat :=
  if offset + 4 ≤ value.length then some (unpackInt ((value.drop offset).take 4)) else none

def subarray (value : Bytes) (start stop : Nat) : Bytes := (value.drop start).take (stop - start)

/-- An object whose bytes are those that `JSON.stringify` gives its fields in their order. -/
def canonicalObject (N : Numbers ν) (value : Bytes) (limit : Nat) (fields : List Str) :
    Option (List (Str × Value ν)) := do
  guard (value.length ≤ limit)
  let text ← decode value
  let result ← (parse N (.str text) limit).bind fun value => object value fields
  let canonical := fields.map fun field => (field, (property result field).getD .null)
  guard (encode (stringify N (.obj canonical)) = value)
  return result

/-! ## Names and options -/

/-- `[/\\\u0000-\u001f\u007f-\u009f\u202a-\u202e\u2066-\u2069]`. -/
def forbidden (u : CodeUnit) : Bool :=
  let n := u.toNat
  u = code '/' || u = code '\\' || n ≤ 0x1f || (0x7f ≤ n && n ≤ 0x9f) ||
    (0x202a ≤ n && n ≤ 0x202e) || (0x2066 ≤ n && n ≤ 0x2069)

/-- `checkedFileName(name)`. A name that `trim` empties consists of white space. -/
def checkedFileName (name : Value ν) : Option (Value ν) := do
  let _ ← boundedText name maxFileNameBytes
  match name with
  | .str s =>
    if s.all isSpace ∨ s = ofString "." ∨ s = ofString ".." ∨ s.any forbidden then none
    else some name
  | _ => none

/-- The name and the context of plain options. -/
def fileOptions (options : Value ν) : Option (Value ν × Value ν) :=
  match options with
  | .obj ms =>
    if hasOwn ms (ofString "name") ∧
        ms.all fun m => m.1 = ofString "name" || m.1 = ofString "context" then
      (property ms (ofString "name")).map fun name =>
        (name, (property ms (ofString "context")).getD (.str []))
    else none
  | _ => none

/-! ## The operations -/

/-- The members of `fileHeader(recipient, context)`. -/
def fileHeader (N : Numbers ν) (recipient context : Value ν) : List (Str × Value ν) :=
  [(ofString "format", .str fileFormat), (ofString "version", .num (N.ofNat 1)),
    (ofString "suite", .str suite), (ofString "recipient", recipient),
    (ofString "context", context)]

def headerFields : List Str :=
  [ofString "format", ofString "version", ofString "suite", ofString "recipient",
    ofString "context"]

/-- The members of the metadata. -/
def fileMetadata (N : Numbers ν) (name : Value ν) (size : Nat) (sha256 : Str) :
    List (Str × Value ν) :=
  [(ofString "name", name), (ofString "size", .num (N.ofNat size)),
    (ofString "sha256", .str sha256)]

def metadataFields : List Str := [ofString "name", ofString "size", ofString "sha256"]

/-- The body of `encryptFile`. -/
def sealFile (N : Numbers ν) (draw : Draw) (recipient : Option (Recipient P ν)) (fileBytes : Bytes)
    (options : Value ν) (subtle : WebCrypto P S) : Option Bytes := do
  let (publicKey, own) ← checkedRecipient subtle recipient
  let (givenName, context) ← fileOptions options
  let name ← checkedFileName givenName
  let _ ← boundedText context maxContextBytes
  let input ← boundedBinary fileBytes 0 maxFileBytes
  let metadata ← boundedText (Value.str (ν := ν) (stringify N
    (.obj (fileMetadata N name input.length (fingerprint subtle input))))) maxFileMetadataBytes
  let payload := lengthPrefix metadata.length ++ metadata ++ input
  let header ← boundedText (Value.str (ν := ν) (stringify N (.obj (fileHeader N own context))))
    maxFileHeaderBytes
  let label := fileMagic ++ lengthPrefix header.length ++ header ++ draw.nonce
  let nonce := label.drop (label.length - 12)
  let wrappedKey ← subtle.oaepEncrypt publicKey label draw.seed draw.key
  let aad := label ++ wrappedKey
  let ciphertext := subtle.gcmEncrypt draw.key nonce aad payload
  return aad ++ ciphertext

def encryptFile (N : Numbers ν) (provider : Option (WebCrypto P S)) (draw : Draw)
    (recipient : Option (Recipient P ν)) (fileBytes : Bytes) (options : Value ν) :
    Except Failure Bytes :=
  guarded provider .encrypt (sealFile N draw recipient fileBytes options)

/-- What `decryptFile` returns. -/
structure OpenedFile (ν : Type) where
  bytes : Bytes
  name : Value ν
  context : Value ν
  sha256 : Value ν

/-- `Number.isSafeInteger(value)`, from 0 up to the limit, and `value === length`. -/
def isFileSize (N : Numbers ν) (value : Value ν) (length : Nat) : Bool :=
  match value with
  | .num x =>
    match N.safeInteger x with
    | some n => 0 ≤ n && n ≤ (maxFileBytes : Int) && n = (length : Int)
    | none => false
  | _ => false

/-- What the payload holds. -/
def openPayload (N : Numbers ν) (payload : Bytes) (context : Value ν) (subtle : WebCrypto P S) :
    Option (OpenedFile ν) := do
  guard (6 ≤ payload.length)
  let metadataLength ← readLength payload 0
  guard (2 ≤ metadataLength ∧ metadataLength ≤ maxFileMetadataBytes ∧
    4 + metadataLength ≤ payload.length)
  let metadata ← canonicalObject N (subarray payload 4 (4 + metadataLength)) maxFileMetadataBytes
    metadataFields
  let name ← (property metadata (ofString "name")).bind checkedFileName
  let content := payload.drop (4 + metadataLength)
  let size ← property metadata (ofString "size")
  let sha256 ← property metadata (ofString "sha256")
  guard (isFileSize N size content.length ∧ validFingerprint sha256 ∧
    isText sha256 (fingerprint subtle content))
  return ⟨content, name, context, sha256⟩

/-- The body of `decryptFile`. A container that ends before the ciphertext has a ciphertext of
length 0 here, which is too short as well. -/
def openFile (N : Numbers ν) (privateKey : CryptoKey S) (ownFingerprint : Value ν)
    (encryptedBytes : Bytes) (subtle : WebCrypto P S) : Option (OpenedFile ν) := do
  guard (validRsa privateKey .privateKey ∧ validFingerprint ownFingerprint)
  let container ←
    boundedBinary encryptedBytes (12 + 1 + 12 + 384 + 4 + 2 + 16) maxFileContainerBytes
  guard (container.take 8 = fileMagic)
  let headerLength ← readLength container 8
  guard (2 ≤ headerLength ∧ headerLength ≤ maxFileHeaderBytes)
  let nonceOffset := 12 + headerLength
  let wrappedOffset := nonceOffset + 12
  let ciphertextOffset := wrappedOffset + 384
  let ciphertextLength := container.length - ciphertextOffset
  guard (4 + 2 + 16 ≤ ciphertextLength ∧
    ciphertextLength ≤ 4 + maxFileMetadataBytes + maxFileBytes + 16)
  let header ← canonicalObject N (subarray container 12 nonceOffset) maxFileHeaderBytes headerFields
  let format ← property header (ofString "format")
  let version ← property header (ofString "version")
  let fileSuite ← property header (ofString "suite")
  let recipient ← property header (ofString "recipient")
  guard (isText format fileFormat ∧ isNatural N version 1 ∧ isText fileSuite suite ∧
    validFingerprint recipient ∧ sameText recipient ownFingerprint)
  let context ← property header (ofString "context")
  let _ ← boundedText context maxContextBytes
  let nonce := subarray container nonceOffset wrappedOffset
  let wrappedKey := subarray container wrappedOffset ciphertextOffset
  let label := subarray container 0 wrappedOffset
  let aad := subarray container 0 ciphertextOffset
  let keyBytes ← subtle.oaepDecrypt privateKey.material label wrappedKey
  guard (keyBytes.length = 32)
  let payload ← subtle.gcmDecrypt keyBytes nonce aad (container.drop ciphertextOffset)
  openPayload N payload context subtle

def decryptFile (N : Numbers ν) (provider : Option (WebCrypto P S)) (privateKey : CryptoKey S)
    (ownFingerprint : Value ν) (encryptedBytes : Bytes) : Except Failure (OpenedFile ν) :=
  guarded provider .decrypt (openFile N privateKey ownFingerprint encryptedBytes)

/-! ## Canonical blocks -/

variable {N : Numbers ν} {subtle : WebCrypto P S} {Pair : P → S → Prop}
  {recipient : Recipient P ν} {privateKey : CryptoKey S}

theorem guard_bind_eq_some {α : Type} {p : Prop} [Decidable p] {f : Unit → Option α} {a : α}
    (h : (guard p >>= f) = some a) : p ∧ f () = some a := by
  by_cases hp : p
  · rw [guard_bind hp] at h
    exact ⟨hp, h⟩
  · rw [guard, if_neg hp] at h
    cases h

theorem map_property {ms : List (Str × Value ν)} (h : (ms.map Prod.fst).Nodup) :
    (ms.map Prod.fst).map (fun field => (field, (property ms field).getD .null)) = ms := by
  rw [List.map_map]
  conv_rhs => rw [← List.map_id ms]
  apply List.map_congr_left
  intro m hm
  show (m.1, (property ms m.1).getD .null) = m
  rw [property_of_mem h hm]
  rfl

/-- An object that was written is read as a canonical block. -/
theorem canonicalObject_stringify (hN : N.Lawful) {ms : List (Str × Value ν)} {fields : List Str}
    (h : Readable N (.obj ms)) (hkeys : ms.map Prod.fst = fields) {limit : Nat}
    (hlimit : (encode (stringify N (.obj ms))).length ≤ limit) :
    canonicalObject N (encode (stringify N (.obj ms))) limit fields = some ms := by
  obtain ⟨hnodup, hindex⟩ : (ms.map Prod.fst).Nodup ∧ ∀ m ∈ ms, arrayIndex? m.1 = none := by
    cases h with
    | obj _ _ hnodup hindex => exact ⟨hnodup, hindex⟩
  have hmark : dropMark (stringify N (.obj ms)) = stringify N (.obj ms) := by
    rw [dropMark_eq_self_iff, stringify_obj hindex]
    show some (code '{') ≠ some byteOrderMark
    decide
  have hdecode := decode_encode (wellFormed_stringify hN h)
  rw [hmark] at hdecode
  have hcanonical := map_property hnodup
  rw [hkeys] at hcanonical
  unfold canonicalObject
  rw [guard_bind hlimit, hdecode]
  simp only [Option.bind_eq_bind, Option.bind_some]
  rw [parse_stringify hN h hlimit, Option.bind_some, object_obj hkeys, Option.bind_some, hcanonical]
  rw [guard, if_pos rfl]
  rfl

/-- What is read as a canonical block are the bytes of its fields. -/
theorem encode_of_canonicalObject {value : Bytes} {limit : Nat} {fields : List Str}
    {ms : List (Str × Value ν)} (h : canonicalObject N value limit fields = some ms) :
    encode (stringify N (.obj (fields.map fun field => (field, (property ms field).getD .null)))) =
      value := by
  obtain ⟨-, h⟩ := guard_bind_eq_some h
  obtain ⟨text, -, h⟩ := Option.bind_eq_some_iff.mp h
  obtain ⟨result, -, h⟩ := Option.bind_eq_some_iff.mp h
  obtain ⟨hbytes, h⟩ := guard_bind_eq_some h
  obtain rfl : result = ms := Option.some.inj h
  exact hbytes

theorem readable_of_keys {ms : List (Str × Value ν)} (fields : List Str)
    (hkeys : ms.map Prod.fst = fields) (hnodup : fields.Nodup)
    (hindex : ∀ key ∈ fields, arrayIndex? key = none) (hvalues : ∀ m ∈ ms, Readable N m.2) :
    Readable N (.obj ms) := by
  subst hkeys
  exact .obj ms hvalues hnodup fun m hm => hindex m.1 (List.mem_map_of_mem hm)

section Blocks

variable {own name context sha256 : Str} {size : Nat}

theorem readable_fileHeader : Readable N (.obj (fileHeader N (.str own) (.str context))) := by
  apply readable_of_keys headerFields rfl (by decide) (by decide)
  intro m hm
  simp only [fileHeader, List.mem_cons, List.not_mem_nil, or_false] at hm
  rcases hm with rfl | rfl | rfl | rfl | rfl
  · exact .str _
  · exact .num 1 (by decide)
  · exact .str _
  · exact .str _
  · exact .str _

theorem readable_fileMetadata (h : size ≤ maxFileBytes) :
    Readable N (.obj (fileMetadata N (.str name) size sha256)) := by
  apply readable_of_keys metadataFields rfl (by decide) (by decide)
  intro m hm
  simp only [fileMetadata, List.mem_cons, List.not_mem_nil, or_false] at hm
  rcases hm with rfl | rfl | rfl
  · exact .str _
  · exact .num size (h.trans (by decide))
  · exact .str _

/-- **A header is within its limit**, also with a context of control characters. -/
theorem length_fileHeader_le (hN : N.Lawful) (hown : Unescaped own) (hownLength : own.length = 64)
    (hcontext : (encode context).length ≤ maxContextBytes) :
    (encode (stringify N (.obj (fileHeader N (.str own) (.str context))))).length ≤
      maxFileHeaderBytes := by
  have hfields : ∀ key ∈ headerFields, Unescaped key := by decide
  have hkeys : headerFields.map (fun key => (encode (quote key)).length) = [8, 9, 7, 11, 9] := by
    rw [List.map_congr_left fun key hkey => length_encode_quote (hfields key hkey)]
    decide
  have hformat : (encode (quote fileFormat)).length = 21 := length_encode_quote (by decide)
  have hsuite : (encode (quote suite)).length = 30 := length_encode_quote (by decide)
  have hversion : (encode (N.text (N.ofNat 1))).length = 1 := by
    rw [hN.text_ofNat (by decide)]
    exact length_encode_ascii (by decide)
  have hquoted := length_encode_quote_le context
  have hrecipient := length_encode_quote hown
  refine (length_encode_obj_le hN readable_fileHeader).trans ?_
  simp only [headerFields, List.map_cons, List.map_nil, List.cons.injEq, and_true] at hkeys
  simp only [fileHeader, List.map_cons, List.map_nil, List.sum_cons, List.sum_nil,
    memberSize, stringify]
  unfold maxContextBytes at hcontext
  unfold maxFileHeaderBytes
  omega

/-- **Metadata are within their limit**: in a name only a quotation mark is escaped. -/
theorem length_fileMetadata_le (hN : N.Lawful) (hname : (encode name).length ≤ maxFileNameBytes)
    (hprintable : ∀ u ∈ name, 0x20 ≤ u.toNat) (hsize : size ≤ maxFileBytes)
    (hsha : Unescaped sha256) (hshaLength : sha256.length = 64) :
    (encode (stringify N (.obj (fileMetadata N (.str name) size sha256)))).length ≤
      maxFileMetadataBytes := by
  have hfields : ∀ key ∈ metadataFields, Unescaped key := by decide
  have hkeys : metadataFields.map (fun key => (encode (quote key)).length) = [6, 6, 8] := by
    rw [List.map_congr_left fun key hkey => length_encode_quote (hfields key hkey)]
    decide
  have hdigits : (encode (N.text (N.ofNat size))).length ≤ 7 := by
    rw [hN.text_ofNat (hsize.trans (by decide)), length_encode_ascii (ascii_decimal size), decimal,
      List.length_map, Nat.length_toDigits_le_iff (by decide) (by decide)]
    exact hsize.trans_lt (by decide)
  have hquoted := length_encode_quote_le_two hprintable
  have hdigest := length_encode_quote hsha
  refine (length_encode_obj_le hN (readable_fileMetadata hsize)).trans ?_
  simp only [metadataFields, List.map_cons, List.map_nil, List.cons.injEq, and_true] at hkeys
  simp only [fileMetadata, List.map_cons, List.map_nil, List.sum_cons, List.sum_nil,
    memberSize, stringify]
  unfold maxFileNameBytes at hname
  unfold maxFileMetadataBytes
  omega

theorem checkedFileName_str {s : Str} (hwell : WellFormed s)
    (hlength : (encode s).length ≤ maxFileNameBytes)
    (hplain : ¬(s.all isSpace = true ∨ s = ofString "." ∨ s = ofString ".." ∨
      s.any forbidden = true)) : checkedFileName (Value.str (ν := ν) s) = some (.str s) := by
  have hbounded : boundedText (Value.str (ν := ν) s) maxFileNameBytes = some (encode s) :=
    boundedText_eq_some.mpr ⟨s, rfl, hwell, hlength, rfl⟩
  unfold checkedFileName
  rw [hbounded]
  simp only [Option.bind_eq_bind, Option.bind_some]
  rw [if_neg hplain]

theorem checkedFileName_eq_some {given checked : Value ν}
    (h : checkedFileName given = some checked) :
    ∃ s, given = .str s ∧ checked = .str s ∧ (encode s).length ≤ maxFileNameBytes ∧
      ∀ u ∈ s, 0x20 ≤ u.toNat := by
  obtain ⟨data, hdata, h⟩ := Option.bind_eq_some_iff.mp h
  obtain ⟨s, rfl, -, hlength, -⟩ := boundedText_eq_some.mp hdata
  simp only at h
  split_ifs at h with hbad
  obtain rfl := Option.some.inj h
  refine ⟨s, rfl, rfl, hlength, ?_⟩
  intro u hu
  by_contra hlow
  have hforbidden : forbidden u = true := by
    have hcontrol : u.toNat ≤ 0x1f := by omega
    simp [forbidden, hcontrol]
  exact hbad (.inr (.inr (.inr (List.any_eq_true.mpr ⟨u, hu, hforbidden⟩))))

end Blocks

/-! ## The layout -/

/-- The bytes of a container before the wrapped key. -/
def fileLabel (header nonce : Bytes) : Bytes :=
  fileMagic ++ lengthPrefix header.length ++ header ++ nonce

def filePayload (metadata content : Bytes) : Bytes :=
  lengthPrefix metadata.length ++ metadata ++ content

section Layout

variable {header nonce wrappedKey : Bytes}

@[simp] theorem length_lengthPrefix (size : Nat) : (lengthPrefix size).length = 4 :=
  length_packInt 4 size

theorem length_fileLabel (header nonce : Bytes) :
    (fileLabel header nonce).length = 12 + header.length + nonce.length := by
  have hmagic : fileMagic.length = 8 := rfl
  rw [fileLabel, List.length_append, List.length_append, List.length_append, length_lengthPrefix,
    hmagic]

theorem length_filePayload (metadata content : Bytes) :
    (filePayload metadata content).length = 4 + metadata.length + content.length := by
  rw [filePayload, List.length_append, List.length_append, length_lengthPrefix]

theorem subarray_append {a b c : Bytes} {i j : Nat} (hi : a.length = i) (hj : i + b.length = j) :
    subarray (a ++ (b ++ c)) i j = b := by
  subst hi hj
  rw [subarray, List.drop_left, Nat.add_sub_cancel_left, List.take_left]

theorem subarray_zero {b c : Bytes} {j : Nat} (hj : b.length = j) : subarray (b ++ c) 0 j = b := by
  subst hj
  rw [subarray, List.drop_zero, Nat.sub_zero, List.take_left]

theorem readLength_append {a b : Bytes} {i size : Nat} (hi : a.length = i)
    (hsize : size < 256 ^ 4) : readLength (a ++ (lengthPrefix size ++ b)) i = some size := by
  have hread := subarray_append (c := b) hi (j := i + 4)
    (by rw [length_lengthPrefix size])
  rw [subarray, Nat.add_sub_cancel_left] at hread
  rw [readLength, if_pos, hread, lengthPrefix, unpackInt_packInt hsize]
  rw [List.length_append, List.length_append, length_lengthPrefix]
  omega

theorem subarray_start (value : Bytes) (i : Nat) : subarray value 0 i = value.take i := by
  rw [subarray, List.drop_zero, Nat.sub_zero]

/-- Adjacent parts make up a part. -/
theorem take_append_subarray {value : Bytes} {i j : Nat} (h : i ≤ j) :
    value.take i ++ subarray value i j = value.take j := by
  have hsum : i + (j - i) = j := by omega
  rw [subarray, ← List.take_add, hsum]

theorem length_subarray {value : Bytes} {i j : Nat} (h : i ≤ j) (hj : j ≤ value.length) :
    (subarray value i j).length = j - i := by
  rw [subarray, List.length_take, List.length_drop]
  omega

/-- A length that was read is the one that is written. -/
theorem lengthPrefix_of_readLength {value : Bytes} {i size : Nat}
    (h : readLength value i = some size) : lengthPrefix size = subarray value i (i + 4) := by
  rw [readLength] at h
  split_ifs at h with hfits
  have hlength : ((value.drop i).take 4).length = 4 := by
    rw [List.length_take, List.length_drop]
    omega
  have hpack := packInt_unpackInt ((value.drop i).take 4)
  rw [hlength, Option.some.inj h] at hpack
  rw [subarray, Nat.add_sub_cancel_left]
  exact hpack

/-- The parts of a container where the reader looks for them. -/
theorem container_parts (ciphertext : Bytes) (hnonce : nonce.length = 12) (hwrapped : wrappedKey.length = 384)
    (hheader : header.length < 256 ^ 4) {container : Bytes}
    (hcontainer : container = fileLabel header nonce ++ wrappedKey ++ ciphertext) :
    container.take 8 = fileMagic ∧ readLength container 8 = some header.length ∧
      subarray container 12 (12 + header.length) = header ∧
      subarray container (12 + header.length) (12 + header.length + 12) = nonce ∧
      subarray container (12 + header.length + 12) (12 + header.length + 12 + 384) = wrappedKey ∧
      subarray container 0 (12 + header.length + 12) = fileLabel header nonce ∧
      subarray container 0 (12 + header.length + 12 + 384) = fileLabel header nonce ++ wrappedKey ∧
      container.drop (12 + header.length + 12 + 384) = ciphertext := by
  subst hcontainer
  have hmagic : fileMagic.length = 8 := rfl
  have hpre : (fileMagic ++ lengthPrefix header.length).length = 12 := by
    rw [List.length_append, length_lengthPrefix, hmagic]
  have hlabel := length_fileLabel header nonce
  have hstart :
      (fileMagic ++ lengthPrefix header.length ++ header).length = 12 + header.length := by
    rw [List.length_append, hpre]
  have hwhole : (fileLabel header nonce ++ wrappedKey).length = 12 + header.length + 12 + 384 := by
    rw [List.length_append, hlabel, hnonce, hwrapped]
  refine ⟨?_, ?_, ?_, ?_, ?_, ?_, ?_, ?_⟩
  · rw [fileLabel]
    simp only [List.append_assoc]
    exact List.take_left' hmagic
  · rw [fileLabel]
    simp only [List.append_assoc]
    exact readLength_append hmagic hheader
  · have hsplit : fileLabel header nonce ++ wrappedKey ++ ciphertext =
        fileMagic ++ lengthPrefix header.length ++
          (header ++ (nonce ++ wrappedKey ++ ciphertext)) := by
      simp [fileLabel]
    rw [hsplit]
    exact subarray_append hpre rfl
  · have hsplit : fileLabel header nonce ++ wrappedKey ++ ciphertext =
        fileMagic ++ lengthPrefix header.length ++ header ++
          (nonce ++ (wrappedKey ++ ciphertext)) := by
      simp [fileLabel]
    rw [hsplit]
    exact subarray_append hstart (by rw [hnonce])
  · rw [List.append_assoc]
    exact subarray_append (by rw [hlabel, hnonce]) (by rw [hwrapped])
  · rw [List.append_assoc]
    exact subarray_zero (by rw [hlabel, hnonce])
  · exact subarray_zero hwhole
  · exact List.drop_left' hwhole

end Layout

end Scap.Workbench
