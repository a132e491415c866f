import Scap.Workbench.Scan

/-!
# Keys and the browser's cryptography

`WebCrypto` is what the workbench calls of `crypto.subtle`. `WebCrypto.Ideal` is what it relies on:
a digest has 32 bytes, RSA-OAEP with a modulus of 3072 bits wraps a key in 384 bytes and gives it
back under the same label, AES-GCM with a tag of 128 bits gives back what was encrypted under the
same key, nonce and additional data.
-/

namespace Scap.Workbench

open Scap.Py (Bytes)
open Scap.Js

variable {P S ν : Type}

/-! ## Failures -/

/-- The codes of the failures of the modelled operations. -/
inductive Failure where
  | unsupported
  | encrypt
  | decrypt
  deriving DecidableEq, Repr

/-- `failures[code]`. -/
def Failure.message : Failure → String
  | unsupported => "This browser does not support secure Web Crypto."
  | encrypt => "Encryption failed. Check the recipient key and input limits."
  | decrypt => "Decryption failed. Check the key, encrypted packet, and its integrity."

/-- `try { ... } catch { fail(code) }`, where only a missing provider has a code of its own. -/
def guarded {α β : Type} (provider : Option α) (code : Failure) (run : α → Option β) :
    Except Failure β :=
  match provider with
  | none => .error .unsupported
  | some subtle =>
    match run subtle with
    | none => .error code
    | some result => .ok result

theorem guarded_eq_ok {α β : Type} {subtle : α} {code : Failure} {run : α → Option β} {result : β} :
    guarded (some subtle) code run = .ok result ↔ run subtle = some result := by
  cases h : run subtle with
  | none => simp [guarded, h]
  | some r => simp [guarded, h]

/-! ## `CryptoKey` -/

inductive KeyType where
  | secretKey
  | publicKey
  | privateKey
  deriving DecidableEq, Repr

inductive KeyUsage where
  | encrypt
  | decrypt
  | sign
  | verify
  | deriveKey
  | deriveBits
  | wrapKey
  | unwrapKey
  deriving DecidableEq, Repr

/-- `RsaHashedKeyAlgorithm`. -/
structure KeyAlgorithm where
  name : Str
  modulusLength : Nat
  publicExponent : Bytes
  hash : Str
  deriving DecidableEq

structure CryptoKey (κ : Type) where
  type : KeyType
  extractable : Bool
  algorithm : KeyAlgorithm
  usages : List KeyUsage
  material : κ

def validRsa {κ : Type} (key : CryptoKey κ) (type : KeyType) : Bool :=
  key.type = type && key.algorithm.name = ofString "RSA-OAEP" &&
    key.algorithm.modulusLength = 3072 && key.algorithm.hash = ofString "SHA-256" &&
    key.algorithm.publicExponent = [1, 0, 1] &&
    key.usages = [if type = .privateKey then .decrypt else .encrypt] &&
    (type ≠ .privateKey || key.extractable = false)

/-! ## `crypto.subtle` -/

/-- Operations on public keys `P`, private keys `S` and raw AES keys. -/
structure WebCrypto (P S : Type) where
  /-- The SPKI encoding of a public key. -/
  exportSpki : P → Bytes
  /-- `digest("SHA-256", data)`. -/
  digest : Bytes → Bytes
  /-- RSA-OAEP under a label, with the seed that the browser draws. -/
  oaepEncrypt : P → Bytes → Bytes → Bytes → Option Bytes
  oaepDecrypt : S → Bytes → Bytes → Option Bytes
  /-- AES-GCM with a key, a nonce and additional data. -/
  gcmEncrypt : Bytes → Bytes → Bytes → Bytes → Bytes
  gcmDecrypt : Bytes → Bytes → Bytes → Bytes → Option Bytes

/-- `exportKey("spki", key)`, which fails for a key that is not extractable. -/
def WebCrypto.exportKey (subtle : WebCrypto P S) (key : CryptoKey P) : Option Bytes :=
  if key.extractable then some (subtle.exportSpki key.material) else none

/-- What the workbench relies on, of the pairs of keys that `Pair` holds of. -/
structure WebCrypto.Ideal (subtle : WebCrypto P S) (Pair : P → S → Prop) : Prop where
  length_digest : ∀ data, (subtle.digest data).length = 32
  oaep : ∀ p s, Pair p s → ∀ label seed key, key.length = 32 →
    ∃ wrapped, subtle.oaepEncrypt p label seed key = some wrapped ∧ wrapped.length = 384 ∧
      subtle.oaepDecrypt s label wrapped = some key
  length_gcm : ∀ key nonce aad data,
    (subtle.gcmEncrypt key nonce aad data).length = data.length + 16
  gcm : ∀ key nonce aad data, key.length = 32 → nonce.length = 12 →
    subtle.gcmDecrypt key nonce aad (subtle.gcmEncrypt key nonce aad data) = some data

/-- `byte.toString(16).padStart(2, "0")`. -/
def hexByte (b : UInt8) : Str := [hexDigit (b.toNat / 16), hexDigit (b.toNat % 16)]

/-- `fingerprint(der)`. -/
def fingerprint (subtle : WebCrypto P S) (der : Bytes) : Str := (subtle.digest der).flatMap hexByte

/-- What `getRandomValues` and RSA-OAEP draw for one encryption. -/
structure Draw where
  nonce : Bytes
  key : Bytes
  seed : Bytes
  length_nonce : nonce.length = 12
  length_key : key.length = 32

/-- The recipient of an encryption. -/
structure Recipient (P ν : Type) where
  publicKey : CryptoKey P
  fingerprint : Value ν

/-- A recipient whose fingerprint is that of its key, and the private key that belongs to it. Public
keys are imported as extractable ones. -/
structure Matching (subtle : WebCrypto P S) (Pair : P → S → Prop) (recipient : Recipient P ν)
    (privateKey : CryptoKey S) : Prop where
  valid_public : validRsa recipient.publicKey .publicKey = true
  valid_private : validRsa privateKey .privateKey = true
  extractable : recipient.publicKey.extractable = true
  pair : Pair recipient.publicKey.material privateKey.material
  fingerprint_eq : recipient.fingerprint =
    .str (fingerprint subtle (subtle.exportSpki recipient.publicKey.material))

/-- `v === w` of two strings. -/
def sameText (v w : Value ν) : Bool :=
  match w with
  | .str s => isText v s
  | _ => false

/-! ## Fingerprints -/

theorem hexDigit_spec {n : Nat} (h : n < 16) : (48 ≤ (hexDigit n).toNat ∧ (hexDigit n).toNat ≤ 57) ∨
    (97 ≤ (hexDigit n).toNat ∧ (hexDigit n).toNat ≤ 102) := by
  revert n
  decide

theorem mem_fingerprint {subtle : WebCrypto P S} {der : Bytes} {u : CodeUnit}
    (h : u ∈ fingerprint subtle der) : ∃ n < 16, u = hexDigit n := by
  obtain ⟨b, -, hu⟩ := List.mem_flatMap.mp h
  have hb := b.toNat_lt
  simp only [hexByte, List.mem_cons, List.not_mem_nil, or_false] at hu
  rcases hu with rfl | rfl
  · exact ⟨_, by omega, rfl⟩
  · exact ⟨_, by omega, rfl⟩

theorem length_fingerprint {subtle : WebCrypto P S} {Pair : P → S → Prop} (h : subtle.Ideal Pair)
    (der : Bytes) : (fingerprint subtle der).length = 64 := by
  rw [fingerprint, List.length_flatMap]
  show ((subtle.digest der).map fun _ => 2).sum = 64
  rw [List.map_const', List.sum_replicate, h.length_digest]
  rfl

theorem validFingerprint_fingerprint {subtle : WebCrypto P S} {Pair : P → S → Prop}
    (h : subtle.Ideal Pair) (der : Bytes) :
    validFingerprint (Value.str (ν := ν) (fingerprint subtle der)) = true := by
  simp only [validFingerprint, length_fingerprint h der, decide_true, Bool.true_and,
    List.all_eq_true]
  intro u hu
  obtain ⟨n, hn, rfl⟩ := mem_fingerprint hu
  simpa using hexDigit_spec hn

theorem isText_iff {value : Value ν} {s : Str} : isText value s = true ↔ value = .str s := by
  cases value with
  | str t => simp [isText]
  | null => simp [isText]
  | bool b => simp [isText]
  | num n => simp [isText]
  | arr vs => simp [isText]
  | obj ms => simp [isText]

theorem sameText_iff {v w : Value ν} : sameText v w = true ↔ ∃ s, v = .str s ∧ w = .str s := by
  cases w with
  | str t => simp [sameText, isText_iff]
  | null => simp [sameText]
  | bool b => simp [sameText]
  | num n => simp [sameText]
  | arr vs => simp [sameText]
  | obj ms => simp [sameText]

/-! ## A provider with one pair of keys -/

def sampleSubtle : WebCrypto Unit Unit where
  exportSpki _ := [0x30]
  digest data := (data ++ List.replicate 32 0).take 32
  oaepEncrypt _ _ _ key := if key.length = 32 then some (key ++ List.replicate 352 0) else none
  oaepDecrypt _ _ wrapped := if wrapped.length = 384 then some (wrapped.take 32) else none
  gcmEncrypt _ _ _ data := data ++ List.replicate 16 0
  gcmDecrypt _ _ _ data := if 16 ≤ data.length then some (data.take (data.length - 16)) else none

theorem ideal_sampleSubtle : sampleSubtle.Ideal fun _ _ => True where
  length_digest data := by
    show ((data ++ List.replicate 32 0).take 32).length = 32
    rw [List.length_take, List.length_append, List.length_replicate]
    omega
  oaep p s _ label seed key h := by
    refine ⟨key ++ List.replicate 352 0, if_pos h, ?_, ?_⟩
    · rw [List.length_append, List.length_replicate, h]
    · show (if (key ++ List.replicate 352 0).length = 384 then _ else none) = _
      rw [if_pos (by rw [List.length_append, List.length_replicate, h]), List.take_left' h]
  length_gcm key nonce aad data := by
    show (data ++ List.replicate 16 0).length = _
    rw [List.length_append, List.length_replicate]
  gcm key nonce aad data _ _ := by
    have hlength : (data ++ List.replicate 16 (0 : UInt8)).length = data.length + 16 := by
      rw [List.length_append, List.length_replicate]
    show (if 16 ≤ (data ++ List.replicate 16 0).length then
      some ((data ++ List.replicate 16 0).take ((data ++ List.replicate 16 0).length - 16))
        else none) = _
    rw [hlength, if_pos (Nat.le_add_left 16 _), Nat.add_sub_cancel, List.take_left' rfl]

def sampleAlgorithm : KeyAlgorithm :=
  ⟨ofString "RSA-OAEP", 3072, [1, 0, 1], ofString "SHA-256"⟩

def sampleRecipient {ν : Type} : Recipient Unit ν :=
  ⟨⟨.publicKey, true, sampleAlgorithm, [.encrypt], ()⟩, .str (fingerprint sampleSubtle [0x30])⟩

def samplePrivateKey : CryptoKey Unit := ⟨.privateKey, false, sampleAlgorithm, [.decrypt], ()⟩

theorem matching_sample {ν : Type} : Matching sampleSubtle (fun _ _ => True)
    (sampleRecipient (ν := ν)) samplePrivateKey where
  valid_public := rfl
  valid_private := rfl
  extractable := rfl
  pair := trivial
  fingerprint_eq := rfl

def sampleDraw : Draw := ⟨List.replicate 12 7, List.replicate 32 9, [],
  List.length_replicate, List.length_replicate⟩

end Scap.Workbench
