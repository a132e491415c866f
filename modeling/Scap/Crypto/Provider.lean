import Scap.Lib.Aead
import Scap.Py.Base64
import Scap.Py.Value

/-!
# Key providers

A provider wraps data keys under a key it keeps to itself. `KeyProvider` is the interface with the
two promises the envelope layer relies on: a generated key unwraps to its plaintext, and rewrapping
does not change what a key unwraps to. `localAesKeyProvider` is the provider in the repository, and
keeps both.
-/

namespace Scap.Crypto

open Scap.Py Scap.Lib

/-- AES-GCM, ideal, with its tag. -/
structure AesGcm extends Aead Bytes Bytes Bytes Bytes Bytes where
  tag : ∀ k n a p, 16 ≤ (encrypt k n a p).length

/-- The same scheme with another ciphertext at one point. -/
def AesGcm.override (gcm : AesGcm) (k₀ n₀ a₀ p₀ c₀ : Bytes) (htag : 16 ≤ c₀.length)
    (hfresh : ∀ k n a p, gcm.encrypt k n a p ≠ c₀) : AesGcm where
  toAead := gcm.toAead.override k₀ n₀ a₀ p₀ c₀ hfresh
  tag k n a p := by
    show 16 ≤ (if _ then c₀ else gcm.encrypt k n a p).length
    split
    · exact htag
    · exact gcm.tag k n a p

section Override

variable {gcm : AesGcm} {k₀ n₀ a₀ p₀ c₀ c k n a p : Bytes} {htag : 16 ≤ c₀.length}
  {hfresh : ∀ k n a p, gcm.encrypt k n a p ≠ c₀}

theorem AesGcm.encrypt_override_self :
    (gcm.override k₀ n₀ a₀ p₀ c₀ htag hfresh).encrypt k₀ n₀ a₀ p₀ = c₀ :=
  Aead.encrypt_override_self hfresh

theorem AesGcm.encrypt_override_of_ne (h : k ≠ k₀ ∨ n ≠ n₀) :
    (gcm.override k₀ n₀ a₀ p₀ c₀ htag hfresh).encrypt k n a p = gcm.encrypt k n a p :=
  Aead.encrypt_override_of_ne hfresh h

theorem AesGcm.encrypt_override_ne (hc : c₀ ≠ c) (h : gcm.encrypt k n a p ≠ c) :
    (gcm.override k₀ n₀ a₀ p₀ c₀ htag hfresh).encrypt k n a p ≠ c :=
  Aead.encrypt_override_ne hfresh hc h

end Override

/-! ## Contexts -/

/-- A dictionary, its members in the order of their keys. -/
abbrev Context := List (String × String)

/-- `canonical_context`; `none` is its `ValueError`. -/
def canonicalContext (context : Context) : Option String :=
  if context = [] ∨ context.any (fun f => f.1 = "" || 80 < f.1.length) then none
  else some (Value.dumps .utf8 (.obj [
    ("context", .obj (context.map fun f => (f.1, .str f.2))),
    ("format", .str "scap-kms-context-v1")]))

/-- The canonical text determines the context. -/
theorem canonicalContext_injective {c d : Context} {text : String}
    (hc : canonicalContext c = some text) (hd : canonicalContext d = some text) : c = d := by
  unfold canonicalContext at hc hd
  split at hc
  · cases hc
  · split at hd
    · cases hd
    · have hsame := Value.dumps_injective (Option.some.inj (hc.trans hd.symm))
      simp only [Value.obj.injEq, List.cons.injEq, Prod.mk.injEq, true_and, and_true] at hsame
      refine List.map_injective_iff.mpr ?_ hsame
      rintro ⟨k, v⟩ ⟨l, w⟩ h
      simp only [Prod.mk.injEq, Value.str.injEq] at h
      rw [h.1, h.2]

/-! ## The interface -/

/-- `WrappedDek`. -/
structure WrappedDek where
  wrappedDek : String
  kekUri : String
  kekVersion : String
  deriving DecidableEq, Repr

/-- `GeneratedDek`. -/
structure GeneratedDek extends WrappedDek where
  plaintextDek : Bytes
  deriving DecidableEq

/-- `KeyProviderError`, or the `ValueError` of an unusable context. -/
structure KeyProviderError where
  message : String
  deriving DecidableEq, Repr

/-- What `generate_wrapped_dek` and `rewrap_dek` can return is a relation, as they draw random
numbers; `unwrap_dek` is a function of the stored fields. -/
structure KeyProvider where
  generates : Context → GeneratedDek → Prop
  unwrapDek : WrappedDek → Context → Except KeyProviderError Bytes
  rewraps : WrappedDek → Context → WrappedDek → Prop
  unwrap_generated : ∀ {context g}, generates context g →
    unwrapDek g.toWrappedDek context = .ok g.plaintextDek
  unwrap_rewrapped : ∀ {w context w'}, rewraps w context w' →
    ∃ dek, unwrapDek w context = .ok dek ∧ unwrapDek w' context = .ok dek

/-! ## `LocalAesKeyProvider` -/

/-- The arguments of `LocalAesKeyProvider`. -/
structure LocalKeyring where
  keys : List (String × Bytes)
  activeVersion : String
  keyUri : String
  activeKey : Bytes
  active : keys.lookup activeVersion = some activeKey

section Local

variable (gcm : AesGcm) (ring : LocalKeyring)

/-- `_wrap`. -/
def LocalKeyring.wrap (nonce dek : Bytes) (context : Context) : Option WrappedDek :=
  (canonicalContext context).map fun text => {
    wrappedDek := urlsafeB64encode (nonce ++ gcm.encrypt ring.activeKey nonce (utf8 text) dek)
    kekUri := ring.keyUri
    kekVersion := ring.activeVersion }

/-- `unwrap_dek`. -/
def LocalKeyring.unwrapDek (w : WrappedDek) (context : Context) : Except KeyProviderError Bytes :=
  if w.kekUri ≠ ring.keyUri then
    .error ⟨"Stored KEK URI does not match the configured provider."⟩
  else match ring.keys.lookup w.kekVersion with
    | none => .error ⟨"The required local KEK version is unavailable."⟩
    | some key =>
      match b64decode w.wrappedDek with
      | none => .error ⟨"Wrapped DEK is not valid base64."⟩
      | some payload =>
        if payload.length < 12 + 16 then .error ⟨"Wrapped DEK is truncated."⟩
        else match canonicalContext context with
          | none => .error ⟨"Encryption context must contain non-empty bounded keys."⟩
          | some text =>
            match gcm.decrypt key (payload.take 12) (utf8 text) (payload.drop 12) with
            | none => .error ⟨"Wrapped DEK authentication failed."⟩
            | some dek =>
              if dek.length ≠ 32 then .error ⟨"Provider returned an invalid DEK length."⟩
              else .ok dek

variable {gcm ring} {nonce dek : Bytes} {context : Context} {w w' : WrappedDek}

theorem LocalKeyring.unwrap_wrap (hnonce : nonce.length = 12) (hdek : dek.length = 32)
    (h : ring.wrap gcm nonce dek context = some w) : ring.unwrapDek gcm w context = .ok dek := by
  obtain ⟨text, htext, rfl⟩ := Option.map_eq_some_iff.mp h
  have hlong : ¬ (nonce ++ gcm.encrypt ring.activeKey nonce (utf8 text) dek).length < 12 + 16 := by
    have htag := gcm.tag ring.activeKey nonce (utf8 text) dek
    rw [List.length_append]
    omega
  have htake : (nonce ++ gcm.encrypt ring.activeKey nonce (utf8 text) dek).take 12 = nonce := by
    rw [← hnonce, List.take_left]
  have hdrop : (nonce ++ gcm.encrypt ring.activeKey nonce (utf8 text) dek).drop 12 =
      gcm.encrypt ring.activeKey nonce (utf8 text) dek := by
    rw [← hnonce, List.drop_left]
  unfold LocalKeyring.unwrapDek
  simp only [ne_eq, not_true_eq_false, if_false, ring.active, b64decode_urlsafe, if_neg hlong,
    htext, htake, hdrop, gcm.decrypt_encrypt, hdek]

theorem LocalKeyring.length_unwrapDek (h : ring.unwrapDek gcm w context = .ok dek) :
    dek.length = 32 := by
  unfold LocalKeyring.unwrapDek at h
  split at h
  · cases h
  · split at h
    · cases h
    · split at h
      · cases h
      · split at h
        · cases h
        · split at h
          · cases h
          · split at h
            · cases h
            · split at h
              · cases h
              · next hlength =>
                cases h
                exact not_not.mp hlength

variable (gcm ring)

/-- `LocalAesKeyProvider`. -/
def localAesKeyProvider : KeyProvider where
  generates context g := g.plaintextDek.length = 32 ∧
    ∃ nonce : Bytes, nonce.length = 12 ∧
      ring.wrap gcm nonce g.plaintextDek context = some g.toWrappedDek
  unwrapDek := ring.unwrapDek gcm
  rewraps w context w' := ∃ dek, ring.unwrapDek gcm w context = .ok dek ∧
    ∃ nonce : Bytes, nonce.length = 12 ∧ ring.wrap gcm nonce dek context = some w'
  unwrap_generated := by
    rintro context g ⟨hdek, nonce, hnonce, hwrap⟩
    exact LocalKeyring.unwrap_wrap hnonce hdek hwrap
  unwrap_rewrapped := by
    rintro w context w' ⟨dek, hunwrap, nonce, hnonce, hwrap⟩
    have hdek := LocalKeyring.length_unwrapDek hunwrap
    exact ⟨dek, hunwrap, LocalKeyring.unwrap_wrap hnonce hdek hwrap⟩

end Local

end Scap.Crypto
