import Mathlib.Data.List.Basic

/-!
# Ideal authenticated encryption with associated data

An `Aead` encrypts a plaintext under a key, a nonce and associated data. It carries the laws an ideal
scheme has: what was encrypted can be decrypted, nothing else can, and under nothing but the key, the
nonce and the associated data it was encrypted with.

`ofPrefixCode` builds such a scheme from any self-delimiting code of its parameters, `delimit` is
such a code, and `override` changes one ciphertext.
-/

namespace Scap.Lib

/-! ## A self-delimiting code -/

section Delimit

variable {β : Type*} (more stop : β)

/-- Every symbol after a mark that says that there is one more, and a mark at the end. -/
def delimit : List β → List β
  | [] => [stop]
  | b :: bs => more :: b :: delimit bs

variable {more stop}

/-- Where a delimited list ends can be told without looking further. -/
theorem delimit_append_inj (h : more ≠ stop) {bs cs r q : List β} :
    delimit more stop bs ++ r = delimit more stop cs ++ q ↔ bs = cs ∧ r = q := by
  constructor
  · intro hsame
    induction bs generalizing cs with
    | nil =>
        cases cs with
        | nil => exact ⟨rfl, (List.cons.inj hsame).2⟩
        | cons c cs => exact absurd (List.cons.inj hsame).1.symm h
    | cons b bs ih =>
        cases cs with
        | nil => exact absurd (List.cons.inj hsame).1 h
        | cons c cs =>
            simp only [delimit, List.cons_append, List.cons.injEq, true_and] at hsame
            obtain ⟨rfl, hrest⟩ := hsame
            obtain ⟨rfl, rfl⟩ := ih hrest
            exact ⟨rfl, rfl⟩
  · rintro ⟨rfl, rfl⟩
    rfl

end Delimit

/-! ## Schemes -/

/-- Keys `κ`, nonces `ν`, associated data `α`, plaintexts `π` and ciphertexts `γ`. -/
structure Aead (κ ν α π γ : Type*) where
  encrypt : κ → ν → α → π → γ
  decrypt : κ → ν → α → γ → Option π
  decrypt_encrypt : ∀ k n a p, decrypt k n a (encrypt k n a p) = some p
  sound : ∀ k n a c p, decrypt k n a c = some p → encrypt k n a p = c
  exact : ∀ k n a p k' n' a' p', decrypt k' n' a' (encrypt k n a p) = some p' →
    k' = k ∧ n' = n ∧ a' = a

namespace Aead

variable {κ ν α π γ β : Type*} {A : Aead κ ν α π γ} {k k' : κ} {n n' : ν} {a a' : α} {p p' : π}

/-- A ciphertext decrypts in exactly one way. -/
theorem decrypt_eq_some_iff : A.decrypt k' n' a' (A.encrypt k n a p) = some p' ↔
    k' = k ∧ n' = n ∧ a' = a ∧ p' = p := by
  constructor
  · intro h
    obtain ⟨rfl, rfl, rfl⟩ := A.exact _ _ _ _ _ _ _ _ h
    rw [A.decrypt_encrypt] at h
    exact ⟨rfl, rfl, rfl, (Option.some.inj h).symm⟩
  · rintro ⟨rfl, rfl, rfl, rfl⟩
    exact A.decrypt_encrypt _ _ _ _

/-- Other associated data does not decrypt it. -/
theorem decrypt_of_ne (h : a' ≠ a) : A.decrypt k' n' a' (A.encrypt k n a p) = none := by
  cases hopen : A.decrypt k' n' a' (A.encrypt k n a p) with
  | none => rfl
  | some p' => exact absurd (decrypt_eq_some_iff.mp hopen).2.2.1 h

/-- The scheme that writes its parameters in front of the plaintext. -/
def ofPrefixCode [DecidableEq β] (code : κ → ν → α → List β)
    (hcode : ∀ k n a k' n' a' r q, code k n a ++ r = code k' n' a' ++ q →
      k = k' ∧ n = n' ∧ a = a') : Aead κ ν α (List β) (List β) where
  encrypt k n a p := code k n a ++ p
  decrypt k n a c := if code k n a <+: c then some (c.drop (code k n a).length) else none
  decrypt_encrypt k n a p := by
    rw [if_pos (List.prefix_append _ _), List.drop_left]
  sound k n a c p h := by
    split at h
    · next hpre =>
      obtain ⟨q, rfl⟩ := hpre
      rw [List.drop_left, Option.some.injEq] at h
      rw [h]
    · cases h
  exact k n a p k' n' a' p' h := by
    split at h
    · next hpre =>
      obtain ⟨q, hq⟩ := hpre
      exact hcode _ _ _ _ _ _ _ _ hq
    · cases h

/-- The same scheme with another ciphertext, one it never produces, at one point. -/
def override [DecidableEq κ] [DecidableEq ν] [DecidableEq α] [DecidableEq π] [DecidableEq γ]
    (A : Aead κ ν α π γ) (k₀ : κ) (n₀ : ν) (a₀ : α) (p₀ : π) (c₀ : γ)
    (hfresh : ∀ k n a p, A.encrypt k n a p ≠ c₀) : Aead κ ν α π γ where
  encrypt k n a p := if k = k₀ ∧ n = n₀ ∧ a = a₀ ∧ p = p₀ then c₀ else A.encrypt k n a p
  decrypt k n a c :=
    if c = c₀ then if k = k₀ ∧ n = n₀ ∧ a = a₀ then some p₀ else none
    else if k = k₀ ∧ n = n₀ ∧ a = a₀ ∧ c = A.encrypt k₀ n₀ a₀ p₀ then none
    else A.decrypt k n a c
  decrypt_encrypt k n a p := by
    by_cases h : k = k₀ ∧ n = n₀ ∧ a = a₀ ∧ p = p₀
    · obtain ⟨rfl, rfl, rfl, rfl⟩ := h
      simp
    · have hother : ¬ (k = k₀ ∧ n = n₀ ∧ a = a₀ ∧ A.encrypt k n a p = A.encrypt k₀ n₀ a₀ p₀) := by
        rintro ⟨rfl, rfl, rfl, hsame⟩
        have hopen := congrArg (A.decrypt k n a) hsame
        rw [A.decrypt_encrypt, A.decrypt_encrypt, Option.some.injEq] at hopen
        exact h ⟨rfl, rfl, rfl, hopen⟩
      rw [if_neg h, if_neg (hfresh k n a p), if_neg hother, A.decrypt_encrypt]
  sound k n a c p h := by
    split at h
    · next hc =>
      split at h
      · next hpoint =>
        obtain ⟨rfl, rfl, rfl⟩ := hpoint
        obtain rfl := Option.some.inj h
        rw [if_pos ⟨rfl, rfl, rfl, rfl⟩, hc]
      · cases h
    · split at h
      · cases h
      · next hother =>
        have hc := A.sound _ _ _ _ _ h
        have hpoint : ¬ (k = k₀ ∧ n = n₀ ∧ a = a₀ ∧ p = p₀) := by
          rintro ⟨rfl, rfl, rfl, rfl⟩
          exact hother ⟨rfl, rfl, rfl, hc.symm⟩
        rw [if_neg hpoint, hc]
  exact k n a p k' n' a' p' h := by
    by_cases hpoint : k = k₀ ∧ n = n₀ ∧ a = a₀ ∧ p = p₀
    · obtain ⟨rfl, rfl, rfl, rfl⟩ := hpoint
      simp only [and_self, if_true] at h
      split at h
      · next hsame => exact hsame
      · cases h
    · rw [if_neg hpoint, if_neg (hfresh k n a p)] at h
      split at h
      · cases h
      · exact A.exact _ _ _ _ _ _ _ _ h

section Override

variable [DecidableEq κ] [DecidableEq ν] [DecidableEq α] [DecidableEq π] [DecidableEq γ]
  {k₀ : κ} {n₀ : ν} {a₀ : α} {p₀ : π} {c₀ : γ} (hfresh : ∀ k n a p, A.encrypt k n a p ≠ c₀)

@[simp] theorem encrypt_override_self :
    (A.override k₀ n₀ a₀ p₀ c₀ hfresh).encrypt k₀ n₀ a₀ p₀ = c₀ :=
  if_pos ⟨rfl, rfl, rfl, rfl⟩

theorem encrypt_override_of_ne (h : k ≠ k₀ ∨ n ≠ n₀) :
    (A.override k₀ n₀ a₀ p₀ c₀ hfresh).encrypt k n a p = A.encrypt k n a p :=
  if_neg fun hsame => h.elim (fun hk => hk hsame.1) fun hn => hn hsame.2.1

/-- A ciphertext that neither the scheme nor the change produces. -/
theorem encrypt_override_ne {c : γ} (hc : c₀ ≠ c) (h : A.encrypt k n a p ≠ c) :
    (A.override k₀ n₀ a₀ p₀ c₀ hfresh).encrypt k n a p ≠ c := by
  show (if _ then c₀ else A.encrypt k n a p) ≠ c
  split
  · exact hc
  · exact h

end Override

end Aead

end Scap.Lib
