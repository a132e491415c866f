import Mathlib.Data.Set.Basic

/-!
# Encryption that answers from a log

In the ideal system of authenticated encryption nothing decrypts but what somebody encrypted, and it
decrypts to what was encrypted. `IdealOn` says this of a scheme and of the set of all encryptions that
were ever asked for. Unlike `Aead`, which is ideal about every encryption that there could be, it says
that a ciphertext nobody asked for does not exist.

`ofLog` is such a scheme for a given log.
-/

namespace Scap.Lib

/-- Keys `κ`, nonces `ν`, associated data `α`, plaintexts `π` and ciphertexts `γ`. -/
structure Cipher (κ ν α π γ : Type*) where
  encrypt : κ → ν → α → π → γ
  decrypt : κ → ν → α → γ → Option π

/-- What somebody asked to be encrypted. -/
structure Sealed (κ ν α π : Type*) where
  key : κ
  nonce : ν
  aad : α
  plaintext : π
  deriving DecidableEq

namespace Cipher

variable {κ ν α π γ : Type*} {C : Cipher κ ν α π γ} {log : Set (Sealed κ ν α π)}

/-- The ciphertext of an entry. -/
def ciphertext (C : Cipher κ ν α π γ) (q : Sealed κ ν α π) : γ :=
  C.encrypt q.key q.nonce q.aad q.plaintext

structure IdealOn (C : Cipher κ ν α π γ) (log : Set (Sealed κ ν α π)) : Prop where
  opens : ∀ q ∈ log, C.decrypt q.key q.nonce q.aad (C.ciphertext q) = some q.plaintext
  unforged : ∀ k n a c p, C.decrypt k n a c = some p → ⟨k, n, a, p⟩ ∈ log ∧ C.encrypt k n a p = c

/-! ## A scheme for a log -/

section OfLog

variable [DecidableEq κ] [DecidableEq ν] [DecidableEq α] [DecidableEq γ]

/-- The scheme that looks a list of entries up. -/
def ofLog (encrypt : κ → ν → α → π → γ) (entries : List (Sealed κ ν α π)) : Cipher κ ν α π γ where
  encrypt := encrypt
  decrypt k n a c := (entries.find? fun q =>
    q.key = k && q.nonce = n && q.aad = a && encrypt k n a q.plaintext = c).map Sealed.plaintext

/-- It is ideal, as long as a ciphertext determines its plaintext. -/
theorem idealOn_ofLog {encrypt : κ → ν → α → π → γ} (entries : List (Sealed κ ν α π))
    (hinj : ∀ k n a, Function.Injective (encrypt k n a)) :
    (ofLog encrypt entries).IdealOn {q | q ∈ entries} := by
  have hlookup : ∀ k n a c p, (ofLog encrypt entries).decrypt k n a c = some p →
      ⟨k, n, a, p⟩ ∈ entries ∧ encrypt k n a p = c := by
    intro k n a c p h
    obtain ⟨q, hq, rfl⟩ := Option.map_eq_some_iff.mp h
    have hfound := List.find?_some hq
    simp only [Bool.and_eq_true, decide_eq_true_eq] at hfound
    obtain ⟨⟨⟨rfl, rfl⟩, rfl⟩, hsame⟩ := hfound
    exact ⟨List.mem_of_find?_eq_some hq, hsame⟩
  constructor
  · intro q hq
    cases hopen : (ofLog encrypt entries).decrypt q.key q.nonce q.aad
        ((ofLog encrypt entries).ciphertext q) with
    | none =>
        have hmiss := List.find?_eq_none.mp (Option.map_eq_none_iff.mp hopen) q hq
        simp [ciphertext, ofLog] at hmiss
    | some p =>
        have hsame := (hlookup _ _ _ _ _ hopen).2
        exact congrArg some (hinj _ _ _ hsame)
  · exact hlookup

end OfLog

end Cipher

end Scap.Lib
