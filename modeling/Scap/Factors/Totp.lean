import Mathlib.Data.Rat.Floor
import Scap.Py.Base32
import Scap.Py.Text

/-!
# Time-based one-time passwords

`TotpService.verify` and the request schemas whose code it is given. The service is built with
SHA-1, and times are finite, so that `timestamp // period` is the floor of a quotient.

`str.isdigit` accepts the decimal digits of every script, and `hmac.compare_digest` raises on a
string with a character outside ASCII. `verify_exact_iff` says when `verify` is exact.
-/

namespace Scap.Factors.Totp

open Scap.Lib Scap.Py

/-! ## Codes -/

abbrev Sha1Digest := { digest : Bytes // digest.length = 20 }

theorem Sha1Digest.ne_nil (digest : Sha1Digest) : digest.val ≠ [] := by
  intro h
  simpa [h] using digest.property

/-- What the code asks of Unicode and of `hmac`. -/
structure Platform where
  /-- `str.isdigit` of one character. -/
  isDigit : CodePoint → Bool
  isDigit_ascii : ∀ c : CodePoint, 0x30 ≤ c.val → c.val ≤ 0x39 → isDigit c = true
  /-- `str.upper` of one character. -/
  upper : CodePoint → Str
  upper_b32 : ∀ c, IsB32 c → upper c = [c]
  /-- `hmac.new(key, message, "sha1").digest()`. -/
  hmacSha1 : Bytes → Bytes → Sha1Digest

inductive TotpError where
  | base32 (e : Base32Error)
  | struct
  | typeError
  deriving DecidableEq, Repr

/-- `hmac.compare_digest` of two strings. -/
def compareDigest (a b : Str) : Except TotpError Bool :=
  if a.all (·.val < 128) && b.all (·.val < 128) then .ok (a == b) else .error .typeError

/-- `str.zfill` of a string without a sign. -/
def zfill (width : Nat) (s : Str) : Str := List.replicate (width - s.length) 0x30 ++ s

structure TotpService where
  digits : Nat := 6
  period : Nat := 30
  digits_range : 6 ≤ digits ∧ digits ≤ 8 := by decide
  period_pos : 0 < period := by decide

variable (P : Platform) (svc : TotpService)

/-- `generate_secret`, from the bytes it draws. -/
def generateSecret (token : Bytes) : Str := (b32encode token).rdropWhile (· = 0x3D)

/-- The key of a secret. -/
def TotpService.key (secretB32 : Str) : Except TotpError Bytes :=
  let padding := List.replicate (-(secretB32.length : Int) % 8).toNat 0x3D
  (b32decode (secretB32.flatMap P.upper ++ padding)).mapError .base32

/-- A `struct.error`. -/
def orStruct {α : Type} : Option α → Except TotpError α
  | some a => .ok a
  | none => .error .struct

/-- The number at the offset that the last byte of a digest says. -/
def truncate (digest : Sha1Digest) : Option Nat :=
  let offset := (digest.val.getLast digest.ne_nil).toNat &&& 0x0F
  match Struct.unpack [.uint 4] ((digest.val.drop offset).take 4) with
  | some [.uint binary] => some (binary.toNat &&& 0x7FFFFFFF)
  | _ => none

/-- `_hotp`. -/
def TotpService.hotp (secretB32 : Str) (counter : Int) : Except TotpError Str := do
  let key ← TotpService.key P secretB32
  let message ← orStruct (Struct.pack [.uint 8] [.uint counter])
  let binary ← orStruct (truncate (P.hmacSha1 key message))
  return zfill svc.digits (Str.ofString (toString (binary % 10 ^ svc.digits)))

/-- `_counter`. -/
def TotpService.counter (timestamp : ℚ) : Int := ⌊timestamp / svc.period⌋

/-- `range(-valid_window, valid_window + 1)`. -/
def offsets (validWindow : Int) : List Int :=
  (List.range (2 * validWindow + 1).toNat).map fun i : Nat => (i : Int) - validWindow

/-- The loop of `verify`. -/
def TotpService.scan (secretB32 candidate : Str) (current : Int) (afterCounter : Option Int) :
    List Int → Except TotpError (Option Int)
  | [] => .ok none
  | offset :: offsets =>
    let counter := current + offset
    if counter < 0 then scan secretB32 candidate current afterCounter offsets
    else if afterCounter.any (counter ≤ ·) then
      scan secretB32 candidate current afterCounter offsets
    else do
      let code ← svc.hotp P secretB32 counter
      if ← compareDigest code candidate then return some counter
      else scan secretB32 candidate current afterCounter offsets

/-- The code with its spaces stripped. -/
def candidate (code : Str) : Str := code.strip.filter (· ≠ 0x20)

/-- What `verify` does not reject at once. -/
def TotpService.Admits (candidate : Str) : Prop :=
  candidate.length = svc.digits ∧ ∀ c ∈ candidate, P.isDigit c = true

instance (candidate : Str) : Decidable (svc.Admits P candidate) :=
  have : Decidable (∀ c ∈ candidate, P.isDigit c = true) :=
    List.decidableBAll (fun c : CodePoint => P.isDigit c = true) candidate
  inferInstanceAs (Decidable (_ ∧ _))

/-- `verify`. -/
def TotpService.verify (secretB32 code : Str) (validWindow : Int) (timestamp : ℚ)
    (afterCounter : Option Int) : Except TotpError (Option Int) :=
  if svc.Admits P (candidate code) then
    svc.scan P secretB32 (candidate code) (svc.counter timestamp) afterCounter (offsets validWindow)
  else .ok none

/-! ## The request schemas -/

inductive SchemaError where
  | tooShort (minLength : Nat)
  | tooLong (maxLength : Nat)
  | valueError (message : String)
  deriving DecidableEq, Repr

/-- `Field(min_length=…, max_length=…)`. -/
def codeField (minLength maxLength : Nat) (value : Str) : Except SchemaError Str :=
  if value.length < minLength then .error (.tooShort minLength)
  else if maxLength < value.length then .error (.tooLong maxLength)
  else .ok value

/-- `MfaActivateRequest.code`. -/
def MfaActivateRequest.code (value : Str) : Except SchemaError Str := do
  let value ← codeField 6 8 value
  let cleaned := candidate value
  if cleaned = [] ∨ ¬ cleaned.all P.isDigit then
    .error (.valueError "Mã TOTP chỉ gồm chữ số.")
  else .ok cleaned

/-- `validate_code` of the requests whose code can be a recovery code. -/
def strippedCode (value : Str) : Except SchemaError Str := do
  let value ← codeField 6 32 value
  let cleaned := value.strip
  if cleaned = [] then .error (.valueError "Mã xác thực không được để trống.")
  else .ok cleaned

/-- `MfaVerifyRequest.code`. -/
def MfaVerifyRequest.code (value : Str) : Except SchemaError Str := strippedCode value

/-- `MfaDisableRequest.code`. -/
def MfaDisableRequest.code (value : Str) : Except SchemaError Str := strippedCode value

/-- `StepUpRequest.code`, which may be empty once it is stripped. -/
def StepUpRequest.code (value : Str) : Except SchemaError Str :=
  (codeField 6 32 value).map Str.strip

/-! ## The code of a counter -/

variable {P svc} {secretB32 code : Str} {c : Int}

/-- A secret that `_hotp` can decode. -/
def ValidSecret (P : Platform) (secretB32 : Str) : Prop :=
  ∃ key, TotpService.key P secretB32 = .ok key

/-- Every secret that was generated is valid. -/
theorem validSecret_generateSecret (token : Bytes) : ValidSecret P (generateSecret token) := by
  have hdigits : ∀ c ∈ b32core token, IsB32 c := fun _ hc => isB32_of_mem_b32core hc
  have hupper : (b32core token).flatMap P.upper = b32core token := by
    rw [List.flatMap_congr fun c hc => P.upper_b32 c (hdigits c hc)]
    simp
  have hlength : ((b32core token).length + b32padding (token.length % 5)) % 8 = 0 :=
    length_b32core
  have hbelow : b32padding (token.length % 5) < 8 := by
    unfold b32padding
    split <;> decide
  have hpadding : (-((b32core token).length : Int) % 8).toNat = b32padding (token.length % 5) := by
    omega
  obtain ⟨key, hkey⟩ := exists_b32decode hdigits b32padding_mem hlength
  refine ⟨key, ?_⟩
  unfold TotpService.key generateSecret
  rw [rstrip_b32encode, hupper, hpadding]
  show (b32decode _).mapError _ = _
  rw [hkey]
  rfl

/-- ASCII digits, as many as the service asks for. -/
def TotpService.IsCode (svc : TotpService) (code : Str) : Prop :=
  code.length = svc.digits ∧ ∀ c ∈ code, 0x30 ≤ c.val ∧ c.val ≤ 0x39

def Ascii (s : Str) : Prop := ∀ c ∈ s, c.val < 128

instance (s : Str) : Decidable (Ascii s) := List.decidableBAll (fun c : CodePoint => c.val < 128) s

theorem TotpService.IsCode.ascii (h : svc.IsCode code) : Ascii code := by
  intro c hc
  have hrange := h.2 c hc
  omega

/-- The digit filter lets every code through. -/
theorem TotpService.IsCode.admits (h : svc.IsCode code) : svc.Admits P code := by
  refine ⟨h.1, ?_⟩
  intro c hc
  exact P.isDigit_ascii c (h.2 c hc).1 (h.2 c hc).2

/-- The decimal digits of a number. -/
theorem digit_of_mem_decimal {n : Nat} {c : CodePoint} (h : c ∈ Str.ofString (toString n)) :
    0x30 ≤ c.val ∧ c.val ≤ 0x39 := by
  rw [Nat.toString_eq_repr, Str.ofString, Nat.toList_repr] at h
  obtain ⟨x, hx, rfl⟩ := List.mem_map.mp h
  have hdigit := Nat.isDigit_of_mem_toDigits (by decide) (by decide) hx
  simpa [Char.isDigit, UInt32.le_iff_toNat_le] using hdigit

theorem length_decimal_le {n k : Nat} (hk : 0 < k) (h : n < 10 ^ k) :
    (Str.ofString (toString n)).length ≤ k := by
  rw [Nat.toString_eq_repr, Str.ofString, Nat.toList_repr, List.length_map]
  exact (Nat.length_toDigits_le_iff (by decide) hk).mpr h

/-- A number below `10 ^ digits` is a code once it is padded. -/
theorem isCode_zfill {n : Nat} (h : n < 10 ^ svc.digits) :
    svc.IsCode (zfill svc.digits (Str.ofString (toString n))) := by
  have hdigits := svc.digits_range.1
  have hlength := length_decimal_le (by omega) h
  constructor
  · rw [zfill, List.length_append, List.length_replicate]
    omega
  · intro c hc
    rcases List.mem_append.mp hc with hc | hc
    · rw [List.eq_of_mem_replicate hc]
      decide
    · exact digit_of_mem_decimal hc

theorem pack_counter (hc : 0 ≤ c) (hlt : c < 2 ^ 64) :
    Struct.pack [.uint 8] [.uint c] = some (Struct.packInt 8 c.toNat) := by
  have hrange : 0 ≤ c ∧ c < (256 ^ 8 : Nat) := ⟨hc, by simpa using hlt⟩
  simp only [Struct.pack, Struct.packField, if_pos hrange]
  simp

/-- The four bytes at the offset are there, whatever the last byte says. -/
theorem exists_truncate (digest : Sha1Digest) : ∃ binary, truncate digest = some binary := by
  have hslice : ∀ offset < 16, ∃ n : Nat,
      Struct.unpack [.uint 4] ((digest.val.drop offset).take 4) = some [.uint n] := by
    intro offset hoffset
    refine ⟨_, Struct.unpack_uint ?_⟩
    have hdigest := digest.property
    simp only [List.length_take, List.length_drop]
    omega
  obtain ⟨n, hn⟩ := hslice ((digest.val.getLast digest.ne_nil).toNat &&& 0x0F)
    (Nat.and_lt_two_pow (n := 4) _ (by decide))
  refine ⟨n &&& 0x7FFFFFFF, ?_⟩
  simp only [truncate, hn]
  simp

variable (svc) in
/-- Every counter of eight bytes has a code. -/
theorem exists_hotp (hsecret : ValidSecret P secretB32) (hc : 0 ≤ c) (hlt : c < 2 ^ 64) :
    ∃ code, svc.hotp P secretB32 c = .ok code ∧ svc.IsCode code := by
  obtain ⟨key, hkey⟩ := hsecret
  obtain ⟨binary, hbinary⟩ := exists_truncate (P.hmacSha1 key (Struct.packInt 8 c.toNat))
  have hpos : 0 < 10 ^ svc.digits := by positivity
  refine ⟨_, ?_, isCode_zfill (Nat.mod_lt binary hpos)⟩
  unfold TotpService.hotp
  rw [hkey, pack_counter hc hlt]
  show (orStruct (truncate _) >>= _) = _
  rw [hbinary]
  rfl

/-- There is no code for a counter outside eight bytes. -/
theorem hotp_eq_error (hsecret : ValidSecret P secretB32) (hc : ¬ (0 ≤ c ∧ c < 2 ^ 64)) :
    svc.hotp P secretB32 c = .error .struct := by
  obtain ⟨key, hkey⟩ := hsecret
  have hrange : ¬ (0 ≤ c ∧ c < (256 ^ 8 : Nat)) := by simpa using hc
  unfold TotpService.hotp
  rw [hkey, Struct.pack, Struct.packField, if_neg hrange]
  rfl

theorem hotp_eq_ok (hsecret : ValidSecret P secretB32) (h : svc.hotp P secretB32 c = .ok code) :
    0 ≤ c ∧ c < 2 ^ 64 ∧ svc.IsCode code := by
  by_cases hrange : 0 ≤ c ∧ c < 2 ^ 64
  · obtain ⟨code', hcode', hdigits⟩ := exists_hotp svc hsecret hrange.1 hrange.2
    obtain rfl := Except.ok.inj (h.symm.trans hcode')
    exact ⟨hrange.1, hrange.2, hdigits⟩
  · rw [hotp_eq_error hsecret hrange] at h
    cases h

theorem compareDigest_ascii {a b : Str} (ha : Ascii a) (hb : Ascii b) :
    compareDigest a b = .ok (a == b) := by
  have hboth : (a.all (·.val < 128) && b.all (·.val < 128)) = true := by
    rw [Bool.and_eq_true, List.all_eq_true, List.all_eq_true]
    exact ⟨fun c hc => decide_eq_true (ha c hc), fun c hc => decide_eq_true (hb c hc)⟩
  rw [compareDigest, if_pos hboth]

theorem compareDigest_nonAscii {a b : Str} (hb : ¬ Ascii b) :
    compareDigest a b = .error .typeError := by
  refine if_neg fun hboth => hb ?_
  intro c hc
  exact of_decide_eq_true (List.all_eq_true.mp (Bool.and_eq_true _ _ ▸ hboth).2 c hc)

/-! ## The loop -/

variable {candidate : Str} {current : Int} {afterCounter : Option Int} {os : List Int}

/-- The loop visits the counter: it is not negative, and was not accepted before. -/
def Visits (current : Int) (afterCounter : Option Int) (os : List Int) (c : Int) : Prop :=
  (∃ o ∈ os, c = current + o) ∧ 0 ≤ c ∧ ∀ a ∈ afterCounter, a < c

theorem visits_cons {o : Int} : Visits current afterCounter (o :: os) c ↔
    c = current + o ∧ 0 ≤ c ∧ (∀ a ∈ afterCounter, a < c) ∨ Visits current afterCounter os c := by
  simp only [Visits, List.mem_cons, or_and_right, exists_or, exists_eq_left]

/-- The loop skips a counter that it does not visit. -/
theorem scan_skip {o : Int} (h : ¬ (0 ≤ current + o ∧ ∀ a ∈ afterCounter, a < current + o)) :
    svc.scan P secretB32 candidate current afterCounter (o :: os) =
      svc.scan P secretB32 candidate current afterCounter os := by
  rw [TotpService.scan]
  split
  · rfl
  · rw [if_pos]
    cases afterCounter with
    | none => exact absurd ⟨by omega, by simp⟩ h
    | some a =>
        simp only [Option.any_some, decide_eq_true_eq]
        by_contra hlt
        exact h ⟨by omega, by simpa using hlt⟩

theorem scan_visit {o : Int} (h : 0 ≤ current + o ∧ ∀ a ∈ afterCounter, a < current + o) :
    svc.scan P secretB32 candidate current afterCounter (o :: os) = (do
      let code ← svc.hotp P secretB32 (current + o)
      if ← compareDigest code candidate then return some (current + o)
      else svc.scan P secretB32 candidate current afterCounter os) := by
  rw [TotpService.scan, if_neg (by omega), if_neg]
  cases afterCounter with
  | none => simp
  | some a => simpa using h.2 a

variable (svc os) in
/-- It raises when it has no code to compare or cannot compare it. -/
theorem scan_raises {o : Int} (hsecret : ValidSecret P secretB32)
    (h : 0 ≤ current + o ∧ ∀ a ∈ afterCounter, a < current + o)
    (hbad : ¬ (Ascii candidate ∧ current + o < 2 ^ 64)) :
    ∃ e, svc.scan P secretB32 candidate current afterCounter (o :: os) = .error e := by
  rw [scan_visit h]
  by_cases hlt : current + o < 2 ^ 64
  · obtain ⟨code, hcode, -⟩ := exists_hotp svc hsecret h.1 hlt
    rw [hcode]
    show ∃ e, (compareDigest code candidate >>= _) = _
    rw [compareDigest_nonAscii fun hascii => hbad ⟨hascii, hlt⟩]
    exact ⟨_, rfl⟩
  · rw [hotp_eq_error hsecret (by omega)]
    exact ⟨_, rfl⟩

variable (svc os) in
/-- Otherwise it compares the code and goes on while there is no match. -/
theorem scan_compares {o : Int} (hsecret : ValidSecret P secretB32)
    (h : 0 ≤ current + o ∧ ∀ a ∈ afterCounter, a < current + o)
    (hgood : Ascii candidate ∧ current + o < 2 ^ 64) :
    ∃ code, svc.hotp P secretB32 (current + o) = .ok code ∧
      svc.scan P secretB32 candidate current afterCounter (o :: os) =
        if code = candidate then .ok (some (current + o))
        else svc.scan P secretB32 candidate current afterCounter os := by
  obtain ⟨code, hcode, hdigits⟩ := exists_hotp svc hsecret h.1 hgood.2
  refine ⟨code, hcode, ?_⟩
  rw [scan_visit h, hcode]
  show (compareDigest code candidate >>= _) = _
  rw [compareDigest_ascii hdigits.ascii hgood.1]
  by_cases hmatch : code = candidate
  · simp [hmatch, bind, Except.bind, pure, Except.pure]
  · simp [hmatch, bind, Except.bind]

/-- What the loop should return: a counter with this code if it visits one. -/
def TotpService.Finds (svc : TotpService) (P : Platform) (secretB32 candidate : Str)
    (p : Int → Prop) (result : Except TotpError (Option Int)) : Prop :=
  ∃ found, result = .ok found ∧
    (∀ c ∈ found, p c ∧ svc.hotp P secretB32 c = .ok candidate) ∧
    (found = none → ∀ c, p c → svc.hotp P secretB32 c ≠ .ok candidate)

/-- Only the counters with this code matter. -/
theorem finds_congr {p q : Int → Prop} {result : Except TotpError (Option Int)}
    (h : ∀ c, p c ∧ svc.hotp P secretB32 c = .ok candidate ↔
      q c ∧ svc.hotp P secretB32 c = .ok candidate) :
    svc.Finds P secretB32 candidate p result ↔ svc.Finds P secretB32 candidate q result := by
  have hnone : (∀ c, p c → svc.hotp P secretB32 c ≠ .ok candidate) ↔
      ∀ c, q c → svc.hotp P secretB32 c ≠ .ok candidate := by
    refine forall_congr' fun c => ?_
    rw [← not_and', ← not_and', and_comm, h c, and_comm]
  simp only [TotpService.Finds, h, hnone]

/-- The loop raises at the first counter whose code it cannot compare, unless it has returned. -/
theorem finds_scan_iff (hsecret : ValidSecret P secretB32) (hsorted : os.Pairwise (· < ·)) :
    svc.Finds P secretB32 candidate (Visits current afterCounter os)
      (svc.scan P secretB32 candidate current afterCounter os) ↔
    ∀ c, Visits current afterCounter os c → Ascii candidate ∧ (c < 2 ^ 64 ∨
      ∃ c' < c, Visits current afterCounter os c' ∧ svc.hotp P secretB32 c' = .ok candidate) := by
  induction os with
  | nil =>
      have hnone : ∀ c, ¬ Visits current afterCounter [] c := by simp [Visits]
      constructor
      · intro _ c hc
        exact absurd hc (hnone c)
      · intro _
        exact ⟨none, rfl, by simp, fun _ c hc => absurd hc (hnone c)⟩
  | cons o os ih =>
      obtain ⟨hfirst, hsorted⟩ := List.pairwise_cons.mp hsorted
      by_cases hhead : 0 ≤ current + o ∧ ∀ a ∈ afterCounter, a < current + o
      swap
      · have hsame : ∀ c, Visits current afterCounter (o :: os) c ↔
            Visits current afterCounter os c := by
          intro c
          rw [visits_cons, or_iff_right]
          rintro ⟨rfl, heligible⟩
          exact hhead heligible
        rw [scan_skip hhead]
        simpa only [TotpService.Finds, hsame] using ih hsorted
      have hvisit : Visits current afterCounter (o :: os) (current + o) :=
        visits_cons.mpr (.inl ⟨rfl, hhead⟩)
      -- the offsets go up, so that nothing before the head can still match
      have hlater : ∀ c, Visits current afterCounter os c → current + o < c := by
        rintro c ⟨⟨o', ho', rfl⟩, -⟩
        have hlt := hfirst o' ho'
        omega
      have hleast : ∀ c, Visits current afterCounter (o :: os) c → current + o ≤ c := by
        intro c hc
        rcases visits_cons.mp hc with ⟨rfl, -⟩ | hc
        · exact le_rfl
        · exact (hlater c hc).le
      by_cases hgood : Ascii candidate ∧ current + o < 2 ^ 64
      swap
      · obtain ⟨e, he⟩ := scan_raises svc os hsecret hhead hgood
        constructor
        · rintro ⟨found, hfound, -⟩
          rw [he] at hfound
          cases hfound
        · intro hall
          obtain ⟨hascii, hlt | ⟨c, hc, hvisits, -⟩⟩ := hall _ hvisit
          · exact absurd ⟨hascii, hlt⟩ hgood
          · have hge := hleast c hvisits
            omega
      obtain ⟨code, hcode, hstep⟩ := scan_compares svc os hsecret hhead hgood
      rw [hstep]
      by_cases hmatch : code = candidate
      · subst hmatch
        rw [if_pos rfl]
        constructor
        · intro _ c hc
          rcases visits_cons.mp hc with ⟨rfl, -⟩ | hrest
          · exact ⟨hgood.1, .inl hgood.2⟩
          · exact ⟨hgood.1, .inr ⟨current + o, hlater c hrest, hvisit, hcode⟩⟩
        · intro _
          refine ⟨some (current + o), rfl, ?_, by simp⟩
          rintro c ⟨⟩
          exact ⟨hvisit, hcode⟩
      · have hmiss : svc.hotp P secretB32 (current + o) ≠ .ok candidate := by
          rw [hcode]
          simpa using hmatch
        have hmatches : ∀ c, Visits current afterCounter (o :: os) c ∧
            svc.hotp P secretB32 c = .ok candidate ↔
              Visits current afterCounter os c ∧ svc.hotp P secretB32 c = .ok candidate := by
          intro c
          rw [visits_cons]
          constructor
          · rintro ⟨⟨rfl, -⟩ | hrest, hfound⟩
            · exact absurd hfound hmiss
            · exact ⟨hrest, hfound⟩
          · rintro ⟨hrest, hfound⟩
            exact ⟨.inr hrest, hfound⟩
        rw [if_neg hmatch, finds_congr hmatches, ih hsorted]
        simp only [hmatches]
        constructor
        · intro hall c hc
          rcases visits_cons.mp hc with ⟨rfl, -⟩ | hrest
          · exact ⟨hgood.1, .inl hgood.2⟩
          · exact hall c hrest
        · intro hall c hc
          exact hall c (visits_cons.mpr (.inr hc))

/-! ## Verifying -/

variable {validWindow : Int} {timestamp : ℚ}

/-- A counter of the window that is greater than `after_counter`. -/
def TotpService.InWindow (svc : TotpService) (validWindow : Int) (timestamp : ℚ)
    (afterCounter : Option Int) (c : Int) : Prop :=
  svc.counter timestamp - validWindow ≤ c ∧ c ≤ svc.counter timestamp + validWindow ∧
    ∀ a ∈ afterCounter, a < c

theorem sorted_offsets : (offsets validWindow).Pairwise (· < ·) := by
  apply List.pairwise_map.mpr
  apply List.pairwise_lt_range.imp
  intro i j hij
  omega

theorem mem_offsets {o : Int} : o ∈ offsets validWindow ↔ -validWindow ≤ o ∧ o ≤ validWindow := by
  simp only [offsets, List.mem_map, List.mem_range]
  constructor
  · rintro ⟨i, hi, rfl⟩
    omega
  · intro h
    exact ⟨(o + validWindow).toNat, by omega, by omega⟩

/-- The loop visits the window, as far as it is not negative. -/
theorem visits_offsets : Visits (svc.counter timestamp) afterCounter (offsets validWindow) c ↔
    svc.InWindow validWindow timestamp afterCounter c ∧ 0 ≤ c := by
  simp only [Visits, TotpService.InWindow, mem_offsets]
  constructor
  · rintro ⟨⟨o, ho, rfl⟩, hpos, hafter⟩
    exact ⟨⟨by omega, by omega, hafter⟩, hpos⟩
  · rintro ⟨⟨hlow, hhigh, hafter⟩, hpos⟩
    exact ⟨⟨c - svc.counter timestamp, ⟨by omega, by omega⟩, by omega⟩, hpos, hafter⟩

/-- **Exactness.** `verify` returns a counter of the window with the code if there is one and `None`
otherwise, unless the digits that it admits are not ASCII or it comes to a counter too large to
pack. -/
theorem verify_exact_iff (hsecret : ValidSecret P secretB32) (code : Str) (validWindow : Int)
    (timestamp : ℚ) (afterCounter : Option Int) :
    svc.Finds P secretB32 (Totp.candidate code) (svc.InWindow validWindow timestamp afterCounter)
      (svc.verify P secretB32 code validWindow timestamp afterCounter) ↔
    (svc.Admits P (Totp.candidate code) →
      ∀ c, svc.InWindow validWindow timestamp afterCounter c → 0 ≤ c →
        Ascii (Totp.candidate code) ∧ (c < 2 ^ 64 ∨
          ∃ c' < c, svc.InWindow validWindow timestamp afterCounter c' ∧
            svc.hotp P secretB32 c' = .ok (Totp.candidate code))) := by
  have hvisits : ∀ c, svc.InWindow validWindow timestamp afterCounter c ∧
      svc.hotp P secretB32 c = .ok (Totp.candidate code) ↔
        Visits (svc.counter timestamp) afterCounter (offsets validWindow) c ∧
          svc.hotp P secretB32 c = .ok (Totp.candidate code) := by
    intro c
    rw [visits_offsets, and_assoc]
    refine and_congr_right fun _ => ⟨fun h => ⟨(hotp_eq_ok hsecret h).1, h⟩, And.right⟩
  unfold TotpService.verify
  by_cases hadmits : svc.Admits P (Totp.candidate code)
  · rw [if_pos hadmits, finds_congr hvisits, finds_scan_iff hsecret sorted_offsets]
    simp only [hvisits]
    simp only [visits_offsets, and_imp]
    exact ⟨fun h _ => h, fun h => h hadmits⟩
  · rw [if_neg hadmits]
    refine ⟨fun _ h => absurd h hadmits, fun _ => ⟨none, rfl, by simp, ?_⟩⟩
    intro _ c _ hfound
    exact hadmits (hotp_eq_ok hsecret hfound).2.2.admits

/-! ## Samples -/

/-- The digest of the first counter in the test vectors of HOTP. -/
def sampleDigest : Sha1Digest :=
  ⟨[0xCC, 0x93, 0xCF, 0x18, 0x50, 0x8D, 0x94, 0x93, 0x4C, 0x64, 0xB6, 0x5D, 0x8B, 0xA7, 0x66, 0x7F,
    0xB7, 0xCD, 0xE4, 0xB0], rfl⟩

/-- ASCII and Arabic-Indic digits, and the upper case of ASCII. -/
def samplePlatform : Platform where
  isDigit c := (0x30 ≤ c.val && c.val ≤ 0x39) || (0x660 ≤ c.val && c.val ≤ 0x669)
  isDigit_ascii c hlow hhigh := by simp [hlow, hhigh]
  upper c := [upperAscii c]
  upper_b32 _ h := by rw [h.upperAscii]
  hmacSha1 _ _ := sampleDigest

def sampleSecret : Str := Str.ofString "GEZDGNBVGY3TQOJQGEZDGNBVGY3TQOJQ"

theorem validSecret_sample : ValidSecret samplePlatform sampleSecret :=
  ⟨utf8 "12345678901234567890", by decide +kernel⟩

theorem verify_exact_sample :
    ValidSecret samplePlatform sampleSecret ∧
    ({} : TotpService).Finds samplePlatform sampleSecret (Totp.candidate (Str.ofString "755 224"))
      (({} : TotpService).InWindow 1 0 none)
      (({} : TotpService).verify samplePlatform sampleSecret (Str.ofString "755 224") 1 0 none) ∧
    ({} : TotpService).verify samplePlatform sampleSecret (Str.ofString "755 224") 1 0 none =
      .ok (some 0) := by
  refine ⟨validSecret_sample, (verify_exact_iff validSecret_sample _ _ _ _).mpr ?_,
    by decide +kernel⟩
  rintro - c ⟨-, hhigh, -⟩ -
  have hzero : ({} : TotpService).counter 0 = 0 := by simp [TotpService.counter]
  rw [hzero] at hhigh
  exact ⟨by decide +kernel, .inl (by omega)⟩

/-- Six Arabic-Indic digits. -/
def otherDigits : Str := [0x667, 0x665, 0x665, 0x662, 0x662, 0x664]

/-- The schemas admit them, the digit filter does, and the comparison raises. -/
theorem other_digits_raise :
    ValidSecret samplePlatform sampleSecret ∧
    MfaVerifyRequest.code otherDigits = .ok otherDigits ∧
    MfaActivateRequest.code samplePlatform otherDigits = .ok otherDigits ∧
    ({} : TotpService).verify samplePlatform sampleSecret otherDigits 1 0 none =
      .error .typeError ∧
    ¬ ({} : TotpService).Finds samplePlatform sampleSecret (Totp.candidate otherDigits)
      (({} : TotpService).InWindow 1 0 none)
      (({} : TotpService).verify samplePlatform sampleSecret otherDigits 1 0 none) := by
  have hraises : ({} : TotpService).verify samplePlatform sampleSecret otherDigits 1 0 none =
      .error .typeError := by decide +kernel
  refine ⟨validSecret_sample, by decide +kernel, by decide +kernel, hraises, ?_⟩
  rintro ⟨found, hfound, -⟩
  rw [hraises] at hfound
  cases hfound

end Scap.Factors.Totp
