import Scap.E2ee.Canonical
import Scap.Py.Base64

/-!
# Strict Base64

`decode_base64_strict` over all strings and bounds. `decodeBase64Strict_iff` says what it accepts:
the URL-safe encodings of the byte strings within the bounds, with all of their padding or with none
of it, and nothing else.
-/

namespace Scap.E2ee.Strict

open Scap.Lib Scap.Py

/-- What the functions of `e2ee.py` raise. -/
inductive Refusal where
  /-- `E2EEValidationError`. -/
  | validation (message : String)
  /-- Any other `ValueError`. -/
  | value (message : String)
  | canonical (error : CanonicalError)
  deriving DecidableEq, Repr

/-- `str(error)`; what the functions say of a value that has no canonical form is not modelled. -/
def Refusal.message : Refusal → String
  | .validation message => message
  | .value message => message
  | .canonical _ => ""

/-! ## The code -/

def codePoint (c : Char) : CodePoint := ⟨c.toNat, Str.toNat_lt c⟩

/-- `encode_base64url`. -/
def encodeBase64url (value : Bytes) : Str := (encodeGroups value).map codePoint

/-- `[A-Za-z0-9_-]`. -/
def isBase64url (c : CodePoint) : Bool :=
  let n := c.val
  (65 ≤ n && n ≤ 90) || (97 ≤ n && n ≤ 122) || (48 ≤ n && n ≤ 57) || n = 95 || n = 45

/-- `_BASE64URL_RE.fullmatch(value)`. -/
def matchesBase64url (value : Str) : Bool :=
  let rest := value.dropWhile isBase64url
  rest.all (fun c => c = 0x3D) && rest.length ≤ 2

/-- `value.rstrip("=")`. -/
def rstripPadding (value : Str) : Str := value.rdropWhile fun c => c = 0x3D

/-- `base64.b64decode(padded, altchars=b"-_", validate=True)` of an ASCII string. -/
def b64decodeAscii (padded : Str) : Option Bytes :=
  decodeGroups (padded.map fun c => Char.ofNat c.val)

/-- The number of padding characters that `size` digits ask for: `(-size) % 4`. -/
def requiredPadding (size : Nat) : Nat := (size + 3) / 4 * 4 - size

/-- `decode_base64_strict`. -/
def decodeBase64Strict (field : String) (value : Object) (minBytes : Int)
    (maxBytes exactBytes : Option Int) : Except Refusal Bytes :=
  match value with
  | .str value =>
      let core := rstripPadding value
      let explicitPadding := value.length - core.length
      let required := requiredPadding core.length
      let estimatedBytes : Int := (core.length * 6 / 8 : Nat)
      if minBytes < 0 then .error (.value "min_bytes không được âm.")
      else if maxBytes.any (· < minBytes) then
        .error (.value "max_bytes phải lớn hơn hoặc bằng min_bytes.")
      else if exactBytes.any (· < 0) then .error (.value "exact_bytes không được âm.")
      else if matchesBase64url value = false then
        .error (.validation (field ++ " không phải base64url canonical hợp lệ."))
      else if core = [] ∧ minBytes ≠ 0 then
        .error (.validation (field ++ " không được rỗng."))
      else if core.length % 4 = 1 then
        .error (.validation (field ++ " có độ dài base64url không hợp lệ."))
      else if explicitPadding ≠ 0 ∧ explicitPadding ≠ required then
        .error (.validation (field ++ " có padding base64url không canonical."))
      else if exactBytes.any (· < estimatedBytes) then
        .error (.validation
          (field ++ " phải giải mã thành đúng " ++ toString (exactBytes.getD 0) ++ " byte."))
      else if maxBytes.any (· < estimatedBytes) then
        .error (.validation
          (field ++ " vượt quá giới hạn " ++ toString (maxBytes.getD 0) ++ " byte."))
      else
        match b64decodeAscii (core ++ List.replicate required 0x3D) with
        | none => .error (.validation (field ++ " không phải base64url hợp lệ."))
        | some decoded =>
            if rstripPadding (encodeBase64url decoded) ≠ core then
              .error (.validation (field ++ " chứa pad bits không canonical."))
            else if exactBytes.any ((decoded.length : Int) ≠ ·) then
              .error (.validation
                (field ++ " phải giải mã thành đúng " ++ toString (exactBytes.getD 0) ++ " byte."))
            else if (decoded.length : Int) < minBytes then
              .error (.validation
                (field ++ " phải có ít nhất " ++ toString minBytes ++ " byte."))
            else if maxBytes.any (· < (decoded.length : Int)) then
              .error (.validation
                (field ++ " vượt quá giới hạn " ++ toString (maxBytes.getD 0) ++ " byte."))
            else .ok decoded
  | _ => .error (.validation (field ++ " phải là chuỗi base64url."))

/-! ## The digits of an encoding -/

variable {field : String} {value : Object} {minBytes : Int} {maxBytes exactBytes : Option Int}
  {data : Bytes} {s : Str}

theorem ofString_ofList (cs : List Char) : Str.ofString (String.ofList cs) = cs.map codePoint := by
  rw [Str.ofString, String.toList_ofList]
  rfl

theorem encodeBase64url_eq_ofString (data : Bytes) :
    encodeBase64url data = Str.ofString (urlsafeB64encode data) := (ofString_ofList _).symm

theorem codePoint_injective : Function.Injective codePoint := by
  intro c d h
  have hval : c.toNat = d.toNat := congrArg (fun x : CodePoint => x.val) h
  exact Char.toNat_inj.mp hval

theorem ofString_injective : Function.Injective Str.ofString := by
  intro a b h
  have hlist : a.toList.map codePoint = b.toList.map codePoint := h
  exact String.toList_inj.mp (codePoint_injective.list_map hlist)

theorem ofNat_codePoint (c : Char) : Char.ofNat (codePoint c).val = c := Char.ofNat_toNat c

theorem digit_codePoint {n : Nat} (h : n < 64) : codePoint (urlsafeDigit n) ≠ 0x3D ∧
    isBase64url (codePoint (urlsafeDigit n)) = true := by
  revert n
  decide

/-- An encoding is its digits and the padding that they ask for. -/
theorem encodeBase64url_eq (data : Bytes) : ∃ ds : Str,
    encodeBase64url data = ds ++ List.replicate (requiredPadding ds.length) 0x3D ∧
      rstripPadding (encodeBase64url data) = ds ∧ ds.length = (4 * data.length + 2) / 3 ∧
      (∀ c ∈ ds, isBase64url c = true ∧ c ≠ 0x3D) ∧
      b64decodeAscii (ds ++ List.replicate (requiredPadding ds.length) 0x3D) = some data := by
  obtain ⟨ds, hds, hlength, hdigits⟩ := encodeGroups_eq data
  have hmap : encodeBase64url data =
      ds.map codePoint ++ List.replicate (requiredPadding (ds.map codePoint).length) 0x3D := by
    rw [encodeBase64url, hds, List.map_append, List.map_replicate, List.length_map]
    rfl
  have hplain : ∀ c ∈ ds.map codePoint, isBase64url c = true ∧ c ≠ 0x3D := by
    intro c hc
    obtain ⟨d, hd, rfl⟩ := List.mem_map.mp hc
    obtain ⟨n, hn, rfl⟩ := hdigits d hd
    exact ⟨(digit_codePoint hn).2, (digit_codePoint hn).1⟩
  refine ⟨ds.map codePoint, hmap, ?_, by rw [List.length_map, hlength], hplain, ?_⟩
  · rw [hmap, rstripPadding, rdropWhile_replicate fun c hc => (hplain c hc).2]
  · have hback : (encodeBase64url data).map (fun c => Char.ofNat c.val) = encodeGroups data := by
      rw [encodeBase64url, List.map_map]
      conv_rhs => rw [← List.map_id (encodeGroups data)]
      exact List.map_congr_left fun c _ => ofNat_codePoint c
    rw [← hmap, b64decodeAscii, hback, decodeGroups_encodeGroups]

/-- A string is what is left without its padding, and the padding. -/
theorem eq_rstripPadding_append (s : Str) :
    s = rstripPadding s ++ List.replicate (s.length - (rstripPadding s).length) 0x3D := by
  have hsplit : s = rstripPadding s ++ s.rtakeWhile fun c => c = 0x3D :=
    List.rdropWhile_append_rtakeWhile.symm
  have hpadding : s.rtakeWhile (fun c => c = 0x3D) =
      List.replicate (s.rtakeWhile fun c => c = 0x3D).length 0x3D := by
    apply List.eq_replicate_of_mem
    intro c hc
    simpa using List.mem_rtakeWhile_imp hc
  have hlength : (s.rtakeWhile fun c => c = 0x3D).length =
      s.length - (rstripPadding s).length := by
    conv_rhs => rw [hsplit]
    rw [List.length_append, ← hsplit]
    omega
  rw [hpadding, hlength] at hsplit
  exact hsplit

theorem matchesBase64url_append {ds : Str} {k : Nat}
    (h : ∀ c ∈ ds, isBase64url c = true ∧ c ≠ 0x3D) (hk : k ≤ 2) :
    matchesBase64url (ds ++ List.replicate k 0x3D) = true := by
  have hrest : (ds ++ List.replicate k (0x3D : CodePoint)).dropWhile isBase64url =
      List.replicate k 0x3D := by
    rw [List.dropWhile_append_of_pos fun c hc => (h c hc).1]
    cases k with
    | zero => rfl
    | succ k => rw [List.replicate_succ, List.dropWhile_cons_of_neg (by decide)]
  rw [matchesBase64url, hrest]
  simp [hk]

/-! ## What is accepted -/

/-- The bounds themselves are in order. -/
structure ValidBounds (minBytes : Int) (maxBytes exactBytes : Option Int) : Prop where
  min_nonneg : 0 ≤ minBytes
  min_le_max : ∀ n ∈ maxBytes, minBytes ≤ n
  exact_nonneg : ∀ n ∈ exactBytes, 0 ≤ n

/-- The size is within the bounds. -/
structure InBounds (minBytes : Int) (maxBytes exactBytes : Option Int) (data : Bytes) : Prop where
  min_le : minBytes ≤ data.length
  le_max : ∀ n ∈ maxBytes, (data.length : Int) ≤ n
  eq_exact : ∀ n ∈ exactBytes, (data.length : Int) = n

/-- An encoding with all of its padding or with none of it. -/
def Spells (s : Str) (data : Bytes) : Prop :=
  s = encodeBase64url data ∨ s = rstripPadding (encodeBase64url data)

theorem any_iff {o : Option Int} {p : Int → Bool} : o.any p = true ↔ ∃ n ∈ o, p n = true := by
  cases o <;> simp

theorem spells_append (h : Spells s data) : ∃ (ds : Str) (k : Nat),
    s = ds ++ List.replicate k 0x3D ∧ (k = 0 ∨ k = requiredPadding ds.length) ∧
      rstripPadding s = ds ∧ rstripPadding (encodeBase64url data) = ds ∧
      ds.length = (4 * data.length + 2) / 3 ∧ (∀ c ∈ ds, isBase64url c = true ∧ c ≠ 0x3D) ∧
      b64decodeAscii (ds ++ List.replicate (requiredPadding ds.length) 0x3D) = some data := by
  obtain ⟨ds, hencode, hstrip, hlength, hdigits, hdecode⟩ := encodeBase64url_eq data
  rcases h with rfl | rfl
  · exact ⟨ds, requiredPadding ds.length, hencode, .inr rfl, hstrip, hstrip, hlength, hdigits,
      hdecode⟩
  · refine ⟨ds, 0, by rw [hstrip]; simp, .inl rfl, ?_, hstrip, hlength, hdigits, hdecode⟩
    have hplain := rdropWhile_replicate (k := 0) fun c hc => (hdigits c hc).2
    rw [List.replicate_zero, List.append_nil] at hplain
    rw [hstrip]
    exact hplain

theorem requiredPadding_le {n : Nat} (h : n % 4 ≠ 1) : requiredPadding n ≤ 2 := by
  unfold requiredPadding
  omega

theorem decodeBase64Strict_spells (hvalid : ValidBounds minBytes maxBytes exactBytes)
    (hin : InBounds minBytes maxBytes exactBytes data) (hs : Spells s data) :
    decodeBase64Strict field (.str s) minBytes maxBytes exactBytes = .ok data := by
  obtain ⟨ds, k, rfl, hk, hcore, hcanonical, hlength, hdigits, hdecode⟩ := spells_append hs
  have hsize : ds.length * 6 / 8 = data.length := by omega
  have hmod : ds.length % 4 ≠ 1 := by omega
  have hpadding := requiredPadding_le hmod
  have hexplicit : (ds ++ List.replicate k (0x3D : CodePoint)).length - ds.length = k := by simp
  have hnonneg := hvalid.min_nonneg
  have hmin := hin.min_le
  have hlarge : ¬ maxBytes.any (fun n => n < (data.length : Int)) = true := by
    intro h
    obtain ⟨n, hn, hlt⟩ := any_iff.mp h
    have hle := hin.le_max n hn
    simp only [decide_eq_true_iff] at hlt
    omega
  simp only [decodeBase64Strict, hcore, hexplicit, hsize, hdecode, hcanonical, error_else_eq_ok]
  refine ⟨by omega, ?_, ?_, ?_, ?_, hmod, by omega, ?_, hlarge, by simp, ?_, by omega, hlarge,
    trivial⟩
  · intro h
    obtain ⟨n, hn, hlt⟩ := any_iff.mp h
    have hle := hvalid.min_le_max n hn
    simp only [decide_eq_true_iff] at hlt
    omega
  · intro h
    obtain ⟨n, hn, hlt⟩ := any_iff.mp h
    have hle := hvalid.exact_nonneg n hn
    simp only [decide_eq_true_iff] at hlt
    omega
  · rw [matchesBase64url_append hdigits (by omega)]
    simp
  · rintro ⟨rfl, hne⟩
    rw [List.length_nil] at hlength
    omega
  · intro h
    obtain ⟨n, hn, hlt⟩ := any_iff.mp h
    have heq := hin.eq_exact n hn
    simp only [decide_eq_true_iff] at hlt
    omega
  · intro h
    obtain ⟨n, hn, hne⟩ := any_iff.mp h
    have heq := hin.eq_exact n hn
    simp [heq] at hne

theorem spells_of_decodeBase64Strict
    (h : decodeBase64Strict field value minBytes maxBytes exactBytes = .ok data) :
    ∃ s, value = .str s ∧ ValidBounds minBytes maxBytes exactBytes ∧
      InBounds minBytes maxBytes exactBytes data ∧ Spells s data := by
  unfold decodeBase64Strict at h
  split at h
  swap
  · cases h
  next s =>
  simp only [error_else_eq_ok] at h
  obtain ⟨hmin, hmax, hexact, -, -, -, hpadding, -, -, h⟩ := h
  split at h
  · cases h
  next decoded hdecoded =>
  simp only [error_else_eq_ok] at h
  obtain ⟨hcanonical, hsize, hsmall, hlarge, h⟩ := h
  obtain rfl := Except.ok.inj h
  refine ⟨s, rfl, ⟨by omega, ?_, ?_⟩, ⟨by omega, ?_, ?_⟩, ?_⟩
  · intro n hn
    by_contra hlt
    exact hmax (any_iff.mpr ⟨n, hn, by simpa using hlt⟩)
  · intro n hn
    by_contra hlt
    exact hexact (any_iff.mpr ⟨n, hn, by simpa using hlt⟩)
  · intro n hn
    by_contra hlt
    exact hlarge (any_iff.mpr ⟨n, hn, by simpa using hlt⟩)
  · intro n hn
    by_contra hne
    exact hsize (any_iff.mpr ⟨n, hn, by simpa using hne⟩)
  · have hcore : rstripPadding (encodeBase64url decoded) = rstripPadding s := not_not.mp hcanonical
    obtain ⟨ds, hencode, hstrip, -⟩ := encodeBase64url_eq decoded
    have hds : ds = rstripPadding s := hstrip.symm.trans hcore
    have hsplit := eq_rstripPadding_append s
    by_cases hnone : s.length - (rstripPadding s).length = 0
    · right
      rw [hnone, List.replicate_zero, List.append_nil] at hsplit
      rw [hcore, ← hsplit]
    · left
      have hall : s.length - (rstripPadding s).length =
          requiredPadding (rstripPadding s).length := by
        by_contra hne
        exact hpadding ⟨hnone, hne⟩
      rw [hall] at hsplit
      rw [hencode, hds]
      exact hsplit

/-- Exactly the encodings of the byte strings within the bounds are accepted. -/
theorem decodeBase64Strict_iff :
    decodeBase64Strict field (.str s) minBytes maxBytes exactBytes = .ok data ↔
      ValidBounds minBytes maxBytes exactBytes ∧ InBounds minBytes maxBytes exactBytes data ∧
        Spells s data := by
  constructor
  · intro h
    obtain ⟨s', heq, hvalid, hin, hs⟩ := spells_of_decodeBase64Strict h
    obtain rfl := Object.str.inj heq
    exact ⟨hvalid, hin, hs⟩
  · rintro ⟨hvalid, hin, hs⟩
    exact decodeBase64Strict_spells hvalid hin hs

/-- A string spells the bytes of one encoding only, and so do two that differ in their padding. -/
theorem Spells.unique {data' : Bytes} {t : Str} (h : Spells s data) (h' : Spells t data')
    (heq : rstripPadding s = rstripPadding t) : data = data' := by
  obtain ⟨ds, -, -, -, hcore, -, -, -, hdecode⟩ := spells_append h
  obtain ⟨ds', -, -, -, hcore', -, -, -, hdecode'⟩ := spells_append h'
  obtain rfl : ds = ds' := by rw [← hcore, heq, hcore']
  exact Option.some.inj (hdecode.symm.trans hdecode')

end Scap.E2ee.Strict
