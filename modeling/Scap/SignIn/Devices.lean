import Scap.Dlp.Rules
import Scap.Lib.Sealing

/-!
# Browser recognition tokens

`DeviceTokenService`: a token `v1.<device id>.<issued>.<MAC>` is made for an account at a completed
sign-in, and the account is in the MAC only. HMAC-SHA256 is a parameter. Times are microseconds.

* `parts_token` — a token is read as it was written;
* `verify_issue` — a token that was issued is accepted for its account while it is fresh;
* `verify_eq_some` — what is accepted was issued to that account, if no MAC was forged.
-/

namespace Scap.SignIn

open Scap.Lib Scap.Lib.Regex Scap.Py Scap.Dlp

/-! ## Families of browsers -/

section Families

variable (C : Characters)

/-- `_BROWSERS`. -/
def browsers : List (String × Pattern) := [
  ("Edge", seqs [C.boundary, lit "Edg", opt (alts [lit "e", lit "A", lit "iOS"]), lit "/"]),
  ("Opera", alts [seqs [C.boundary, lit "OPR/"], seqs [C.boundary, lit "Opera", C.boundary]]),
  ("Samsung Internet", seqs [C.boundary, lit "SamsungBrowser/"]),
  ("Firefox", seqs [C.boundary, alts [lit "Firefox", lit "FxiOS"], lit "/"]),
  ("Chrome", seqs [C.boundary, alts [lit "Chrome", lit "CriOS", lit "Chromium"], lit "/"]),
  ("Safari", seqs [C.boundary, lit "Version/", plus (one fun c => C.digit c || among "." c),
    star dot, C.boundary, lit "Safari/"]),
  ("curl", seqs [.assert fun before _ => before.isNone, lit "curl/"]),
  ("Python", alts [seqs [C.lit "python-", alts [C.lit "httpx", C.lit "requests", C.lit "urllib"]],
    C.lit "aiohttp", C.lit "Python-urllib"])]

/-- `_SYSTEMS`. -/
def systems : List (String × Pattern) := [
  ("Android", seqs [C.boundary, lit "Android", C.boundary]),
  ("iOS", seqs [C.boundary, alts [lit "iPhone", lit "iPad", lit "iPod"], C.boundary]),
  ("Windows", seqs [C.boundary, lit "Windows", C.boundary]),
  ("ChromeOS", seqs [C.boundary, lit "CrOS", C.boundary]),
  ("macOS", alts [seqs [C.boundary, lit "Mac OS X", C.boundary],
    seqs [C.boundary, lit "Macintosh", C.boundary]]),
  ("Linux", alts [seqs [C.boundary, lit "Linux", C.boundary],
    seqs [C.boundary, lit "X11", C.boundary]])]

/-- `UNKNOWN`. -/
def unknown : String := "Không rõ"

/-- The first name whose expression is found. -/
def firstFamily (families : List (String × Pattern)) (value : Str) : String :=
  ((families.find? fun family => search family.2 value).map Prod.fst).getD unknown

/-- `device_family`. -/
def deviceFamily (userAgent : Option Str) : String × String :=
  let value := userAgent.getD []
  (firstFamily (browsers C) value, firstFamily (systems C) value)

/-- `describe_user_agent`. -/
def describeUserAgent (userAgent : Option Str) : Option String :=
  if (userAgent.getD []).isEmpty then none
  else
    let (browser, system) := deviceFamily C userAgent
    if browser = unknown ∧ system = unknown then some "Thiết bị không xác định"
    else some (browser ++ " · " ++ system)

end Families

/-! ## Tokens -/

structure DeviceTokenService where
  hmac : HmacSha256
  key : ByteArray
  maxAgeSeconds : Nat

/-- `DeviceTokenService.__init__`. -/
def DeviceTokenService.new (hmac : HmacSha256) (sha256 : Bytes → Digest) (secretKey : String)
    (maxAgeDays : Nat) : DeviceTokenService where
  hmac := hmac
  key := ⟨(sha256 (utf8 ("secure-chat:device-token:v1:" ++ secretKey))).val.toArray⟩
  maxAgeSeconds := maxAgeDays * 86400

/-- `[A-Za-z0-9_-]`. -/
def isUrlsafe (c : Char) : Bool := c.isAlphanum || c = '_' || c = '-'

/-- The device and the second that a MAC is about. -/
structure Claim where
  user : String
  device : List Char
  issued : List Char
  deriving DecidableEq

/-- What the pattern asks of the device and of the time. -/
structure Claim.WellFormed (c : Claim) : Prop where
  device_length : c.device.length = 22
  device_urlsafe : ∀ x ∈ c.device, isUrlsafe x = true
  issued_pos : 1 ≤ c.issued.length
  issued_length : c.issued.length ≤ 12
  issued_digits : ∀ x ∈ c.issued, x.isDigit = true

/-- The text that the MAC of a claim is made of. -/
def Claim.text (c : Claim) : List Char :=
  delimited '|' ("v1|".toList ++ c.user.toList) [c.device, c.issued]

/-- `b64encode(...).rstrip("=")`. -/
def unpadded (data : Bytes) : List Char := (encodeGroups data).rdropWhile fun c => c = '='

/-- `DeviceTokenService.new_device_id`, with the random bytes given. -/
def newDeviceId (random : Bytes) : List Char := unpadded random

/-- `device_ref`. -/
def deviceRef (sha256 : Bytes → Digest) (device : List Char) : String :=
  String.ofList ((hexdigest (sha256 (utf8 (String.ofList device)))).toList.take 16)

/-- A token of its parts. -/
def token (device issued mac : List Char) : List Char :=
  ['.'].intercalate ["v1".toList, device, issued, mac]

/-- The groups of `_DEVICE_TOKEN_RE.fullmatch`. No class of it has the dot. -/
def tokenParts (token : List Char) : Option (List Char × List Char × List Char) :=
  match token.splitOn '.' with
  | [version, device, issued, mac] =>
    if version = "v1".toList ∧ (device.length = 22 ∧ device.all isUrlsafe) ∧
        (1 ≤ issued.length ∧ issued.length ≤ 12 ∧ issued.all Char.isDigit) ∧
        mac.length = 43 ∧ mac.all isUrlsafe then
      some (device, issued, mac)
    else none
  | _ => none

/-! ## Reading what was written -/

theorem isUrlsafe_urlsafeDigit {n : Nat} (h : n < 64) : isUrlsafe (urlsafeDigit n) = true := by
  revert n
  decide

/-- The digits of some bytes, without padding. -/
theorem unpadded_spec (data : Bytes) :
    (unpadded data).length = (4 * data.length + 2) / 3 ∧
      ∀ c ∈ unpadded data, isUrlsafe c = true := by
  obtain ⟨ds, hds, hlength, hdigits⟩ := encodeGroups_eq data
  have hpadding : ∀ c ∈ ds, c ≠ '=' := by
    intro c hc
    obtain ⟨n, hn, rfl⟩ := hdigits c hc
    exact urlsafeDigit_ne hn
  unfold unpadded
  rw [hds, rdropWhile_replicate hpadding]
  refine ⟨hlength, ?_⟩
  intro c hc
  obtain ⟨n, hn, rfl⟩ := hdigits c hc
  exact isUrlsafe_urlsafeDigit hn

theorem not_mem_of_urlsafe {text : List Char} (h : ∀ c ∈ text, isUrlsafe c = true) {x : Char}
    (hx : isUrlsafe x = false) : x ∉ text := by
  intro hmem
  rw [h x hmem] at hx
  cases hx

theorem not_mem_of_digits {text : List Char} (h : ∀ c ∈ text, c.isDigit = true) {x : Char}
    (hx : x.isDigit = false) : x ∉ text := by
  intro hmem
  rw [h x hmem] at hx
  cases hx

/-- A decimal numeral is what the pattern asks of the time. -/
theorem wellFormed_toDigits {user : String} {device : List Char} {n : Nat}
    (hlength : device.length = 22) (hdevice : ∀ x ∈ device, isUrlsafe x = true)
    (hn : n < 10 ^ 12) : (⟨user, device, Nat.toDigits 10 n⟩ : Claim).WellFormed where
  device_length := hlength
  device_urlsafe := hdevice
  issued_pos := Nat.length_toDigits_pos
  issued_length := (Nat.length_toDigits_le_iff (by decide) (by decide)).mpr hn
  issued_digits x hx := Nat.isDigit_of_mem_toDigits (by decide) (by decide) hx

/-- The parts of a token are read from it. -/
theorem tokenParts_token {c : Claim} {mac : List Char} (hc : c.WellFormed)
    (hlength : mac.length = 43) (hmac : ∀ x ∈ mac, isUrlsafe x = true) :
    tokenParts (token c.device c.issued mac) = some (c.device, c.issued, mac) := by
  have hsplit : (token c.device c.issued mac).splitOn '.' =
      ["v1".toList, c.device, c.issued, mac] := by
    apply List.splitOn_intercalate
    · intro part hpart
      simp only [List.mem_cons, List.not_mem_nil, or_false] at hpart
      rcases hpart with rfl | rfl | rfl | rfl
      · decide
      · exact not_mem_of_urlsafe hc.device_urlsafe (by decide)
      · exact not_mem_of_digits hc.issued_digits (by decide)
      · exact not_mem_of_urlsafe hmac (by decide)
    · exact List.cons_ne_nil _ _
  unfold tokenParts
  rw [hsplit]
  dsimp only
  rw [if_pos]
  exact ⟨rfl, ⟨hc.device_length, List.all_eq_true.mpr hc.device_urlsafe⟩,
    ⟨hc.issued_pos, hc.issued_length, List.all_eq_true.mpr hc.issued_digits⟩, hlength,
    List.all_eq_true.mpr hmac⟩

/-- Only the token of its parts has them. -/
theorem token_of_tokenParts {header device issued mac : List Char} (user : String)
    (h : tokenParts header = some (device, issued, mac)) :
    header = token device issued mac ∧ (⟨user, device, issued⟩ : Claim).WellFormed := by
  unfold tokenParts at h
  split at h
  · next version device' issued' mac' hsplit =>
    split at h
    · next hparts =>
      obtain ⟨rfl, ⟨hlength, hdevice⟩, ⟨hpos, hle, hissued⟩, -, -⟩ := hparts
      simp only [Option.some.injEq, Prod.mk.injEq] at h
      obtain ⟨rfl, rfl, rfl⟩ := h
      refine ⟨?_, hlength, List.all_eq_true.mp hdevice, hpos, hle, List.all_eq_true.mp hissued⟩
      rw [token, ← hsplit, List.intercalate_splitOn]
    · cases h
  · cases h

namespace DeviceTokenService

variable (svc : DeviceTokenService)

/-- `_mac`. -/
def sealing : Sealing Claim ByteArray (List Char) where
  message c := (String.ofList c.text).toByteArray
  code message := unpadded (svc.hmac svc.key message).val

/-- `issue`, at a time in microseconds. -/
def issue (user : String) (device : List Char) (now : Nat) : List Char :=
  let issued := Nat.toDigits 10 (now / 1000000)
  token device issued (svc.sealing.tagOf ⟨user, device, issued⟩)

/-- The age of a token is one that `verify` accepts. -/
def fresh (issued now : Nat) : Bool :=
  issued * 1000000 ≤ now + 300 * 1000000 && now ≤ (issued + svc.maxAgeSeconds) * 1000000

/-- `verify`. -/
def verify (header : Option (List Char)) (user : String) (now : Nat) : Option (List Char) :=
  match tokenParts (header.getD []) with
  | none => none
  | some (device, issued, mac) =>
    if mac ≠ svc.sealing.tagOf ⟨user, device, issued⟩ then none
    else if !svc.fresh (Nat.ofDigitChars 10 issued 0) now then none
    else some device


/-! ## What a token is worth -/

variable {svc} {user : String} {device : List Char} {now issuedAt : Nat}
  {header : Option (List Char)}

/-- No two claims are written alike. -/
theorem injOn_message : {c : Claim | c.WellFormed}.InjOn svc.sealing.message := by
  intro c hc d hd h
  have htext : c.text = d.text := by
    have hstring : String.ofList c.text = String.ofList d.text := String.toByteArray_inj.mp h
    exact String.ofList_inj.mp hstring
  have hfields : ∀ {e : Claim}, e.WellFormed → ∀ f ∈ [e.device, e.issued], '|' ∉ f := by
    intro e he f hf
    simp only [List.mem_cons, List.not_mem_nil, or_false] at hf
    rcases hf with rfl | rfl
    · exact not_mem_of_urlsafe he.device_urlsafe (by decide)
    · exact not_mem_of_digits he.issued_digits (by decide)
  obtain ⟨hhead, hrest⟩ := delimited_inj (hfields hc) (hfields hd) rfl htext
  have huser : c.user = d.user := String.toList_inj.mp (List.append_cancel_left hhead)
  obtain ⟨hdevice, hissued⟩ := List.cons.inj hrest
  cases c
  cases d
  simp_all

/-- The claim of a token that is issued. -/
def issuedClaim (user : String) (device : List Char) (now : Nat) : Claim :=
  ⟨user, device, Nat.toDigits 10 (now / 1000000)⟩

theorem tag_spec (c : Claim) : (svc.sealing.tagOf c).length = 43 ∧
    ∀ x ∈ svc.sealing.tagOf c, isUrlsafe x = true := by
  have hspec := unpadded_spec (svc.hmac svc.key (svc.sealing.message c)).val
  rw [(svc.hmac svc.key (svc.sealing.message c)).property] at hspec
  exact hspec

/-- **Round trip.** A token is accepted for its account while it is fresh. -/
theorem verify_issue (hlength : device.length = 22) (hdevice : ∀ x ∈ device, isUrlsafe x = true)
    (hclock : issuedAt / 1000000 < 10 ^ 12) (hfresh : svc.fresh (issuedAt / 1000000) now = true) :
    svc.verify (some (svc.issue user device issuedAt)) user now = some device := by
  have hwell : (issuedClaim user device issuedAt).WellFormed :=
    wellFormed_toDigits hlength hdevice hclock
  obtain ⟨htagLength, htag⟩ := tag_spec (issuedClaim user device issuedAt)
  have hparts : tokenParts (svc.issue user device issuedAt) =
      some (device, (issuedClaim user device issuedAt).issued, _) :=
    tokenParts_token hwell htagLength htag
  unfold verify
  rw [Option.getD_some, hparts]
  dsimp only [issuedClaim]
  rw [Nat.ofDigitChars_ten_toDigits, hfresh]
  simp

/-- **What is accepted was issued** to that account, and is fresh. -/
theorem verify_sound {made : List Claim} (hmade : ∀ c ∈ made, c.WellFormed)
    (hreal : ∀ device issued mac, tokenParts (header.getD []) = some (device, issued, mac) →
      svc.sealing.Unforged made ⟨user, device, issued⟩ mac)
    (h : svc.verify header user now = some device) :
    ∃ issued, ⟨user, device, issued⟩ ∈ made ∧
      header = some (token device issued (svc.sealing.tagOf ⟨user, device, issued⟩)) ∧
      svc.fresh (Nat.ofDigitChars 10 issued 0) now = true := by
  unfold verify at h
  split at h
  · cases h
  · next device' issued mac hparts =>
    split at h
    · cases h
    · next hmac =>
      split at h
      · cases h
      · next hfresh =>
        obtain rfl := Option.some.inj h
        replace hmac := not_not.mp hmac
        obtain ⟨htoken, hwell⟩ := token_of_tokenParts user hparts
        have hmem := Sealing.mem_of_accepts injOn_message hmade hwell
          (hreal _ _ _ hparts) hmac
        refine ⟨issued, hmem, ?_, by simpa using hfresh⟩
        cases header with
        | none => cases hparts
        | some text => rw [← hmac, ← htoken, Option.getD_some]

end DeviceTokenService

end Scap.SignIn
