import Mathlib.Data.Bool.AllAny
import Scap.Lib.Except
import Scap.Lib.Sealing
import Scap.Py.Base64
import Scap.Py.IpAddress
import Scap.Py.Text

/-!
# Host validation

`host_security.py`: the configured hosts are brought into one spelling, and a request is let through
if its `Host` header, read as an authority, is in the same spelling one of them.

* `normalizeHost_iff` — a host is spelled as what it denotes;
* `normalized_hosts` — the configured hosts after that: no two of them are the same, the spelling
  is a fixed point, and the hosts that are denoted stay the same;
* `requestHost_iff` — the parser of the header finds just the authorities;
* `host_check` — which requests are let through.
-/

namespace Scap.Network

open Scap.Lib Scap.Py

/-! ## Spelling -/

/-- `str.lower`, of which no more is used than what it does to ASCII. -/
structure CaseMap where
  lower : List Char → List Char
  lower_ascii : ∀ text, (∀ c ∈ text, c.toNat < 128) → lower text = text.map Char.toLower

inductive HostError where
  | notExact
  | notPlain
  deriving DecidableEq

def HostError.message : HostError → String
  | notExact => "ALLOWED_HOSTS must contain exact hostnames or IP addresses."
  | notPlain => "ALLOWED_HOSTS does not permit wildcards, URLs or scoped addresses."

/-- `[a-z0-9]`. -/
def isLabelEnd (c : Char) : Bool := ('a' ≤ c && c ≤ 'z') || ('0' ≤ c && c ≤ '9')

/-- `_LABEL.fullmatch`. -/
def isLabel (label : List Char) : Bool :=
  label.length ≤ 63 && label.all (fun c => isLabelEnd c || c = '-') &&
    label.head?.any isLabelEnd && label.getLast?.any isLabelEnd

/-- `"*%/\\@?#"`. -/
def forbiddenChars : List Char := ['*', '%', '/', '\\', '@', '?', '#']

/-- A host without the brackets around it. -/
def unbracket (host : List Char) : List Char :=
  if host.head? = some '[' ∧ host.getLast? = some ']' then (host.drop 1).dropLast else host

/-- `value == value.strip()`. -/
def isStripped (value : List Char) : Bool :=
  !value.head?.any isSpace && !value.getLast?.any isSpace

/-- The names that are allowed. -/
def isName (host : List Char) : Bool := host.length ≤ 253 && (host.splitOn '.').all isLabel

/-- The spelling of an address or of a name. -/
def spelling (host : List Char) : Except HostError (List Char) :=
  match ipAddress host with
  | some a => .ok a.str
  | none => if isName host then .ok host else .error .notExact

section Model

variable (C : CaseMap)

/-- The loop body of `normalize_allowed_hosts`. -/
def normalizeHost (value : List Char) : Except HostError (List Char) :=
  if value.isEmpty || !isStripped value then .error .notExact
  else
    let host := unbracket (C.lower value)
    if host.any forbiddenChars.contains then .error .notPlain else spelling host

/-- `normalize_allowed_hosts`. -/
def normalizeAllowedHosts (hosts : List (List Char)) : Except HostError (List (List Char)) :=
  hosts.foldlM (fun normalized value => do
    let host ← normalizeHost C value
    return if normalized.contains host then normalized else normalized ++ [host]) []

/-- `LOCAL_ALLOWED_HOSTS`. -/
def localAllowedHosts : List (List Char) := ["127.0.0.1".toList, "localhost".toList, "::1".toList]

inductive Environment where
  | development
  | test
  | production
  deriving DecidableEq

/-- What `effective_allowed_hosts` says of production without hosts. -/
def requiredMessage : String := "ALLOWED_HOSTS is required in production."

/-- `effective_allowed_hosts`, with the text of its error. -/
def effectiveAllowedHosts (hosts : List (List Char)) (environment : Environment) :
    Except String (List (List Char)) :=
  if hosts ≠ [] then (normalizeAllowedHosts C hosts).mapError HostError.message
  else match environment with
    | .production => .error requiredMessage
    | .test => .ok (localAllowedHosts ++ ["testserver".toList])
    | .development => .ok localAllowedHosts

/-! ## Requests -/

/-- `_valid_port`. -/
def validPort (value : List Char) : Bool :=
  !value.isEmpty && value.all Char.isDigit && value.length ≤ 5 &&
    1 ≤ Nat.ofDigitChars 10 value 0 && Nat.ofDigitChars 10 value 0 ≤ 65535

/-- What may stand behind a host. -/
def validSuffix (suffix : List Char) : Bool :=
  suffix.isEmpty || (suffix.head? = some ':' && validPort (suffix.drop 1))

/-- The host between brackets. -/
def bracketedHost (inner : List Char) : Option (List Char) :=
  let host := inner.takeWhile (· ≠ ']')
  match inner.dropWhile (· ≠ ']') with
  | [] => none
  | _ :: suffix =>
    match ipAddress host with
    | some (.v6 _) => if host.contains '%' || !validSuffix suffix then none else some host
    | _ => none

/-- The host of a header that can be read as an authority. -/
def authorityHost (text : List Char) : Option (List Char) :=
  if text.isEmpty || text.any (fun c => c.toNat ≤ 32 || 127 ≤ c.toNat) then none
  else if text.head? = some '[' then bracketedHost (text.drop 1)
  else if 1 < text.count ':' then none
  else
    let host := text.takeWhile (· ≠ ':')
    if !validSuffix (text.dropWhile (· ≠ ':')) then none else some host

/-- `value.decode("ascii")`. -/
def decodeAscii (value : Bytes) : Option (List Char) :=
  if value.all (fun b => b.toNat < 128) then some (value.map fun b => Char.ofNat b.toNat) else none

/-- `_request_host`. -/
def requestHost (value : Bytes) : Option (List Char) :=
  ((decodeAscii value).bind authorityHost).bind fun host => (normalizeHost C host).toOption

inductive ScopeType where
  | http
  | websocket
  | lifespan
  deriving DecidableEq

structure Scope where
  type : ScopeType
  headers : List (Bytes × Bytes)

/-- What is done with a request: it goes to the application, the socket is closed, or there is an
answer with a detail. -/
inductive Outcome where
  | app
  | close (code : Nat)
  | response (status : Nat) (detail : String) (headers : List (String × String))
  deriving DecidableEq

/-- `bytes.lower` of one byte. -/
def lowerByte (b : UInt8) : UInt8 := if 65 ≤ b ∧ b ≤ 90 then b + 32 else b

/-- The values of the `Host` headers. -/
def hostValues (scope : Scope) : List Bytes :=
  (scope.headers.filter fun h => h.1.map lowerByte = utf8 "host").map Prod.snd

/-- The answer to a request for another host. -/
def hostRefused : Outcome := .response 400 "Host không được cho phép." [
  ("Cache-Control", "no-store"), ("X-Content-Type-Options", "nosniff"),
  ("Content-Security-Policy", "default-src 'none'; frame-ancestors 'none'"),
  ("X-Frame-Options", "DENY"), ("Referrer-Policy", "no-referrer")]

/-- The host of a request that has one `Host` header. -/
def scopeHost (scope : Scope) : Option (List Char) :=
  match hostValues scope with
  | [value] => requestHost C value
  | _ => none

/-- `ExactHostMiddleware.__call__`, with the set that `__init__` has made. -/
def exactHost (allowed : List (List Char)) (scope : Scope) : Outcome :=
  if scope.type ≠ .http ∧ scope.type ≠ .websocket then .app
  else if (scopeHost C scope).any allowed.contains then .app
  else if scope.type = .websocket then .close 1008
  else hostRefused

end Model

/-! ## What a host denotes -/

inductive Host where
  | ip (a : IpAddress)
  | name (text : List Char)
  deriving DecidableEq

def Host.str : Host → List Char
  | .ip a => a.str
  | .name text => text

/-- The text that a value is looked at as. -/
structure Spelled (C : CaseMap) (value text : List Char) : Prop where
  ne_nil : value ≠ []
  stripped : isStripped value = true
  eq : text = unbracket (C.lower value)
  plain : ∀ c ∈ text, c ∉ forbiddenChars

/-- An address in any of its spellings, or a name in any case. -/
inductive Denotes (C : CaseMap) (value : List Char) : Host → Prop
  | ip {text a} : Spelled C value text → ipAddress text = some a → Denotes C value (.ip a)
  | name {text} : Spelled C value text → ipAddress text = none → isName text = true →
      Denotes C value (.name text)

section Denotation

variable {C : CaseMap} {value other text s : List Char} {x y : Host}

/-- **A host is spelled** as what it denotes. -/
theorem normalizeHost_iff : normalizeHost C value = .ok s ↔ ∃ x, Denotes C value x ∧ s = x.str := by
  -- the two guards are what `Spelled` asks of the text
  have hspelled : (value.isEmpty || !isStripped value) = false →
      (unbracket (C.lower value)).any forbiddenChars.contains = false →
      Spelled C value (unbracket (C.lower value)) := by
    intro hvalue hplain
    simp only [Bool.or_eq_false_iff, List.isEmpty_eq_false_iff, Bool.not_eq_false'] at hvalue
    refine ⟨hvalue.1, hvalue.2, rfl, ?_⟩
    intro c hc hforbidden
    rw [List.any_eq_false] at hplain
    exact hplain c hc (List.contains_iff_mem.mpr hforbidden)
  constructor
  · intro h
    unfold normalizeHost at h
    split at h
    · cases h
    · next hvalue =>
      dsimp only at h
      split at h
      · cases h
      · next hplain =>
        have hspelled := hspelled (by simpa using hvalue) (by simpa using hplain)
        unfold spelling at h
        split at h
        · next a ha =>
          obtain rfl := Except.ok.inj h
          exact ⟨.ip a, .ip hspelled ha, rfl⟩
        · next hnone =>
          split at h
          · next hname =>
            obtain rfl := Except.ok.inj h
            exact ⟨.name _, .name hspelled hnone hname, rfl⟩
          · cases h
  · rintro ⟨x, hx, rfl⟩
    have hguards : ∀ {text}, Spelled C value text → normalizeHost C value = spelling text := by
      rintro text ⟨hne, hstripped, rfl, hplain⟩
      have hvalue : (value.isEmpty || !isStripped value) = false := by
        simp [hne, hstripped]
      have hany : (unbracket (C.lower value)).any forbiddenChars.contains = false := by
        rw [List.any_eq_false]
        intro c hc hforbidden
        exact hplain c hc (List.contains_iff_mem.mp hforbidden)
      unfold normalizeHost
      rw [hvalue]
      dsimp only
      rw [hany]
      rfl
    cases hx with
    | ip hspelled ha =>
        rw [hguards hspelled, spelling, ha]
        rfl
    | name hspelled hnone hname =>
        rw [hguards hspelled, spelling, hnone]
        exact if_pos hname

/-- A text denotes one host at most. -/
theorem Denotes.unique (hx : Denotes C value x) (hy : Denotes C value y) : x = y := by
  cases hx with
  | ip hx ha =>
      cases hy with
      | ip hy hb =>
          rw [hx.eq, ← hy.eq, hb] at ha
          rw [Option.some.inj ha]
      | name hy hnone _ =>
          rw [hx.eq, ← hy.eq, hnone] at ha
          cases ha
  | name hx hnone _ =>
      cases hy with
      | ip hy hb =>
          rw [hx.eq, ← hy.eq, hb] at hnone
          cases hnone
      | name hy _ _ => rw [hx.eq, hy.eq]

/-- What is spelled alike is the same. -/
theorem Denotes.str_inj (hx : Denotes C value x) (hy : Denotes C other y) (h : x.str = y.str) :
    x = y := by
  have hname : ∀ {text : List Char} {a : IpAddress}, ipAddress text = none → text ≠ a.str := by
    rintro text a hnone rfl
    rw [ipAddress_str] at hnone
    cases hnone
  cases hx with
  | ip _ _ =>
      cases hy with
      | ip _ _ => rw [str_injective h]
      | name _ hnone _ => exact absurd h.symm (hname hnone)
  | name _ hnone _ =>
      cases hy with
      | ip _ _ => exact absurd h (hname hnone)
      | name _ _ _ => exact congrArg Host.name h

/-! ### The characters of a spelled host -/

/-- A character of a host. -/
def isHostChar (c : Char) : Bool := isLabelEnd c || c = '-' || c = '.' || c = ':'

/-- What holds of the ASCII characters. -/
theorem of_ascii {P : Char → Prop} {c : Char} (h : ∀ n < 128, P (Char.ofNat n))
    (hc : c.toNat < 128) : P c := by
  rw [← Char.ofNat_toNat c]
  exact h _ hc

theorem isHostChar_lt {c : Char} (h : isHostChar c = true) : c.toNat < 128 := by
  unfold isHostChar isLabelEnd at h
  simp only [Bool.or_eq_true, Bool.and_eq_true, decide_eq_true_eq, Char.le_def,
    UInt32.le_iff_toNat_le] at h
  rcases h with (((⟨-, h⟩ | ⟨-, h⟩) | rfl) | rfl) | rfl
  · exact Nat.lt_of_le_of_lt h (by decide)
  · exact Nat.lt_of_le_of_lt h (by decide)
  · decide
  · decide
  · decide

/-- A character of a host is in lower case, no space and not a forbidden one. -/
theorem isHostChar_spec {c : Char} (h : isHostChar c = true) :
    c.toLower = c ∧ isSpace c = false ∧ c ∉ forbiddenChars ∧ c ≠ '[' := by
  have hascii := isHostChar_lt h
  revert h
  exact of_ascii (P := fun c => isHostChar c = true →
    c.toLower = c ∧ isSpace c = false ∧ c ∉ forbiddenChars ∧ c ≠ '[') (by decide +kernel) hascii

theorem isHostChar_of_isLowerHex {c : Char} (h : isLowerHex c = true) : isHostChar c = true := by
  unfold isLowerHex at h
  unfold isHostChar isLabelEnd
  simp only [Bool.or_eq_true, Bool.and_eq_true, decide_eq_true_eq] at h ⊢
  rcases h with h | ⟨hlow, hhigh⟩
  · simp only [Char.isDigit, Bool.and_eq_true, decide_eq_true_eq] at h
    exact .inl (.inl (.inl (.inr h)))
  · exact .inl (.inl (.inl (.inl ⟨hlow, hhigh.trans (by decide)⟩)))

theorem isHostChar_of_isName (h : isName text = true) : ∀ c ∈ text, isHostChar c = true := by
  intro c hc
  unfold isName at h
  simp only [Bool.and_eq_true, List.all_eq_true] at h
  have hjoined : ['.'].intercalate (text.splitOn '.') = text := List.intercalate_splitOn '.'
  rw [← hjoined] at hc
  rcases mem_intercalate hc with rfl | ⟨label, hlabel, hc⟩
  · decide
  · have hchars := h.2 label hlabel
    unfold isLabel at hchars
    simp only [Bool.and_eq_true, List.all_eq_true, Bool.or_eq_true] at hchars
    unfold isHostChar
    rcases hchars.1.1.2 c hc with hend | hhyphen
    · simp [hend]
    · simp [of_decide_eq_true hhyphen]

/-- A host is spelled with the characters of hosts only. -/
theorem Denotes.chars (h : Denotes C value x) : x.str ≠ [] ∧ ∀ c ∈ x.str, isHostChar c = true := by
  cases h with
  | @ip text a hspelled ha =>
      -- the scope of an address stands behind a '%', which is forbidden
      have hscope : a.scoped = false := by
        by_contra hscoped
        have hpercent := percent_mem_of_scoped ha (by simpa using hscoped)
        exact hspelled.plain '%' hpercent (by decide)
      refine ⟨?_, ?_⟩
      · intro hnil
        have hnone : ipAddress (Host.ip a).str = none := by
          rw [hnil]
          decide
        rw [Host.str, ipAddress_str] at hnone
        cases hnone
      · intro c hc
        rcases mem_str hscope hc with h | rfl | rfl
        · exact isHostChar_of_isLowerHex h
        · decide
        · decide
  | name hspelled hnone hname =>
      refine ⟨?_, isHostChar_of_isName hname⟩
      rintro rfl
      exact absurd hname (by decide)

/-- **The spelling is a fixed point.** -/
theorem Denotes.self (h : Denotes C value x) : Denotes C x.str x := by
  obtain ⟨hne, hchars⟩ := h.chars
  have hlower : C.lower x.str = x.str := by
    rw [C.lower_ascii x.str fun c hc => isHostChar_lt (hchars c hc)]
    exact (List.map_congr_left fun c hc => (isHostChar_spec (hchars c hc)).1).trans (List.map_id _)
  have hbracket : unbracket x.str = x.str := by
    unfold unbracket
    rw [if_neg]
    rintro ⟨hhead, -⟩
    exact (isHostChar_spec (hchars '[' (List.mem_of_head? hhead))).2.2.2 rfl
  have hstripped : isStripped x.str = true := by
    have hnone : ∀ o : Option Char, (∀ c ∈ o, c ∈ x.str) → o.any isSpace = false := by
      intro o ho
      cases o with
      | none => rfl
      | some c => exact (isHostChar_spec (hchars c (ho c rfl))).2.1
    unfold isStripped
    rw [hnone _ fun c hc => List.mem_of_head? hc, hnone _ fun c hc => List.mem_of_getLast? hc]
    rfl
  have hspelled : Spelled C x.str x.str :=
    ⟨hne, hstripped, by rw [hlower, hbracket], fun c hc => (isHostChar_spec (hchars c hc)).2.2.1⟩
  cases h with
  | ip _ _ => exact .ip hspelled (ipAddress_str _)
  | name _ hnone hname => exact .name hspelled hnone hname

end Denotation

/-! ## The configured hosts -/

section Configured

variable {C : CaseMap} {hosts normalized out : List (List Char)} {value s : List Char}

/-- The loop of `normalize_allowed_hosts`, from some hosts on. -/
def normalizeFrom (C : CaseMap) (normalized hosts : List (List Char)) :
    Except HostError (List (List Char)) :=
  hosts.foldlM (fun normalized value => do
    let host ← normalizeHost C value
    return if normalized.contains host then normalized else normalized ++ [host]) normalized

theorem normalizeFrom_cons : normalizeFrom C normalized (value :: hosts) =
    (normalizeHost C value).bind fun host =>
      normalizeFrom C (if normalized.contains host then normalized else normalized ++ [host])
        hosts := by
  unfold normalizeFrom
  rw [List.foldlM_cons]
  cases normalizeHost C value <;> rfl

/-- What the loop has found, by induction on the hosts that are left. -/
theorem normalizeFrom_spec (hnodup : normalized.Nodup)
    (h : normalizeFrom C normalized hosts = .ok out) :
    out.Nodup ∧ (∀ s, s ∈ out ↔ s ∈ normalized ∨ ∃ v ∈ hosts, normalizeHost C v = .ok s) ∧
      ∀ v ∈ hosts, ∃ s, normalizeHost C v = .ok s := by
  induction hosts generalizing normalized with
  | nil =>
      obtain rfl := Except.ok.inj h
      exact ⟨hnodup, by simp, by simp⟩
  | cons value hosts ih =>
      rw [normalizeFrom_cons] at h
      obtain ⟨host, hhost, h⟩ := bind_eq_ok.mp h
      have hgrown : (if normalized.contains host then normalized
          else normalized ++ [host]).Nodup := by
        split
        · exact hnodup
        · next hnew => exact List.nodup_append.mpr ⟨hnodup, List.nodup_singleton _, by
            intro a ha b hb
            obtain rfl := List.mem_singleton.mp hb
            rintro rfl
            exact hnew (List.contains_iff_mem.mpr ha)⟩
      have hmem : ∀ s, s ∈ (if normalized.contains host then normalized
          else normalized ++ [host]) ↔ s ∈ normalized ∨ s = host := by
        intro s
        split
        · next hold =>
          have hhold := List.contains_iff_mem.mp hold
          constructor
          · exact Or.inl
          · rintro (hs | rfl)
            · exact hs
            · exact hhold
        · simp
      obtain ⟨hout, hspec, hall⟩ := ih hgrown h
      refine ⟨hout, ?_, ?_⟩
      · intro s
        rw [hspec, hmem]
        simp only [List.mem_cons, exists_eq_or_imp, hhost, Except.ok.injEq]
        rw [or_assoc, eq_comm]
      · intro v hv
        rcases List.mem_cons.mp hv with rfl | hv
        · exact ⟨host, hhost⟩
        · exact hall v hv

/-- Hosts that are spelled already are left alone. -/
theorem normalizeFrom_fixed (hnodup : (normalized ++ hosts).Nodup)
    (hfixed : ∀ v ∈ hosts, normalizeHost C v = .ok v) :
    normalizeFrom C normalized hosts = .ok (normalized ++ hosts) := by
  induction hosts generalizing normalized with
  | nil => rw [List.append_nil]; rfl
  | cons value hosts ih =>
      have hnew : normalized.contains value = false := by
        rw [Bool.eq_false_iff]
        intro hold
        have hdisjoint := List.disjoint_of_nodup_append hnodup
        exact hdisjoint (List.contains_iff_mem.mp hold) (by simp)
      have hsplit : normalized ++ value :: hosts = (normalized ++ [value]) ++ hosts := by simp
      rw [normalizeFrom_cons, hfixed value (by simp), Except.bind, hnew, if_neg (by decide), hsplit]
      exact ih (hsplit ▸ hnodup) fun v hv => hfixed v (List.mem_cons_of_mem _ hv)

theorem mem_normalized (h : normalizeAllowedHosts C hosts = .ok out) :
    s ∈ out ↔ ∃ v ∈ hosts, normalizeHost C v = .ok s := by
  have hspec := (normalizeFrom_spec List.nodup_nil h).2.1 s
  simpa using hspec

end Configured

/-! ## Authorities -/

section Authorities

/-- Printable ASCII without spaces. -/
def Visible (text : List Char) : Prop := text ≠ [] ∧ ∀ c ∈ text, 32 < c.toNat ∧ c.toNat < 127

/-- Nothing, or a colon and a port. -/
inductive PortSuffix : List Char → Prop
  | none : PortSuffix []
  | port {digits} : validPort digits = true → PortSuffix (':' :: digits)

/-- The host of an authority: an address of version 6 in brackets, or a text without a colon. -/
inductive Authority : List Char → List Char → Prop
  | bracketed {host suffix a} : ipAddress host = some (.v6 a) → '%' ∉ host → ']' ∉ host →
      PortSuffix suffix → Authority ('[' :: (host ++ ']' :: suffix)) host
  | plain {host suffix} : ':' ∉ host → host.head? ≠ some '[' → PortSuffix suffix →
      Authority (host ++ suffix) host

variable {text host suffix : List Char}

theorem validSuffix_iff : validSuffix suffix = true ↔ PortSuffix suffix := by
  constructor
  · intro h
    cases suffix with
    | nil => exact .none
    | cons c digits =>
        simp only [validSuffix, List.isEmpty_cons, Bool.false_or, List.head?_cons,
          Option.some.injEq, List.drop_one, List.tail_cons, Bool.and_eq_true,
          decide_eq_true_eq] at h
        obtain ⟨rfl, hport⟩ := h
        exact .port hport
  · intro h
    cases h with
    | none => rfl
    | port hport => simpa [validSuffix] using hport

theorem visible_iff : (text.isEmpty || text.any fun c => c.toNat ≤ 32 || 127 ≤ c.toNat) = false ↔
    Visible text := by
  simp [Visible, List.any_eq_false, List.isEmpty_eq_false_iff]

/-- A valid port has no colon. -/
theorem colon_not_mem_port {digits : List Char} (h : validPort digits = true) : ':' ∉ digits := by
  intro hmem
  unfold validPort at h
  simp only [Bool.and_eq_true, List.all_eq_true] at h
  exact absurd (h.1.1.1.2 ':' hmem) (by decide)

/-! ### Splitting at a character -/

section Split

variable {c : Char} {front back : List Char}

theorem takeWhile_ne_of_not_mem (h : c ∉ front) :
    (front ++ c :: back).takeWhile (· ≠ c) = front := by
  rw [List.takeWhile_append_of_pos (decide_ne h), List.takeWhile_cons_of_neg (by simp), List.append_nil]

theorem dropWhile_ne_of_not_mem (h : c ∉ front) :
    (front ++ c :: back).dropWhile (· ≠ c) = c :: back := by
  rw [List.dropWhile_append_of_pos (decide_ne h), List.dropWhile_cons_of_neg (by simp)]

/-- A text without the character is not split. -/
theorem split_ne_of_not_mem {text : List Char} (h : c ∉ text) :
    text.takeWhile (· ≠ c) = text ∧ text.dropWhile (· ≠ c) = [] :=
  ⟨List.takeWhile_eq_self_iff.mpr (decide_ne h), List.dropWhile_eq_nil_iff.mpr (decide_ne h)⟩

/-- The first place of a character. -/
theorem exists_split {text : List Char} (h : c ∈ text) :
    ∃ front back, text = front ++ c :: back ∧ c ∉ front := by
  induction text with
  | nil => cases h
  | cons x text ih =>
      by_cases hx : x = c
      · exact ⟨[], text, by rw [hx]; rfl, by simp⟩
      · have hmem : c ∈ text := by
          rcases List.mem_cons.mp h with rfl | hmem
          · exact absurd rfl hx
          · exact hmem
        obtain ⟨front, back, rfl, hfree⟩ := ih hmem
        refine ⟨x :: front, back, rfl, ?_⟩
        rw [List.mem_cons, not_or]
        exact ⟨fun heq => hx heq.symm, hfree⟩

end Split

/-- Behind a bracket, the host ends at the first closing one. -/
theorem authorityHost_bracketed {inner : List Char} (hvisible : Visible ('[' :: inner)) :
    authorityHost ('[' :: inner) = some host ↔ ∃ suffix a, inner = host ++ ']' :: suffix ∧
      ']' ∉ host ∧ ipAddress host = some (.v6 a) ∧ '%' ∉ host ∧ PortSuffix suffix := by
  have hguard := visible_iff.mpr hvisible
  have hopen : authorityHost ('[' :: inner) = bracketedHost inner := by
    unfold authorityHost
    rw [hguard]
    rfl
  rw [hopen]
  unfold bracketedHost
  dsimp only
  by_cases hclosing : ']' ∈ inner
  · obtain ⟨front, back, rfl, hfree⟩ := exists_split hclosing
    rw [dropWhile_ne_of_not_mem hfree, takeWhile_ne_of_not_mem hfree]
    dsimp only
    constructor
    · intro h
      split at h
      · next a ha =>
        split at h
        · cases h
        · next hrest =>
          obtain rfl := Option.some.inj h
          simp only [Bool.or_eq_true, List.contains_iff_mem, Bool.not_eq_true', not_or,
            Bool.not_eq_false] at hrest
          exact ⟨back, a, rfl, hfree, ha, hrest.1, validSuffix_iff.mp hrest.2⟩
      · cases h
    · rintro ⟨suffix, a, hsplit, hhost, ha, hpercent, hsuffix⟩
      obtain ⟨rfl, rfl⟩ := append_cons_inj_of_first hfree hhost hsplit
      rw [ha]
      simp [hpercent, validSuffix_iff.mpr hsuffix]
  · rw [(split_ne_of_not_mem hclosing).2]
    constructor
    · intro h
      cases h
    · rintro ⟨suffix, a, rfl, -⟩
      exact absurd (by simp) hclosing

/-- Else it ends at the only colon. -/
theorem authorityHost_plain (hvisible : Visible text) (hplain : text.head? ≠ some '[') :
    authorityHost text = some host ↔ ∃ suffix, text = host ++ suffix ∧ ':' ∉ host ∧
      PortSuffix suffix := by
  have hguard := visible_iff.mpr hvisible
  have hopen : authorityHost text = if 1 < text.count ':' then none
      else if !validSuffix (text.dropWhile (· ≠ ':')) then none
      else some (text.takeWhile (· ≠ ':')) := by
    unfold authorityHost
    rw [hguard, if_neg (by decide), if_neg hplain]
  rw [hopen]
  by_cases hcolon : ':' ∈ text
  · obtain ⟨front, back, rfl, hfree⟩ := exists_split hcolon
    rw [dropWhile_ne_of_not_mem hfree, takeWhile_ne_of_not_mem hfree]
    constructor
    · intro h
      split at h
      · cases h
      · split at h
        · cases h
        · next hvalid =>
          obtain rfl := Option.some.inj h
          exact ⟨':' :: back, rfl, hfree, validSuffix_iff.mp (by simpa using hvalid)⟩
    · rintro ⟨suffix, hsplit, hhost, hsuffix⟩
      cases hsuffix with
      | none =>
          rw [List.append_nil] at hsplit
          rw [← hsplit] at hhost
          exact absurd (by simp) hhost
      | port hport =>
          obtain ⟨rfl, rfl⟩ := append_cons_inj_of_first hfree hhost hsplit
          -- a port has no colon, so the one in front of it is the only one
          have hcount : ∀ digits : List Char, ':' ∉ digits →
              (front ++ ':' :: digits).count ':' = 1 := by
            intro digits hdigits
            rw [List.count_append, List.count_cons_self, List.count_eq_zero_of_not_mem hhost,
              List.count_eq_zero_of_not_mem hdigits]
          rw [if_neg (by rw [hcount _ (colon_not_mem_port hport)]; decide),
            validSuffix_iff.mpr (.port hport)]
          rfl
  · obtain ⟨htake, hdrop⟩ := split_ne_of_not_mem hcolon
    rw [htake, hdrop, List.count_eq_zero_of_not_mem hcolon]
    constructor
    · intro h
      obtain rfl := Option.some.inj h
      exact ⟨[], (List.append_nil _).symm, hcolon, .none⟩
    · rintro ⟨suffix, rfl, hhost, hsuffix⟩
      cases hsuffix with
      | none => rw [List.append_nil]; rfl
      | port _ => exact absurd (by simp) hcolon

/-- **The parser finds the authorities.** -/
theorem authorityHost_iff :
    authorityHost text = some host ↔ Visible text ∧ Authority text host := by
  by_cases hvisible : Visible text
  · rw [and_iff_right hvisible]
    -- the two forms: a literal in brackets, and a name or an address without
    by_cases hopen : text.head? = some '['
    · obtain ⟨inner, rfl⟩ : ∃ inner, text = '[' :: inner := by
        cases text with
        | nil => cases hopen
        | cons c inner =>
            obtain rfl := Option.some.inj hopen
            exact ⟨inner, rfl⟩
      rw [authorityHost_bracketed hvisible]
      constructor
      · rintro ⟨suffix, a, rfl, hfree, ha, hpercent, hsuffix⟩
        exact .bracketed ha hpercent hfree hsuffix
      · intro h
        generalize htext : '[' :: inner = text at h
        cases h with
        | bracketed ha hpercent hfree hsuffix =>
            exact ⟨_, _, (List.cons.inj htext).2, hfree, ha, hpercent, hsuffix⟩
        | @plain host suffix hcolon hhead hsuffix =>
            cases host with
            | nil => cases hsuffix <;> cases htext
            | cons c host =>
                obtain ⟨rfl, -⟩ := List.cons.inj htext
                exact absurd rfl hhead
    · rw [authorityHost_plain hvisible hopen]
      constructor
      · rintro ⟨suffix, rfl, hcolon, hsuffix⟩
        refine .plain hcolon ?_ hsuffix
        cases host with
        | nil => simp
        | cons c host => exact hopen
      · intro h
        cases h with
        | bracketed _ _ _ _ => exact absurd rfl hopen
        | plain hcolon _ hsuffix => exact ⟨_, rfl, hcolon, hsuffix⟩
  · have hguard : (text.isEmpty || text.any fun c => c.toNat ≤ 32 || 127 ≤ c.toNat) = true := by
      rw [← Bool.not_eq_false]
      exact fun h => hvisible (visible_iff.mp h)
    have hnone : authorityHost text = none := by
      unfold authorityHost
      rw [hguard, if_pos rfl]
    rw [hnone]
    constructor
    · intro h
      cases h
    · exact fun h => absurd h.1 hvisible

end Authorities

/-! ## Main results -/

variable {hosts allowed : List (List Char)}

/-! ### Two hosts in another spelling -/

/-- `str.lower` for texts of ASCII characters. -/
def asciiCase : CaseMap where
  lower text := text.map Char.toLower
  lower_ascii _ _ := rfl

def sampleHosts : List (List Char) := ["[2001:DB8:0:0:0:0:0:1]".toList, "Chat.Example.org".toList]

def sampleAllowed : List (List Char) := ["2001:db8::1".toList, "chat.example.org".toList]

theorem normalize_sampleHosts :
    normalizeAllowedHosts asciiCase sampleHosts = .ok sampleAllowed := by
  decide +kernel

/-- A configured host is the spelling of what it denotes. -/
theorem spelled_of_mem {C : CaseMap} (h : normalizeAllowedHosts C hosts = .ok allowed)
    {v : List Char} (hv : v ∈ allowed) :
    ∃ x, (∃ w ∈ hosts, Denotes C w x) ∧ v = x.str ∧ Denotes C v x := by
  obtain ⟨w, hw, hnormal⟩ := (mem_normalized h).mp hv
  obtain ⟨x, hx, rfl⟩ := normalizeHost_iff.mp hnormal
  exact ⟨x, ⟨w, hw, hx⟩, rfl, hx.self⟩

theorem normalizeAllowedHosts_fixed {C : CaseMap}
    (h : normalizeAllowedHosts C hosts = .ok allowed) :
    normalizeAllowedHosts C allowed = .ok allowed := by
  obtain ⟨hnodup, -, -⟩ := normalizeFrom_spec List.nodup_nil h
  have hfixed : ∀ v ∈ allowed, normalizeHost C v = .ok v := by
    intro v hv
    obtain ⟨x, -, hstr, hx⟩ := spelled_of_mem h hv
    exact normalizeHost_iff.mpr ⟨x, hx, hstr⟩
  exact normalizeFrom_fixed (by simpa using hnodup) hfixed

/-- **The configured hosts.** No host is left twice, each is spelled as it will be spelled again,
and what is denoted by them is denoted after that. -/
theorem normalized_hosts (C : CaseMap) (h : normalizeAllowedHosts C hosts = .ok allowed) :
    allowed.Nodup ∧ normalizeAllowedHosts C allowed = .ok allowed ∧
    (∀ v ∈ hosts, ∃ x, Denotes C v x) ∧
    (∀ x, (∃ v ∈ allowed, Denotes C v x) ↔ ∃ v ∈ hosts, Denotes C v x) ∧
    ∀ v ∈ allowed, ∀ w ∈ allowed, ∀ x, Denotes C v x → Denotes C w x → v = w := by
  obtain ⟨hnodup, -, hall⟩ := normalizeFrom_spec List.nodup_nil h
  refine ⟨hnodup, normalizeAllowedHosts_fixed h, ?_, ?_, ?_⟩
  · intro v hv
    obtain ⟨s, hs⟩ := hall v hv
    obtain ⟨x, hx, -⟩ := normalizeHost_iff.mp hs
    exact ⟨x, hx⟩
  · intro x
    constructor
    · rintro ⟨v, hv, hx⟩
      obtain ⟨y, hy, -, hself⟩ := spelled_of_mem h hv
      rwa [hx.unique hself]
    · rintro ⟨w, hw, hx⟩
      exact ⟨x.str, (mem_normalized h).mpr ⟨w, hw, normalizeHost_iff.mpr ⟨x, hx, rfl⟩⟩, hx.self⟩
  · intro v hv w hw x hx hx'
    obtain ⟨y, -, hvy, hy⟩ := spelled_of_mem h hv
    obtain ⟨z, -, hwz, hz⟩ := spelled_of_mem h hw
    rw [hvy, hwz, ← hx.unique hy, ← hx'.unique hz]

theorem normalized_hosts_sample :
    normalizeAllowedHosts asciiCase sampleAllowed = .ok sampleAllowed ∧
      ∃ v ∈ sampleAllowed, Denotes asciiCase v (.name "chat.example.org".toList) := by
  obtain ⟨-, hfixed, -, hdenoted, -⟩ := normalized_hosts asciiCase normalize_sampleHosts
  refine ⟨hfixed, (hdenoted _).mpr ⟨"Chat.Example.org".toList, by decide, ?_⟩⟩
  have hspelled : Spelled asciiCase "Chat.Example.org".toList "chat.example.org".toList :=
    ⟨by decide, by decide, by decide, List.all_iff_forall_prop.mp (by decide)⟩
  exact .name hspelled (by decide +kernel) (by decide +kernel)

theorem normalizeHost_of_ascii (C : CaseMap) {value : List Char}
    (h : ∀ c ∈ value, c.toNat < 128) : normalizeHost C value = normalizeHost asciiCase value := by
  have hlower : C.lower value = asciiCase.lower value := C.lower_ascii value h
  unfold normalizeHost
  rw [hlower]

/-- The hosts of the settings and the default ones pass the check of the middleware as they are. -/
theorem normalize_effectiveAllowedHosts (C : CaseMap) {environment : Environment}
    (h : effectiveAllowedHosts C hosts environment = .ok allowed) :
    normalizeAllowedHosts C allowed = .ok allowed := by
  -- the defaults are ASCII, which every `str.lower` treats alike
  have hdefaults : ∀ defaults : List (List Char), defaults.Nodup →
      defaults.all (fun v => v.all (fun c => c.toNat < 128) &&
        normalizeHost asciiCase v = .ok v) = true →
      normalizeAllowedHosts C defaults = .ok defaults := by
    intro defaults hnodup hchecked
    have hall : ∀ v ∈ defaults, (∀ c ∈ v, c.toNat < 128) ∧ normalizeHost asciiCase v = .ok v := by
      intro v hv
      simpa using List.all_eq_true.mp hchecked v hv
    apply normalizeFrom_fixed (by simpa using hnodup)
    intro v hv
    rw [normalizeHost_of_ascii C (hall v hv).1]
    exact (hall v hv).2
  unfold effectiveAllowedHosts at h
  split at h
  · cases hnormal : normalizeAllowedHosts C hosts with
    | error e =>
        rw [hnormal] at h
        cases h
    | ok normalized =>
        rw [hnormal] at h
        obtain rfl := Except.ok.inj h
        exact normalizeAllowedHosts_fixed hnormal
  · cases environment with
    | production => cases h
    | test =>
        obtain rfl := Except.ok.inj h
        exact hdefaults _ (by decide) (by decide +kernel)
    | development =>
        obtain rfl := Except.ok.inj h
        exact hdefaults _ (by decide) (by decide +kernel)

/-- The middleware reads the authorities whose host denotes something. -/
theorem requestHost_iff {C : CaseMap} {value : Bytes} {s : List Char} :
    requestHost C value = some s ↔ ∃ text host x, decodeAscii value = some text ∧ Visible text ∧
      Authority text host ∧ Denotes C host x ∧ s = x.str := by
  unfold requestHost
  simp only [Option.bind_eq_some_iff, authorityHost_iff]
  constructor
  · rintro ⟨host, ⟨text, htext, hvisible, hauthority⟩, hnormal⟩
    have hok : normalizeHost C host = .ok s := by
      cases hresult : normalizeHost C host with
      | error e => rw [hresult] at hnormal; cases hnormal
      | ok t =>
          rw [hresult] at hnormal
          rw [Option.some.inj hnormal]
    obtain ⟨x, hx, rfl⟩ := normalizeHost_iff.mp hok
    exact ⟨text, host, x, htext, hvisible, hauthority, hx, rfl⟩
  · rintro ⟨text, host, x, htext, hvisible, hauthority, hx, rfl⟩
    refine ⟨host, ⟨text, htext, hvisible, hauthority⟩, ?_⟩
    rw [normalizeHost_iff.mpr ⟨x, hx, rfl⟩]
    rfl

/-- The host of a request is allowed if it denotes the same as a configured one. -/
theorem allowed_iff {C : CaseMap} (h : normalizeAllowedHosts C hosts = .ok allowed)
    (value : Bytes) : (requestHost C value).any allowed.contains = true ↔
      ∃ text host x, decodeAscii value = some text ∧ Visible text ∧ Authority text host ∧
        Denotes C host x ∧ ∃ v ∈ hosts, Denotes C v x := by
  rw [Option.any_eq_true]
  constructor
  · rintro ⟨s, hs, hmem⟩
    obtain ⟨text, host, x, htext, hvisible, hauthority, hx, rfl⟩ := requestHost_iff.mp hs
    obtain ⟨v, hv, hnormal⟩ := (mem_normalized h).mp (List.contains_iff_mem.mp hmem)
    obtain ⟨y, hy, hstr⟩ := normalizeHost_iff.mp hnormal
    exact ⟨text, host, x, htext, hvisible, hauthority, hx, v, hv, hx.str_inj hy hstr ▸ hy⟩
  · rintro ⟨text, host, x, htext, hvisible, hauthority, hx, v, hv, hvx⟩
    refine ⟨x.str, requestHost_iff.mpr ⟨text, host, x, htext, hvisible, hauthority, hx, rfl⟩, ?_⟩
    exact List.contains_iff_mem.mpr
      ((mem_normalized h).mpr ⟨v, hv, normalizeHost_iff.mpr ⟨x, hvx, rfl⟩⟩)

theorem scopeHost_allowed {C : CaseMap} (h : normalizeAllowedHosts C hosts = .ok allowed)
    {scope : Scope} : (scopeHost C scope).any allowed.contains = true ↔
      ∃ value text host x, hostValues scope = [value] ∧ decodeAscii value = some text ∧
        Visible text ∧ Authority text host ∧ Denotes C host x ∧ ∃ v ∈ hosts, Denotes C v x := by
  unfold scopeHost
  split
  · next value hvalue =>
    rw [allowed_iff h]
    constructor
    · rintro ⟨text, host, x, hx⟩
      exact ⟨value, text, host, x, hvalue, hx⟩
    · rintro ⟨value', text, host, x, hvalue', hx⟩
      obtain rfl := List.singleton_inj.mp (hvalue.symm.trans hvalue')
      exact ⟨text, host, x, hx⟩
  · next hnone =>
    constructor
    · intro hany
      cases hany
    · rintro ⟨value, text, host, x, hvalue, -⟩
      exact absurd hvalue (hnone value)

def sampleAddress : Ipv6Address where
  hextets := [0x2001, 0xdb8, 0, 0, 0, 0, 0, 1]
  scopeId := none
  length_eq := rfl
  lt := by decide
  scope_ne := by simp
  scope_plain := by simp

/-- A request for the address in its short spelling, with a port. -/
def sampleScope : Scope where
  type := .http
  headers := [(utf8 "accept", utf8 "*/*"), (utf8 "HOST", utf8 "[2001:db8::1]:8443")]

/-- **The check of a request.** It is let through just if there is one `Host` header, it is an
authority, and its host denotes the same as one of the configured hosts; another request for the
application gets no further. -/
theorem host_check (C : CaseMap) (h : normalizeAllowedHosts C hosts = .ok allowed) (scope : Scope) :
    (exactHost C allowed scope = .app ↔ (scope.type ≠ .http ∧ scope.type ≠ .websocket) ∨
      ∃ value text host x, hostValues scope = [value] ∧ decodeAscii value = some text ∧
        Visible text ∧ Authority text host ∧ Denotes C host x ∧ ∃ v ∈ hosts, Denotes C v x) ∧
    (exactHost C allowed scope ≠ .app → exactHost C allowed scope =
      if scope.type = .websocket then .close 1008 else hostRefused) := by
  unfold exactHost
  by_cases hother : scope.type ≠ .http ∧ scope.type ≠ .websocket
  · rw [if_pos hother]
    exact ⟨⟨fun _ => .inl hother, fun _ => rfl⟩, fun hne => absurd rfl hne⟩
  · rw [if_neg hother]
    rw [← scopeHost_allowed h]
    split
    · next hpassed => exact ⟨⟨fun _ => .inr hpassed, fun _ => rfl⟩, fun hne => absurd rfl hne⟩
    · next hrefused =>
      have hneither : ¬ ((scope.type ≠ .http ∧ scope.type ≠ .websocket) ∨
          (scopeHost C scope).any allowed.contains = true) := by
        rintro (h | h)
        · exact hother h
        · exact hrefused h
      refine ⟨⟨fun happ => ?_, fun h => absurd h hneither⟩, fun _ => rfl⟩
      split at happ
      · cases happ
      · cases happ

theorem host_check_sample : exactHost asciiCase sampleAllowed sampleScope = .app := by
  obtain ⟨happ, -⟩ := host_check asciiCase normalize_sampleHosts sampleScope
  apply happ.mpr
  have hshort : ipAddress "2001:db8::1".toList = some (.v6 sampleAddress) := by
    decide +kernel
  have hlong : ipAddress "2001:db8:0:0:0:0:0:1".toList = some (.v6 sampleAddress) := by
    decide +kernel
  have hauthority : Authority "[2001:db8::1]:8443".toList "2001:db8::1".toList :=
    .bracketed hshort (by decide) (by decide) (.port (by decide))
  have hvisible : Visible "[2001:db8::1]:8443".toList := by
    exact ⟨by decide, List.all_iff_forall_prop.mp (by decide)⟩
  have hasked : Spelled asciiCase "2001:db8::1".toList "2001:db8::1".toList :=
    ⟨by decide, by decide, by decide, List.all_iff_forall_prop.mp (by decide)⟩
  have hmeant : Spelled asciiCase "[2001:DB8:0:0:0:0:0:1]".toList "2001:db8:0:0:0:0:0:1".toList :=
    ⟨by decide, by decide, by decide, List.all_iff_forall_prop.mp (by decide)⟩
  exact .inr ⟨utf8 "[2001:db8::1]:8443", _, _, .ip (.v6 sampleAddress), by decide +kernel,
    by decide +kernel, hvisible, hauthority, .ip hasked hshort, "[2001:DB8:0:0:0:0:0:1]".toList,
    by decide, .ip hmeant hlong⟩

end Scap.Network
