import Scap.Lib.History
import Scap.Lib.Run
import Scap.Lib.Sealing
import Scap.Py.Base64
import Scap.Py.Hmac
import Scap.Py.IpAddress
import Scap.Py.Text

/-!
# The browser behind the user interface

The user interface calls the API over the loopback address and vouches for the browser it serves
with signed headers. A request is attributed to that browser if its headers were signed within a
minute, and to its peer else, and the decision is made once. HMAC-SHA256 is a parameter. Times are
microseconds.

* `verifiedContext_eq_error` — the one case in which a request fails here;
* `verifiedContext_sound`, `verifiedContext_complete` — which headers are accepted;
* `ui_client_context` — what the decisions of a run are worth.
-/

namespace Scap.Network

open Scap.Lib Scap.Py

/-! ## Signing -/

/-- What is signed. -/
structure Payload where
  timestamp : List Char
  ip : List Char
  userAgent : List Char
  deriving DecidableEq

/-- The text of a payload. -/
def Payload.text (p : Payload) : List Char :=
  "v1\n".toList ++ (p.timestamp ++ '\n' :: (p.ip ++ '\n' :: p.userAgent))

/-- HMAC and `derive_ui_client_context_key`. -/
structure ContextKeys where
  hmac : HmacSha256
  key : ByteArray

def ContextKeys.derive (hmac : HmacSha256) (sha256 : Bytes → Digest) (secretKey : String) :
    ContextKeys where
  hmac := hmac
  key := ⟨(sha256 (utf8 ("secure-chat:ui-client-context:v1:" ++ secretKey))).val.toArray⟩

/-- `_ui_client_context_mac`. -/
def ContextKeys.sealing (K : ContextKeys) : Sealing Payload ByteArray (List Char) where
  message p := (String.ofList p.text).toByteArray
  code message := (hexdigest (K.hmac K.key message)).toList

/-- `ip.strip()`. -/
def stripChars (text : List Char) : List Char := (text.dropWhile isSpace).rdropWhile isSpace

/-- `_HEADER_UNSAFE.sub("?", value)`. -/
def headerSafe (value : List Char) : List Char :=
  value.map fun c => if 0x20 ≤ c.toNat ∧ c.toNat ≤ 0x7e then c else '?'

/-- What `sign_ui_client_context` signs at a time; nothing for a text that is no address. -/
def contextPayload (ip userAgent : List Char) (now : Nat) : Option Payload :=
  (ipAddress (stripChars ip)).map fun address =>
    { timestamp := Nat.toDigits 10 (now / 1000000)
      ip := address.str
      userAgent := (headerSafe userAgent).take 512 }

/-! ## Requests -/

/-- The headers and the peer of a request. A header value is decoded from ISO 8859-1 and has no line
break. -/
structure Request where
  proof : Option (List Char)
  ip : Option (List Char)
  userAgent : Option (List Char)
  timestamp : Option (List Char)
  plainAgent : Option (List Char)
  peer : Option (List Char)
  latin : ∀ value ∈ [proof, ip, userAgent, timestamp], ∀ text ∈ value, ∀ c ∈ text,
    c.toNat < 256 ∧ c ≠ '\n'
  deriving DecidableEq

/-- `str.isdigit` of a character of ISO 8859-1: a digit or one of the superscripts. -/
def isDigitLatin (c : Char) : Bool := c.isDigit || c.toNat ∈ [0xb2, 0xb3, 0xb9]

/-- The payload that the headers show. -/
def Request.payload (r : Request) : Payload :=
  ⟨r.timestamp.getD [], r.ip.getD [], r.userAgent.getD []⟩

/-- The address and the user agent that the user interface vouches for. -/
structure ClientContext where
  ip : List Char
  userAgent : List Char
  deriving DecidableEq

/-- `ValueError`, which `int` raises for a text with a superscript. -/
inductive ContextError where
  | invalidLiteral
  deriving DecidableEq

/-- `proof.encode("ascii", "replace")`. -/
def asciiReplace (proof : List Char) : List Char :=
  proof.map fun c => if c.toNat < 128 then c else '?'

/-- No more than `UI_CLIENT_MAX_SKEW_SECONDS` apart. -/
def withinSkew (second now : Nat) : Bool :=
  second * 1000000 ≤ now + 60 * 1000000 && now ≤ (second + 60) * 1000000

section Model

variable (K : ContextKeys)

/-- `_verified_ui_client_context`. -/
def verifiedContext (r : Request) (now : Nat) : Except ContextError (Option ClientContext) :=
  let proof := r.proof.getD []
  let p := r.payload
  if proof.isEmpty then .ok none
  else if p.timestamp.isEmpty || !p.timestamp.all isDigitLatin || 12 < p.timestamp.length then
    .ok none
  else if !p.timestamp.all Char.isDigit then .error .invalidLiteral
  else if !withinSkew (Nat.ofDigitChars 10 p.timestamp 0) now then .ok none
  else if (ipAddress p.ip).isNone then .ok none
  else if asciiReplace proof ≠ K.sealing.tagOf p then .ok none
  else .ok (some ⟨p.ip, p.userAgent⟩)

/-- `client_ip`, of a request with this context. -/
def clientIp (r : Request) (context : Option ClientContext) : List Char :=
  match context with
  | some context => context.ip.take 64
  | none => (r.peer.getD "unknown".toList).take 64

/-- `client_user_agent`. -/
def clientUserAgent (r : Request) (context : Option ClientContext) : List Char :=
  match context with
  | some context => context.userAgent
  | none => r.plainAgent.getD []

/-! ## A run -/

inductive ContextEntry where
  | signed (ip userAgent : List Char) (time : Nat)
  | decided (id : Nat) (r : Request) (time : Nat) (context : Option ClientContext)
  | answered (id : Nat) (ip userAgent : List Char)
  | failed (id : Nat) (r : Request)
  deriving DecidableEq

/-- The requests with what `request.state` keeps of them, if anything. -/
structure ContextState where
  now : Nat
  requests : Nat → Option (Request × Option (Option ClientContext))
  log : List ContextEntry

inductive ContextAction where
  | clock (now : Nat)
  | sign (ip userAgent : List Char)
  | arrive (id : Nat) (r : Request)
  | ask (id : Nat)

/-- What `client_ip` and `client_user_agent` say of a request with this context. -/
def answerOf (id : Nat) (r : Request) (context : Option ClientContext) : ContextEntry :=
  .answered id (clientIp r context) (clientUserAgent r context)

/-- A step; `ask` is `trusted_ui_client_context`. -/
def contextStep (s : ContextState) : ContextAction → Option ContextState
  | .clock now => some { s with now := now }
  | .sign ip userAgent =>
    -- the headers are of a time that a `datetime` can be
    if s.now < 253402300800 * 1000000 then
      some { s with log := s.log ++ [.signed ip userAgent s.now] }
    else none
  | .arrive id r =>
    match s.requests id with
    | some _ => none
    | none => some { s with requests := Function.update s.requests id (some (r, none)) }
  | .ask id =>
    match s.requests id with
    | none => none
    -- middleware and handlers share one scope, and the decision is in it
    | some (r, some context) => some { s with log := s.log ++ [answerOf id r context] }
    | some (r, none) =>
      match verifiedContext K r s.now with
      | .error _ => some { s with log := s.log ++ [.failed id r] }
      | .ok context => some { s with
          requests := Function.update s.requests id (some (r, some context))
          log := s.log ++ [.decided id r s.now context] ++ [answerOf id r context] }

def contextSystem : System ContextState ContextAction :=
  System.ofFun (fun s => s.requests = (fun _ => none) ∧ s.log = []) (contextStep K)

end Model

/-! ## What is accepted -/

variable {K : ContextKeys} {r : Request} {now : Nat}

theorem not_isDigit_of_superscript {c : Char} (h : c.toNat ∈ [0xb2, 0xb3, 0xb9]) :
    c.isDigit = false := by
  rw [← Char.ofNat_toNat c]
  revert h
  generalize c.toNat = n
  intro h
  simp only [List.mem_cons, List.not_mem_nil, or_false] at h
  rcases h with rfl | rfl | rfl <;> decide

/-- **An unhandled error.** The decision fails just for a timestamp with a superscript digit. -/
theorem verifiedContext_eq_error : verifiedContext K r now = .error .invalidLiteral ↔
    r.proof.getD [] ≠ [] ∧ r.payload.timestamp.length ≤ 12 ∧
      (∀ c ∈ r.payload.timestamp, isDigitLatin c = true) ∧
      ∃ c ∈ r.payload.timestamp, c.toNat ∈ [0xb2, 0xb3, 0xb9] := by
  unfold verifiedContext
  dsimp only
  constructor
  · intro h
    split at h
    · cases h
    · next hproof =>
      split at h
      · cases h
      · next hdigits =>
        simp only [Bool.or_eq_true, Bool.not_eq_true', decide_eq_true_eq, not_or,
          Bool.not_eq_false, Nat.not_lt] at hdigits
        obtain ⟨⟨-, hall⟩, hlength⟩ := hdigits
        split at h
        · next hbad =>
          refine ⟨by simpa using hproof, hlength, List.all_eq_true.mp hall, ?_⟩
          simp only [Bool.not_eq_true', List.all_eq_false, Bool.not_eq_true] at hbad
          obtain ⟨c, hc, hnone⟩ := hbad
          have hlatin := List.all_eq_true.mp hall c hc
          unfold isDigitLatin at hlatin
          rw [hnone, Bool.false_or] at hlatin
          exact ⟨c, hc, of_decide_eq_true hlatin⟩
        · repeat' split at h
          all_goals cases h
  · rintro ⟨hproof, hlength, hall, c, hc, hbad⟩
    have hne : r.payload.timestamp.isEmpty = false := by
      rw [List.isEmpty_eq_false_iff]
      exact List.ne_nil_of_mem hc
    have hguard : (r.payload.timestamp.isEmpty || !r.payload.timestamp.all isDigitLatin ||
        decide (12 < r.payload.timestamp.length)) = false := by
      rw [hne, List.all_eq_true.mpr hall, decide_eq_false (Nat.not_lt.mpr hlength)]
      rfl
    have hdigits : r.payload.timestamp.all Char.isDigit = false := by
      rw [List.all_eq_false]
      exact ⟨c, hc, by rw [not_isDigit_of_superscript hbad]; decide⟩
    rw [if_neg (by simpa using hproof), hguard, hdigits]
    rfl

theorem asciiReplace_eq_iff {proof : List Char} {d : Digest} :
    asciiReplace proof = (hexdigest d).toList ↔ proof = (hexdigest d).toList := by
  have hchars : ∀ c ∈ (hexdigest d).toList, isHexChar c = true := by
    have hvalid := validSha256Digest_hexdigest d
    unfold validSha256Digest at hvalid
    simp only [Bool.and_eq_true] at hvalid
    exact List.all_eq_true.mp hvalid.2
  have hascii : ∀ c, isHexChar c = true → c.toNat < 128 ∧ c ≠ '?' := by
    intro c hc
    have hmem : c ∈ "0123456789abcdef".toList := of_decide_eq_true hc
    have hdigits : "0123456789abcdef".toList.all (fun c => c.toNat < 128 ∧ c ≠ '?') = true := by
      decide
    simpa using List.all_eq_true.mp hdigits c hmem
  generalize (hexdigest d).toList = text at hchars
  unfold asciiReplace
  induction proof generalizing text with
  | nil => simp
  | cons c proof ih =>
      cases text with
      | nil => simp
      | cons x text =>
          have hrest := ih text fun y hy => hchars y (List.mem_cons_of_mem _ hy)
          obtain ⟨hx, hquestion⟩ := hascii x (hchars x (by simp))
          rw [List.map_cons, List.cons.injEq, List.cons.injEq]
          apply and_congr _ hrest
          split
          · exact Iff.rfl
          · next hlarge =>
            constructor
            · rintro rfl
              exact absurd rfl hquestion
            · rintro rfl
              exact absurd hx hlarge

/-- Payloads of which the first and the last field have no line break. -/
def Unbroken : Set Payload := {p | '\n' ∉ p.timestamp ∧ '\n' ∉ p.userAgent}

/-- No two of them are written alike. -/
theorem injOn_message : Unbroken.InjOn K.sealing.message := by
  rintro ⟨timestamp, ip, userAgent⟩ ⟨hp, hpAgent⟩ ⟨timestamp', ip', userAgent'⟩ ⟨hq, hqAgent⟩ h
  have htext : Payload.text ⟨timestamp, ip, userAgent⟩ = Payload.text ⟨timestamp', ip', userAgent'⟩ :=
    String.ofList_inj.mp (String.toByteArray_inj.mp h)
  have hfields := List.append_cancel_left htext
  obtain ⟨rfl, hrest⟩ := append_cons_inj_of_first hp hq hfields
  obtain ⟨rfl, rfl⟩ := append_cons_inj_of_last hpAgent hqAgent hrest
  rfl

theorem headerSafe_spec {value : List Char} : ∀ c ∈ headerSafe value, c ≠ '\n' := by
  intro c hc
  obtain ⟨x, -, rfl⟩ := List.mem_map.mp hc
  split
  · next hsafe =>
    rintro rfl
    exact absurd hsafe (by decide)
  · decide

variable {ip userAgent : List Char} {p : Payload} {time : Nat}

/-- What is signed for a browser. -/
theorem contextPayload_spec (h : contextPayload ip userAgent time = some p)
    (hclock : time / 1000000 < 10 ^ 12) :
    p ∈ Unbroken ∧ p.timestamp = Nat.toDigits 10 (time / 1000000) ∧ p.timestamp.length ≤ 12 ∧
      (∀ c ∈ p.timestamp, c.isDigit = true) ∧ ipAddress p.ip = ipAddress (stripChars ip) ∧
      (ipAddress p.ip).isSome := by
  obtain ⟨address, haddress, rfl⟩ := Option.map_eq_some_iff.mp h
  have hdigits : ∀ c ∈ Nat.toDigits 10 (time / 1000000), c.isDigit = true :=
    fun c hc => Nat.isDigit_of_mem_toDigits (by decide) (by decide) hc
  refine ⟨⟨?_, ?_⟩, rfl, ?_, hdigits, ?_, ?_⟩
  · intro hbreak
    exact absurd (hdigits _ hbreak) (by decide)
  · intro hbreak
    exact headerSafe_spec '\n' (List.mem_of_mem_take hbreak) rfl
  · exact (Nat.length_toDigits_le_iff (by decide) (by decide)).mpr hclock
  · rw [ipAddress_str, haddress]
  · rw [ipAddress_str]
    rfl

/-- The headers are those that `sign_ui_client_context` returns. -/
structure Request.Shows (K : ContextKeys) (r : Request) (p : Payload) : Prop where
  payload : r.payload = p
  proof : r.proof = some (K.sealing.tagOf p)

theorem payload_unbroken (r : Request) : r.payload ∈ Unbroken := by
  have hvalue : ∀ value ∈ [r.proof, r.ip, r.userAgent, r.timestamp], '\n' ∉ value.getD [] := by
    intro value hvalue
    cases value with
    | none => simp
    | some text => exact fun hbreak => (r.latin _ hvalue text rfl '\n' hbreak).2 rfl
  exact ⟨hvalue r.timestamp (by simp), hvalue r.userAgent (by simp)⟩

theorem verifiedContext_sound {context : ClientContext}
    (h : verifiedContext K r now = .ok (some context)) :
    r.proof.getD [] = K.sealing.tagOf r.payload ∧
      withinSkew (Nat.ofDigitChars 10 r.payload.timestamp 0) now = true ∧
      context = ⟨r.payload.ip, r.payload.userAgent⟩ := by
  unfold verifiedContext at h
  dsimp only at h
  split at h
  · cases h
  · split at h
    · cases h
    · split at h
      · cases h
      · split at h
        · cases h
        · next hskew =>
          split at h
          · cases h
          · split at h
            · cases h
            · next hproof =>
              obtain rfl := Option.some.inj (Except.ok.inj h)
              exact ⟨asciiReplace_eq_iff.mp (not_not.mp hproof), by simpa using hskew, rfl⟩

theorem tagOf_ne_nil : K.sealing.tagOf p ≠ [] := by
  have hvalid := validSha256Digest_hexdigest (K.hmac K.key (K.sealing.message p))
  unfold validSha256Digest at hvalid
  simp only [Bool.and_eq_true, decide_eq_true_eq] at hvalid
  have hlong : (K.sealing.tagOf p).length = 64 := hvalid.1
  intro hnil
  rw [hnil] at hlong
  cases hlong

theorem verifiedContext_complete (hshows : r.Shows K p)
    (hsigned : contextPayload ip userAgent time = some p) (hclock : time / 1000000 < 10 ^ 12)
    (hskew : withinSkew (time / 1000000) now = true) :
    verifiedContext K r now = .ok (some ⟨p.ip, p.userAgent⟩) := by
  obtain ⟨-, htimestamp, hlength, hdigits, -, haddress⟩ := contextPayload_spec hsigned hclock
  have hproof : (K.sealing.tagOf p).isEmpty = false :=
    List.isEmpty_eq_false_iff.mpr tagOf_ne_nil
  have hguard : (p.timestamp.isEmpty || !p.timestamp.all isDigitLatin ||
      decide (12 < p.timestamp.length)) = false := by
    have hne : p.timestamp ≠ [] := by
      rw [htimestamp]
      exact Nat.toDigits_ne_nil
    have hlatin : p.timestamp.all isDigitLatin = true := by
      rw [List.all_eq_true]
      intro c hc
      rw [isDigitLatin, hdigits c hc, Bool.true_or]
    rw [List.isEmpty_eq_false_iff.mpr hne, hlatin, decide_eq_false (Nat.not_lt.mpr hlength)]
    rfl
  have hsecond : Nat.ofDigitChars 10 p.timestamp 0 = time / 1000000 := by
    rw [htimestamp, Nat.ofDigitChars_ten_toDigits]
  have hreplaced : asciiReplace (K.sealing.tagOf p) = K.sealing.tagOf p :=
    asciiReplace_eq_iff.mpr rfl
  unfold verifiedContext
  dsimp only
  rw [hshows.payload, hshows.proof, Option.getD_some, hproof, hguard,
    List.all_eq_true.mpr hdigits, hsecond, hskew, hreplaced, Option.isNone_eq_false_iff.mpr haddress]
  simp

/-! ## Runs -/

/-- What the user interface has signed. -/
def ContextEntry.payload? : ContextEntry → Option Payload
  | .signed ip userAgent time => contextPayload ip userAgent time
  | _ => none

/-- What an entry says of those before it. -/
def ContextRight (K : ContextKeys) (before : List ContextEntry) : ContextEntry → Prop
  | .signed _ _ time => time / 1000000 < 10 ^ 12
  | .decided _ r time context => verifiedContext K r time = .ok context
  | .answered id ip userAgent => ∃ r time context, .decided id r time context ∈ before ∧
      .answered id ip userAgent = answerOf id r context
  | .failed _ r => ∃ time, verifiedContext K r time = .error .invalidLiteral

/-- A request keeps its decision, and there is no other. -/
structure ContextInv (K : ContextKeys) (s : ContextState) : Prop where
  kept : ∀ id r context, s.requests id = some (r, some context) →
    ∃ time, .decided id r time context ∈ s.log
  only : ∀ id r time context, .decided id r time context ∈ s.log →
    s.requests id = some (r, some context)
  backed : Backed (ContextRight K) s.log

section Runs

variable {s t : ContextState}

theorem ContextInv.write (h : ContextInv K s) {e : ContextEntry}
    (he : ∀ id r time context, e ≠ .decided id r time context) (hright : ContextRight K s.log e) :
    ContextInv K { s with log := s.log ++ [e] } where
  kept id r context hid := by
    obtain ⟨time, hmem⟩ := h.kept id r context hid
    exact ⟨time, List.mem_append_left _ hmem⟩
  only id r time context hmem := by
    rcases List.mem_append.mp hmem with hmem | hmem
    · exact h.only id r time context hmem
    · exact absurd (List.mem_singleton.mp hmem).symm (he id r time context)
  backed := h.backed.snoc hright

theorem ContextInv.answer (h : ContextInv K s) {id : Nat} {context : Option ClientContext}
    (hid : s.requests id = some (r, some context)) :
    ContextInv K { s with log := s.log ++ [answerOf id r context] } := by
  apply h.write
  · intro id' r' time' context' heq
    cases heq
  · obtain ⟨time, hmem⟩ := h.kept id r context hid
    exact ⟨r, time, context, hmem, rfl⟩

/-- The first answer to a request settles the others. -/
theorem ContextInv.decide (h : ContextInv K s) {id : Nat} {context : Option ClientContext}
    (hid : s.requests id = some (r, none)) (hverified : verifiedContext K r s.now = .ok context) :
    ContextInv K { s with
      requests := Function.update s.requests id (some (r, some context))
      log := s.log ++ [.decided id r s.now context] } where
  kept id' r' context' hid' := by
    by_cases heq : id' = id
    · subst heq
      simp only [Function.update_self, Option.some.injEq, Prod.mk.injEq] at hid'
      obtain ⟨rfl, rfl⟩ := hid'
      exact ⟨s.now, by simp⟩
    · obtain ⟨time, hmem⟩ := h.kept id' r' context' (by simpa [heq] using hid')
      exact ⟨time, List.mem_append_left _ hmem⟩
  only id' r' time context' hmem := by
    rcases List.mem_append.mp hmem with hmem | hmem
    · have hold := h.only id' r' time context' hmem
      have heq : id' ≠ id := by
        rintro rfl
        rw [hid] at hold
        cases hold
      simpa [heq] using hold
    · simp only [List.mem_singleton, ContextEntry.decided.injEq] at hmem
      obtain ⟨rfl, rfl, -, rfl⟩ := hmem
      simp
  backed := h.backed.snoc hverified

theorem contextInv_step {act : ContextAction} (h : ContextInv K s)
    (hstep : contextStep K s act = some t) : ContextInv K t := by
  cases act with
  | clock now =>
      obtain rfl := Option.some.inj hstep
      exact ⟨h.kept, h.only, h.backed⟩
  | sign ip userAgent =>
      obtain ⟨hclock, rfl⟩ := of_allowed hstep
      exact h.write (by simp) (show s.now / 1000000 < 10 ^ 12 by omega)
  | arrive id r =>
      unfold contextStep at hstep
      dsimp only at hstep
      split at hstep
      · cases hstep
      · next hfree =>
        obtain rfl := Option.some.inj hstep
        refine ⟨?_, ?_, h.backed⟩
        · intro id' r' context hid
          by_cases heq : id' = id
          · subst heq
            simp at hid
          · exact h.kept id' r' context (by simpa [heq] using hid)
        · intro id' r' time context hmem
          have hold := h.only id' r' time context hmem
          have heq : id' ≠ id := by
            rintro rfl
            rw [hfree] at hold
            cases hold
          simpa [heq] using hold
  | ask id =>
      unfold contextStep at hstep
      dsimp only at hstep
      split at hstep
      · cases hstep
      · next r context hid =>
        obtain rfl := Option.some.inj hstep
        exact h.answer hid
      · next r hid =>
        split at hstep
        · next e hfailed =>
          obtain rfl := Option.some.inj hstep
          cases e
          exact h.write (by simp) ⟨s.now, hfailed⟩
        · next context hverified =>
          obtain rfl := Option.some.inj hstep
          exact (h.decide hid hverified).answer (by simp)

theorem contextInv_of_reachable (h : (contextSystem K).Reachable s) : ContextInv K s := by
  apply h.induct
  · rintro s ⟨hrequests, hlog⟩
    refine ⟨?_, ?_, ?_⟩
    · intro id r context hid
      rw [hrequests] at hid
      cases hid
    · intro id r time context hmem
      rw [hlog] at hmem
      cases hmem
    · rw [hlog]
      exact backed_of_forall fun _ e he => by cases he
  · intro s act t _ hs hstep
    exact contextInv_step hs hstep

/-! ## What a decision is worth -/

theorem ContextInv.of_mem (h : ContextInv K s) {e : ContextEntry} (he : e ∈ s.log) :
    ∃ before, before ⊆ s.log ∧ ContextRight K before e := by
  obtain ⟨before, after, hlog⟩ := List.append_of_mem he
  refine ⟨before, ?_, h.backed before e after hlog⟩
  rw [hlog]
  exact List.subset_append_left _ _

/-- All that was signed is of a clock that the verifier can read. -/
theorem ContextInv.signed (h : ContextInv K s) (hmem : .signed ip userAgent time ∈ s.log) :
    time / 1000000 < 10 ^ 12 := by
  obtain ⟨before, -, hright⟩ := h.of_mem hmem
  exact hright

/-- The code is of a payload that was signed before. -/
def UnforgedContext (K : ContextKeys) (before : List ContextEntry) (r : Request) : Prop :=
  K.sealing.Unforged (before.filterMap ContextEntry.payload?) r.payload (r.proof.getD [])

theorem ContextInv.signed_of_verified (h : ContextInv K s) {before : List ContextEntry}
    (hsub : before ⊆ s.log) (hreal : UnforgedContext K before r) {context : ClientContext}
    (hverified : verifiedContext K r now = .ok (some context)) :
    ∃ ip userAgent time, .signed ip userAgent time ∈ before ∧
      contextPayload ip userAgent time = some r.payload ∧ r.Shows K r.payload ∧
      withinSkew (time / 1000000) now = true := by
  obtain ⟨htag, hskew, -⟩ := verifiedContext_sound hverified
  have hmade : ∀ q ∈ before.filterMap ContextEntry.payload?, q ∈ Unbroken := by
    intro q hq
    obtain ⟨e, he, hpayload⟩ := List.mem_filterMap.mp hq
    cases e with
    | signed ip userAgent time => exact (contextPayload_spec hpayload (h.signed (hsub he))).1
    | decided | answered | failed => cases hpayload
  have hmem : r.payload ∈ before.filterMap ContextEntry.payload? :=
    Sealing.mem_of_accepts injOn_message hmade (payload_unbroken r) hreal htag
  obtain ⟨e, he, hpayload⟩ := List.mem_filterMap.mp hmem
  cases e with
  | signed ip userAgent time =>
      have hspec := contextPayload_spec hpayload (h.signed (hsub he))
      refine ⟨ip, userAgent, time, he, hpayload, ⟨rfl, ?_⟩, ?_⟩
      · have hnonempty := tagOf_ne_nil (K := K) (p := r.payload)
        rw [← htag] at hnonempty
        cases hproof : r.proof with
        | none =>
            rw [hproof] at hnonempty
            exact absurd rfl hnonempty
        | some proof =>
            rw [hproof] at htag
            exact congrArg some htag
      · rw [hspec.2.1, Nat.ofDigitChars_ten_toDigits] at hskew
        exact hskew
  | decided | answered | failed => cases hpayload

/-! ### A run

The user interface calls for the browser at `2001:db8::1`. The request is still that browser's when
a handler asks an hour later. The digests are those of SHA-256 and HMAC-SHA256 at these
arguments. -/

def contextKeyDigest : Digest := ⟨[
  3, 186, 21, 23, 24, 137, 38, 111, 42, 119, 67, 145, 113, 9, 217, 141,
  97, 215, 136, 199, 95, 170, 196, 207, 163, 96, 153, 55, 228, 130, 189, 108], rfl⟩

def contextMac : Digest := ⟨[
  75, 231, 198, 223, 231, 237, 249, 228, 43, 32, 247, 243, 252, 27, 53, 19,
  201, 64, 117, 53, 124, 61, 91, 123, 86, 188, 155, 184, 186, 204, 141, 88], rfl⟩

def contextHmac : HmacSha256 := fun _ message =>
  if message.data.toList = utf8 "v1\n1700000000\n2001:db8::1\nFirefox/130.0" then contextMac
  else contextKeyDigest

def sampleContextKeys : ContextKeys :=
  ContextKeys.derive contextHmac (fun _ => contextKeyDigest) "test-secret"

theorem vouched_latin : ∀ value ∈ [some (hexdigest contextMac).toList, some "2001:db8::1".toList,
    some "Firefox/130.0".toList, some "1700000000".toList], ∀ text ∈ value, ∀ c ∈ text,
    c.toNat < 256 ∧ c ≠ '\n' := by
  have hlatin : [(hexdigest contextMac).toList, "2001:db8::1".toList, "Firefox/130.0".toList,
      "1700000000".toList].all (fun text => text.all fun c => c.toNat < 256 ∧ c ≠ '\n') = true := by
    decide +kernel
  intro value hvalue text htext c hc
  obtain rfl := htext
  have htexts := List.all_eq_true.mp hlatin text (by simpa using hvalue)
  simpa using List.all_eq_true.mp htexts c hc

def vouched : Request where
  proof := some (hexdigest contextMac).toList
  ip := some "2001:db8::1".toList
  userAgent := some "Firefox/130.0".toList
  timestamp := some "1700000000".toList
  plainAgent := some "python-httpx/0.27".toList
  peer := some "127.0.0.1".toList
  latin := vouched_latin

def contextStart : ContextState where
  now := 1700000000 * 1000000
  requests := fun _ => none
  log := []

def contextActions : List ContextAction := [
  .sign " 2001:DB8:0::1 ".toList "Firefox/130.0".toList,
  .clock (1700000030 * 1000000),
  .arrive 0 vouched,
  .ask 0,
  .clock (1700003600 * 1000000),
  .ask 0]

def contextState : ContextState :=
  (System.exec (contextStep sampleContextKeys) contextStart contextActions).getD contextStart

theorem exec_contextActions :
    System.exec (contextStep sampleContextKeys) contextStart contextActions =
      some contextState := by
  have hsome :
      (System.exec (contextStep sampleContextKeys) contextStart contextActions).isSome = true := by
    decide +kernel
  obtain ⟨t, ht⟩ := Option.isSome_iff_exists.mp hsome
  unfold contextState
  rw [ht, Option.getD_some]

theorem contextState_reachable : (contextSystem sampleContextKeys).Reachable contextState :=
  ⟨contextStart, contextActions, ⟨rfl, rfl⟩, System.run_of_exec exec_contextActions⟩

/-- **Whom a request is attributed to.** If no code is forged, a request is attributed to a browser
just if its headers are those that the user interface signed for that browser not more than a minute
away, and to its peer else. The decision is made once, and all that ask for it get the same answer.
Only a timestamp with a superscript digit makes it fail. -/
theorem ui_client_context (h : (contextSystem K).Reachable s) :
    (∀ before id r time context after, s.log = before ++ .decided id r time context :: after →
      UnforgedContext K before r → ∀ browser : ClientContext, context = some browser ↔
        ∃ ip userAgent signedAt p, .signed ip userAgent signedAt ∈ before ∧
          contextPayload ip userAgent signedAt = some p ∧ r.Shows K p ∧
          withinSkew (signedAt / 1000000) time = true ∧ browser = ⟨p.ip, p.userAgent⟩) ∧
    (∀ id ip userAgent, .answered id ip userAgent ∈ s.log → ∃ r time context,
      .decided id r time context ∈ s.log ∧ ip = clientIp r context ∧
        userAgent = clientUserAgent r context ∧
        ∀ ip' userAgent', .answered id ip' userAgent' ∈ s.log → ip' = ip ∧ userAgent' = userAgent) ∧
    ∀ id r, .failed id r ∈ s.log → ∃ c ∈ r.payload.timestamp, c.toNat ∈ [0xb2, 0xb3, 0xb9] := by
  have hinv := contextInv_of_reachable h
  refine ⟨?_, ?_, ?_⟩
  · intro before id r time context after hlog hreal browser
    have hsub : before ⊆ s.log := by
      rw [hlog]
      exact List.subset_append_left _ _
    have hverified : verifiedContext K r time = .ok context := hinv.backed before _ after hlog
    constructor
    · rintro rfl
      obtain ⟨ip, userAgent, signedAt, hsigned, hpayload, hshows, hskew⟩ :=
        hinv.signed_of_verified hsub hreal hverified
      exact ⟨ip, userAgent, signedAt, r.payload, hsigned, hpayload, hshows, hskew,
        (verifiedContext_sound hverified).2.2⟩
    · rintro ⟨ip, userAgent, signedAt, p, hsigned, hpayload, hshows, hskew, rfl⟩
      have haccepted := verifiedContext_complete hshows hpayload (hinv.signed (hsub hsigned)) hskew
      rw [hverified] at haccepted
      exact Except.ok.inj haccepted
  · have hdecided : ∀ id ip userAgent, .answered id ip userAgent ∈ s.log → ∃ r time context,
        .decided id r time context ∈ s.log ∧ ip = clientIp r context ∧
          userAgent = clientUserAgent r context := by
      intro id ip userAgent hmem
      obtain ⟨before, hsub, r, time, context, hmade, hanswer⟩ := hinv.of_mem hmem
      injection hanswer with _ hip hagent
      exact ⟨r, time, context, hsub hmade, hip, hagent⟩
    intro id ip userAgent hmem
    obtain ⟨r, time, context, hmade, rfl, rfl⟩ := hdecided id ip userAgent hmem
    refine ⟨r, time, context, hmade, rfl, rfl, ?_⟩
    intro ip' userAgent' hmem'
    obtain ⟨r', time', context', hmade', rfl, rfl⟩ := hdecided id ip' userAgent' hmem'
    -- both answers come from the one decision about the request
    have hsame := (hinv.only id r' time' context' hmade').symm.trans
      (hinv.only id r time context hmade)
    simp only [Option.some.injEq, Prod.mk.injEq] at hsame
    obtain ⟨rfl, rfl⟩ := hsame
    exact ⟨rfl, rfl⟩
  · intro id r hmem
    obtain ⟨before, -, time, hfailed⟩ := hinv.of_mem hmem
    exact (verifiedContext_eq_error.mp hfailed).2.2.2

theorem ui_client_context_sample :
    (∃ p, contextPayload " 2001:DB8:0::1 ".toList "Firefox/130.0".toList (1700000000 * 1000000) =
      some p ∧ vouched.Shows sampleContextKeys p) ∧
    ∀ ip userAgent, .answered 0 ip userAgent ∈ contextState.log → ip = "2001:db8::1".toList := by
  have hlog : contextState.log = contextState.log.take 1 ++
      .decided 0 vouched (1700000030 * 1000000)
        (some ⟨"2001:db8::1".toList, "Firefox/130.0".toList⟩) :: contextState.log.drop 2 := by
    decide +kernel
  have hreal : UnforgedContext sampleContextKeys (contextState.log.take 1) vouched := by
    apply Sealing.unforged_of_mem
    decide +kernel
  have hanswered : .answered 0 "2001:db8::1".toList "Firefox/130.0".toList ∈ contextState.log := by
    decide +kernel
  obtain ⟨hdecisions, hanswers, -⟩ := ui_client_context contextState_reachable
  constructor
  · obtain ⟨ip, userAgent, signedAt, p, hsigned, hpayload, hshows, -⟩ :=
      (hdecisions _ _ _ _ _ _ hlog hreal _).mp rfl
    have hsign : contextState.log.take 1 =
        [.signed " 2001:DB8:0::1 ".toList "Firefox/130.0".toList (1700000000 * 1000000)] := by
      decide +kernel
    rw [hsign, List.mem_singleton, ContextEntry.signed.injEq] at hsigned
    obtain ⟨rfl, rfl, rfl⟩ := hsigned
    exact ⟨p, hpayload, hshows⟩
  · intro ip userAgent hmem
    obtain ⟨-, -, -, -, -, -, hsame⟩ := hanswers _ _ _ hanswered
    exact (hsame ip userAgent hmem).1

end Runs

end Scap.Network
