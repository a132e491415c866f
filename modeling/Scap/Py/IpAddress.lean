import Mathlib.Data.List.Induction
import Mathlib.Data.List.Nodup
import Mathlib.Data.List.Perm.Basic
import Mathlib.Data.List.TakeWhile

/-!
# `ipaddress.ip_address`

Internet addresses as the module reads and writes them (Python 3.12). A text is read as a version 4
address first, and as a version 6 address if it is none.

* `Zeros.of_fold` — the run that `str` replaces by `::` is a run of zeros;
* `ipAddress_str` — what was written is read again, so no two addresses are written alike;
* `mem_str` — the characters of an address without a scope.
-/

namespace Scap.Py

/-! ## Numerals -/

/-- The value of a hexadecimal digit of either case. -/
def hexDigitValue (c : Char) : Nat :=
  if c.toNat < 58 then c.toNat - 48
  else if c.toNat < 97 then c.toNat - 55
  else c.toNat - 87

/-- `_HEX_DIGITS`. -/
def isHexDigit (c : Char) : Bool :=
  c.isDigit || ('a' ≤ c && c ≤ 'f') || ('A' ≤ c && c ≤ 'F')

/-- `int(text, 16)`. -/
def ofHex (text : List Char) : Nat := text.foldl (fun n c => 16 * n + hexDigitValue c) 0

theorem mem_toDigits_hex {n : Nat} {c : Char} (h : c ∈ Nat.toDigits 16 n) :
    ∃ d < 16, c = Nat.digitChar d := by
  induction n using Nat.strongRecOn with
  | ind n ih =>
      rw [Nat.toDigits_eq_if (by decide)] at h
      split at h
      · next hlt => exact ⟨n, hlt, List.mem_singleton.mp h⟩
      · next hge =>
        rcases List.mem_append.mp h with h | h
        · exact ih (n / 16) (by omega) h
        · exact ⟨n % 16, Nat.mod_lt _ (by decide), List.mem_singleton.mp h⟩

theorem hexDigitValue_digitChar {d : Nat} (h : d < 16) : hexDigitValue (Nat.digitChar d) = d := by
  revert d
  decide

@[simp] theorem ofHex_toDigits (n : Nat) : ofHex (Nat.toDigits 16 n) = n := by
  induction n using Nat.strongRecOn with
  | ind n ih =>
      rw [Nat.toDigits_eq_if (by decide)]
      split
      · next hlt => simp [ofHex, hexDigitValue_digitChar hlt]
      · next hge =>
        have hfront := ih (n / 16) (by omega)
        unfold ofHex at hfront ⊢
        rw [List.foldl_append, hfront]
        simp only [List.foldl_cons, List.foldl_nil]
        rw [hexDigitValue_digitChar (Nat.mod_lt _ (by decide))]
        omega

/-! ## Version 4 -/

structure Ipv4Address where
  octets : List Nat
  length_eq : octets.length = 4
  lt : ∀ n ∈ octets, n < 256
  deriving DecidableEq

/-- `_parse_octet`. -/
def parseOctet (text : List Char) : Option Nat :=
  if text.isEmpty || !text.all Char.isDigit then none
  else if 3 < text.length then none
  else if text ≠ ['0'] ∧ text.head? = some '0' then none
  else
    let octet := Nat.ofDigitChars 10 text 0
    if 255 < octet then none else some octet

/-- `IPv4Address._ip_int_from_string`, as four octets. -/
def parseOctets (text : List Char) : Option (List Nat) :=
  let octets := text.splitOn '.'
  if octets.length ≠ 4 then none else octets.mapM parseOctet

/-- `IPv4Address(text)`. -/
def parseIpv4 (text : List Char) : Option Ipv4Address :=
  (parseOctets text).bind fun octets =>
    if h : octets.length = 4 ∧ ∀ n ∈ octets, n < 256 then some ⟨octets, h.1, h.2⟩ else none

def Ipv4Address.str (a : Ipv4Address) : List Char :=
  ['.'].intercalate (a.octets.map (Nat.toDigits 10))

/-! ## Version 6 -/

structure Ipv6Address where
  hextets : List Nat
  scopeId : Option (List Char)
  length_eq : hextets.length = 8
  lt : ∀ n ∈ hextets, n < 65536
  scope_ne : ∀ scope ∈ scopeId, scope ≠ []
  scope_plain : ∀ scope ∈ scopeId, '%' ∉ scope ∧ '/' ∉ scope
  deriving DecidableEq

/-- `_split_scope_id`. -/
def splitScopeId (text : List Char) : Option (List Char × Option (List Char)) :=
  match text.dropWhile (· ≠ '%') with
  | [] => some (text, none)
  | _ :: scope =>
    if scope.isEmpty || scope.contains '%' then none
    else some (text.takeWhile (· ≠ '%'), some scope)

/-- `_parse_hextet`. -/
def parseHextet (text : List Char) : Option Nat :=
  if !text.all isHexDigit then none
  else if 4 < text.length then none
  else if text.isEmpty then none
  else some (ofHex text)

/-- The parts of an address whose last one may be a version 4 address. -/
def expandSuffix (parts : List (List Char)) : Option (List (List Char)) :=
  match parts.getLast? with
  | none => some parts
  | some last =>
    if last.contains '.' then
      match parseOctets last with
      | some [a, b, c, d] => some (parts.dropLast ++
          [Nat.toDigits 16 (a * 256 + b), Nat.toDigits 16 (c * 256 + d)])
      | _ => none
    else some parts

/-- The places of `::`, the ends aside. -/
def skips (parts : List (List Char)) : List Nat :=
  (List.range' 1 (parts.length - 2)).filter fun i => parts[i]? = some []

/-- The hextets of the parts. -/
def hextetsOf (parts : List (List Char)) : Option (List Nat) :=
  let startsEmpty : Bool := parts.head? = some []
  let endsEmpty : Bool := parts.getLast? = some []
  match skips parts with
  | [] =>
    if parts.length ≠ 8 || startsEmpty || endsEmpty then none else parts.mapM parseHextet
  | [skip] =>
    let hi := if startsEmpty then skip - 1 else skip
    let rest := parts.length - skip - 1
    let lo := if endsEmpty then rest - 1 else rest
    if (startsEmpty && hi ≠ 0) || (endsEmpty && lo ≠ 0) || 8 < hi + lo + 1 then none
    else do
      let high ← (parts.take hi).mapM parseHextet
      let low ← (parts.drop (parts.length - lo)).mapM parseHextet
      return high ++ (List.replicate (8 - (hi + lo)) 0 ++ low)
  | _ => none

/-- `IPv6Address._ip_int_from_string`, as eight hextets. -/
def parseHextets (text : List Char) : Option (List Nat) :=
  let parts := text.splitOn ':'
  if text.isEmpty || parts.length < 3 then none
  else (expandSuffix parts).bind fun parts => if 9 < parts.length then none else hextetsOf parts

/-- `IPv6Address(text)`. -/
def parseIpv6 (text : List Char) : Option Ipv6Address :=
  (splitScopeId text).bind fun (address, scopeId) => (parseHextets address).bind fun hextets =>
    if h : (hextets.length = 8 ∧ ∀ n ∈ hextets, n < 65536) ∧ (∀ scope ∈ scopeId, scope ≠ []) ∧
        ∀ scope ∈ scopeId, '%' ∉ scope ∧ '/' ∉ scope then
      some ⟨hextets, scopeId, h.1.1, h.1.2, h.2.1, h.2.2⟩
    else none

/-! ### Writing -/

/-- The longest run of zeros so far, and the one that goes on. -/
structure Zeros where
  bestStart : Nat
  bestLen : Nat
  start : Option Nat
  len : Nat

def Zeros.none : Zeros := ⟨0, 0, .none, 0⟩

/-- The loop body of `_compress_hextets`. -/
def Zeros.next (z : Zeros) (entry : List Char × Nat) : Zeros :=
  if entry.1 = ['0'] then
    let start := z.start.getD entry.2
    let len := z.len + 1
    if z.bestLen < len then ⟨start, len, some start, len⟩
    else { z with start := some start, len := len }
  else { z with start := .none, len := 0 }

/-- `_compress_hextets`. -/
def compressHextets (hextets : List (List Char)) : List (List Char) :=
  let z := hextets.zipIdx.foldl Zeros.next Zeros.none
  if 1 < z.bestLen then
    let stop := z.bestStart + z.bestLen
    let padded := if stop = hextets.length then hextets ++ [[]] else hextets
    let cut := padded.take z.bestStart ++ [] :: padded.drop stop
    if z.bestStart = 0 then [] :: cut else cut
  else hextets

/-- The hextets of an address, in lower case and with `::` for a run of zeros. -/
def hextetText (hextets : List Nat) : List Char :=
  [':'].intercalate (compressHextets (hextets.map (Nat.toDigits 16)))

def withScope (text : List Char) : Option (List Char) → List Char
  | some scope => text ++ '%' :: scope
  | none => text

def Ipv6Address.str (a : Ipv6Address) : List Char := withScope (hextetText a.hextets) a.scopeId

/-! ## Addresses -/

inductive IpAddress where
  | v4 (a : Ipv4Address)
  | v6 (a : Ipv6Address)
  deriving DecidableEq

/-- `ipaddress.ip_address(text)`. -/
def ipAddress (text : List Char) : Option IpAddress :=
  if text.contains '/' then none
  else match parseIpv4 text with
    | some a => some (.v4 a)
    | none => (parseIpv6 text).map .v6

def IpAddress.str : IpAddress → List Char
  | .v4 a => a.str
  | .v6 a => a.str

/-- The address is one of version 6 with a scope. -/
def IpAddress.scoped : IpAddress → Bool
  | .v4 _ => false
  | .v6 a => a.scopeId.isSome

/-! ## Reading what was written -/

section Reading

variable {text : List Char} {parts : List (List Char)} {n : Nat}

theorem mapM_map_some {α β : Type} {f : α → β} {g : β → Option α} {xs : List α}
    (h : ∀ x ∈ xs, g (f x) = some x) : (xs.map f).mapM g = some xs := by
  induction xs with
  | nil => rfl
  | cons x xs ih =>
      rw [List.map_cons, List.mapM_cons, h x (by simp),
        ih fun y hy => h y (List.mem_cons_of_mem _ hy)]
      rfl

/-- A hexadecimal digit as `%x` writes it. -/
def isLowerHex (c : Char) : Bool := c.isDigit || ('a' ≤ c && c ≤ 'f')

theorem isLowerHex_of_mem {c : Char} (h : c ∈ Nat.toDigits 16 n) : isLowerHex c = true := by
  obtain ⟨d, hd, rfl⟩ := mem_toDigits_hex h
  clear h
  revert d
  decide

theorem isHexDigit_of_mem {c : Char} (h : c ∈ Nat.toDigits 16 n) : isHexDigit c = true := by
  have hlower := isLowerHex_of_mem h
  unfold isLowerHex at hlower
  unfold isHexDigit
  rw [hlower, Bool.true_or]

theorem parseHextet_toDigits (h : n < 65536) : parseHextet (Nat.toDigits 16 n) = some n := by
  have hall : (Nat.toDigits 16 n).all isHexDigit = true :=
    List.all_eq_true.mpr fun c hc => isHexDigit_of_mem hc
  have hlength : (Nat.toDigits 16 n).length ≤ 4 :=
    (Nat.length_toDigits_le_iff (by decide) (by decide)).mpr h
  unfold parseHextet
  simp [hall, Nat.not_lt.mpr hlength]

theorem parseOctet_toDigits (h : n < 256) : parseOctet (Nat.toDigits 10 n) = some n := by
  revert n
  decide +kernel

theorem parseOctets_str (a : Ipv4Address) : parseOctets a.str = some a.octets := by
  have hsplit : a.str.splitOn '.' = a.octets.map (Nat.toDigits 10) := by
    apply List.splitOn_intercalate
    · intro part hpart
      obtain ⟨n, -, rfl⟩ := List.mem_map.mp hpart
      intro hdot
      exact absurd (Nat.isDigit_of_mem_toDigits (by decide) (by decide) hdot) (by decide)
    · intro hnil
      have hlength := a.length_eq
      rw [List.map_eq_nil_iff.mp hnil] at hlength
      cases hlength
  unfold parseOctets
  rw [hsplit]
  dsimp only
  rw [List.length_map, a.length_eq, if_neg (by decide)]
  exact mapM_map_some fun n hn => parseOctet_toDigits (a.lt n hn)

theorem parseIpv4_str (a : Ipv4Address) : parseIpv4 a.str = some a := by
  unfold parseIpv4
  rw [parseOctets_str, Option.bind_some, dif_pos ⟨a.length_eq, a.lt⟩]

/-- The octets that were read were digits. -/
theorem all_digits_of_mapM {parts : List (List Char)} {octets : List Nat}
    (h : parts.mapM parseOctet = some octets) :
    ∀ part ∈ parts, ∀ c ∈ part, c.isDigit = true := by
  induction parts generalizing octets with
  | nil => simp
  | cons part parts ih =>
      rw [List.mapM_cons] at h
      obtain ⟨n, hn, hrest⟩ := Option.bind_eq_some_iff.mp h
      obtain ⟨ns, hns, -⟩ := Option.bind_eq_some_iff.mp hrest
      have hpart : ∀ c ∈ part, c.isDigit = true := by
        unfold parseOctet at hn
        split at hn
        · cases hn
        · next hguard =>
          simp only [Bool.or_eq_true, Bool.not_eq_true', not_or] at hguard
          simpa using hguard.2
      intro x hx
      rcases List.mem_cons.mp hx with rfl | hx
      · exact hpart
      · exact ih hns x hx

theorem mem_intercalate {x c : Char} (h : c ∈ [x].intercalate parts) :
    c = x ∨ ∃ part ∈ parts, c ∈ part := by
  induction parts with
  | nil => simp at h
  | cons part parts ih =>
      cases parts with
      | nil =>
          rw [List.intercalate_singleton] at h
          exact .inr ⟨part, List.mem_singleton_self _, h⟩
      | cons other parts =>
          rw [List.intercalate_cons_cons, List.append_assoc, List.mem_append, List.mem_append,
            List.mem_singleton] at h
          rcases h with h | h | h
          · exact .inr ⟨part, by simp, h⟩
          · exact .inl h
          · rcases ih h with h | ⟨rest, hrest, hc⟩
            · exact .inl h
            · exact .inr ⟨rest, List.mem_cons_of_mem _ hrest, hc⟩

/-- A version 4 address is of digits and dots. -/
theorem mem_of_parseOctets {octets : List Nat} (h : parseOctets text = some octets) {c : Char}
    (hc : c ∈ text) : c.isDigit = true ∨ c = '.' := by
  unfold parseOctets at h
  dsimp only at h
  split at h
  · cases h
  · have hjoined : ['.'].intercalate (text.splitOn '.') = text := List.intercalate_splitOn '.'
    rw [← hjoined] at hc
    rcases mem_intercalate hc with hdot | ⟨part, hpart, hc⟩
    · exact .inr hdot
    · exact .inl (all_digits_of_mapM h part hpart c hc)

/-! ### Runs of zeros -/

/-- The best run and the last one are runs of zeros. -/
structure Zeros.Of (z : Zeros) (hextets : List (List Char)) : Prop where
  best : ∃ front back, hextets = front ++ (List.replicate z.bestLen ['0'] ++ back) ∧
    front.length = z.bestStart
  last : ∃ front, hextets = front ++ List.replicate z.len ['0'] ∧
    z.start = if z.len = 0 then .none else some front.length

theorem Zeros.Of.next {z : Zeros} {hextets : List (List Char)} (h : z.Of hextets)
    (hextet : List Char) : (z.next (hextet, hextets.length)).Of (hextets ++ [hextet]) := by
  obtain ⟨front, back, hbest, hstart⟩ := h.best
  obtain ⟨before, hlast, hopen⟩ := h.last
  have hkept : hextets ++ [hextet] =
      front ++ (List.replicate z.bestLen ['0'] ++ (back ++ [hextet])) := by
    rw [hbest]
    simp
  unfold Zeros.next
  dsimp only
  split
  · next hzero =>
    subst hzero
    have hbegin : z.start.getD hextets.length = before.length := by
      rw [hopen]
      split
      · next hlen => rw [hlast, hlen, Option.getD_none]; simp
      · rfl
    have hrun : hextets ++ [['0']] = before ++ List.replicate (z.len + 1) ['0'] := by
      rw [List.replicate_succ', ← List.append_assoc, ← hlast]
    rw [hbegin]
    split
    · exact ⟨⟨before, [], by rw [List.append_nil, hrun], rfl⟩, before, hrun, rfl⟩
    · exact ⟨⟨front, _, hkept, hstart⟩, before, hrun, rfl⟩
  · exact ⟨⟨front, _, hkept, hstart⟩, hextets ++ [hextet], by simp, rfl⟩

/-- **The run that is cut out** is one of zeros. -/
theorem Zeros.of_fold (hextets : List (List Char)) :
    (hextets.zipIdx.foldl Zeros.next Zeros.none).Of hextets := by
  induction hextets using List.reverseRecOn with
  | nil => exact ⟨⟨[], [], rfl, rfl⟩, [], rfl, rfl⟩
  | append_singleton hextets hextet ih =>
      rw [List.zipIdx_append, List.foldl_append]
      simpa using ih.next hextet

/-! ### Hextets -/

/-- A list without repetitions of which one element passes. -/
theorem filter_eq_singleton {α : Type} {p : α → Bool} {xs : List α} {x : α} (hnodup : xs.Nodup)
    (hx : x ∈ xs) (hp : p x = true) (honly : ∀ y ∈ xs, p y = true → y = x) :
    xs.filter p = [x] := by
  apply List.perm_singleton.mp
  rw [List.perm_ext_iff_of_nodup (hnodup.filter _) (List.nodup_singleton x)]
  intro y
  rw [List.mem_filter, List.mem_singleton]
  constructor
  · rintro ⟨hy, hpass⟩
    exact honly y hy hpass
  · rintro rfl
    exact ⟨hx, hp⟩

/-- The parts of an address with `::` between `high` and `low`. -/
def skipped (high low : List (List Char)) : List (List Char) :=
  (if high = [] then [[]] else high) ++ [] :: (if low = [] then [[]] else low)

variable {high low : List (List Char)}

theorem getElem?_ne_nil (h : ∀ part ∈ parts, part ≠ []) (i : Nat) : parts[i]? ≠ some [] := by
  intro hi
  exact h [] (List.mem_of_getElem? hi) rfl

/-- An end of the parts: a single empty part, or some that are not empty. -/
theorem skipped_end (h : ∀ part ∈ parts, part ≠ []) :
    0 < (if parts = [] then [[]] else parts).length ∧
      (∀ i, 0 < i → (if parts = [] then [[]] else parts)[i]? ≠ some []) ∧
      ∀ i, i + 1 < (if parts = [] then [[]] else parts).length →
        (if parts = [] then [[]] else parts)[i]? ≠ some [] := by
  split
  · refine ⟨by simp, ?_, ?_⟩
    · intro i hi
      cases i with
      | zero => exact absurd hi (by decide)
      | succ i => simp
    · intro i hi
      simp at hi
  · next hne => exact ⟨List.length_pos_of_ne_nil hne, fun i _ => getElem?_ne_nil h i,
      fun i _ => getElem?_ne_nil h i⟩

/-- Only one of the inner parts is empty. -/
theorem skips_skipped (hhigh : ∀ part ∈ high, part ≠ []) (hlow : ∀ part ∈ low, part ≠ []) :
    skips (skipped high low) = [if high = [] then 1 else high.length] := by
  obtain ⟨hfront, hinner, -⟩ := skipped_end hhigh
  obtain ⟨hback, -, houter⟩ := skipped_end hlow
  have hplace : (if high = [] then 1 else high.length) =
      (if high = [] then [[]] else high).length := by
    split <;> rfl
  rw [hplace]
  unfold skipped skips
  generalize (if high = [] then [[]] else high) = front at *
  generalize (if low = [] then [[]] else low) = back at *
  apply filter_eq_singleton List.nodup_range'
  · rw [List.mem_range'_1, List.length_append, List.length_cons]
    omega
  · simp
  · intro i hi hempty
    rw [List.mem_range'_1, List.length_append, List.length_cons] at hi
    replace hempty := of_decide_eq_true hempty
    rcases Nat.lt_trichotomy i front.length with hlt | heq | hgt
    · rw [List.getElem?_append_left hlt] at hempty
      exact absurd hempty (hinner i (by omega))
    · exact heq
    · obtain ⟨j, rfl⟩ : ∃ j, i = front.length + (j + 1) := ⟨i - front.length - 1, by omega⟩
      rw [List.getElem?_append_right (by omega), Nat.add_sub_cancel_left,
        List.getElem?_cons_succ] at hempty
      exact absurd hempty (houter j (by omega))

/-- What is read of parts with `::`. -/
theorem hextetsOf_skipped (hhigh : ∀ part ∈ high, part ≠ []) (hlow : ∀ part ∈ low, part ≠ [])
    (hlength : high.length + low.length < 8) {ns ms : List Nat}
    (hns : high.mapM parseHextet = some ns) (hms : low.mapM parseHextet = some ms) :
    hextetsOf (skipped high low) =
      some (ns ++ (List.replicate (8 - (high.length + low.length)) 0 ++ ms)) := by
  have hhead : ((skipped high low).head? = some []) ↔ high = [] := by
    unfold skipped
    cases high with
    | nil => simp
    | cons part high => simpa using hhigh part (by simp)
  have hlast : ((skipped high low).getLast? = some []) ↔ low = [] := by
    unfold skipped
    rw [List.getLast?_append_of_ne_nil _ (List.cons_ne_nil _ _)]
    by_cases hnil : low = []
    · simp [hnil]
    · have hne : low.getLast hnil ≠ [] := hlow _ (List.getLast_mem hnil)
      rw [if_neg hnil, List.getLast?_cons, List.getLast?_eq_getLast_of_ne_nil hnil]
      simpa [hnil] using hne
  -- an empty first or last part belongs to the `::` and is counted out
  have hhi : (if high = [] then (if high = [] then 1 else high.length) - 1
      else (if high = [] then 1 else high.length)) = high.length := by
    split <;> simp_all
  have hrest : (skipped high low).length - (if high = [] then 1 else high.length) - 1 =
      if low = [] then 1 else low.length := by
    unfold skipped
    split <;> split <;> simp
  have hlo : (if low = [] then (if low = [] then 1 else low.length) - 1
      else (if low = [] then 1 else low.length)) = low.length := by
    split <;> simp_all
  have htake : (skipped high low).take high.length = high := by
    unfold skipped
    split
    · next h => simp [h]
    · rw [List.take_left]
  have hdrop : (skipped high low).drop ((skipped high low).length - low.length) = low := by
    by_cases hnil : low = []
    · rw [hnil, List.length_nil, Nat.sub_zero, List.drop_length]
    · have hparts : skipped high low =
          ((if high = [] then [[]] else high) ++ [[]]) ++ low := by
        unfold skipped
        rw [if_neg hnil]
        simp
      rw [hparts, List.length_append, Nat.add_sub_cancel, List.drop_left]
  unfold hextetsOf
  rw [skips_skipped hhigh hlow]
  simp only [hhead, hlast, decide_eq_true_eq, hrest, hhi, hlo]
  have hguard : ((decide (high = []) && decide (high.length ≠ 0)) ||
      (decide (low = []) && decide (low.length ≠ 0)) ||
      decide (8 < high.length + low.length + 1)) = false := by
    have hle : ¬ 8 < high.length + low.length + 1 := by omega
    cases high <;> cases low <;> simp_all
  rw [hguard, htake, hdrop, hns, hms]
  rfl

/-- Eight parts without `::`. -/
theorem hextetsOf_full (hparts : ∀ part ∈ parts, part ≠ []) (hlength : parts.length = 8) :
    hextetsOf parts = parts.mapM parseHextet := by
  have hskips : skips parts = [] := by
    rw [skips, List.filter_eq_nil_iff]
    intro i _ hempty
    exact getElem?_ne_nil hparts i (of_decide_eq_true hempty)
  have hhead : parts.head? ≠ some [] := by
    rw [List.head?_eq_getElem?]
    exact getElem?_ne_nil hparts 0
  have hlast : parts.getLast? ≠ some [] := by
    rw [List.getLast?_eq_getElem?]
    exact getElem?_ne_nil hparts _
  unfold hextetsOf
  rw [hskips]
  simp [hlength, hhead, hlast]

theorem mem_skipped {part : List Char} (h : part ∈ skipped high low) :
    part = [] ∨ part ∈ high ∨ part ∈ low := by
  unfold skipped at h
  rcases List.mem_append.mp h with h | h
  · split at h
    · exact .inl (List.mem_singleton.mp h)
    · exact .inr (.inl h)
  · rcases List.mem_cons.mp h with h | h
    · exact .inl h
    · split at h
      · exact .inl (List.mem_singleton.mp h)
      · exact .inr (.inr h)

theorem length_skipped : (skipped high low).length =
    (if high = [] then 1 else high.length) + ((if low = [] then 1 else low.length) + 1) := by
  unfold skipped
  rw [List.length_append, List.length_cons]
  split <;> split <;> rfl

/-- Nothing is cut out, or a run of zeros is. -/
theorem compressHextets_cases (hextets : List (List Char)) :
    compressHextets hextets = hextets ∨ ∃ high low k, 2 ≤ k ∧
      hextets = high ++ (List.replicate k ['0'] ++ low) ∧
      compressHextets hextets = skipped high low := by
  obtain ⟨front, back, hbest, hstart⟩ := (Zeros.of_fold hextets).best
  unfold compressHextets
  dsimp only
  generalize hextets.zipIdx.foldl Zeros.next Zeros.none = z at *
  split
  · next hlong =>
    refine .inr ⟨front, back, z.bestLen, hlong, hbest, ?_⟩
    have hstop : z.bestStart + z.bestLen = hextets.length ↔ back = [] := by
      rw [hbest, ← List.length_eq_zero_iff]
      simp only [List.length_append, List.length_replicate]
      omega
    have hnil : z.bestStart = 0 ↔ front = [] := by
      rw [← hstart, List.length_eq_zero_iff]
    have hpadded : (if z.bestStart + z.bestLen = hextets.length then hextets ++ [[]]
        else hextets) = (front ++ List.replicate z.bestLen ['0']) ++
          (if back = [] then [[]] else back) := by
      by_cases hback : back = []
      · rw [if_pos (hstop.mpr hback), if_pos hback, hbest, hback]
        simp
      · rw [if_neg (mt hstop.mp hback), if_neg hback, hbest]
        simp
    have hdrop : ((front ++ List.replicate z.bestLen ['0']) ++
        (if back = [] then [[]] else back)).drop (z.bestStart + z.bestLen) =
          if back = [] then [[]] else back :=
      List.drop_left' (by simp [hstart])
    have htake : ((front ++ List.replicate z.bestLen ['0']) ++
        (if back = [] then [[]] else back)).take z.bestStart = front := by
      rw [List.append_assoc]
      exact List.take_left' hstart
    rw [hpadded, hdrop, htake]
    unfold skipped
    by_cases hfront : front = []
    · rw [if_pos (hnil.mpr hfront), if_pos hfront, hfront]
      rfl
    · rw [if_neg (mt hnil.mp hfront), if_neg hfront]
  · exact .inl rfl

/-- The parts of a written address: not empty at places, of hexadecimal digits, and their last is
no version 4 address. -/
theorem parseHextets_intercalate (hparts : ∀ part ∈ parts, ∀ c ∈ part, isHexDigit c = true)
    (hlong : 3 ≤ parts.length) (hshort : parts.length ≤ 9) :
    parseHextets ([':'].intercalate parts) = hextetsOf parts := by
  have hplain : ∀ {c : Char}, isHexDigit c = false → ∀ part ∈ parts, c ∉ part := by
    intro c hc part hpart hmem
    rw [hparts part hpart c hmem] at hc
    cases hc
  have hsplit : ([':'].intercalate parts).splitOn ':' = parts := by
    apply List.splitOn_intercalate _ (hplain (by decide))
    rintro rfl
    exact absurd hlong (by decide)
  have hne : ([':'].intercalate parts).isEmpty = false := by
    rw [List.isEmpty_eq_false_iff]
    intro hnil
    rw [hnil] at hsplit
    rw [← hsplit] at hlong
    exact absurd hlong (by decide)
  have hsuffix : expandSuffix parts = some parts := by
    unfold expandSuffix
    split
    · rfl
    · next last hlast =>
      have hdot : '.' ∉ last := hplain (by decide) last (List.mem_of_getLast? hlast)
      rw [if_neg (by simpa using hdot)]
  unfold parseHextets
  dsimp only
  rw [hsplit, hne, hsuffix]
  simp only [Bool.false_or, decide_eq_true_eq, Option.bind_some]
  rw [if_neg (by omega), if_neg (by omega)]

/-- A hextet that is written as a single zero is zero. -/
theorem eq_replicate_of_map {ns : List Nat} {k : Nat}
    (h : ns.map (Nat.toDigits 16) = List.replicate k ['0']) : ns = List.replicate k 0 := by
  have hlength := congrArg List.length h
  rw [List.length_map, List.length_replicate] at hlength
  rw [List.eq_replicate_iff]
  refine ⟨hlength, ?_⟩
  intro n hn
  have hmem : Nat.toDigits 16 n ∈ List.replicate k ['0'] := h ▸ List.mem_map_of_mem hn
  rw [← ofHex_toDigits n, List.eq_of_mem_replicate hmem]
  rfl

theorem parseHextets_str {ns : List Nat} (hlength : ns.length = 8) (hlt : ∀ n ∈ ns, n < 65536) :
    parseHextets (hextetText ns) = some ns := by
  unfold hextetText
  have hread : ∀ {ms : List Nat}, ms ⊆ ns →
      (ms.map (Nat.toDigits 16)).mapM parseHextet = some ms := by
    intro ms hms
    exact mapM_map_some fun n hn => parseHextet_toDigits (hlt n (hms hn))
  have hne : ∀ {ms : List Nat}, ∀ part ∈ ms.map (Nat.toDigits 16), part ≠ [] := by
    intro ms part hpart
    obtain ⟨n, -, rfl⟩ := List.mem_map.mp hpart
    exact Nat.toDigits_ne_nil
  have hhex : ∀ {ms : List Nat}, ∀ part ∈ ms.map (Nat.toDigits 16), ∀ c ∈ part,
      isHexDigit c = true := by
    intro ms part hpart c hc
    obtain ⟨n, -, rfl⟩ := List.mem_map.mp hpart
    exact isHexDigit_of_mem hc
  rcases compressHextets_cases (ns.map (Nat.toDigits 16)) with hsame |
    ⟨high, low, k, hk, hcut, hsame⟩
  · rw [hsame, parseHextets_intercalate hhex (by simp [hlength]) (by simp [hlength]),
      hextetsOf_full hne (by rw [List.length_map, hlength])]
    exact hread (List.Subset.refl ns)
  · rw [hsame]
    -- the hextets before the run, those in it and those behind it
    obtain ⟨front, rest, rfl, hfront, hrest⟩ := List.map_eq_append_iff.mp hcut
    obtain ⟨run, back, rfl, hrun, hback⟩ := List.map_eq_append_iff.mp hrest
    obtain rfl := eq_replicate_of_map hrun
    subst hfront hback
    simp only [List.length_append, List.length_replicate] at hlength
    have hlong :
        3 ≤ (skipped (front.map (Nat.toDigits 16)) (back.map (Nat.toDigits 16))).length := by
      have hend : ∀ ps : List (List Char), 1 ≤ if ps = [] then 1 else ps.length := by
        intro ps
        split
        · exact le_rfl
        · next hps => exact List.length_pos_of_ne_nil hps
      have hhigh := hend (front.map (Nat.toDigits 16))
      have hlow := hend (back.map (Nat.toDigits 16))
      rw [length_skipped]
      omega
    have hshort :
        (skipped (front.map (Nat.toDigits 16)) (back.map (Nat.toDigits 16))).length ≤ 9 := by
      rw [length_skipped]
      simp only [List.map_eq_nil_iff, List.length_map]
      split <;> split <;> omega
    have hdigits : ∀ part ∈ skipped (front.map (Nat.toDigits 16)) (back.map (Nat.toDigits 16)),
        ∀ c ∈ part, isHexDigit c = true := by
      intro part hpart c hc
      rcases mem_skipped hpart with rfl | hpart | hpart
      · cases hc
      · exact hhex part hpart c hc
      · exact hhex part hpart c hc
    rw [parseHextets_intercalate hdigits hlong hshort, hextetsOf_skipped hne hne
      (by simp only [List.length_map]; omega) (hread (List.subset_append_left _ _))
      (hread fun n hn => by simp [hn])]
    have hrun : 8 - (front.length + back.length) = k := by omega
    rw [List.length_map, List.length_map, hrun]

theorem decide_ne {c : Char} (h : c ∉ text) : ∀ x ∈ text, decide (x ≠ c) = true := by
  intro x hx
  rw [decide_eq_true_eq]
  rintro rfl
  exact h hx

theorem splitScopeId_withScope {scopeId : Option (List Char)} (htext : '%' ∉ text)
    (hne : ∀ scope ∈ scopeId, scope ≠ []) (hplain : ∀ scope ∈ scopeId, '%' ∉ scope) :
    splitScopeId (withScope text scopeId) = some (text, scopeId) := by
  have hall := decide_ne htext
  unfold splitScopeId withScope
  cases scopeId with
  | none =>
      dsimp only
      rw [List.dropWhile_eq_nil_iff.mpr hall]
  | some scope =>
      have hscope : (scope.isEmpty || scope.contains '%') = false := by
        simpa using ⟨hne scope rfl, hplain scope rfl⟩
      dsimp only
      rw [List.dropWhile_append_of_pos hall, List.takeWhile_append_of_pos hall,
        List.dropWhile_cons_of_neg (by decide), List.takeWhile_cons_of_neg (by decide)]
      dsimp only
      rw [hscope, List.append_nil]
      rfl

/-- The characters of the hextets. -/
theorem mem_hextets {ns : List Nat} {c : Char}
    (h : c ∈ hextetText ns) : isLowerHex c = true ∨ c = ':' := by
  rcases mem_intercalate h with rfl | ⟨part, hpart, hc⟩
  · exact .inr rfl
  · have hsource : part = [] ∨ part ∈ ns.map (Nat.toDigits 16) := by
      rcases compressHextets_cases (ns.map (Nat.toDigits 16)) with hsame |
        ⟨high, low, k, -, hcut, hsame⟩
      · exact .inr (hsame ▸ hpart)
      · rw [hsame] at hpart
        rw [hcut]
        rcases mem_skipped hpart with hpart | hpart | hpart
        · exact .inl hpart
        · exact .inr (List.mem_append_left _ hpart)
        · exact .inr (List.mem_append_right _ (List.mem_append_right _ hpart))
    rcases hsource with rfl | hsource
    · cases hc
    · obtain ⟨n, -, rfl⟩ := List.mem_map.mp hsource
      exact .inl (isLowerHex_of_mem hc)

theorem parseIpv6_str (a : Ipv6Address) : parseIpv6 a.str = some a := by
  have hpercent : '%' ∉ hextetText a.hextets := by
    intro hmem
    rcases mem_hextets hmem with h | h
    · exact absurd h (by decide)
    · exact absurd h (by decide)
  unfold parseIpv6 Ipv6Address.str
  rw [splitScopeId_withScope hpercent a.scope_ne fun scope hscope => (a.scope_plain scope hscope).1,
    Option.bind_some]
  dsimp only
  rw [parseHextets_str a.length_eq a.lt, Option.bind_some, dif_pos]
  exact ⟨⟨a.length_eq, a.lt⟩, a.scope_ne, a.scope_plain⟩

/-! ### Round trip -/

theorem mem_withScope {scopeId : Option (List Char)} {c : Char} (h : c ∈ withScope text scopeId) :
    c ∈ text ∨ c = '%' ∨ ∃ scope ∈ scopeId, c ∈ scope := by
  cases scopeId with
  | none => exact .inl h
  | some scope =>
      rcases List.mem_append.mp h with h | h
      · exact .inl h
      · rcases List.mem_cons.mp h with h | h
        · exact .inr (.inl h)
        · exact .inr (.inr ⟨scope, rfl, h⟩)

/-- A written address of version 6 has a colon. -/
theorem colon_mem_str (a : Ipv6Address) : ':' ∈ a.str := by
  have htext : ':' ∈ hextetText a.hextets := by
    have hread := parseHextets_str a.length_eq a.lt
    unfold parseHextets at hread
    dsimp only at hread
    split at hread
    · cases hread
    · next hguard =>
      by_contra hnone
      have hsplit : ([':'].intercalate [hextetText a.hextets]).splitOn ':' =
          [hextetText a.hextets] :=
        List.splitOn_intercalate ':' (by simpa using hnone) (List.cons_ne_nil _ _)
      rw [List.intercalate_singleton] at hsplit
      rw [hsplit] at hguard
      simp at hguard
  unfold Ipv6Address.str withScope
  split
  · exact List.mem_append_left _ htext
  · exact htext

theorem digit_or_dot {a : Ipv4Address} {c : Char} (h : c ∈ a.str) : c.isDigit = true ∨ c = '.' :=
  mem_of_parseOctets (parseOctets_str a) h

theorem slash_not_mem_str (a : IpAddress) : '/' ∉ a.str := by
  intro hmem
  cases a with
  | v4 a => rcases digit_or_dot hmem with h | h <;> exact absurd h (by decide)
  | v6 a =>
      rcases mem_withScope hmem with h | h | ⟨scope, hscope, h⟩
      · rcases mem_hextets h with h | h <;> exact absurd h (by decide)
      · exact absurd h (by decide)
      · exact (a.scope_plain scope hscope).2 h

/-- **Round trip.** -/
theorem ipAddress_str (a : IpAddress) : ipAddress a.str = some a := by
  have hslash : a.str.contains '/' = false := by simpa using slash_not_mem_str a
  unfold ipAddress
  rw [hslash]
  cases a with
  | v4 a =>
      dsimp only [IpAddress.str]
      rw [parseIpv4_str]
      rfl
  | v6 a =>
      have hnone : parseIpv4 a.str = none := by
        unfold parseIpv4
        cases hoctets : parseOctets a.str with
        | none => rfl
        | some octets =>
            rcases mem_of_parseOctets hoctets (colon_mem_str a) with h | h <;>
              exact absurd h (by decide)
      dsimp only [IpAddress.str]
      rw [hnone, parseIpv6_str]
      rfl

theorem str_injective : Function.Injective IpAddress.str := by
  intro a b h
  have hread := congrArg ipAddress h
  rw [ipAddress_str, ipAddress_str] at hread
  exact Option.some.inj hread

/-- The characters of an address without a scope. -/
theorem mem_str {a : IpAddress} (ha : a.scoped = false) {c : Char} (h : c ∈ a.str) :
    isLowerHex c = true ∨ c = ':' ∨ c = '.' := by
  cases a with
  | v4 a =>
      rcases digit_or_dot h with h | h
      · exact .inl (by simp [isLowerHex, h])
      · exact .inr (.inr h)
  | v6 a =>
      have hscope : a.scopeId = none := by simpa [IpAddress.scoped] using ha
      have htext : c ∈ hextetText a.hextets := by
        have hstr : a.str = hextetText a.hextets := by
          unfold Ipv6Address.str
          rw [hscope]
          rfl
        exact hstr ▸ h
      rcases mem_hextets htext with h | h
      · exact .inl h
      · exact .inr (.inl h)

/-- A scope stands behind a percent sign. -/
theorem percent_mem_of_scoped {a : IpAddress} (h : ipAddress text = some a)
    (ha : a.scoped = true) : '%' ∈ text := by
  by_contra hnone
  have hsplit : splitScopeId text = some (text, none) := by
    unfold splitScopeId
    rw [List.dropWhile_eq_nil_iff.mpr (decide_ne hnone)]
  unfold ipAddress at h
  split at h
  · cases h
  · split at h
    · obtain rfl := Option.some.inj h
      cases ha
    · obtain ⟨b, hb, rfl⟩ := Option.map_eq_some_iff.mp h
      unfold parseIpv6 at hb
      rw [hsplit, Option.bind_some] at hb
      obtain ⟨hextets, -, hb⟩ := Option.bind_eq_some_iff.mp hb
      split at hb
      · obtain rfl := Option.some.inj hb
        cases ha
      · cases hb

end Reading

end Scap.Py
