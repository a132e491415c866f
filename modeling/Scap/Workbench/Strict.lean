import Scap.Js.Grammar
import Scap.Workbench.Scan

/-!
# The scan finds every duplicate key

The scan knows strings and brackets only and runs over the raw text. Along a derivation of the text
it keeps in step with the grammar (`scans_of_reads`, by induction on the derivation): behind a value
it is where it was before, and it has stopped if an object of the value has two members with one
key. So `parse` accepts the JSON texts without such an object, and no others (`strict_json`).
-/

namespace Scap.Workbench

open Scap.Js

variable {ν : Type} {N : Numbers ν} {s t r : Str} {u : CodeUnit} {p : Phrase ν} {w : Value ν}
  {containers : List (Option (List Str))}

/-! ## White space -/

theorem isSpace_of_isJsonSpace (h : isJsonSpace u = true) : isSpace u = true ∧ Passed u := by
  simp only [isJsonSpace, Bool.or_eq_true, decide_eq_true_eq] at h
  rcases h with ((rfl | rfl) | rfl) | rfl
  · decide
  · decide
  · decide
  · decide

theorem takeWhile_append_skipSpace (s : Str) : s.takeWhile isJsonSpace ++ skipSpace s = s :=
  List.takeWhile_append_dropWhile

theorem scan_skipSpace (s : Str) : scan N containers (skipSpace s) = scan N containers s := by
  have hpassed : ∀ u ∈ s.takeWhile isJsonSpace, Passed u := fun u hu =>
    (isSpace_of_isJsonSpace (List.mem_takeWhile_imp hu)).2
  rw [← scan_append hpassed (skipSpace s), takeWhile_append_skipSpace]

theorem dropWhile_isSpace (s : Str) : s.dropWhile isSpace = (skipSpace s).dropWhile isSpace := by
  conv_lhs => rw [← takeWhile_append_skipSpace s]
  exact List.dropWhile_append_of_pos fun u hu =>
    (isSpace_of_isJsonSpace (List.mem_takeWhile_imp hu)).1

/-- What may follow a value: the end of the text, or a unit that stands between values. -/
def After (r : Str) : Prop :=
  ∀ u ∈ (skipSpace r).head?, u = code ',' ∨ u = code ']' ∨ u = code '}'

theorem after_of_skipSpace (h : skipSpace r = u :: t)
    (hu : u = code ',' ∨ u = code ']' ∨ u = code '}') : After r := by
  intro x hx
  rw [h] at hx
  obtain rfl := Option.some.inj hx
  exact hu

theorem colonFollows_of_after (h : After r) : colonFollows r = false := by
  have hends : colonFollows (skipSpace r) = false := colonFollows_eq_false h
  rw [colonFollows, dropWhile_isSpace]
  exact hends

/-! ## Strings -/

theorem hexValue_ne {n : Nat} (h : hexValue u = some n) : u ≠ code '\\' ∧ u ≠ code '"' := by
  constructor
  · rintro rfl
    have hnone : hexValue (code '\\') = none := by decide
    rw [hnone] at h
    cases h
  · rintro rfl
    have hnone : hexValue (code '"') = none := by decide
    rw [hnone] at h
    cases h

/-- The scan finds the end of a string, and what it cut out is the string. -/
theorem skipLiteral_of_stringBody {x : Str} (h : stringBody s = some (x, r)) :
    ∃ literal, skipLiteral s = (literal, r) ∧ stringBody literal = some (x, []) := by
  induction hn : s.length using Nat.strongRecOn generalizing s x with
  | ind n ih =>
      subst hn
      cases s with
      | nil => cases h
      | cons c s =>
          rcases stringBody_eq_some h with
            ⟨rfl, rfl, rfl⟩ | ⟨e, t, u, y, rfl, rfl, he, hu, hy, rfl⟩ |
            ⟨a, b, d, e, t, u, y, rfl, rfl, hu, hy, rfl⟩ | ⟨y, hc, hy, rfl⟩
          · exact ⟨[code '"'], skipLiteral_quote _, by rw [stringBody.eq_def]; rfl⟩
          · obtain ⟨literal, hskip, hbody⟩ := ih t.length (by simp only [List.length_cons]; omega)
              hy rfl
            refine ⟨code '\\' :: e :: literal, ?_, ?_⟩
            · rw [skipLiteral_escape, hskip]
            · rw [stringBody_escape he hu, hbody]
              rfl
          · obtain ⟨literal, hskip, hbody⟩ := ih t.length (by simp only [List.length_cons]; omega)
              hy rfl
            refine ⟨code '\\' :: code 'u' :: a :: b :: d :: e :: literal, ?_, ?_⟩
            · obtain ⟨_, ha, hu⟩ := Option.bind_eq_some_iff.mp hu
              obtain ⟨_, hb, hu⟩ := Option.bind_eq_some_iff.mp hu
              obtain ⟨_, hd, hu⟩ := Option.bind_eq_some_iff.mp hu
              obtain ⟨_, he, -⟩ := Option.bind_eq_some_iff.mp hu
              rw [skipLiteral_escape, skipLiteral_plain _ (hexValue_ne ha).1 (hexValue_ne ha).2,
                skipLiteral_plain _ (hexValue_ne hb).1 (hexValue_ne hb).2,
                skipLiteral_plain _ (hexValue_ne hd).1 (hexValue_ne hd).2,
                skipLiteral_plain _ (hexValue_ne he).1 (hexValue_ne he).2, hskip]
            · rw [stringBody_hex, hu, hbody]
              rfl
          · obtain ⟨literal, hskip, hbody⟩ := ih s.length (Nat.lt_succ_self _) hy rfl
            refine ⟨c :: literal, ?_, ?_⟩
            · rw [skipLiteral_raw hc, hskip]
            · rw [stringBody_raw hc, hbody]
              rfl

theorem jsonParse_literal {x literal : Str} (h : stringBody literal = some (x, [])) :
    jsonParse N (code '"' :: literal) = some (.str x) := by
  rw [jsonParse_eq_some_iff]
  refine ⟨.str x, ⟨[], .str (skipSpace_cons (by decide)) h, rfl⟩, ?_⟩
  rw [Value.read]

theorem scan_string {x : Str} (h : stringBody t = some (x, r)) (hr : colonFollows r = false) :
    scan N containers (code '"' :: t) = scan N containers r := by
  obtain ⟨literal, hskip, -⟩ := skipLiteral_of_stringBody h
  rw [scan.eq_def]
  simp only
  rw [if_neg (by decide), if_neg (by decide), if_neg (by decide), if_pos trivial, hskip,
    if_neg (Bool.eq_false_iff.mp hr)]

/-- A key enters the set of its object. -/
theorem scan_memberKey {key k : Str} {keys : List Str} (h : memberKey s = some (key, k)) :
    scan N (some keys :: containers) s =
      if key ∈ keys then false else scan N (some (key :: keys) :: containers) k := by
  obtain ⟨t, q, hs, hbody, hq⟩ := memberKey_eq_some h
  obtain ⟨literal, hskip, hliteral⟩ := skipLiteral_of_stringBody hbody
  have hcolon : colonFollows q = true := by
    rw [colonFollows, dropWhile_isSpace, hq]
    rfl
  rw [← scan_skipSpace, hs, scan.eq_def]
  simp only
  rw [if_neg (by decide), if_neg (by decide), if_neg (by decide), if_pos trivial, hskip,
    if_pos hcolon, jsonParse_literal hliteral]
  show (if key ∈ keys then false else scan N (some (key :: keys) :: containers) q) = _
  rw [← scan_skipSpace q, hq, scan_passed (by decide)]

/-! ## Scalars -/

theorem passed_of_scalarUnit (h : ScalarUnit u) : Passed u := by
  rcases h with hdigit | hname
  · exact passed_of_isDigit hdigit
  · revert u
    decide

theorem scan_scalar (h : Scalar s r) : scan N containers s = scan N containers r := by
  obtain ⟨u, us, rfl, hunits⟩ := h
  exact scan_append (fun x hx => passed_of_scalarUnit (hunits x hx)) r

/-! ## Derivations -/

/-- What the scan does along a phrase. -/
def Scans (N : Numbers ν) (s r : Str) : Phrase ν → Prop
  | .value v => After r → ∀ containers,
      scan N containers s = true ↔ Distinct v ∧ scan N containers r = true
  | .items vs => ∀ containers, scan N (none :: containers) s = true ↔
      (∀ v ∈ vs, Distinct v) ∧ scan N containers r = true
  | .members ms => ∀ keys containers, scan N (some keys :: containers) s = true ↔
      (∀ m ∈ ms, m.1 ∉ keys) ∧ (ms.map Prod.fst).Nodup ∧ (∀ m ∈ ms, Distinct m.2) ∧
        scan N containers r = true

/-- **The scan keeps in step with the grammar.** -/
theorem scans_of_reads (h : Reads N p s r) : Scans N s r p := by
  induction h with
  | str hs hx =>
      intro hafter containers
      rw [← scan_skipSpace, hs, scan_string hx (colonFollows_of_after hafter)]
      exact (and_iff_right (Distinct.str _)).symm
  | scalar hs hc hv =>
      intro hafter containers
      rw [← scan_skipSpace, hs, scan_scalar (scalarValue_split hv)]
      exact (and_iff_right (distinct_scalarValue hv)).symm
  | emptyArr hs ht =>
      intro hafter containers
      rw [← scan_skipSpace, hs, scan_openBracket, ← scan_skipSpace, ht, scan_close (.inr rfl)]
      exact (and_iff_right (Distinct.arr [] (by simp))).symm
  | arr hs hvs ih =>
      intro hafter containers
      rw [← scan_skipSpace, hs, scan_openBracket, ih containers, distinct_arr]
  | emptyObj hs ht =>
      intro hafter containers
      rw [← scan_skipSpace, hs, scan_openBrace, ← scan_skipSpace, ht, scan_close (.inl rfl)]
      exact (and_iff_right (Distinct.obj [] (by simp) (by simp))).symm
  | obj hs hms ih =>
      intro hafter containers
      rw [← scan_skipSpace, hs, scan_openBrace, ih [] containers, distinct_obj]
      simp [and_assoc]
  | lastItem hv ht ih =>
      intro containers
      rw [ih (after_of_skipSpace ht (by simp)), ← scan_skipSpace, ht, scan_close (.inr rfl)]
      simp
  | item hv ht hvs ih ih' =>
      intro containers
      rw [ih (after_of_skipSpace ht (by simp)), ← scan_skipSpace, ht, scan_passed (by decide),
        ih' containers, List.forall_mem_cons, and_assoc]
  | @lastMember s k t r key v hkey hv ht ih =>
      intro keys containers
      rw [scan_memberKey hkey]
      by_cases hold : key ∈ keys
      · simp [hold]
      · rw [if_neg hold, ih (after_of_skipSpace ht (by simp)), ← scan_skipSpace, ht,
          scan_close (.inl rfl)]
        simp [hold]
  | @member s k t q r key v ms hkey hv ht hms ih ih' =>
      intro keys containers
      rw [scan_memberKey hkey]
      by_cases hold : key ∈ keys
      · simp [hold]
      · rw [if_neg hold, ih (after_of_skipSpace ht (by simp)), ← scan_skipSpace, ht,
          scan_passed (by decide), ih' (key :: keys) containers]
        -- a later member is new if it is none of the keys before and not this one
        have hnew : (∀ m ∈ ms, m.1 ∉ key :: keys) ↔
            (∀ m ∈ ms, m.1 ∉ keys) ∧ key ∉ ms.map Prod.fst := by
          simp only [List.mem_cons, not_or, List.mem_map, not_exists, not_and]
          exact ⟨fun h => ⟨fun m hm => (h m hm).2, fun m hm => (h m hm).1⟩,
            fun h m hm => ⟨h.2 m hm, h.1 m hm⟩⟩
        rw [hnew, List.forall_mem_cons, List.forall_mem_cons, List.map_cons, List.nodup_cons]
        tauto

/-! ## Strict JSON -/

/-- A JSON text in which no object has two members with one key. -/
def Unambiguous (N : Numbers ν) (s : Str) : Prop := ∃ w, Written N s w ∧ Distinct w

theorem scan_iff (h : Written N s w) : scan N [] s = true ↔ Distinct w := by
  obtain ⟨r, hreads, hr⟩ := h
  have hafter : After r := by
    intro u hu
    rw [hr] at hu
    cases hu
  rw [scans_of_reads hreads hafter [], ← scan_skipSpace, hr, scan.eq_def]
  simp

/-- **Strict JSON.** A text that is short enough is accepted just when it is JSON without an object
that has two members with one key; the result is that of `JSON.parse`. -/
theorem strict_json (N : Numbers ν) (s : Str) (limit : Nat) (hlimit : (encode s).length ≤ limit) :
    ((∃ v, parse N (.str s) limit = some v) ↔ Unambiguous N s) ∧
      ∀ v, parse N (.str s) limit = some v → jsonParse N s = some v := by
  have hunits := length_le_encode s
  have hparse : ∀ v, parse N (.str s) limit = some v ↔
      jsonParse N s = some v ∧ scan N [] s = true := by
    intro v
    simp only [parse]
    rw [if_neg (by omega), Option.bind_eq_some_iff]
    constructor
    · rintro ⟨v', hv, h⟩
      split_ifs at h with hscan
      obtain rfl := Option.some.inj h
      exact ⟨hv, hscan⟩
    · rintro ⟨hv, hscan⟩
      exact ⟨v, hv, if_pos hscan⟩
  refine ⟨⟨?_, ?_⟩, fun v hv => ((hparse v).mp hv).1⟩
  · rintro ⟨v, hv⟩
    obtain ⟨hjson, hscan⟩ := (hparse v).mp hv
    obtain ⟨w, hw, -⟩ := jsonParse_eq_some_iff.mp hjson
    exact ⟨w, hw, (scan_iff hw).mp hscan⟩
  · rintro ⟨w, hw, hdistinct⟩
    exact ⟨w.read, (hparse _).mpr
      ⟨jsonParse_eq_some_iff.mpr ⟨w, hw, rfl⟩, (scan_iff hw).mpr hdistinct⟩⟩

/-- One key in two spellings is one key. -/
theorem strict_json_sample :
    ¬ Unambiguous naturals (ofString "\x7b\"a\":1,\"\\u0061\":2\x7d") := by
  intro h
  obtain ⟨v, hv⟩ := (strict_json naturals _ 32 (by decide)).1.mpr h
  have hnone : (parse naturals (.str (ofString "\x7b\"a\":1,\"\\u0061\":2\x7d")) 32).isNone := by
    decide +kernel
  rw [hv] at hnone
  cases hnone

end Scap.Workbench
