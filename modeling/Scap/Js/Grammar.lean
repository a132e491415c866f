import Scap.Js.Reading

/-!
# The grammar of JSON texts

`Reads` derives what a text starts with: a value, the items of an array or the members of an object,
with the members as they are written. `Value.read` is what a program gets to see of it, where a
later member replaces an earlier one with its key.

* **Soundness** (`reads_of_parseValue`): what `JSON.parse` accepts has a derivation.
* **Completeness** (`parseValue_of_reads`): what has a derivation is accepted.

`jsonParse_eq_some_iff` puts the two together.
-/

namespace Scap.Js

variable {ν : Type}

/-- What is derived from a text. -/
inductive Phrase (ν : Type) where
  | value (v : Value ν)
  | items (vs : List (Value ν))
  | members (ms : List (Str × Value ν))

/-- `Reads N p s r`: the text `s` is one of `p` and then `r`. -/
inductive Reads (N : Numbers ν) : Phrase ν → Str → Str → Prop where
  | str {s t r x : Str} (hs : skipSpace s = code '"' :: t) (hx : stringBody t = some (x, r)) :
      Reads N (.value (.str x)) s r
  | scalar {s t r : Str} {c : CodeUnit} {v : Value ν} (hs : skipSpace s = c :: t)
      (hc : c ≠ code '"' ∧ c ≠ code '[' ∧ c ≠ code '{')
      (hv : scalarValue N (c :: t) = some (v, r)) : Reads N (.value v) s r
  | emptyArr {s t r : Str} (hs : skipSpace s = code '[' :: t)
      (ht : skipSpace t = code ']' :: r) : Reads N (.value (.arr [])) s r
  | arr {s t r : Str} {vs : List (Value ν)} (hs : skipSpace s = code '[' :: t)
      (hvs : Reads N (.items vs) t r) : Reads N (.value (.arr vs)) s r
  | emptyObj {s t r : Str} (hs : skipSpace s = code '{' :: t)
      (ht : skipSpace t = code '}' :: r) : Reads N (.value (.obj [])) s r
  | obj {s t r : Str} {ms : List (Str × Value ν)} (hs : skipSpace s = code '{' :: t)
      (hms : Reads N (.members ms) t r) : Reads N (.value (.obj ms)) s r
  | lastItem {s t r : Str} {v : Value ν} (hv : Reads N (.value v) s t)
      (ht : skipSpace t = code ']' :: r) : Reads N (.items [v]) s r
  | item {s t q r : Str} {v : Value ν} {vs : List (Value ν)} (hv : Reads N (.value v) s t)
      (ht : skipSpace t = code ',' :: q) (hvs : Reads N (.items vs) q r) :
      Reads N (.items (v :: vs)) s r
  | lastMember {s k t r key : Str} {v : Value ν} (hkey : memberKey s = some (key, k))
      (hv : Reads N (.value v) k t) (ht : skipSpace t = code '}' :: r) :
      Reads N (.members [(key, v)]) s r
  | member {s k t q r key : Str} {v : Value ν} {ms : List (Str × Value ν)}
      (hkey : memberKey s = some (key, k)) (hv : Reads N (.value v) k t)
      (ht : skipSpace t = code ',' :: q) (hms : Reads N (.members ms) q r) :
      Reads N (.members ((key, v) :: ms)) s r

mutual

/-- The value that is read where `v` is written. -/
def Value.read : Value ν → Value ν
  | .null => .null
  | .bool b => .bool b
  | .num n => .num n
  | .str s => .str s
  | .arr items => .arr (readItems items)
  | .obj members => .obj ((readMembers members).foldl setMember [])

def readItems : List (Value ν) → List (Value ν)
  | [] => []
  | v :: vs => v.read :: readItems vs

def readMembers : List (Str × Value ν) → List (Str × Value ν)
  | [] => []
  | (key, v) :: ms => (key, v.read) :: readMembers ms

end

/-- What a text is written as: one value, and white space. -/
def Written (N : Numbers ν) (s : Str) (v : Value ν) : Prop :=
  ∃ r, Reads N (.value v) s r ∧ skipSpace r = []

/-- No object has two members with one key. -/
inductive Distinct : Value ν → Prop where
  | null : Distinct .null
  | bool (b : Bool) : Distinct (.bool b)
  | num (n : ν) : Distinct (.num n)
  | str (s : Str) : Distinct (.str s)
  | arr (vs : List (Value ν)) (h : ∀ v ∈ vs, Distinct v) : Distinct (.arr vs)
  | obj (ms : List (Str × Value ν)) (hkeys : (ms.map Prod.fst).Nodup)
      (h : ∀ m ∈ ms, Distinct m.2) : Distinct (.obj ms)

theorem distinct_arr {vs : List (Value ν)} : Distinct (.arr vs) ↔ ∀ v ∈ vs, Distinct v := by
  constructor
  · rintro (_ | _ | _ | _ | ⟨_, h⟩ | _)
    exact h
  · exact Distinct.arr vs

theorem distinct_obj {ms : List (Str × Value ν)} :
    Distinct (.obj ms) ↔ (ms.map Prod.fst).Nodup ∧ ∀ m ∈ ms, Distinct m.2 := by
  constructor
  · rintro (_ | _ | _ | _ | _ | ⟨_, hkeys, h⟩)
    exact ⟨hkeys, h⟩
  · rintro ⟨hkeys, h⟩
    exact Distinct.obj ms hkeys h

variable {N : Numbers ν} {s t r : Str} {v w : Value ν} {vs : List (Value ν)}
  {ms : List (Str × Value ν)} {p : Phrase ν}

/-! ## Soundness -/

theorem separated_eq_some {α : Type} {close : CodeUnit} {item : Str → Option (α × Str)} {n : Nat}
    {as : List α} (h : separated close item n s = some (as, r)) :
    ∃ m a t rest, n = m + 1 ∧ as = a :: rest ∧ item s = some (a, t) ∧
      (rest = [] ∧ skipSpace t = close :: r ∨
        ∃ q, skipSpace t = code ',' :: q ∧ separated close item m q = some (rest, r)) := by
  cases n with
  | zero => cases h
  | succ m =>
      rw [separated] at h
      obtain ⟨⟨a, t⟩, hitem, h⟩ := Option.bind_eq_some_iff.mp h
      simp only at h
      cases hnext : skipSpace t with
      | nil =>
          rw [hnext] at h
          cases h
      | cons c q =>
          rw [hnext] at h
          simp only at h
          split_ifs at h with hcomma hclose
          · obtain ⟨⟨rest, r'⟩, hrest, h⟩ := Option.map_eq_some_iff.mp h
            obtain ⟨rfl, rfl⟩ := Prod.mk.inj h
            exact ⟨m, a, t, rest, rfl, rfl, hitem, .inr ⟨q, by rw [hnext, hcomma], hrest⟩⟩
          · obtain ⟨rfl, rfl⟩ := Prod.mk.inj (Option.some.inj h)
            exact ⟨m, a, t, [], rfl, rfl, hitem, .inl ⟨rfl, by rw [hnext, hclose]⟩⟩

section Soundness

variable {value : Str → Option (Value ν × Str)}

theorem reads_items (hvalue : ∀ {s v r}, value s = some (v, r) →
      ∃ w, Reads N (.value w) s r ∧ v = w.read) {n : Nat}
    (h : separated (code ']') value n s = some (vs, r)) :
    ∃ ws, Reads N (.items ws) s r ∧ vs = readItems ws := by
  induction n generalizing s vs with
  | zero => cases h
  | succ n ih =>
      obtain ⟨m, v, t, rest, hm, rfl, hitem, hrest⟩ := separated_eq_some h
      obtain rfl := Nat.succ.inj hm
      obtain ⟨w, hw, rfl⟩ := hvalue hitem
      rcases hrest with ⟨rfl, ht⟩ | ⟨q, ht, hq⟩
      · exact ⟨[w], .lastItem hw ht, rfl⟩
      · obtain ⟨ws, hws, rfl⟩ := ih hq
        exact ⟨w :: ws, .item hw ht hws, rfl⟩

theorem reads_members (hvalue : ∀ {s v r}, value s = some (v, r) →
      ∃ w, Reads N (.value w) s r ∧ v = w.read) {n : Nat}
    (h : separated (code '}') (member value) n s = some (ms, r)) :
    ∃ ws, Reads N (.members ws) s r ∧ ms = readMembers ws := by
  induction n generalizing s ms with
  | zero => cases h
  | succ n ih =>
      obtain ⟨m, ⟨key, v⟩, t, rest, hm, rfl, hitem, hrest⟩ := separated_eq_some h
      obtain rfl := Nat.succ.inj hm
      obtain ⟨⟨key', k⟩, hkey, hitem⟩ := Option.bind_eq_some_iff.mp hitem
      obtain ⟨⟨v', t'⟩, hv, hitem⟩ := Option.map_eq_some_iff.mp hitem
      obtain ⟨hpair, rfl⟩ := Prod.mk.inj hitem
      obtain ⟨rfl, rfl⟩ := Prod.mk.inj hpair
      obtain ⟨w, hw, rfl⟩ := hvalue hv
      rcases hrest with ⟨rfl, ht⟩ | ⟨q, ht, hq⟩
      · exact ⟨[(key', w)], .lastMember hkey hw ht, rfl⟩
      · obtain ⟨ws, hws, rfl⟩ := ih hq
        exact ⟨(key', w) :: ws, .member hkey hw ht hws, rfl⟩

end Soundness

theorem scalarValue_read (h : scalarValue N s = some (v, r)) : v.read = v := by
  unfold scalarValue at h
  split at h
  · obtain ⟨rfl, -⟩ := Prod.mk.inj (Option.some.inj h)
    rfl
  · split at h
    · obtain ⟨rfl, -⟩ := Prod.mk.inj (Option.some.inj h)
      rfl
    · split at h
      · obtain ⟨rfl, -⟩ := Prod.mk.inj (Option.some.inj h)
        rfl
      · obtain ⟨p, -, h⟩ := Option.map_eq_some_iff.mp h
        obtain ⟨rfl, -⟩ := Prod.mk.inj h
        rfl

theorem distinct_scalarValue (h : scalarValue N s = some (v, r)) : Distinct v := by
  unfold scalarValue at h
  split at h
  · obtain ⟨rfl, -⟩ := Prod.mk.inj (Option.some.inj h)
    exact .null
  · split at h
    · obtain ⟨rfl, -⟩ := Prod.mk.inj (Option.some.inj h)
      exact .bool true
    · split at h
      · obtain ⟨rfl, -⟩ := Prod.mk.inj (Option.some.inj h)
        exact .bool false
      · obtain ⟨p, -, h⟩ := Option.map_eq_some_iff.mp h
        obtain ⟨rfl, -⟩ := Prod.mk.inj h
        exact .num _

/-- **Soundness.** -/
theorem reads_of_parseValue {fuel : Nat} (h : parseValue N fuel s = some (v, r)) :
    ∃ w, Reads N (.value w) s r ∧ v = w.read := by
  -- By induction on the fuel, by the first unit that is no space.
  induction fuel generalizing s v r with
  | zero => cases h
  | succ fuel ih =>
      rw [parseValue] at h
      cases hs : skipSpace s with
      | nil =>
          rw [hs] at h
          cases h
      | cons c t =>
          rw [hs] at h
          simp only at h
          split_ifs at h with hquote hbracket hbrace
          · subst hquote
            obtain ⟨⟨x, r'⟩, hx, h⟩ := Option.map_eq_some_iff.mp h
            obtain ⟨rfl, rfl⟩ := Prod.mk.inj h
            exact ⟨.str x, .str hs hx, rfl⟩
          · subst hbracket
            cases ht : skipSpace t with
            | nil =>
                rw [ht] at h
                cases h
            | cons d q =>
                rw [ht] at h
                simp only at h
                split_ifs at h with hclose
                · subst hclose
                  obtain ⟨rfl, rfl⟩ := Prod.mk.inj (Option.some.inj h)
                  exact ⟨.arr [], .emptyArr hs ht, rfl⟩
                · obtain ⟨⟨vs, r'⟩, hvs, h⟩ := Option.map_eq_some_iff.mp h
                  obtain ⟨rfl, rfl⟩ := Prod.mk.inj h
                  obtain ⟨ws, hws, rfl⟩ := reads_items ih hvs
                  exact ⟨.arr ws, .arr hs hws, rfl⟩
          · subst hbrace
            cases ht : skipSpace t with
            | nil =>
                rw [ht] at h
                cases h
            | cons d q =>
                rw [ht] at h
                simp only at h
                split_ifs at h with hclose
                · subst hclose
                  obtain ⟨rfl, rfl⟩ := Prod.mk.inj (Option.some.inj h)
                  exact ⟨.obj [], .emptyObj hs ht, rfl⟩
                · obtain ⟨⟨ms, r'⟩, hms, h⟩ := Option.map_eq_some_iff.mp h
                  obtain ⟨rfl, rfl⟩ := Prod.mk.inj h
                  obtain ⟨ws, hws, rfl⟩ := reads_members ih hms
                  exact ⟨.obj ws, .obj hs hws, rfl⟩
          · exact ⟨v, .scalar hs ⟨hquote, hbracket, hbrace⟩ h, (scalarValue_read h).symm⟩

/-! ## What a scalar is made of -/

/-- A unit of a number or of a literal name. -/
def ScalarUnit (u : CodeUnit) : Prop := isDigit u = true ∨ u ∈ ofString "+-.Eaeflnrstu"

/-- `s` is at least one unit of a scalar, and then `r`. -/
def Scalar (s r : Str) : Prop := ∃ u us, s = u :: us ++ r ∧ ∀ x ∈ u :: us, ScalarUnit x

theorem afterPrefix_eq_some {q : Str} (h : afterPrefix q s = some r) : s = q ++ r := by
  induction q generalizing s with
  | nil => exact Option.some.inj h
  | cons c q ih =>
      cases s with
      | nil => cases h
      | cons d s =>
          rw [afterPrefix] at h
          split at h
          · next hsame => rw [hsame, ih h, List.cons_append]
          · cases h

theorem spanDigits_split (s : Str) :
    s = (spanDigits s).1 ++ (spanDigits s).2 ∧ ∀ u ∈ (spanDigits s).1, ScalarUnit u :=
  ⟨List.takeWhile_append_dropWhile.symm, fun _ hu => .inl (List.mem_takeWhile_imp hu)⟩

theorem spanSign_split {f : CodeUnit → Bool} (hf : ∀ u, f u = true → ScalarUnit u) (s : Str) :
    s = (spanSign f s).1 ++ (spanSign f s).2 ∧ ∀ u ∈ (spanSign f s).1, ScalarUnit u := by
  cases s with
  | nil => exact ⟨rfl, fun u hu => by cases hu⟩
  | cons c s =>
      rw [spanSign]
      split
      · next hc => exact ⟨rfl, fun u hu => by rw [List.mem_singleton.mp hu]; exact hf c hc⟩
      · exact ⟨rfl, fun u hu => by cases hu⟩

theorem integerPart_split {a : Str} (h : integerPart s = some (a, r)) :
    s = a ++ r ∧ a ≠ [] ∧ ∀ u ∈ a, ScalarUnit u := by
  cases s with
  | nil => cases h
  | cons c s =>
      rw [integerPart] at h
      split_ifs at h with hzero hdigit
      · obtain ⟨rfl, rfl⟩ := Prod.mk.inj (Option.some.inj h)
        subst hzero
        exact ⟨rfl, List.cons_ne_nil _ _,
          fun u hu => .inl (by rw [List.mem_singleton.mp hu]; decide)⟩
      · obtain ⟨rfl, rfl⟩ := Prod.mk.inj (Option.some.inj h)
        obtain ⟨hsplit, hunits⟩ := spanDigits_split s
        refine ⟨by rw [List.cons_append, ← hsplit], List.cons_ne_nil _ _, fun u hu => ?_⟩
        rcases List.mem_cons.mp hu with rfl | hu
        · exact .inl hdigit
        · exact hunits u hu

theorem fractionPart_split {a : Str} (h : fractionPart s = some (a, r)) :
    s = a ++ r ∧ ∀ u ∈ a, ScalarUnit u := by
  cases s with
  | nil =>
      obtain ⟨rfl, rfl⟩ := Prod.mk.inj (Option.some.inj h)
      exact ⟨rfl, fun u hu => by cases hu⟩
  | cons c s =>
      rw [fractionPart] at h
      split_ifs at h with hpoint
      · obtain ⟨rfl, rfl⟩ := Prod.mk.inj (Option.some.inj h)
        subst hpoint
        obtain ⟨hsplit, hunits⟩ := spanDigits_split s
        refine ⟨by rw [List.cons_append, ← hsplit], fun u hu => ?_⟩
        rcases List.mem_cons.mp hu with rfl | hu
        · exact .inr (by decide)
        · exact hunits u hu
      · obtain ⟨rfl, rfl⟩ := Prod.mk.inj (Option.some.inj h)
        exact ⟨rfl, fun u hu => by cases hu⟩

theorem exponentPart_split {a : Str} (h : exponentPart s = some (a, r)) :
    s = a ++ r ∧ ∀ u ∈ a, ScalarUnit u := by
  cases s with
  | nil =>
      obtain ⟨rfl, rfl⟩ := Prod.mk.inj (Option.some.inj h)
      exact ⟨rfl, fun u hu => by cases hu⟩
  | cons c s =>
      rw [exponentPart] at h
      split at h
      · next he =>
        have hsign : ∀ u : CodeUnit, (u = code '+' || u = code '-') = true → ScalarUnit u := by
          intro u hu
          simp only [Bool.or_eq_true, decide_eq_true_eq] at hu
          rcases hu with rfl | rfl
          · exact .inr (by decide)
          · exact .inr (by decide)
        obtain ⟨hsplit, hunits⟩ := spanSign_split hsign s
        obtain ⟨hdigits, hdigit⟩ :=
          spanDigits_split (spanSign (fun u => u = code '+' || u = code '-') s).2
        simp only at h
        split_ifs at h
        obtain ⟨rfl, rfl⟩ := Prod.mk.inj (Option.some.inj h)
        refine ⟨?_, fun u hu => ?_⟩
        · rw [List.append_assoc, ← hdigits, List.cons_append, ← hsplit]
        rcases List.mem_append.mp hu with hu | hu
        · rcases List.mem_cons.mp hu with rfl | hu
          · rcases he with rfl | rfl
            · exact .inr (by decide)
            · exact .inr (by decide)
          · exact hunits u hu
        · exact hdigit u hu
      · obtain ⟨rfl, rfl⟩ := Prod.mk.inj (Option.some.inj h)
        exact ⟨rfl, fun u hu => by cases hu⟩

theorem numberLiteral_split {literal : Str} (h : numberLiteral s = some (literal, r)) :
    Scalar s r := by
  have hminus : ∀ u : CodeUnit, decide (u = code '-') = true → ScalarUnit u := by
    intro u hu
    rw [of_decide_eq_true hu]
    exact .inr (by decide)
  obtain ⟨hsign, hs⟩ := spanSign_split hminus s
  obtain ⟨⟨integer, q⟩, hinteger, h⟩ := Option.bind_eq_some_iff.mp h
  obtain ⟨⟨fraction, q'⟩, hfraction, h⟩ := Option.bind_eq_some_iff.mp h
  obtain ⟨⟨exponent, q''⟩, hexponent, h⟩ := Option.bind_eq_some_iff.mp h
  obtain ⟨-, rfl⟩ := Prod.mk.inj (Option.some.inj h)
  obtain ⟨hsplit, hne, hi⟩ := integerPart_split hinteger
  have hsplit : (spanSign (fun u => decide (u = code '-')) s).2 = integer ++ q := hsplit
  obtain ⟨rfl, hf⟩ := fractionPart_split hfraction
  obtain ⟨rfl, he⟩ := exponentPart_split hexponent
  obtain ⟨u, us, hu⟩ : ∃ u us, (spanSign (fun u => decide (u = code '-')) s).1 ++ integer ++
      fraction ++ exponent = u :: us := by
    refine List.exists_cons_of_ne_nil ?_
    simp [hne]
  refine ⟨u, us, ?_, fun x hx => ?_⟩
  · rw [← hu]
    conv_lhs => rw [hsign, hsplit]
    simp
  · rw [← hu] at hx
    simp only [List.mem_append] at hx
    rcases hx with ((hx | hx) | hx) | hx
    · exact hs x hx
    · exact hi x hx
    · exact hf x hx
    · exact he x hx

/-- A literal name or a number is a scalar. -/
theorem scalarValue_split (h : scalarValue N s = some (v, r)) : Scalar s r := by
  have hname : ∀ {c q}, afterPrefix (c :: q) s = some r →
      (c :: q).all (fun x => x ∈ ofString "+-.Eaeflnrstu") = true → Scalar s r := fun hq hunits =>
    ⟨_, _, afterPrefix_eq_some hq,
      fun x hx => .inr (of_decide_eq_true (List.all_eq_true.mp hunits x hx))⟩
  unfold scalarValue at h
  split at h
  · next hnull =>
    obtain ⟨-, rfl⟩ := Prod.mk.inj (Option.some.inj h)
    exact hname hnull (by decide)
  · split at h
    · next htrue =>
      obtain ⟨-, rfl⟩ := Prod.mk.inj (Option.some.inj h)
      exact hname htrue (by decide)
    · split at h
      · next hfalse =>
        obtain ⟨-, rfl⟩ := Prod.mk.inj (Option.some.inj h)
        exact hname hfalse (by decide)
      · obtain ⟨⟨literal, q⟩, hliteral, h⟩ := Option.map_eq_some_iff.mp h
        obtain ⟨-, rfl⟩ := Prod.mk.inj h
        exact numberLiteral_split hliteral

/-! ## Completeness -/

theorem skipSpace_skipSpace (s : Str) : skipSpace (skipSpace s) = skipSpace s :=
  List.dropWhile_idempotent _ s

theorem length_skipSpace_le (s : Str) : (skipSpace s).length ≤ s.length :=
  (List.dropWhile_sublist _).length_le

theorem stringBody_hex (a b c d : CodeUnit) (s : Str) :
    stringBody (code '\\' :: code 'u' :: a :: b :: c :: d :: s) =
      (hex4 a b c d).bind fun u => (stringBody s).map fun p => (u :: p.1, p.2) := by
  rw [stringBody.eq_def]
  rfl

/-- How a string goes on: with its end, an escape of either kind, or a unit that stands for
itself. -/
theorem stringBody_eq_some {c : CodeUnit} {x : Str} (h : stringBody (c :: s) = some (x, r)) :
    c = code '"' ∧ x = [] ∧ r = s ∨
      (∃ e t u y, c = code '\\' ∧ s = e :: t ∧ e ≠ code 'u' ∧ simpleEscape e = some u ∧
        stringBody t = some (y, r) ∧ x = u :: y) ∨
      (∃ a b d e t u y, c = code '\\' ∧ s = code 'u' :: a :: b :: d :: e :: t ∧
        hex4 a b d e = some u ∧ stringBody t = some (y, r) ∧ x = u :: y) ∨
      ∃ y, Raw c ∧ stringBody s = some (y, r) ∧ x = c :: y := by
  -- by the unit that comes next, in the order of the parser
  by_cases hquote : c = code '"'
  · subst hquote
    rw [stringBody.eq_def] at h
    obtain ⟨rfl, rfl⟩ := Prod.mk.inj (Option.some.inj h)
    exact .inl ⟨rfl, rfl, rfl⟩
  by_cases hescape : c = code '\\'
  · subst hescape
    cases s with
    | nil =>
        rw [stringBody.eq_def] at h
        cases h
    | cons e t =>
        by_cases hu : e = code 'u'
        · subst hu
          rcases t with - | ⟨a, - | ⟨b, - | ⟨d, - | ⟨e, t⟩⟩⟩⟩
          case cons.cons.cons.cons =>
            rw [stringBody_hex] at h
            obtain ⟨u, hhex, h⟩ := Option.bind_eq_some_iff.mp h
            obtain ⟨⟨y, r'⟩, hy, h⟩ := Option.map_eq_some_iff.mp h
            obtain ⟨rfl, rfl⟩ := Prod.mk.inj h
            exact .inr (.inr (.inl ⟨a, b, d, e, t, u, y, rfl, rfl, hhex, hy, rfl⟩))
          all_goals
            rw [stringBody.eq_def] at h
            cases h
        · cases hsimple : simpleEscape e with
          | none =>
              rw [stringBody.eq_def] at h
              simp only at h
              rw [if_neg hquote, if_pos trivial, if_neg hu, hsimple] at h
              cases h
          | some u =>
              rw [stringBody_escape hu hsimple] at h
              obtain ⟨⟨y, r'⟩, hy, h⟩ := Option.map_eq_some_iff.mp h
              obtain ⟨rfl, rfl⟩ := Prod.mk.inj h
              exact .inr (.inl ⟨e, t, u, y, rfl, rfl, hu, hsimple, hy, rfl⟩)
  · by_cases hcontrol : c.toNat < 0x20
    · rw [stringBody.eq_def] at h
      simp only at h
      rw [if_neg hquote, if_neg hescape, if_pos hcontrol] at h
      cases h
    · have hraw : Raw c := ⟨hquote, hescape, Nat.not_lt.mp hcontrol⟩
      rw [stringBody_raw hraw] at h
      obtain ⟨⟨y, r'⟩, hy, h⟩ := Option.map_eq_some_iff.mp h
      obtain ⟨rfl, rfl⟩ := Prod.mk.inj h
      exact .inr (.inr (.inr ⟨y, hraw, hy, rfl⟩))

theorem length_stringBody {x : Str} (h : stringBody s = some (x, r)) : r.length < s.length := by
  induction hn : s.length using Nat.strongRecOn generalizing s x with
  | ind n ih =>
      subst hn
      cases s with
      | nil => cases h
      | cons c s =>
          rcases stringBody_eq_some h with ⟨-, -, rfl⟩ | ⟨e, t, u, y, -, rfl, -, -, hy, -⟩ |
            ⟨a, b, d, e, t, u, y, -, rfl, -, hy, -⟩ | ⟨y, -, hy, -⟩
          · exact Nat.lt_succ_self _
          all_goals
            have := ih _ (by simp only [List.length_cons]; omega) hy rfl
            simp only [List.length_cons]
            omega

/-- A key and its colon. -/
theorem memberKey_eq_some {key : Str} (h : memberKey s = some (key, r)) :
    ∃ t q, skipSpace s = code '"' :: t ∧ stringBody t = some (key, q) ∧
      skipSpace q = code ':' :: r := by
  unfold memberKey at h
  cases hs : skipSpace s with
  | nil =>
      rw [hs] at h
      cases h
  | cons c t =>
      rw [hs] at h
      simp only at h
      split_ifs at h with hquote
      obtain ⟨⟨key', q⟩, hbody, h⟩ := Option.bind_eq_some_iff.mp h
      cases hq : skipSpace q with
      | nil =>
          simp only [hq] at h
          cases h
      | cons d r' =>
          simp only [hq] at h
          split_ifs at h with hcolon
          obtain ⟨rfl, rfl⟩ := Prod.mk.inj (Option.some.inj h)
          exact ⟨t, q, by rw [hquote], hbody, by rw [hq, hcolon]⟩

/-- What comes after white space and one more unit is shorter. -/
theorem length_of_skipSpace {c : CodeUnit} (h : skipSpace s = c :: t) : t.length < s.length := by
  have hle := length_skipSpace_le s
  rw [h, List.length_cons] at hle
  exact hle

theorem length_memberKey {key : Str} (h : memberKey s = some (key, r)) : r.length < s.length := by
  obtain ⟨t, q, hs, hbody, hq⟩ := memberKey_eq_some h
  exact (length_of_skipSpace hq).trans ((length_stringBody hbody).trans (length_of_skipSpace hs))

theorem Scalar.length_lt (h : Scalar s r) : r.length < s.length := by
  obtain ⟨u, us, rfl, -⟩ := h
  simp only [List.length_append, List.length_cons]
  omega

theorem parseValue_skipSpace (fuel : Nat) (s : Str) :
    parseValue N fuel (skipSpace s) = parseValue N fuel s := by
  cases fuel with
  | zero => rfl
  | succ fuel => rw [parseValue, parseValue, skipSpace_skipSpace]

/-- How many units a phrase takes at least. -/
def Phrase.count : Phrase ν → Nat
  | .value _ => 1
  | .items vs => vs.length
  | .members ms => ms.length

theorem Reads.count_le (h : Reads N p s r) : 0 < p.count ∧ p.count + r.length ≤ s.length := by
  induction h with
  | str hs hx =>
      have := length_of_skipSpace hs
      have := length_stringBody hx
      simp only [Phrase.count]
      omega
  | @scalar s t r c v hs hc hv =>
      have hle := length_skipSpace_le s
      have := (scalarValue_split hv).length_lt
      rw [hs] at hle
      simp only [Phrase.count]
      omega
  | emptyArr hs ht | emptyObj hs ht =>
      have := length_of_skipSpace hs
      have := length_of_skipSpace ht
      simp only [Phrase.count]
      omega
  | arr hs hvs ih | obj hs hms ih =>
      have := length_of_skipSpace hs
      simp only [Phrase.count] at *
      omega
  | lastItem hv ht ih =>
      have := length_of_skipSpace ht
      simp only [Phrase.count, List.length_singleton] at *
      omega
  | item hv ht hvs ih ih' =>
      have := length_of_skipSpace ht
      simp only [Phrase.count, List.length_cons] at *
      omega
  | lastMember hkey hv ht ih =>
      have := length_memberKey hkey
      have := length_of_skipSpace ht
      simp only [Phrase.count, List.length_singleton] at *
      omega
  | member hkey hv ht hms ih ih' =>
      have := length_memberKey hkey
      have := length_of_skipSpace ht
      simp only [Phrase.count, List.length_cons] at *
      omega

/-- A phrase does not begin with the end of an array. -/
theorem Reads.head (h : Reads N p s r) :
    ∃ c t, skipSpace s = c :: t ∧ c ≠ code ']' ∧ c ≠ code '}' := by
  induction h with
  | str hs => exact ⟨_, _, hs, by decide, by decide⟩
  | scalar hs hc hv =>
      obtain ⟨u, us, heq, hunits⟩ := scalarValue_split hv
      refine ⟨_, _, hs, ?_, ?_⟩
      all_goals
        obtain rfl := (List.cons.inj heq).1
        rintro rfl
        rcases hunits _ List.mem_cons_self with hdigit | hname
        · exact absurd hdigit (by decide)
        · exact absurd hname (by decide)
  | emptyArr hs | arr hs | emptyObj hs | obj hs => exact ⟨_, _, hs, by decide, by decide⟩
  | lastItem _ _ ih | item _ _ _ ih => exact ih
  | lastMember hkey | member hkey =>
      obtain ⟨t, q, hs, -⟩ := memberKey_eq_some hkey
      exact ⟨_, _, hs, by decide, by decide⟩

theorem isJsonSpace_of_skipSpace {c : CodeUnit} (h : skipSpace s = c :: t) :
    isJsonSpace c = false := by
  have hhead := List.head?_dropWhile_not isJsonSpace s
  rw [← skipSpace, h] at hhead
  exact hhead

theorem separated_last {α : Type} {close : CodeUnit} {item : Str → Option (α × Str)} {n : Nat}
    {a : α} (hitem : item s = some (a, t)) (ht : skipSpace t = close :: r)
    (hclose : close ≠ code ',') : separated close item (n + 1) s = some ([a], r) := by
  rw [separated, hitem]
  simp only [Option.bind_some, ht]
  exact (if_neg hclose).trans (if_pos trivial)

theorem separated_next {α : Type} {close : CodeUnit} {item : Str → Option (α × Str)} {n : Nat}
    {a : α} {as : List α} {q : Str} (hitem : item s = some (a, t))
    (ht : skipSpace t = code ',' :: q) (hrest : separated close item n q = some (as, r)) :
    separated close item (n + 1) s = some (a :: as, r) := by
  rw [separated, hitem]
  simp only [Option.bind_some, ht]
  show (separated close item n q).map _ = _
  rw [hrest]
  rfl

theorem member_of_parts {value : Str → Option (Value ν × Str)} {key k : Str}
    (hkey : memberKey s = some (key, k)) (hv : value k = some (v, t)) :
    Js.member value s = some ((key, v), t) := by
  rw [Js.member, hkey]
  show (value k).map _ = _
  rw [hv]
  rfl

/-- What the functions of `JSON.parse` make of a phrase. -/
def Accepts (N : Numbers ν) (fuel : Nat) (s r : Str) : Phrase ν → Prop
  | .value v => parseValue N fuel s = some (v.read, r)
  | .items vs => ∀ n, vs.length ≤ n →
      separated (code ']') (parseValue N fuel) n s = some (readItems vs, r)
  | .members ms => ∀ n, ms.length ≤ n →
      separated (code '}') (Js.member (parseValue N fuel)) n s = some (readMembers ms, r)

/-- A value is read if what it begins with is. -/
theorem accepts_value {c : CodeUnit} (hs : skipSpace s = c :: t) (h : t.length < s.length → ∀ fuel,
      s.length ≤ fuel + 1 + r.length → parseValue N (fuel + 1) (c :: t) = some (v.read, r))
    (hr : r.length < s.length) :
    ∀ fuel, s.length ≤ fuel + r.length → Accepts N fuel s r (.value v) := by
  intro fuel hfuel
  cases fuel with
  | zero => omega
  | succ fuel =>
      show parseValue N (fuel + 1) s = _
      rw [← parseValue_skipSpace, hs]
      exact h (length_of_skipSpace hs) fuel hfuel

/-- **Completeness.** With fuel for the units that a phrase takes it is accepted. -/
theorem parseValue_of_reads (h : Reads N p s r) :
    ∀ fuel, s.length ≤ fuel + r.length → Accepts N fuel s r p := by
  -- By induction on the derivation; `count_le` gives the fuel that each part needs.
  induction h with
  | str hs hx =>
      refine accepts_value hs (fun _ fuel _ => ?_)
        ((length_stringBody hx).trans (length_of_skipSpace hs))
      rw [parseValue, skipSpace_cons (by decide)]
      show (stringBody _).map _ = _
      rw [hx]
      rfl
  | scalar hs hc hv =>
      have hlength := ((Reads.scalar hs hc hv).count_le).2
      refine accepts_value hs (fun _ fuel _ => ?_) (by simp only [Phrase.count] at hlength; omega)
      rw [parseValue_scalar (isJsonSpace_of_skipSpace hs) hc.1 hc.2.1 hc.2.2, hv,
        scalarValue_read hv]
  | emptyArr hs ht =>
      refine accepts_value hs (fun _ fuel _ => ?_)
        ((length_of_skipSpace ht).trans (length_of_skipSpace hs))
      rw [parseValue, skipSpace_cons (by decide)]
      simp only [ht]
      rfl
  | arr hs hvs ih =>
      have hcount := hvs.count_le
      obtain ⟨c, q, ht, hclose, -⟩ := hvs.head
      have hshort := length_of_skipSpace hs
      refine accepts_value hs (fun _ fuel hfuel => ?_) (by omega)
      simp only [Phrase.count] at hcount
      rw [parseValue_arr ht hclose, ih fuel (by omega) _ (by omega)]
      rfl
  | emptyObj hs ht =>
      refine accepts_value hs (fun _ fuel _ => ?_)
        ((length_of_skipSpace ht).trans (length_of_skipSpace hs))
      rw [parseValue, skipSpace_cons (by decide)]
      simp only [ht]
      rfl
  | obj hs hms ih =>
      have hcount := hms.count_le
      obtain ⟨c, q, ht, -, hclose⟩ := hms.head
      have hshort := length_of_skipSpace hs
      refine accepts_value hs (fun _ fuel hfuel => ?_) (by omega)
      simp only [Phrase.count] at hcount
      rw [parseValue_obj ht hclose, ih fuel (by omega) _ (by omega)]
      rfl
  -- the separated lists: a last element closes the list, any other goes on after its comma
  | lastItem hv ht ih =>
      intro fuel hfuel n hn
      have hshort := length_of_skipSpace ht
      cases n with
      | zero => cases hn
      | succ n => exact separated_last (ih fuel (by omega)) ht (by decide)
  | item hv ht hvs ih ih' =>
      intro fuel hfuel n hn
      have hv' := hv.count_le.2
      have hvs' := hvs.count_le.2
      have hshort := length_of_skipSpace ht
      simp only [Phrase.count] at hv' hvs'
      cases n with
      | zero => cases hn
      | succ n =>
          exact separated_next (ih fuel (by omega)) ht
            (ih' fuel (by omega) n (Nat.le_of_succ_le_succ hn))
  | lastMember hkey hv ht ih =>
      intro fuel hfuel n hn
      have hshort := length_of_skipSpace ht
      have hkey' := length_memberKey hkey
      cases n with
      | zero => cases hn
      | succ n =>
          exact separated_last (member_of_parts hkey (ih fuel (by omega))) ht (by decide)
  | member hkey hv ht hms ih ih' =>
      intro fuel hfuel n hn
      have hv' := hv.count_le.2
      have hms' := hms.count_le.2
      have hshort := length_of_skipSpace ht
      have hkey' := length_memberKey hkey
      simp only [Phrase.count] at hv' hms'
      cases n with
      | zero => cases hn
      | succ n =>
          exact separated_next (member_of_parts hkey (ih fuel (by omega))) ht
            (ih' fuel (by omega) n (Nat.le_of_succ_le_succ hn))

/-- **Soundness and completeness.** A JSON text is one that is written as a value. -/
theorem jsonParse_eq_some_iff :
    jsonParse N s = some v ↔ ∃ w, Written N s w ∧ v = w.read := by
  unfold jsonParse
  constructor
  · intro h
    obtain ⟨⟨v', r⟩, hv, h⟩ := Option.bind_eq_some_iff.mp h
    simp only at h
    split_ifs at h with hr
    obtain rfl := Option.some.inj h
    obtain ⟨w, hw, rfl⟩ := reads_of_parseValue hv
    exact ⟨w, ⟨r, hw, hr⟩, rfl⟩
  · rintro ⟨w, ⟨r, hw, hr⟩, rfl⟩
    have hparse : parseValue N (s.length + 1) s = some (w.read, r) :=
      parseValue_of_reads hw _ (by omega)
    rw [hparse]
    exact if_pos hr

end Scap.Js
