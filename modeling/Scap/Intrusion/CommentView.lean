import Scap.Lib.Occurrences
import Scap.Py.Text

/-!
# SQL without its comments

`_sql_comment_view`, the form of a text in which the signatures look for SQL. A comment becomes a
space, the content of an executable comment of MySQL stays, and a comment that is never closed is
no comment.

* `Shows` — what the view of a text is, from one comment to the next;
* `commentLoop_of_shows` — the loop computes it, and comes to an end;
* `sql_comment_view` — hence the view of what stands around a comment is the view of its parts.
-/

namespace Scap.Intrusion

open Scap.Py Scap.Lib

/-! ## The view -/

def opener : Str := Str.ofString "/*"

def closer : Str := Str.ofString "*/"

def bang : CodePoint := 0x21

def blank : Str := Str.ofString " "

section View

-- `\d` is `str.isdecimal` of one character, which is for the Unicode tables to say
variable (isDecimal : CodePoint → Bool)

/-- `re.sub(r"^\d{5,6}\s*", "", executable)`. -/
def ungated (executable : Str) : Str :=
  let digits := (executable.takeWhile isDecimal).length
  if 5 ≤ digits then (executable.drop (min digits 6)).dropWhile fun c => c.char?.any isSpace
  else executable

/-- The loop of `_sql_comment_view`, at most so many times. -/
def commentLoop (text : Str) : Nat → Nat → List Str → Option (List Str)
  | 0, _, _ => none
  | fuel + 1, cursor, parts =>
    match find text opener cursor with
    | none => some (parts ++ [text.drop cursor])
    | some start =>
      match find text closer (start + 2) with
      | none => some (parts ++ [text.drop cursor])
      | some stop =>
        let parts := parts ++ [(text.take start).drop cursor]
        let parts :=
          if Occurs text (opener ++ [bang]) start then
            parts ++ [blank ++ ungated isDecimal ((text.take stop).drop (start + 3)) ++ blank]
          else parts ++ [blank]
        commentLoop text fuel (stop + 2) parts

/-- `_sql_comment_view`. -/
def sqlCommentView (fuel : Nat) (text : Str) : Option Str :=
  (commentLoop isDecimal text fuel 0 []).map List.flatten

/-- What is shown of a comment. -/
def shown : Str → Str
  | [] => blank
  | c :: executable =>
    if c = bang then blank ++ ungated isDecimal executable ++ blank else blank

/-! ## From comment to comment -/

/-- What the view of a text is. -/
inductive Shows : Str → Str → Prop where
  | plain {text : Str} (h : ¬ opener <:+: text) : Shows text text
  | unclosed {p r : Str} (hp : ¬ opener <:+: p) (hr : ¬ closer <:+: r) :
      Shows (p ++ opener ++ r) (p ++ opener ++ r)
  | comment {p c rest v : Str} (hp : ¬ opener <:+: p) (hc : ¬ closer <:+: c) (h : Shows rest v) :
      Shows (p ++ opener ++ (c ++ closer ++ rest)) (p ++ shown isDecimal c ++ v)

end View

/-- A text without a comment that is not closed. -/
inductive Closed : Str → Prop where
  | plain {p : Str} (h : ¬ opener <:+: p) : Closed p
  | comment {p c rest : Str} (hp : ¬ opener <:+: p) (hc : ¬ closer <:+: c) (h : Closed rest) :
      Closed (p ++ opener ++ (c ++ closer ++ rest))

variable {isDecimal : CodePoint → Bool} {text a b c p r v : Str} {fuel : Nat} {parts : List Str}

theorem unbordered_opener : Unbordered opener := unbordered_pair (by decide)

theorem unbordered_closer : Unbordered closer := unbordered_pair (by decide)

/-- Every text has a view. -/
theorem exists_shows (isDecimal : CodePoint → Bool) (text : Str) :
    ∃ v, Shows isDecimal text v := by
  induction hn : text.length using Nat.strongRecOn generalizing text with
  | _ n ih =>
    by_cases hopener : opener <:+: text
    · obtain ⟨p, r, rfl, hp⟩ := exists_first (by decide) hopener
      by_cases hcloser : closer <:+: r
      · obtain ⟨c, rest, rfl, hc⟩ := exists_first (by decide) hcloser
        have hshorter : rest.length < n := by
          have htwo : closer.length = 2 := by decide
          simp only [List.length_append] at hn
          omega
        obtain ⟨v, hv⟩ := ih _ hshorter rest rfl
        exact ⟨_, .comment hp hc hv⟩
      · exact ⟨_, .unclosed hp hcloser⟩
    · exact ⟨_, .plain hopener⟩

theorem length_opener : opener.length = 2 := rfl

theorem length_closer : closer.length = 2 := rfl

/-- What is between two positions. -/
theorem take_drop_append (before middle after : Str) :
    ((before ++ (middle ++ after)).take (before.length + middle.length)).drop before.length =
      middle := by
  rw [List.take_length_add_append, List.drop_left, List.take_left]

/-- The content of an executable comment. -/
theorem content_eq (before c rest : Str) (x : CodePoint) :
    ((before ++ (opener ++ (x :: c ++ closer ++ rest))).take
      (before.length + 2 + (x :: c).length)).drop (before.length + 3) = c := by
  have htext : before ++ (opener ++ (x :: c ++ closer ++ rest)) =
      (before ++ opener ++ [x]) ++ (c ++ (closer ++ rest)) := by simp
  have hstart : before.length + 3 = (before ++ opener ++ [x]).length := by
    simp [length_opener]
  have hstop : before.length + 2 + (x :: c).length =
      (before ++ opener ++ [x]).length + c.length := by
    rw [← hstart, List.length_cons]
    omega
  rw [htext, hstart, hstop]
  exact take_drop_append _ c _

/-- A comment is executable if its content begins with the mark. -/
theorem occurs_bang (before c rest : Str) :
    Occurs (before ++ (opener ++ (c ++ closer ++ rest))) (opener ++ [bang]) before.length ↔
      c.head? = some bang := by
  unfold Occurs
  rw [List.drop_left, List.prefix_append_right_inj]
  cases c with
  | nil =>
      -- behind the opener of an empty comment is the closer
      have hne : ¬ [bang] <+: closer ++ rest := by
        intro hpre
        have hfirst : bang = 0x2A := (List.cons_prefix_cons.mp hpre).1
        revert hfirst
        decide
      simp [hne]
  | cons x c => simp [List.cons_prefix_cons, eq_comm]

/-- **The loop computes the view**, of what is behind the cursor. -/
theorem commentLoop_of_shows (h : Shows isDecimal text v) (before : Str)
    (hfuel : text.length < fuel) :
    (commentLoop isDecimal (before ++ text) fuel before.length parts).map List.flatten =
      some (parts.flatten ++ v) := by
  induction h generalizing before fuel parts with
  | plain h =>
      cases fuel with
      | zero => cases hfuel
      | succ fuel =>
          rw [commentLoop, find_eq_none_of_not_infix before h]
          simp
  | @unclosed p r hp hr =>
      cases fuel with
      | zero => cases hfuel
      | succ fuel =>
          have hclose : find (before ++ (p ++ opener ++ r)) closer
              (before.length + p.length + 2) = none := by
            have hnone := find_eq_none_of_not_infix (before ++ p ++ opener) hr
            rw [List.length_append, List.length_append, length_opener] at hnone
            rw [← hnone]
            simp
          rw [commentLoop, find_first before unbordered_opener hp]
          dsimp only
          rw [hclose]
          simp
  | @comment p c rest v hp hc h ih =>
      cases fuel with
      | zero => cases hfuel
      | succ fuel =>
          have hclose : find (before ++ (p ++ opener ++ (c ++ closer ++ rest))) closer
              (before.length + p.length + 2) = some (before.length + p.length + 2 + c.length) := by
            have hfirst := find_first (before ++ p ++ opener) unbordered_closer hc (r := rest)
            rw [List.length_append, List.length_append, length_opener] at hfirst
            rw [← hfirst]
            simp
          have hplain : ((before ++ (p ++ opener ++ (c ++ closer ++ rest))).take
              (before.length + p.length)).drop before.length = p := by
            rw [List.append_assoc p]
            exact take_drop_append before p _
          have hbang : Occurs (before ++ (p ++ opener ++ (c ++ closer ++ rest)))
              (opener ++ [bang]) (before.length + p.length) ↔ c.head? = some bang := by
            have hoccurs := occurs_bang (before ++ p) c rest
            rw [List.length_append] at hoccurs
            rw [← hoccurs]
            simp only [List.append_assoc]
          -- the cursor moves behind the closer
          have hshorter : rest.length < fuel := by
            simp only [List.length_append, length_opener, length_closer] at hfuel
            omega
          have hrest : before ++ (p ++ opener ++ (c ++ closer ++ rest)) =
              (before ++ p ++ opener ++ c ++ closer) ++ rest := by simp
          have hcursor : before.length + p.length + 2 + c.length + 2 =
              (before ++ p ++ opener ++ c ++ closer).length := by
            simp only [List.length_append, length_opener, length_closer]
          have hparts : (if c.head? = some bang then parts ++ [p] ++ [blank ++ ungated isDecimal
              (((before ++ (p ++ opener ++ (c ++ closer ++ rest))).take
                (before.length + p.length + 2 + c.length)).drop (before.length + p.length + 3)) ++
              blank] else parts ++ [p] ++ [blank]) = parts ++ [p] ++ [shown isDecimal c] := by
            cases c with
            | nil => rfl
            | cons x c =>
                unfold shown
                simp only [List.head?_cons, Option.some.injEq]
                split
                · have hcontent := content_eq (before ++ p) c rest x
                  rw [List.length_append, List.append_assoc, ← List.append_assoc p] at hcontent
                  rw [hcontent]
                · rfl
          rw [commentLoop, find_first before unbordered_opener hp]
          dsimp only
          rw [hclose]
          dsimp only
          rw [hplain, hcursor]
          simp only [hbang]
          rw [hparts, hrest, ih _ hshorter]
          simp

/-! ## Around a comment -/

/-- What follows a closed text. -/
theorem Closed.shows (ha : Closed a)
    (hb : ∀ p, ¬ opener <:+: p → Shows isDecimal (p ++ b) (p ++ v)) :
    ∃ va, Shows isDecimal a va ∧ Shows isDecimal (a ++ b) (va ++ v) := by
  induction ha with
  | @plain p h => exact ⟨p, .plain h, hb p h⟩
  | comment hp hc _ ih =>
      obtain ⟨vr, hrest, happend⟩ := ih
      refine ⟨_, .comment hp hc hrest, ?_⟩
      simpa using Shows.comment hp hc happend

theorem not_opener_blank (hp : ¬ opener <:+: p) (ha : ¬ opener <:+: a) :
    ¬ opener <:+: p ++ (blank ++ a) := by
  intro h
  have hblank : (0x20 : CodePoint) ∉ opener := by decide
  rcases infix_append_cons hblank h with h | h
  · exact hp h
  · exact ha h

/-- No comment begins before a blank and ends behind it, if none was open. -/
theorem Shows.blank (h : Shows isDecimal b v) (hp : ¬ opener <:+: p) :
    Shows isDecimal (p ++ (Intrusion.blank ++ b)) (p ++ (Intrusion.blank ++ v)) := by
  cases h with
  | plain h => exact .plain (not_opener_blank hp h)
  | unclosed hq hr => simpa using Shows.unclosed (not_opener_blank hp hq) hr
  | comment hq hc h => simpa using Shows.comment (not_opener_blank hp hq) hc h

theorem closed_or_unclosed (text : Str) :
    Closed text ∨ ∃ a r, text = a ++ opener ++ r ∧ Closed a ∧ ¬ closer <:+: r := by
  obtain ⟨v, h⟩ := exists_shows (fun _ => false) text
  induction h with
  | plain h => exact .inl (.plain h)
  | @unclosed p r hp hr => exact .inr ⟨p, r, rfl, .plain hp, hr⟩
  | comment hp hc _ ih =>
      rcases ih with hclosed | ⟨a, r, rfl, ha, hr⟩
      · exact .inl (.comment hp hc hclosed)
      · exact .inr ⟨_, r, by simp, .comment hp hc ha, hr⟩

/-- **The view of a text.** The loop always comes to an end. A comment behind a closed text is a
blank between the views of both sides, as if it were one; an executable one is its content without
the version gate between two. What is in no comment is left alone, also an opener that is not
closed, with all that follows it. -/
theorem sql_comment_view (isDecimal : CodePoint → Bool) : ∃ view : Str → Str,
    (∀ text fuel, text.length < fuel →
      sqlCommentView isDecimal fuel text = some (view text)) ∧
    (∀ a c b, Closed a → ¬ closer <:+: c → c.head? ≠ some bang →
      view (a ++ (opener ++ (c ++ closer ++ b))) = view a ++ (blank ++ view b) ∧
      view (a ++ (opener ++ (c ++ closer ++ b))) = view (a ++ (blank ++ b))) ∧
    (∀ a c b, Closed a → ¬ closer <:+: bang :: c →
      view (a ++ (opener ++ (bang :: c ++ closer ++ b))) =
        view a ++ (blank ++ ungated isDecimal c ++ blank ++ view b)) ∧
    (∀ a, ¬ opener <:+: a → view a = a) ∧
    (∀ a r, Closed a → ¬ closer <:+: r → view (a ++ (opener ++ r)) = view a ++ (opener ++ r)) ∧
    ∀ text, Closed text ∨ ∃ a r, text = a ++ opener ++ r ∧ Closed a ∧ ¬ closer <:+: r := by
  -- The relation `Shows` is total and the loop computes it, so that it is a function.
  choose view hview using exists_shows isDecimal
  have hcompute : ∀ {text v fuel}, Shows isDecimal text v → text.length < fuel →
      sqlCommentView isDecimal fuel text = some v :=
    fun h hfuel => commentLoop_of_shows h [] hfuel
  have huniq : ∀ {text v}, Shows isDecimal text v → view text = v := by
    intro text v h
    have hlt := Nat.lt_succ_self text.length
    exact Option.some.inj ((hcompute (hview text) hlt).symm.trans (hcompute h hlt))
  -- a comment behind a closed text is shown on its own, before what follows it
  have hcomment : ∀ {a c b : Str}, Closed a → ¬ closer <:+: c →
      view (a ++ (opener ++ (c ++ closer ++ b))) = view a ++ (shown isDecimal c ++ view b) := by
    intro a c b ha hc
    have hany : ∀ p, ¬ opener <:+: p → Shows isDecimal (p ++ (opener ++ (c ++ closer ++ b)))
        (p ++ (shown isDecimal c ++ view b)) := by
      intro p hp
      simpa using Shows.comment hp hc (hview b)
    obtain ⟨va, hva, hall⟩ := ha.shows hany
    rw [huniq hall, huniq hva]
  refine ⟨view, fun text fuel => hcompute (hview text), ?_, ?_, ?_, ?_, closed_or_unclosed⟩
  · intro a c b ha hc hplain
    have hshown : shown isDecimal c = blank := by
      cases c with
      | nil => rfl
      | cons x c =>
          have hx : x ≠ bang := by simpa using hplain
          exact if_neg hx
    have hblank : view (a ++ (blank ++ b)) = view a ++ (blank ++ view b) := by
      obtain ⟨va, hva, hall⟩ := ha.shows fun p hp => (hview b).blank hp
      rw [huniq hall, huniq hva]
    rw [hblank, hcomment ha hc, hshown]
    exact ⟨rfl, rfl⟩
  · intro a c b ha hc
    rw [hcomment ha hc]
    simp [shown]
  · intro a ha
    exact huniq (.plain ha)
  · intro a r ha hr
    have hany : ∀ p, ¬ opener <:+: p →
        Shows isDecimal (p ++ (opener ++ r)) (p ++ (opener ++ r)) := by
      intro p hp
      rw [← List.append_assoc]
      exact Shows.unclosed hp hr
    obtain ⟨va, hva, hall⟩ := ha.shows hany
    rw [huniq hall, huniq hva]

example : sqlCommentView (fun c => 0x30 ≤ c.val && c.val ≤ 0x39) 40
    (Str.ofString "UN/*/**/ION/*!50000 ALL*/ /* SEL") =
      some (Str.ofString "UN ION ALL  /* SEL") := by decide +kernel

end Scap.Intrusion
