import Mathlib.Data.List.Sort

/-!
# Episodes of a sequence

Things in the order of their keys, some of which close an episode. Two views of it:

* `number` counts what was closed before, and the things with one number are an episode;
* `scan` goes through the things and hands out each closing one with what came since the last.

`since` is what both of them come to: `number_eq_iff` for the numbers, `scan_eq` for the scan.
-/

namespace Scap.Lib.Episodes

variable {α κ : Type*} [LinearOrder κ] (key : α → κ) (closes : α → Bool)

/-- How many episodes were closed before. -/
def number (l : List α) (a : α) : Nat := l.countP fun b => closes b && decide (key b < key a)

/-- Of the things before `x` those that no other closing one separates from it. -/
def since (l : List α) (x a : α) : Bool :=
  !closes a && decide (key a < key x) &&
    l.all fun b => !(closes b && decide (key a < key b) && decide (key b < key x))

/-- Each closing thing with what came since the one before. -/
def scan : List α → List α → List (List α × α)
  | _, [] => []
  | pending, a :: l => if closes a then (pending, a) :: scan [] l else scan (pending ++ [a]) l

variable {key closes} {l pending : List α} {a x y : α}

theorem since_iff : since key closes l x a = true ↔ closes a = false ∧ key a < key x ∧
    ∀ b ∈ l, closes b = true → key a < key b → ¬ key b < key x := by
  simp only [since, Bool.and_eq_true, Bool.not_eq_true', decide_eq_true_eq, List.all_eq_true,
    Bool.and_eq_false_imp, decide_eq_false_iff_not, and_imp, and_assoc]

/-! ## Numbers -/

/-- What is closed between two things makes the difference of their numbers. -/
theorem number_add (h : key a ≤ key x) : number key closes l x = number key closes l a +
    l.countP fun b => closes b && decide (key a ≤ key b) && decide (key b < key x) := by
  unfold number
  induction l with
  | nil => rfl
  | cons b l ih =>
      simp only [List.countP_cons, ih]
      by_cases hclose : closes b = true
      · rcases lt_or_ge (key b) (key a) with hba | hba
        · simp [hclose, hba, hba.trans_le h, not_le.mpr hba]
          omega
        · by_cases hbx : key b < key x
          · simp [hclose, hba, hbx, not_lt.mpr hba]
            omega
          · simp [hclose, hbx, not_lt.mpr hba]
      · simp [hclose]

/-- A closing thing raises the number of what follows. -/
theorem number_lt (ha : a ∈ l) (hclose : closes a = true) (hlt : key a < key x) :
    number key closes l a < number key closes l x := by
  rw [number_add hlt.le, Nat.lt_add_right_iff_pos, List.countP_pos_iff]
  exact ⟨a, ha, by simp [hclose, hlt]⟩

/-- **Numbers.** Something else is in the episode of a closing thing just when it came since the one
before. -/
theorem number_eq_iff (hinj : ∀ b ∈ l, ∀ c ∈ l, key b = key c → b = c) (ha : a ∈ l) (hx : x ∈ l)
    (hopen : closes a = false) (hclose : closes x = true) :
    number key closes l a = number key closes l x ↔ since key closes l x a = true := by
  rw [since_iff]
  rcases lt_trichotomy (key a) (key x) with hlt | heq | hgt
  · rw [number_add hlt.le, Nat.left_eq_add, List.countP_eq_zero]
    constructor
    · intro hnone
      refine ⟨hopen, hlt, fun b hb hcb hab hbx => hnone b hb ?_⟩
      simp [hcb, hab.le, hbx]
    · rintro ⟨-, -, hnone⟩ b hb hall
      simp only [Bool.and_eq_true, decide_eq_true_eq] at hall
      obtain ⟨⟨hcb, hab⟩, hbx⟩ := hall
      rcases hab.eq_or_lt with hsame | hab
      · rw [hinj a ha b hb hsame, hcb] at hopen
        cases hopen
      · exact hnone b hb hcb hab hbx
  · rw [hinj a ha x hx heq, hclose] at hopen
    cases hopen
  · constructor
    · intro heq
      exact absurd heq (number_lt hx hclose hgt).ne'
    · rintro ⟨-, hlt, -⟩
      exact absurd hlt hgt.not_gt

/-- An episode is closed once. -/
theorem eq_of_number_eq (hinj : ∀ b ∈ l, ∀ c ∈ l, key b = key c → b = c) (hx : x ∈ l) (hy : y ∈ l)
    (hcx : closes x = true) (hcy : closes y = true)
    (h : number key closes l x = number key closes l y) : x = y := by
  rcases lt_trichotomy (key x) (key y) with hlt | heq | hgt
  · exact absurd h (number_lt hx hcx hlt).ne
  · exact hinj x hx y hy heq
  · exact absurd h (number_lt hy hcy hgt).ne'

/-! ## The scan -/

/-- What came before a closing thing is not since it. -/
theorem since_cons_closing (hsorted : (pending ++ a :: l).Pairwise (key · < key ·))
    (hclose : closes a = true) (hx : x ∈ l) :
    (pending ++ a :: l).filter (since key closes (pending ++ a :: l) x) =
      l.filter (since key closes l x) := by
  obtain ⟨-, hal, hpending⟩ := List.pairwise_append.mp hsorted
  have hax : key a < key x := (List.pairwise_cons.mp hal).1 x hx
  have hnone : ∀ b ∈ pending ++ [a], since key closes (pending ++ a :: l) x b = false := by
    intro b hb
    rw [Bool.eq_false_iff, ne_eq, since_iff]
    rintro ⟨hopen, hbx, hnone⟩
    rcases List.mem_append.mp hb with hb | hb
    · exact hnone a (by simp) hclose (hpending b hb a List.mem_cons_self) hax
    · rw [List.mem_singleton.mp hb, hclose] at hopen
      cases hopen
  have hsame : ∀ b ∈ l, since key closes (pending ++ a :: l) x b = since key closes l x b := by
    intro b hb
    rw [Bool.eq_iff_iff, since_iff, since_iff]
    refine and_congr_right fun _ => and_congr_right fun _ =>
      ⟨fun hnone c hc => hnone c (by simp [hc]), fun hnone c hc hcc hbc => ?_⟩
    rcases List.mem_append.mp hc with hc | hc
    · exact absurd hbc (hpending c hc b (List.mem_cons_of_mem _ hb)).not_gt
    · rcases List.mem_cons.mp hc with rfl | hc
      · exact absurd hbc ((List.pairwise_cons.mp hal).1 b hb).not_gt
      · exact hnone c hc hcc hbc
  rw [← List.singleton_append, ← List.append_assoc, List.filter_append,
    List.filter_eq_nil_iff.mpr fun b hb => ?_, List.nil_append, List.append_assoc,
    List.singleton_append, List.filter_congr hsame]
  rw [List.append_assoc, List.singleton_append, hnone b hb]
  exact Bool.false_ne_true

/-- What is pending when the first closing thing comes is since the one before. -/
theorem since_pending (hsorted : (pending ++ a :: l).Pairwise (key · < key ·))
    (hpending : ∀ b ∈ pending, closes b = false) :
    (pending ++ a :: l).filter (since key closes (pending ++ a :: l) a) = pending := by
  obtain ⟨-, hal, hbefore⟩ := List.pairwise_append.mp hsorted
  have hafter : ∀ b ∈ a :: l, key a ≤ key b := by
    intro b hb
    rcases List.mem_cons.mp hb with rfl | hb
    · exact le_rfl
    · exact ((List.pairwise_cons.mp hal).1 b hb).le
  rw [List.filter_append, List.filter_eq_self.mpr fun b hb => ?_,
    List.filter_eq_nil_iff.mpr fun b hb => ?_, List.append_nil]
  · rw [since_iff]
    exact fun h => (hafter b hb).not_gt h.2.1
  · rw [since_iff]
    refine ⟨hpending b hb, hbefore b hb a List.mem_cons_self, fun c hc hcc _ hca => ?_⟩
    rcases List.mem_append.mp hc with hc | hc
    · rw [hpending c hc] at hcc
      cases hcc
    · exact (hafter c hc).not_gt hca

/-- The scan with what is pending. -/
theorem scan_pending (hsorted : (pending ++ l).Pairwise (key · < key ·))
    (hpending : ∀ b ∈ pending, closes b = false) :
    scan closes pending l = (l.filter closes).map fun x =>
      ((pending ++ l).filter (since key closes (pending ++ l) x), x) := by
  induction l generalizing pending with
  | nil => rfl
  | cons a l ih =>
      unfold scan
      by_cases hclose : closes a = true
      · have hl : ([] ++ l).Pairwise (key · < key ·) :=
          (List.pairwise_cons.mp (List.pairwise_append.mp hsorted).2.1).2
        rw [if_pos hclose, ih hl fun _ h => absurd h List.not_mem_nil,
          List.filter_cons_of_pos hclose, List.map_cons, since_pending hsorted hpending,
          List.nil_append]
        congr 1
        refine List.map_congr_left fun x hx => ?_
        rw [since_cons_closing hsorted hclose (List.mem_of_mem_filter hx)]
      · rw [if_neg hclose, List.filter_cons_of_neg hclose, List.append_cons pending a l]
        rw [List.append_cons] at hsorted
        refine ih hsorted fun b hb => ?_
        rcases List.mem_append.mp hb with hb | hb
        · exact hpending b hb
        · rw [List.mem_singleton.mp hb]
          exact Bool.eq_false_iff.mpr hclose

/-- **The scan.** Over sorted things it hands out the closing ones in their order, each with what is
since the one before. -/
theorem scan_eq (hsorted : l.Pairwise (key · < key ·)) :
    scan closes [] l = (l.filter closes).map fun x => (l.filter (since key closes l x), x) :=
  scan_pending hsorted fun _ h => absurd h List.not_mem_nil

/-! ## The last one -/

/-- The last of sorted things has the greatest key. -/
theorem getLast?_eq_some_iff (hsorted : l.Pairwise (key · < key ·)) :
    l.getLast? = some x ↔ x ∈ l ∧ ∀ y ∈ l, key y ≤ key x := by
  rcases List.eq_nil_or_concat l with rfl | ⟨l, z, rfl⟩
  · simp
  · rw [List.concat_eq_append] at hsorted ⊢
    obtain ⟨-, -, hz⟩ := List.pairwise_append.mp hsorted
    rw [List.getLast?_concat, Option.some_inj]
    constructor
    · rintro rfl
      refine ⟨by simp, fun y hy => ?_⟩
      rcases List.mem_append.mp hy with hy | hy
      · exact (hz y hy z (by simp)).le
      · rw [List.mem_singleton.mp hy]
    · rintro ⟨hx, hmax⟩
      rcases List.mem_append.mp hx with hx | hx
      · exact absurd (hz x hx z (by simp)) (hmax z (by simp)).not_gt
      · exact (List.mem_singleton.mp hx).symm

/-- Of what the scan hands out, the last that is wanted. -/
def last (closes : α → Bool) (wanted : List α → Bool) (l : List α) : Option (List α × α) :=
  ((scan closes [] l).filter fun hit => wanted hit.1).getLast?

/-- **The last one.** It is the closing thing with the greatest key of those that are wanted. -/
theorem last_eq_some_iff (hsorted : l.Pairwise (key · < key ·)) {wanted : List α → Bool}
    {came : List α} : last closes wanted l = some (came, x) ↔
      x ∈ l ∧ closes x = true ∧ came = l.filter (since key closes l x) ∧ wanted came = true ∧
      ∀ y ∈ l, closes y = true → wanted (l.filter (since key closes l y)) = true →
        key y ≤ key x := by
  have hscan : ((scan closes [] l).filter fun hit => wanted hit.1).Pairwise
      (fun h h' => key h.2 < key h'.2) := by
    rw [scan_eq hsorted]
    refine List.Pairwise.sublist List.filter_sublist (List.pairwise_map.mpr ?_)
    exact hsorted.sublist List.filter_sublist
  unfold last
  rw [getLast?_eq_some_iff hscan, scan_eq hsorted]
  simp only [List.mem_filter, List.mem_map, Prod.mk.injEq, Prod.forall]
  constructor
  · rintro ⟨⟨⟨_, ⟨hx, hclose⟩, rfl, rfl⟩, hwanted⟩, hmax⟩
    exact ⟨hx, hclose, rfl, hwanted, fun y hy hcy hwy => hmax _ y ⟨⟨y, ⟨hy, hcy⟩, rfl, rfl⟩, hwy⟩⟩
  · rintro ⟨hx, hclose, rfl, hwanted, hmax⟩
    refine ⟨⟨⟨x, ⟨hx, hclose⟩, rfl, rfl⟩, hwanted⟩, ?_⟩
    rintro _ _ ⟨⟨y, ⟨hy, hcy⟩, rfl, rfl⟩, hwy⟩
    exact hmax y hy hcy hwy

end Scap.Lib.Episodes
