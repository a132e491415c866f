import Mathlib.Data.List.Induction
import Scap.Lib.KeyedTable

/-!
# Rewriting a table row by row

A loop over some rows of a table that replaces each row by what a partial function makes of it, and
commits from time to time. Wherever it is stopped, the committed table is the table with the first
few of the rows replaced (`committed_loop`); at its end all of them are (`current_loop`), but for
those that the function refuses, which are counted (`failed_loop`).
-/

namespace Scap.Lib

variable {ρ κ : Type*} [LinearOrder κ] {key : ρ → κ}

/-- A partial function on rows that leaves the key. -/
structure Rewrite (key : ρ → κ) where
  apply : ρ → Option ρ
  key_apply : ∀ {r r'}, apply r = some r' → key r' = key r

namespace Rewrite

variable (f : Rewrite key)

/-- The row, replaced if it is not refused. -/
def total (r : ρ) : ρ := (f.apply r).getD r

omit [LinearOrder κ] in
theorem key_total (r : ρ) : key (f.total r) = key r := by
  unfold total
  cases h : f.apply r with
  | none => rfl
  | some r' => exact f.key_apply h

omit [LinearOrder κ] in
theorem total_of_refused {r : ρ} (h : f.apply r = none) : f.total r = r := by
  rw [total, h, Option.getD_none]

/-- The table with one row replaced. -/
def one (t : KeyedTable key) (k : κ) : KeyedTable key :=
  t.modify (fun r => if key r = k then f.total r else r) fun r => by
    split
    · exact f.key_total r
    · rfl

/-- The table with the rows of a list replaced. -/
def rows [DecidableEq ρ] (t : KeyedTable key) (rs : List ρ) : KeyedTable key :=
  t.modify (fun r => if r ∈ rs then f.total r else r) fun r => by
    split
    · exact f.key_total r
    · rfl

/-- How far a loop has come. -/
structure Progress (key : ρ → κ) where
  current : KeyedTable key
  committed : KeyedTable key
  done : Nat
  failed : Nat

/-- One turn of the loop, for a row with its index. -/
def turn (commits : Nat → Bool) (p : Progress key) (row : ρ × Nat) : Progress key :=
  match f.apply row.1 with
  | none => { p with failed := p.failed + 1 }
  | some _ =>
    let current := f.one p.current (key row.1)
    { p with
      current := current
      committed := if commits row.2 then current else p.committed
      done := p.done + 1 }

/-- The loop over some rows, which are counted from `1`. -/
def loop (commits : Nat → Bool) (t : KeyedTable key) (rs : List ρ) : Progress key :=
  (rs.zipIdx 1).foldl (f.turn commits) ⟨t, t, 0, 0⟩

variable {f} {commits : Nat → Bool} {t : KeyedTable key} {rs : List ρ} {row r : ρ}

/-- From the back: the loop over one row more. -/
theorem loop_concat : f.loop commits t (rs ++ [row]) =
    f.turn commits (f.loop commits t rs) (row, rs.length + 1) := by
  unfold loop
  rw [List.zipIdx_append, List.foldl_append, Nat.add_comm]
  rfl

theorem failed_loop : (f.loop commits t rs).failed = rs.countP fun r => (f.apply r).isNone := by
  induction rs using List.reverseRecOn with
  | nil => rfl
  | append_singleton rs row ih =>
      rw [loop_concat, List.countP_append, ← ih, turn]
      cases h : f.apply row <;> simp [h]

section Tables

variable [DecidableEq ρ]

theorem rows_nil : f.rows t [] = t := by
  apply KeyedTable.ext
  show t.rows.map _ = t.rows
  simp

/-- One row more, if it is a row of the table that is not in the list. -/
theorem one_rows (hrow : row ∈ t.rows) (hnew : ∀ r ∈ rs, key r ≠ key row) :
    f.one (f.rows t rs) (key row) = f.rows t (rs ++ [row]) := by
  apply KeyedTable.ext
  show (t.rows.map _).map _ = t.rows.map _
  rw [List.map_map]
  apply List.map_congr_left
  intro r hr
  simp only [Function.comp_apply, List.mem_append, List.mem_singleton]
  by_cases hmem : r ∈ rs
  · have hne : key (f.total r) ≠ key row := by
      rw [f.key_total]
      exact hnew r hmem
    rw [if_pos hmem, if_neg hne, if_pos (Or.inl hmem)]
  · rw [if_neg hmem]
    by_cases hkey : key r = key row
    · obtain rfl := KeyedTable.eq_of_key hr hrow hkey
      rw [if_pos rfl, if_pos (Or.inr rfl)]
    · have hne : r ≠ row := fun h => hkey (congrArg key h)
      rw [if_neg hkey, if_neg (by simp [hmem, hne])]

/-- A row that is refused is replaced by itself. -/
theorem rows_refused (h : f.apply row = none) : f.rows t (rs ++ [row]) = f.rows t rs := by
  apply KeyedTable.ext
  apply List.map_congr_left
  intro r _
  by_cases hmem : r ∈ rs
  · rw [if_pos hmem, if_pos (List.mem_append_left _ hmem)]
  · by_cases hrow : r = row
    · subst hrow
      rw [if_pos (by simp), if_neg hmem, f.total_of_refused h]
    · rw [if_neg hmem, if_neg (by simp [hmem, hrow])]

/-- **At the end of the loop** its rows are replaced. -/
theorem current_loop (hnodup : (rs.map key).Nodup) (hrows : rs ⊆ t.rows) :
    (f.loop commits t rs).current = f.rows t rs := by
  induction rs using List.reverseRecOn with
  | nil => exact rows_nil.symm
  | append_singleton rs row ih =>
      rw [List.map_append, List.map_singleton] at hnodup
      have hbefore := ih hnodup.of_append_left fun r hr => hrows (List.mem_append_left _ hr)
      have hrow : row ∈ t.rows := hrows (by simp)
      have hnew : ∀ r ∈ rs, key r ≠ key row := by
        intro r hr hkey
        have hdisjoint := List.disjoint_of_nodup_append hnodup
        exact hdisjoint (List.mem_map_of_mem hr) (by simp [hkey])
      rw [loop_concat, turn]
      cases h : f.apply row with
      | none => exact hbefore.trans (rows_refused h).symm
      | some row' =>
          show f.one (f.loop commits t rs).current (key row) = _
          rw [hbefore, one_rows hrow hnew]

/-- **Wherever the loop is stopped**, the first few of its rows are replaced for good. -/
theorem committed_loop (hnodup : (rs.map key).Nodup) (hrows : rs ⊆ t.rows) :
    ∃ n, (f.loop commits t rs).committed = f.rows t (rs.take n) := by
  induction rs using List.reverseRecOn with
  | nil => exact ⟨0, rows_nil.symm⟩
  | append_singleton rs row ih =>
      have hcurrent : (f.loop commits t (rs ++ [row])).current = f.rows t (rs ++ [row]) :=
        current_loop hnodup hrows
      rw [List.map_append] at hnodup
      obtain ⟨n, hn⟩ := ih hnodup.of_append_left fun r hr => hrows (List.mem_append_left _ hr)
      have hkept : ∃ n, (f.loop commits t rs).committed = f.rows t ((rs ++ [row]).take n) :=
        ⟨min n rs.length, by
          rw [List.take_append_of_le_length (Nat.min_le_right _ _), hn, ← List.take_take,
            List.take_length]⟩
      have hall : ∃ n, f.rows t (rs ++ [row]) = f.rows t ((rs ++ [row]).take n) :=
        ⟨(rs ++ [row]).length, by rw [List.take_length]⟩
      rw [loop_concat, turn] at hcurrent ⊢
      cases h : f.apply row with
      | none => exact hkept
      | some row' =>
          rw [h] at hcurrent
          dsimp only at hcurrent ⊢
          split
          · rw [hcurrent]
            exact hall
          · exact hkept

/-- What became of a row. -/
theorem find?_rows {k : κ} : (f.rows t rs).find? k =
    (t.find? k).map fun r => if r ∈ rs then f.total r else r :=
  KeyedTable.find?_modify

/-- **What a query selects again**, when the rows it has selected are replaced by such as it does
not select: those that were refused. -/
theorem filter_rows {q : ρ → Bool} (hrows : ∀ r ∈ t.rows, r ∈ rs ↔ q r = true)
    (hdone : ∀ r r', f.apply r = some r' → q r' = false) :
    (f.rows t rs).rows.filter q = (t.rows.filter q).filter fun r => (f.apply r).isNone := by
  have hagain : ∀ r ∈ t.rows, q (if r ∈ rs then f.total r else r) =
      ((f.apply r).isNone && q r) := by
    intro r hr
    cases hq : q r with
    | false =>
        have hout : r ∉ rs := fun h => by simp [(hrows r hr).mp h] at hq
        rw [if_neg hout, hq, Bool.and_false]
    | true =>
        rw [if_pos ((hrows r hr).mpr hq), Bool.and_true]
        cases happly : f.apply r with
        | none => rw [f.total_of_refused happly, hq, Option.isNone_none]
        | some r' =>
            rw [total, happly, Option.getD_some, hdone r r' happly]
            rfl
  show (t.rows.map fun r => if r ∈ rs then f.total r else r).filter q = _
  rw [List.filter_map, List.filter_filter]
  have hsame : t.rows.filter (q ∘ fun r => if r ∈ rs then f.total r else r) =
      t.rows.filter fun r => (f.apply r).isNone && q r :=
    List.filter_congr hagain
  have hkept : ∀ r ∈ t.rows.filter fun r => (f.apply r).isNone && q r,
      (if r ∈ rs then f.total r else r) = id r := by
    intro r hr
    have hrefused := (List.mem_filter.mp hr).2
    rw [Bool.and_eq_true, Option.isNone_iff_eq_none] at hrefused
    rw [f.total_of_refused hrefused.1, ite_self, id]
  rw [hsame, List.map_congr_left hkept, List.map_id]

end Tables

end Rewrite

end Scap.Lib
