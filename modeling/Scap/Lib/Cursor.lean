import Scap.Lib.KeyedTable

/-!
# Keyset pagination

A reader of a table asks for the next rows after the key of the last row it has received, its
cursor, and the table keeps growing meanwhile. A reader is `UpToDate` when it has received exactly
the rows up to its cursor, in order; it has `Missed` a row when one of these never reached it.

* `UpToDate.read`, `Missed.read` — a page of any length keeps a reader in the state it is in;
* `UpToDate.insert`, `missed_of_insert`, `Missed.insert` — an insertion keeps a reader up to date
  if the new key is above the cursor, and else is missed for good;
* `UpToDate.complete`, `Missed.incomplete` — what a reader has once nothing is left to read.
-/

namespace Scap.Lib

variable {ρ κ : Type*} [LinearOrder κ] {key : ρ → κ}

namespace KeyedTable

/-- Tables with the same rows are equal. -/
theorem ext_mem {t u : KeyedTable key} (h : ∀ x, x ∈ t.rows ↔ x ∈ u.rows) : t = u := by
  have : Std.Irrefl fun a b : ρ => key a < key b := ⟨fun a => lt_irrefl (key a)⟩
  exact ext (t.sorted.eq_of_mem_iff u.sorted h)

theorem filter_insertNew {t : KeyedTable key} {p : ρ → Bool} {r : ρ}
    (hfresh : ∀ x ∈ t.rows, key x ≠ key r) :
    (t.insertNew r).filter p = if p r then (t.filter p).insertNew r else t.filter p := by
  have hfilter : ∀ x ∈ (t.filter p).rows, key x ≠ key r :=
    fun x hx => hfresh x (mem_filter.mp hx).1
  apply ext_mem
  intro x
  rw [mem_filter, mem_insertNew hfresh]
  split
  · next hp =>
    rw [mem_insertNew hfilter, mem_filter]
    constructor
    · rintro ⟨rfl | hx, hpx⟩
      · exact .inl rfl
      · exact .inr ⟨hx, hpx⟩
    · rintro (rfl | ⟨hx, hpx⟩)
      · exact ⟨.inl rfl, hp⟩
      · exact ⟨.inr hx, hpx⟩
  · next hp =>
    rw [mem_filter]
    constructor
    · rintro ⟨rfl | hx, hpx⟩
      · exact absurd hpx hp
      · exact ⟨hx, hpx⟩
    · exact fun ⟨hx, hpx⟩ => ⟨.inr hx, hpx⟩

/-- The rows up to a cursor. -/
def reached (t : KeyedTable key) : Option κ → List ρ
  | none => []
  | some k => t.upTo k

/-- The rows after a cursor. -/
def beyond (t : KeyedTable key) : Option κ → List ρ
  | none => t.rows
  | some k => t.rows.filter fun r => k < key r

theorem mem_reached {t : KeyedTable key} {c : Option κ} {r : ρ} :
    r ∈ t.reached c ↔ r ∈ t.rows ∧ ∃ k, c = some k ∧ key r ≤ k := by
  cases c with
  | none => simp [reached]
  | some k => simp [reached, upTo]

theorem mem_beyond {t : KeyedTable key} {c : Option κ} {r : ρ} :
    r ∈ t.beyond c ↔ r ∈ t.rows ∧ ∀ k, c = some k → k < key r := by
  cases c with
  | none => simp [beyond]
  | some k => simp [beyond]

theorem reached_append_beyond (t : KeyedTable key) (c : Option κ) :
    t.reached c ++ t.beyond c = t.rows := by
  cases c with
  | none => rfl
  | some k =>
      have : Std.Irrefl fun a b : ρ => key a < key b := ⟨fun a => lt_irrefl (key a)⟩
      have hsorted : (t.reached (some k) ++ t.beyond (some k)).Pairwise
          fun a b => key a < key b := by
        apply List.pairwise_append.mpr
        refine ⟨t.sorted.filter _, t.sorted.filter _, fun a ha b hb => ?_⟩
        obtain ⟨-, k', hk', hle⟩ := mem_reached.mp ha
        exact lt_of_le_of_lt (Option.some.inj hk' ▸ hle) ((mem_beyond.mp hb).2 k rfl)
      apply hsorted.eq_of_mem_iff t.sorted
      intro r
      rw [List.mem_append, mem_reached, mem_beyond]
      grind

end KeyedTable

/-! ## Readers -/

/-- The key of the last row received, and everything received. -/
structure Reader (ρ κ : Type*) where
  cursor : Option κ
  received : List ρ

namespace Reader

variable {t : KeyedTable key} {rd : Reader ρ κ} {r : ρ}

/-- A reader that has received nothing. -/
def fresh : Reader ρ κ := ⟨none, []⟩

/-- The reader after another page. -/
def read (key : ρ → κ) (rd : Reader ρ κ) (page : List ρ) : Reader ρ κ where
  cursor := (page.getLast?.map key).or rd.cursor
  received := rd.received ++ page

/-- The reader has received exactly the rows up to its cursor, in order. -/
def UpToDate (rd : Reader ρ κ) (t : KeyedTable key) : Prop := rd.received = t.reached rd.cursor

/-- Some row up to the cursor never reached the reader. -/
def Missed (rd : Reader ρ κ) (t : KeyedTable key) : Prop :=
  ∃ r ∈ t.reached rd.cursor, r ∉ rd.received

theorem upToDate_fresh (t : KeyedTable key) : UpToDate fresh t := rfl

/-- The rows up to the end of a page are those up to its start and the page. -/
theorem reached_read (t : KeyedTable key) (rd : Reader ρ κ) (n : Nat) :
    t.reached (rd.read key ((t.beyond rd.cursor).take n)).cursor =
      t.reached rd.cursor ++ (t.beyond rd.cursor).take n := by
  have hrows : t.reached rd.cursor ++ ((t.beyond rd.cursor).take n ++
      (t.beyond rd.cursor).drop n) = t.rows := by
    rw [List.take_append_drop, KeyedTable.reached_append_beyond]
  generalize (t.beyond rd.cursor).take n = page at hrows ⊢
  cases hlast : page.getLast? with
  | none => simp [read, List.getLast?_eq_none_iff.mp hlast]
  | some x =>
      obtain ⟨init, rfl⟩ := List.getLast?_eq_some_iff.mp hlast
      have hcursor : (rd.read key (init ++ [x])).cursor = some (key x) := by
        simp [read, hlast]
      rw [hcursor, ← List.append_assoc]
      have hsplit : t.rows = (t.reached rd.cursor ++ init) ++
          x :: (t.beyond rd.cursor).drop n := by
        rw [← hrows]
        simp
      exact KeyedTable.upTo_split hsplit

theorem UpToDate.read (h : UpToDate rd t) (n : Nat) :
    UpToDate (rd.read key ((t.beyond rd.cursor).take n)) t := by
  unfold UpToDate
  rw [reached_read, ← h]
  rfl

/-- A reader never gets what lies behind its cursor. -/
theorem Missed.read (h : Missed rd t) (n : Nat) :
    Missed (rd.read key ((t.beyond rd.cursor).take n)) t := by
  obtain ⟨r, hr, hnot⟩ := h
  refine ⟨r, by rw [reached_read]; exact List.mem_append_left _ hr, ?_⟩
  intro hmem
  rcases List.mem_append.mp hmem with hmem | hmem
  · exact hnot hmem
  · obtain ⟨-, k, hk, hle⟩ := KeyedTable.mem_reached.mp hr
    have habove := (KeyedTable.mem_beyond.mp (List.mem_of_mem_take hmem)).2 k hk
    exact absurd hle (not_le.mpr habove)

/-- An insertion above the cursor. -/
theorem UpToDate.insert (h : UpToDate rd t) (hfresh : ∀ x ∈ t.rows, key x ≠ key r)
    (habove : ∀ k, rd.cursor = some k → k < key r) : UpToDate rd (t.insertNew r) := by
  unfold UpToDate
  rw [h]
  cases hc : rd.cursor with
  | none => rfl
  | some k =>
      have hkeep := KeyedTable.filter_insertNew (p := fun x => key x ≤ k) hfresh
      rw [if_neg (by simpa using habove k hc)] at hkeep
      exact (congrArg KeyedTable.rows hkeep).symm

/-- An insertion at or below the cursor. -/
theorem missed_of_insert (h : rd.received ⊆ t.rows) (hfresh : ∀ x ∈ t.rows, key x ≠ key r)
    {k : κ} (hk : rd.cursor = some k) (hle : key r ≤ k) : Missed rd (t.insertNew r) := by
  refine ⟨r, ?_, fun hmem => hfresh r (h hmem) rfl⟩
  exact KeyedTable.mem_reached.mpr ⟨(KeyedTable.mem_insertNew hfresh).mpr (.inl rfl), k, hk, hle⟩

theorem Missed.insert (h : Missed rd t) : Missed rd (t.insertNew r) := by
  obtain ⟨x, hx, hnot⟩ := h
  obtain ⟨hmem, hreached⟩ := KeyedTable.mem_reached.mp hx
  exact ⟨x, KeyedTable.mem_reached.mpr ⟨KeyedTable.mem_insertNew_of_mem hmem, hreached⟩, hnot⟩

theorem UpToDate.subset (h : UpToDate rd t) : rd.received ⊆ t.rows := by
  rw [h]
  exact fun x hx => (KeyedTable.mem_reached.mp hx).1

/-- **A reader that is up to date and has nothing left to read has the whole table.** -/
theorem UpToDate.complete (h : UpToDate rd t) (hempty : t.beyond rd.cursor = []) :
    rd.received = t.rows := by
  rw [h, ← KeyedTable.reached_append_beyond t rd.cursor, hempty, List.append_nil]

theorem Missed.incomplete (h : Missed rd t) : rd.received ≠ t.rows := by
  obtain ⟨r, hr, hnot⟩ := h
  intro hall
  rw [hall] at hnot
  exact hnot (KeyedTable.mem_reached.mp hr).1

end Reader

end Scap.Lib
