import Scap.Lib.Cursor

/-!
# Streaming a table that grows

A table is read to its end in pages, each of the rows after the last row of the page before, while
rows are inserted. `stream_spec`: what is read is in key order, each row comes from the table, and
none of those that were there at the start is left out. `exists_stream`: once the insertions stop,
the reading ends.
-/

namespace Scap.Lib

variable {ρ κ : Type*} [LinearOrder κ] {key : ρ → κ}

/-- The states of a table into which rows are only inserted. -/
structure Growth (key : ρ → κ) where
  table : Nat → KeyedTable key
  grows : ∀ k, (table k).rows ⊆ (table (k + 1)).rows

/-- What contains a table in key order contains it in its order. -/
theorem KeyedTable.sublist_of_subset {t : KeyedTable key} {rows : List ρ}
    (hrows : rows.Pairwise fun a b => key a < key b) (h : t.rows ⊆ rows) : t.rows.Sublist rows := by
  have : Std.Antisymm fun a b : ρ => key a < key b :=
    ⟨fun a b hab hba => absurd hba (lt_asymm hab)⟩
  have hnodup : t.rows.Nodup := t.sorted.imp fun hlt heq => absurd (heq ▸ hlt) (lt_irrefl _)
  exact List.sublist_of_subperm_of_pairwise (List.subperm_of_subset hnodup h) t.sorted hrows

namespace Growth

variable {g : Growth key} {n k : Nat} {cursor : Option κ} {rows : List ρ} {r : ρ}

/-- The rows of a table that satisfy a condition. -/
def filter (g : Growth key) (p : ρ → Bool) : Growth key where
  table k := (g.table k).filter p
  grows k r hr := by
    obtain ⟨hmem, hp⟩ := KeyedTable.mem_filter.mp hr
    exact KeyedTable.mem_filter.mpr ⟨g.grows k hmem, hp⟩

/-- The page of at most `n` rows that the `k`-th query returns. -/
def page (g : Growth key) (n k : Nat) (cursor : Option κ) : List ρ :=
  ((g.table k).beyond cursor).take n

/-- All that is read from the `k`-th query on, unless `fuel` queries do not suffice. -/
def stream (g : Growth key) (n : Nat) : Nat → Nat → Option κ → Option (List ρ)
  | 0, _, _ => none
  | fuel + 1, k, cursor =>
      match (g.page n k cursor).getLast? with
      | none => some []
      | some last => (g.stream n fuel (k + 1) (some (key last))).map (g.page n k cursor ++ ·)

theorem sorted_beyond {t : KeyedTable key} : (t.beyond cursor).Pairwise fun a b => key a < key b := by
  cases cursor with
  | none => exact t.sorted
  | some c => exact t.sorted.filter _

theorem mem_page (h : r ∈ g.page n k cursor) : r ∈ (g.table k).beyond cursor := List.mem_of_mem_take h

/-- A page ends with its greatest key, and the rows after the cursor that it leaves out have a
greater one. -/
theorem page_spec {last : ρ} (h : (g.page n k cursor).getLast? = some last) :
    (∀ r ∈ g.page n k cursor, key r ≤ key last) ∧
      ∀ r ∈ (g.table k).beyond cursor, r ∈ g.page n k cursor ∨ key last < key r := by
  have hsorted : ((g.table k).beyond cursor).Pairwise fun a b => key a < key b := sorted_beyond
  rw [← List.take_append_drop n ((g.table k).beyond cursor)] at hsorted
  obtain ⟨hpage, -, hlater⟩ := List.pairwise_append.mp hsorted
  constructor
  · obtain ⟨init, hinit⟩ := List.getLast?_eq_some_iff.mp h
    intro r hr
    rw [page] at hinit hr
    rw [hinit] at hpage hr
    rcases List.mem_append.mp hr with hr | hr
    · exact ((List.pairwise_append.mp hpage).2.2 r hr last List.mem_cons_self).le
    · rw [List.mem_singleton.mp hr]
  · intro r hr
    rw [← List.take_append_drop n ((g.table k).beyond cursor)] at hr
    rcases List.mem_append.mp hr with hr | hr
    · exact .inl hr
    · exact .inr (hlater last (List.mem_of_getLast? h) r hr)

/-- **What a stream reads.** -/
theorem stream_spec (hn : 0 < n) {fuel : Nat} (h : g.stream n fuel k cursor = some rows) :
    (rows.Pairwise fun a b => key a < key b) ∧
      (∀ r ∈ rows, (∀ c, cursor = some c → c < key r) ∧ ∃ j, r ∈ (g.table j).rows) ∧
      (g.table k).beyond cursor ⊆ rows := by
  induction fuel generalizing k cursor rows with
  | zero => cases h
  | succ fuel ih =>
      rw [stream] at h
      split at h
      · next hlast =>
        obtain rfl := Option.some.inj h
        refine ⟨.nil, by simp, fun r hr => ?_⟩
        -- an empty page is the whole rest
        rw [List.getLast?_eq_none_iff, page, List.take_eq_nil_iff] at hlast
        rcases hlast with hzero | hempty
        · omega
        · rwa [hempty] at hr
      · next last hlast =>
        obtain ⟨later, hlater, rfl⟩ := Option.map_eq_some_iff.mp h
        obtain ⟨hsorted, hfrom, hall⟩ := ih hlater
        obtain ⟨hupto, hbeyond⟩ := page_spec hlast
        refine ⟨?_, ?_, ?_⟩
        · refine List.pairwise_append.mpr ⟨(sorted_beyond).sublist (List.take_sublist _ _), hsorted, ?_⟩
          intro a ha b hb
          exact (hupto a ha).trans_lt ((hfrom b hb).1 _ rfl)
        · intro r hr
          rcases List.mem_append.mp hr with hr | hr
          · obtain ⟨hmem, hafter⟩ := KeyedTable.mem_beyond.mp (mem_page hr)
            exact ⟨hafter, k, hmem⟩
          · obtain ⟨hafter, hmem⟩ := hfrom r hr
            refine ⟨fun c hc => ?_, hmem⟩
            have hcursor := (KeyedTable.mem_beyond.mp (mem_page (List.mem_of_getLast? hlast))).2 c hc
            exact hcursor.trans (hafter _ rfl)
        · intro r hr
          rcases hbeyond r hr with hmem | hgreater
          · exact List.mem_append_left _ hmem
          · refine List.mem_append_right _ (hall (KeyedTable.mem_beyond.mpr ⟨?_, ?_⟩))
            · exact g.grows k (KeyedTable.mem_beyond.mp hr).1
            · rintro c hc
              rwa [← Option.some.inj hc]

/-- While the table stays as it is, the rest gets shorter. -/
theorem exists_stream_of_stable {K : Nat} (hstable : ∀ k, K ≤ k → g.table k = g.table K)
    (hk : K ≤ k) : ∃ fuel rows, g.stream n fuel k cursor = some rows := by
  induction hlength : ((g.table K).beyond cursor).length using Nat.strongRecOn
    generalizing k cursor with
  | ind m ih =>
      cases hlast : (g.page n k cursor).getLast? with
      | none => exact ⟨1, [], by rw [stream, hlast]⟩
      | some last =>
          have hmem := mem_page (List.mem_of_getLast? hlast)
          rw [hstable k hk] at hmem
          have hshorter : ((g.table K).beyond (some (key last))).length < m := by
            rw [← hlength]
            have hrest : (g.table K).beyond (some (key last)) =
                ((g.table K).beyond cursor).filter fun r => key last < key r := by
              cases cursor with
              | none => rfl
              | some c =>
                  have hc := (KeyedTable.mem_beyond.mp hmem).2 c rfl
                  rw [KeyedTable.beyond, KeyedTable.beyond, List.filter_filter]
                  congr 1
                  funext r
                  by_cases hr : key last < key r
                  · simp [hr, hc.trans hr]
                  · simp [hr]
            rw [hrest]
            exact List.length_filter_lt_length_iff_exists.mpr ⟨last, hmem, by simp⟩
          obtain ⟨fuel, rows, hrows⟩ : ∃ fuel rows,
              g.stream n fuel (k + 1) (some (key last)) = some rows := ih _ hshorter (by omega) rfl
          exact ⟨fuel + 1, _, by rw [stream, hlast]; simp only [hrows]; rfl⟩

/-- **A stream ends** once the table has stopped growing. -/
theorem exists_stream {K : Nat} (hstable : ∀ k, K ≤ k → g.table k = g.table K) :
    ∃ fuel rows, g.stream n fuel k cursor = some rows := by
  induction hleft : K - k generalizing k cursor with
  | zero => exact exists_stream_of_stable hstable (by omega)
  | succ m ih =>
      cases hlast : (g.page n k cursor).getLast? with
      | none => exact ⟨1, [], by rw [stream, hlast]⟩
      | some last =>
          obtain ⟨fuel, rows, hrows⟩ : ∃ fuel rows,
              g.stream n fuel (k + 1) (some (key last)) = some rows := ih (by omega)
          exact ⟨fuel + 1, _, by rw [stream, hlast]; simp only [hrows]; rfl⟩

end Growth

end Scap.Lib
