import Scap.Retention.Model

/-!
# The backfill

`_backfill_retention_deadlines` walks over the rows without a deadline in the order of their ids, a
batch a round. A round leaves nothing below its last row (`above_batch`), so the cursor skips
nothing, and after the last round every row has a deadline: its own, or the derived one
(`backfill_eq`).
-/

namespace Scap.Retention

open Scap.Lib Scap.Py

variable {ι : Type*} [LinearOrder ι] {a : Sweep}

namespace Sweep

/-- The row after the backfill. -/
def fillLegacy (a : Sweep) (r : ι × ChatSession ι) : ι × ChatSession ι :=
  if r.2.retentionExpiresAt.isNone then (r.1, a.fill r.2) else r

end Sweep

/-- A row without a deadline. -/
def isLegacy (r : ι × ChatSession ι) : Bool := r.2.retentionExpiresAt.isNone

variable {sessions : OrderedDict ι (ChatSession ι)} {rows : List (ι × ChatSession ι)}

omit [LinearOrder ι] in
theorem nodup_map_fst (p : ι × ChatSession ι → Bool) (sessions : OrderedDict ι (ChatSession ι)) :
    ((sessions.rows.filter p).map Prod.fst).Nodup :=
  sessions.nodup.sublist (List.filter_sublist.map _)

/-- What a round leaves to fill: the legacy rows that were not in its batch. -/
theorem isLegacy_fillRows {ids : List ι} :
    (fillRows a sessions ids).rows.countP isLegacy =
      sessions.rows.countP fun r => isLegacy r && r.1 ∉ ids := by
  show (sessions.rows.map fun r => if r.1 ∈ ids then (r.1, a.fill r.2) else r).countP isLegacy = _
  rw [List.countP_map]
  apply List.countP_congr
  intro r _
  by_cases h : r.1 ∈ ids
  · simp [h, isLegacy, Sweep.fill]
  · simp [h]

/-- A round fills legacy rows, in any order. -/
theorem map_fillLegacy_fillRows (hsub : rows ⊆ sessions.rows) (hlegacy : ∀ r ∈ rows, isLegacy r) :
    (fillRows a sessions (rows.map Prod.fst)).rows.map a.fillLegacy =
      sessions.rows.map a.fillLegacy := by
  show (sessions.rows.map fun r => if r.1 ∈ rows.map Prod.fst then (r.1, a.fill r.2) else r).map
    a.fillLegacy = _
  rw [List.map_map]
  apply List.map_congr_left
  intro r hr
  show a.fillLegacy (if r.1 ∈ rows.map Prod.fst then (r.1, a.fill r.2) else r) = a.fillLegacy r
  split
  · next hmem =>
    obtain ⟨x, hx, hkey⟩ := List.mem_map.mp hmem
    have hsame : x = r := OrderedDict.row_eq (hsub hx) hr hkey
    have hnone : r.2.retentionExpiresAt.isNone = true := hlegacy r (hsame ▸ hx)
    simp [Sweep.fillLegacy, Sweep.fill, hnone]
  · rfl

/-- The batch of a round in which no legacy row is below the cursor. -/
theorem legacyBatch_eq {lastId : Option ι}
    (h : ∀ r ∈ sessions.rows, isLegacy r → ∀ last ∈ lastId, last < r.1) :
    legacyBatch a sessions lastId = firstBy Prod.fst a.limit (sessions.rows.filter isLegacy) := by
  unfold legacyBatch
  congr 1
  apply List.filter_congr
  intro r hr
  cases lastId with
  | none => exact Bool.and_true _
  | some last =>
      show (isLegacy r && decide (last < r.1)) = isLegacy r
      cases hlegacy : isLegacy r with
      | false => rfl
      | true => simpa using h r hr hlegacy last rfl

/-- A round's batch, and the legacy rows that it leaves. -/
theorem isLegacy_split (hnodup : rows.Nodup) (hsub : rows ⊆ sessions.rows)
    (hlegacy : ∀ r ∈ rows, isLegacy r) :
    sessions.rows.countP isLegacy =
      rows.length + (fillRows a sessions (rows.map Prod.fst)).rows.countP isLegacy := by
  have hfilled : (sessions.rows.countP fun r => r.1 ∈ rows.map Prod.fst) = rows.length := by
    rw [List.countP_eq_length_filter]
    exact (OrderedDict.filter_keys_perm hnodup hsub).length_eq
  have hboth : (sessions.rows.countP fun r => isLegacy r && decide (r.1 ∈ rows.map Prod.fst)) =
      sessions.rows.countP fun r => r.1 ∈ rows.map Prod.fst := by
    apply List.countP_congr
    intro r hr
    rw [Bool.and_eq_true]
    constructor
    · exact And.right
    · intro hmem
      obtain ⟨x, hx, hkey⟩ := List.mem_map.mp (of_decide_eq_true hmem)
      exact ⟨OrderedDict.row_eq (hsub hx) hr hkey ▸ hlegacy x hx, hmem⟩
  rw [isLegacy_fillRows, ← hfilled, ← hboth]
  clear hfilled hboth hsub
  induction sessions.rows with
  | nil => rfl
  | cons r rs ih =>
      rw [List.countP_cons, List.countP_cons, List.countP_cons, ih]
      by_cases hl : isLegacy r = true <;> by_cases hm : r.1 ∈ rows.map Prod.fst <;>
        simp [hl, hm] <;> omega

/-- What a round leaves is above its batch. -/
theorem above_batch {last : ι × ChatSession ι}
    (hlast : last ∈ firstBy Prod.fst a.limit (sessions.rows.filter isLegacy)) :
    ∀ r ∈ (fillRows a sessions ((firstBy Prod.fst a.limit (sessions.rows.filter isLegacy)).map
      Prod.fst)).rows, isLegacy r → last.1 < r.1 := by
  have hkeys := nodup_map_fst isLegacy sessions
  intro r hr hlegacy
  obtain ⟨x, hx, hsame⟩ := List.mem_map.mp hr
  by_cases hmem : x.1 ∈ (firstBy Prod.fst a.limit (sessions.rows.filter isLegacy)).map Prod.fst
  · rw [if_pos hmem] at hsame
    rw [← hsame] at hlegacy
    simp [isLegacy, Sweep.fill] at hlegacy
  · rw [if_neg hmem] at hsame
    subst hsame
    rw [lt_iff_not_ge]
    intro hle
    -- a row below the last one of the batch would be in the batch
    apply hmem
    refine List.mem_map.mpr ⟨x, (mem_firstBy hkeys).mpr ⟨List.mem_filter.mpr ⟨hx, hlegacy⟩, ?_⟩, rfl⟩
    refine lt_of_le_of_lt ?_ ((mem_firstBy hkeys).mp hlast).2
    apply List.countP_mono_left
    intro y _ hy
    exact decide_eq_true (lt_of_lt_of_le (of_decide_eq_true hy) hle)

/-- The loop fills every legacy row, if none is below its cursor and it has rounds enough. -/
theorem backfillFrom_eq (hlimit : 0 < a.limit) (fuel : Nat) (lastId : Option ι) (backfilled : Nat)
    (hcursor : ∀ r ∈ sessions.rows, isLegacy r → ∀ last ∈ lastId, last < r.1)
    (hfuel : sessions.rows.countP isLegacy < fuel) :
    (backfillFrom a fuel sessions lastId backfilled).1.rows = sessions.rows.map a.fillLegacy ∧
      (backfillFrom a fuel sessions lastId backfilled).2 =
        backfilled + sessions.rows.countP isLegacy := by
  induction fuel generalizing sessions lastId backfilled with
  | zero => exact absurd hfuel (Nat.not_lt_zero _)
  | succ fuel ih =>
      unfold backfillFrom
      rw [legacyBatch_eq hcursor]
      dsimp only
      cases hlast : (firstBy Prod.fst a.limit (sessions.rows.filter isLegacy)).getLast? with
      | none =>
          -- an empty batch: there is no legacy row left
          have hempty : sessions.rows.filter isLegacy = [] := by
            have hlength : (firstBy Prod.fst a.limit (sessions.rows.filter isLegacy)).length =
                min a.limit (sessions.rows.filter isLegacy).length := length_firstBy
            rw [List.getLast?_eq_none_iff.mp hlast, List.length_nil] at hlength
            exact List.eq_nil_of_length_eq_zero (by omega)
          have hnone : ∀ r ∈ sessions.rows, ¬ isLegacy r = true := List.filter_eq_nil_iff.mp hempty
          have hsame : sessions.rows.map a.fillLegacy = sessions.rows.map id := by
            apply List.map_congr_left
            intro r hr
            exact if_neg (hnone r hr)
          rw [hsame, List.map_id, List.countP_eq_zero.mpr hnone]
          exact ⟨rfl, rfl⟩
      | some last =>
          have hmem := List.mem_of_getLast? hlast
          have hbatch : firstBy Prod.fst a.limit (sessions.rows.filter isLegacy) ⊆
              sessions.rows.filter isLegacy := firstBy_subset
          have hsub := List.Subset.trans hbatch (List.filter_subset_self _)
          have hlegacy : ∀ r ∈ firstBy Prod.fst a.limit (sessions.rows.filter isLegacy),
              isLegacy r := fun r hr => (List.mem_filter.mp (hbatch hr)).2
          have hsplit := isLegacy_split (a := a) (nodup_firstBy (nodup_map_fst isLegacy sessions))
            hsub hlegacy
          have hpos := List.length_pos_of_mem hmem
          have habove := above_batch hmem
          obtain ⟨hrows, hcount⟩ := ih (some last.1) (backfilled +
            (firstBy Prod.fst a.limit (sessions.rows.filter isLegacy)).length)
            (fun r hr hl x hx => Option.some.inj hx ▸ habove r hr hl) (by omega)
          dsimp only
          rw [hrows, hcount, map_fillLegacy_fillRows hsub hlegacy]
          exact ⟨rfl, by omega⟩

/-- **The backfill gives every row without a deadline its derived one.** -/
theorem backfill_eq (sessions : OrderedDict ι (ChatSession ι)) (hlimit : 0 < a.limit) :
    (backfill a sessions).1.rows = sessions.rows.map a.fillLegacy ∧
      (backfill a sessions).2 = sessions.rows.countP isLegacy := by
  have hcount : sessions.rows.countP isLegacy < sessions.len + 1 :=
    Nat.lt_succ_of_le List.countP_le_length
  obtain ⟨hrows, hbackfilled⟩ := backfillFrom_eq hlimit (sessions.len + 1) none 0
    (fun _ _ _ _ h => by cases h) hcount
  exact ⟨hrows, by rw [backfill, hbackfilled, Nat.zero_add]⟩

end Scap.Retention
