import Mathlib.Data.List.Sort

/-!
# Tables with a unique key

`KeyedTable key` is a table whose rows have pairwise distinct keys, kept in key order: the normal
form of a database table with a unique column, as every `ORDER BY` of that column shows it. The
order is a field, so a table with two rows of one key cannot be built.

`insert?` is an `INSERT` that fails on a key already present; `last?` is
`ORDER BY key DESC LIMIT 1`; `find?` is a lookup by key; `modify` is an `UPDATE` that leaves the
keys alone and `filter` what a `DELETE` leaves.
-/

namespace Scap.Lib

/-- Rows in strictly increasing key order. -/
structure KeyedTable {ρ κ : Type*} [LinearOrder κ] (key : ρ → κ) where
  rows : List ρ
  sorted : rows.Pairwise fun a b => key a < key b

namespace KeyedTable

variable {ρ κ : Type*} [LinearOrder κ] {key : ρ → κ}

theorem ext {t u : KeyedTable key} (h : t.rows = u.rows) : t = u := by
  cases t; cases u; simp_all

/-- The table without rows. -/
def empty : KeyedTable key := ⟨[], List.Pairwise.nil⟩

@[simp] theorem rows_empty : (empty : KeyedTable key).rows = [] := rfl

/-- The row with the greatest key. -/
def last? (t : KeyedTable key) : Option ρ := t.rows.getLast?

/-- The row with key `k`. -/
def find? (t : KeyedTable key) (k : κ) : Option ρ := t.rows.find? fun r => key r = k

/-- The rows whose key is at most `k`. -/
def upTo (t : KeyedTable key) (k : κ) : List ρ := t.rows.filter fun r => key r ≤ k

/-- Whether some row has key `k`. -/
def hasKey (t : KeyedTable key) (k : κ) : Bool := t.rows.any fun r => key r = k

theorem hasKey_eq_false {t : KeyedTable key} {k : κ} :
    t.hasKey k = false ↔ ∀ r ∈ t.rows, key r ≠ k := by
  simp [hasKey]

/-! ## Insertion -/

/-- `INSERT`: refused when the key is taken. -/
def insert? (t : KeyedTable key) (r : ρ) : Option (KeyedTable key) :=
  if h : t.hasKey (key r) = false then
    some ⟨t.rows.orderedInsert (fun a b => key a ≤ key b) r, by
      have hle : (t.rows.orderedInsert (fun a b => key a ≤ key b) r).Pairwise
          fun a b => key a ≤ key b := by
        have : Std.Total fun a b : ρ => key a ≤ key b := ⟨fun a b => le_total _ _⟩
        have : IsTrans ρ fun a b => key a ≤ key b := ⟨fun _ _ _ => le_trans⟩
        exact List.Pairwise.orderedInsert _ _ (t.sorted.imp fun h => le_of_lt h)
      have hne : (t.rows.orderedInsert (fun a b => key a ≤ key b) r).Pairwise
          fun a b => key a ≠ key b := by
        refine ((List.perm_orderedInsert _ r t.rows).pairwise_iff
          (fun hab => Ne.symm hab)).mpr ?_
        refine List.pairwise_cons.mpr ⟨fun x hx => ?_, t.sorted.imp fun h => ne_of_lt h⟩
        exact (hasKey_eq_false.mp h x hx).symm
      exact (hle.and hne).imp fun h => lt_of_le_of_ne h.1 h.2⟩
  else none

theorem insert?_eq_some {t u : KeyedTable key} {r : ρ} (h : t.insert? r = some u) :
    t.hasKey (key r) = false ∧ u.rows = t.rows.orderedInsert (fun a b => key a ≤ key b) r := by
  unfold insert? at h
  split at h
  · next hk =>
    cases h
    exact ⟨hk, rfl⟩
  · cases h

theorem mem_insert? {t u : KeyedTable key} {r x : ρ} (h : t.insert? r = some u) :
    x ∈ u.rows ↔ x = r ∨ x ∈ t.rows := by
  rw [(insert?_eq_some h).2, List.mem_orderedInsert]

/-- A row with a new key can be inserted. -/
theorem exists_insert? {t : KeyedTable key} {r : ρ} (h : ∀ x ∈ t.rows, key x ≠ key r) :
    ∃ u, t.insert? r = some u :=
  ⟨_, by rw [insert?, dif_pos (hasKey_eq_false.mpr h)]⟩

/-- A row with a key above all others is appended. -/
theorem insert?_of_above {t : KeyedTable key} {r : ρ} (h : ∀ x ∈ t.rows, key x < key r) :
    ∃ u, t.insert? r = some u ∧ u.rows = t.rows ++ [r] := by
  have hk : t.hasKey (key r) = false := hasKey_eq_false.mpr fun x hx => ne_of_lt (h x hx)
  refine ⟨_, by rw [insert?, dif_pos hk], ?_⟩
  show t.rows.orderedInsert (fun a b => key a ≤ key b) r = t.rows ++ [r]
  clear hk
  revert h
  induction t.rows with
  | nil => intro _; rfl
  | cons x xs ih =>
      intro h
      have hx : ¬ key r ≤ key x := not_le.mpr (h x List.mem_cons_self)
      rw [List.orderedInsert_cons, if_neg hx, ih fun y hy => h y (List.mem_cons_of_mem _ hy)]
      rfl

/-! ## Lookup -/

theorem find?_eq_some {t : KeyedTable key} {k : κ} {r : ρ} (h : t.find? k = some r) :
    r ∈ t.rows ∧ key r = k :=
  ⟨List.mem_of_find?_eq_some h, by simpa using List.find?_some h⟩

theorem find?_of_mem {t : KeyedTable key} {r : ρ} (h : r ∈ t.rows) : t.find? (key r) = some r := by
  obtain ⟨rows, hs⟩ := t
  change rows.find? (fun x => key x = key r) = some r
  change r ∈ rows at h
  induction rows with
  | nil => cases h
  | cons x xs ih =>
      rcases List.mem_cons.mp h with rfl | hx
      · simp
      · have hlt : key x < key r := (List.pairwise_cons.mp hs).1 r hx
        rw [List.find?_cons_of_neg (by simpa using ne_of_lt hlt)]
        exact ih (List.pairwise_cons.mp hs).2 hx

theorem find?_iff {t : KeyedTable key} {k : κ} {r : ρ} :
    t.find? k = some r ↔ r ∈ t.rows ∧ key r = k :=
  ⟨find?_eq_some, by rintro ⟨hr, rfl⟩; exact find?_of_mem hr⟩

theorem find?_eq_none {t : KeyedTable key} {k : κ} :
    t.find? k = none ↔ ∀ r ∈ t.rows, key r ≠ k := by
  simp [find?]

/-- A key names one row. -/
theorem eq_of_key {t : KeyedTable key} {r x : ρ} (hr : r ∈ t.rows) (hx : x ∈ t.rows)
    (h : key r = key x) : r = x := by
  have hfind := find?_of_mem hr
  rw [h, find?_of_mem hx] at hfind
  exact (Option.some.inj hfind).symm

/-- Among the rows with one key there is at most one. -/
theorem countP_le_one {t : KeyedTable key} {p : ρ → Bool} {k : κ}
    (h : ∀ r ∈ t.rows, p r = true → key r = k) : t.rows.countP p ≤ 1 := by
  rw [List.countP_eq_length_filter]
  have hsorted := t.sorted.filter p
  match hrows : t.rows.filter p with
  | [] => exact Nat.zero_le 1
  | [_] => exact le_refl 1
  | x :: y :: rest =>
      rw [hrows] at hsorted
      have hlt := (List.pairwise_cons.mp hsorted).1 y List.mem_cons_self
      have hkey : ∀ z ∈ x :: y :: rest, key z = k := by
        intro z hz
        rw [← hrows] at hz
        obtain ⟨hmem, hz⟩ := List.mem_filter.mp hz
        exact h z hmem hz
      rw [hkey x List.mem_cons_self,
        hkey y (List.mem_cons_of_mem _ List.mem_cons_self)] at hlt
      exact absurd hlt (lt_irrefl k)

/-! ## Insertion of what is new, update, deletion -/

/-- `INSERT` unless the key is there already. -/
def insertNew (t : KeyedTable key) (r : ρ) : KeyedTable key := (t.insert? r).getD t

theorem insertNew_of_hasKey {t : KeyedTable key} {r : ρ} (h : t.hasKey (key r) = true) :
    t.insertNew r = t := by
  simp [insertNew, insert?, h]

theorem mem_insertNew {t : KeyedTable key} {r x : ρ} (h : ∀ y ∈ t.rows, key y ≠ key r) :
    x ∈ (t.insertNew r).rows ↔ x = r ∨ x ∈ t.rows := by
  obtain ⟨u, hu⟩ := exists_insert? h
  rw [insertNew, hu, Option.getD_some]
  exact mem_insert? hu

/-- Whether the key was there or not, nothing else appears and nothing disappears. -/
theorem mem_insertNew_or {t : KeyedTable key} {r x : ρ} (h : x ∈ (t.insertNew r).rows) :
    x = r ∨ x ∈ t.rows := by
  cases hk : t.hasKey (key r) with
  | true => rw [insertNew_of_hasKey hk] at h; exact .inr h
  | false => exact (mem_insertNew (hasKey_eq_false.mp hk)).mp h

theorem mem_insertNew_of_mem {t : KeyedTable key} {r x : ρ} (h : x ∈ t.rows) :
    x ∈ (t.insertNew r).rows := by
  cases hk : t.hasKey (key r) with
  | true => rw [insertNew_of_hasKey hk]; exact h
  | false => exact (mem_insertNew (hasKey_eq_false.mp hk)).mpr (.inr h)

/-- A new row is added to the others. -/
theorem perm_insertNew {t : KeyedTable key} {r : ρ} (h : ∀ y ∈ t.rows, key y ≠ key r) :
    (t.insertNew r).rows.Perm (r :: t.rows) := by
  obtain ⟨u, hu⟩ := exists_insert? h
  rw [insertNew, hu, Option.getD_some, (insert?_eq_some hu).2]
  exact List.perm_orderedInsert _ r t.rows

/-- A row that fails `p` is not seen by the rows that pass it. -/
theorem filter_insert?_of_not {t u : KeyedTable key} {r : ρ} {p : ρ → Bool}
    (h : t.insert? r = some u) (hp : p r = false) : u.rows.filter p = t.rows.filter p := by
  have hperm : (u.rows.filter p).Perm ((r :: t.rows).filter p) := by
    rw [(insert?_eq_some h).2]
    exact (List.perm_orderedInsert _ r t.rows).filter p
  rw [List.filter_cons_of_neg (by simp [hp])] at hperm
  apply hperm.eq_of_pairwise _ (u.sorted.filter p) (t.sorted.filter p)
  intro a b _ _ hab hba
  exact absurd (hab.trans hba) (lt_irrefl _)

/-- A row that passes `p` comes last among those that do if it is above them. -/
theorem filter_insert?_of_above {t u : KeyedTable key} {r : ρ} {p : ρ → Bool}
    (h : t.insert? r = some u) (hp : p r = true)
    (habove : ∀ x ∈ t.rows, p x = true → key x < key r) :
    u.rows.filter p = t.rows.filter p ++ [r] := by
  have hperm : (u.rows.filter p).Perm (t.rows.filter p ++ [r]) := by
    apply List.Perm.trans _ (List.perm_append_singleton r _).symm
    rw [(insert?_eq_some h).2, ← List.filter_cons_of_pos hp]
    exact (List.perm_orderedInsert _ r t.rows).filter p
  have hsorted : (t.rows.filter p ++ [r]).Pairwise fun a b => key a < key b := by
    apply List.pairwise_append.mpr
    refine ⟨t.sorted.filter p, List.pairwise_singleton _ _, ?_⟩
    intro x hx y hy
    obtain rfl := List.mem_singleton.mp hy
    obtain ⟨hx, hpx⟩ := List.mem_filter.mp hx
    exact habove x hx hpx
  apply hperm.eq_of_pairwise _ (u.sorted.filter p) hsorted
  intro a b _ _ hab hba
  exact absurd (hab.trans hba) (lt_irrefl _)

/-- After an insertion the key is there. -/
theorem exists_insertNew (t : KeyedTable key) (r : ρ) :
    ∃ x ∈ (t.insertNew r).rows, key x = key r := by
  cases hk : t.hasKey (key r) with
  | true =>
      rw [insertNew_of_hasKey hk]
      simpa [hasKey] using hk
  | false => exact ⟨r, (mem_insertNew (hasKey_eq_false.mp hk)).mpr (.inl rfl), rfl⟩

/-- `UPDATE` of columns other than the key. -/
def modify (t : KeyedTable key) (f : ρ → ρ) (h : ∀ r, key (f r) = key r) : KeyedTable key where
  rows := t.rows.map f
  sorted := List.pairwise_map.mpr (t.sorted.imp fun hab => by rwa [h, h])

@[simp] theorem mem_modify {t : KeyedTable key} {f : ρ → ρ} {h : ∀ r, key (f r) = key r} {x : ρ} :
    x ∈ (t.modify f h).rows ↔ ∃ r ∈ t.rows, f r = x := List.mem_map

theorem find?_modify {t : KeyedTable key} {f : ρ → ρ} {h : ∀ r, key (f r) = key r} {k : κ} :
    (t.modify f h).find? k = (t.find? k).map f := by
  cases hf : t.find? k with
  | none =>
      refine find?_eq_none.mpr fun x hx => ?_
      obtain ⟨r, hr, rfl⟩ := mem_modify.mp hx
      rw [h]
      exact find?_eq_none.mp hf r hr
  | some r =>
      obtain ⟨hr, rfl⟩ := find?_eq_some hf
      exact find?_iff.mpr ⟨mem_modify.mpr ⟨r, hr, rfl⟩, h r⟩

/-- `DELETE` of the rows that fail `p`. -/
def filter (t : KeyedTable key) (p : ρ → Bool) : KeyedTable key where
  rows := t.rows.filter p
  sorted := t.sorted.filter p

@[simp] theorem mem_filter {t : KeyedTable key} {p : ρ → Bool} {x : ρ} :
    x ∈ (t.filter p).rows ↔ x ∈ t.rows ∧ p x = true := List.mem_filter

theorem find?_filter_of_pass {t : KeyedTable key} {p : ρ → Bool} {k : κ} {r : ρ}
    (h : t.find? k = some r) (hp : p r = true) : (t.filter p).find? k = some r := by
  obtain ⟨hr, hk⟩ := find?_eq_some h
  exact find?_iff.mpr ⟨mem_filter.mpr ⟨hr, hp⟩, hk⟩

theorem find?_insertNew_of_some {t : KeyedTable key} {k : κ} {r x : ρ} (h : t.find? k = some r) :
    (t.insertNew x).find? k = some r := by
  obtain ⟨hr, hk⟩ := find?_eq_some h
  exact find?_iff.mpr ⟨mem_insertNew_of_mem hr, hk⟩

/-! ## Prefixes by key -/

/-- Where a table splits at a row, its key splits it too. -/
theorem upTo_split {t : KeyedTable key} {r : ρ} {before after : List ρ}
    (h : t.rows = before ++ r :: after) : t.upTo (key r) = before ++ [r] := by
  have hsorted := t.sorted
  rw [h, List.pairwise_append] at hsorted
  obtain ⟨-, hright, hcross⟩ := hsorted
  have hbefore : before.filter (fun x => key x ≤ key r) = before :=
    List.filter_eq_self.mpr fun x hx => by
      simpa using le_of_lt (hcross x hx r List.mem_cons_self)
  have hafter : after.filter (fun x => key x ≤ key r) = [] :=
    List.filter_eq_nil_iff.mpr fun x hx => by
      simpa using (List.pairwise_cons.mp hright).1 x hx
  simp [upTo, h, hbefore, hafter]

/-- The row that has `n` rows above it is the first of the last `n + 1`. -/
theorem rows_filter_from {t : KeyedTable key} {n : Nat} {r : ρ}
    (h : t.rows.reverse[n]? = some r) :
    (t.filter fun x => key r ≤ key x).rows = t.rows.drop (t.rows.length - 1 - n) := by
  obtain ⟨hn, hget⟩ := List.getElem?_eq_some_iff.mp h
  rw [List.length_reverse] at hn
  rw [List.getElem_reverse] at hget
  have hsplit := (List.take_append_drop (t.rows.length - 1 - n) t.rows).symm
  rw [List.drop_eq_getElem_cons (by omega), hget] at hsplit
  have hsorted := t.sorted
  rw [hsplit, List.pairwise_append] at hsorted
  obtain ⟨-, hright, hcross⟩ := hsorted
  have hbefore : (t.rows.take (t.rows.length - 1 - n)).filter (fun x => key r ≤ key x) = [] := by
    apply List.filter_eq_nil_iff.mpr
    intro x hx
    simpa using hcross x hx r List.mem_cons_self
  have hafter : (t.rows.drop (t.rows.length - 1 - n + 1)).filter (fun x => key r ≤ key x) =
      t.rows.drop (t.rows.length - 1 - n + 1) := by
    apply List.filter_eq_self.mpr
    intro x hx
    simpa using le_of_lt ((List.pairwise_cons.mp hright).1 x hx)
  show t.rows.filter _ = t.rows.drop (t.rows.length - 1 - n)
  rw [List.drop_eq_getElem_cons (by omega), hget]
  conv_lhs => rw [hsplit]
  rw [List.filter_append, hbefore, List.nil_append, List.filter_cons_of_pos (by simp), hafter]

theorem length_filter_from {t : KeyedTable key} {n : Nat} {r : ρ}
    (h : t.rows.reverse[n]? = some r) : (t.filter fun x => key r ≤ key x).rows.length = n + 1 := by
  have hn := (List.getElem?_eq_some_iff.mp h).1
  rw [List.length_reverse] at hn
  rw [rows_filter_from h, List.length_drop]
  omega

/-- The rows up to the key of a row are an initial segment of the table that ends in that row. -/
theorem upTo_eq {t : KeyedTable key} {r : ρ} (h : r ∈ t.rows) :
    ∃ before after, t.rows = before ++ r :: after ∧ t.upTo (key r) = before ++ [r] := by
  obtain ⟨before, after, hsplit⟩ := List.append_of_mem h
  exact ⟨before, after, hsplit, upTo_split hsplit⟩

/-- Every row is the last one or below it. -/
theorem eq_or_lt_last {t : KeyedTable key} {r x : ρ} (h : t.last? = some r) (hx : x ∈ t.rows) :
    x = r ∨ key x < key r := by
  obtain ⟨init, hinit⟩ := List.getLast?_eq_some_iff.mp h
  have hs := t.sorted
  rw [hinit, List.pairwise_append] at hs
  rw [hinit] at hx
  rcases List.mem_append.mp hx with hx | hx
  · exact .inr (hs.2.2 x hx r (by simp))
  · exact .inl (List.mem_singleton.mp hx)

end KeyedTable

end Scap.Lib
