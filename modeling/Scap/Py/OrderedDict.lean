import Mathlib.Data.List.Nodup

/-!
# Dictionaries in insertion order

A Python `dict` where the order of its rows matters: an assignment to a key that is there keeps the
key's place, a new key comes last, and `del d[next(iter(d))]` deletes the oldest row.

`d ≤ e` says that `d` is what is left of `e` after some rows were deleted. A lookup in what is left
finds what it found before (`get_of_le`).
-/

namespace Scap.Py

structure OrderedDict (κ ν : Type*) where
  rows : List (κ × ν)
  nodup : (rows.map Prod.fst).Nodup

namespace OrderedDict

variable {κ ν : Type*} {d e f : OrderedDict κ ν} {k j : κ} {v x : ν}

def empty : OrderedDict κ ν := ⟨[], List.nodup_nil⟩

/-- `len(d)`. -/
def len (d : OrderedDict κ ν) : Nat := d.rows.length

/-- `d.values()`. -/
def values (d : OrderedDict κ ν) : List ν := d.rows.map Prod.snd

/-- `for key in [key for key, row in d.items() if not p]: del d[key]`. -/
def filter (d : OrderedDict κ ν) (p : κ × ν → Bool) : OrderedDict κ ν :=
  ⟨d.rows.filter p, d.nodup.sublist (List.filter_sublist.map Prod.fst)⟩

/-- Nothing is deleted where every row passes. -/
theorem filter_eq_self {p : κ × ν → Bool} (h : ∀ r ∈ d.rows, p r = true) : d.filter p = d := by
  obtain ⟨rows, hnodup⟩ := d
  simp only [filter, mk.injEq]
  exact List.filter_eq_self.mpr h

/-- `for key, row in d.items(): d[key] = f(key, row)`. -/
def mapValues (d : OrderedDict κ ν) (f : κ × ν → ν) : OrderedDict κ ν where
  rows := d.rows.map fun r => (r.1, f r)
  nodup := by
    rw [List.map_map]
    exact d.nodup

@[simp] theorem len_mapValues (f : κ × ν → ν) : (d.mapValues f).len = d.len := List.length_map _

/-- The keys are left alone. -/
theorem keys_mapValues (f : κ × ν → ν) :
    (d.mapValues f).rows.map Prod.fst = d.rows.map Prod.fst := List.map_map

/-! ## Deleting the oldest rows -/

/-- Delete the first row until `p` holds of the rest. -/
def discard (p : List (κ × ν) → Bool) : List (κ × ν) → List (κ × ν)
  | [] => []
  | r :: rs => if p (r :: rs) then r :: rs else discard p rs

theorem discard_sublist (p : List (κ × ν) → Bool) (rs : List (κ × ν)) :
    (discard p rs).Sublist rs := by
  induction rs with
  | nil => exact .slnil
  | cons r rs ih =>
      unfold discard
      split
      · exact .refl _
      · exact ih.cons r

/-- `while not p(d): del d[next(iter(d))]`. -/
def discardUntil (d : OrderedDict κ ν) (p : List (κ × ν) → Bool) : OrderedDict κ ν :=
  ⟨discard p d.rows, d.nodup.sublist ((discard_sublist p d.rows).map Prod.fst)⟩

/-- When all is deleted, `p` may still fail. -/
theorem discardUntil_cases (d : OrderedDict κ ν) (p : List (κ × ν) → Bool) :
    p (d.discardUntil p).rows = true ∨ (d.discardUntil p).rows = [] := by
  show p (discard p d.rows) = true ∨ discard p d.rows = []
  induction d.rows with
  | nil => exact .inr rfl
  | cons r rs ih =>
      unfold discard
      split
      · next h => exact .inl h
      · exact ih

/-- `while len(d) > n: del d[next(iter(d))]`. -/
theorem len_discardUntil_le (d : OrderedDict κ ν) (n : Nat) :
    (d.discardUntil fun rows => rows.length ≤ n).len ≤ n := by
  rcases d.discardUntil_cases fun rows => rows.length ≤ n with h | h
  · exact of_decide_eq_true h
  · rw [len, h]
    exact Nat.zero_le n

/-- `d.pop(next(iter(d)))`. -/
def popOldest (d : OrderedDict κ ν) : OrderedDict κ ν :=
  ⟨d.rows.tail, d.nodup.sublist ((List.tail_sublist d.rows).map Prod.fst)⟩

/-! ## What is left -/

instance : LE (OrderedDict κ ν) := ⟨fun d e => d.rows.Sublist e.rows⟩

theorem le_refl (d : OrderedDict κ ν) : d ≤ d := List.Sublist.refl d.rows

theorem le_trans (h : d ≤ e) (h' : e ≤ f) : d ≤ f := List.Sublist.trans h h'

theorem filter_le (p : κ × ν → Bool) : d.filter p ≤ d :=
  show (d.rows.filter p).Sublist d.rows from List.filter_sublist

theorem discardUntil_le (p : List (κ × ν) → Bool) : d.discardUntil p ≤ d := discard_sublist p d.rows

theorem popOldest_le : d.popOldest ≤ d := List.tail_sublist d.rows

theorem len_le (h : d ≤ e) : d.len ≤ e.len := List.Sublist.length_le h

theorem mem_of_le {r : κ × ν} (h : d ≤ e) (hr : r ∈ d.rows) : r ∈ e.rows := List.Sublist.subset h hr

/-- Two rows under one key are one row. -/
theorem row_eq {r s : κ × ν} (hr : r ∈ d.rows) (hs : s ∈ d.rows) (hkey : r.1 = s.1) : r = s :=
  List.inj_on_of_nodup_map d.nodup hr hs hkey

/-! ## Lookups -/

section Lookup

variable [DecidableEq κ]

/-- `d.get(k)`. -/
def get (d : OrderedDict κ ν) (k : κ) : Option ν :=
  (d.rows.find? fun r => r.1 = k).map Prod.snd

/-- `d.pop(k, None)`. -/
def pop (d : OrderedDict κ ν) (k : κ) : OrderedDict κ ν := d.filter fun r => r.1 ≠ k

theorem get_eq_some : d.get k = some v ↔ (k, v) ∈ d.rows := by
  rw [get, Option.map_eq_some_iff]
  constructor
  · rintro ⟨r, hr, rfl⟩
    have hkey : r.1 = k := by simpa using List.find?_some hr
    exact hkey ▸ List.mem_of_find?_eq_some hr
  · intro hmem
    cases hfind : d.rows.find? fun r => r.1 = k with
    | none => simpa using List.find?_eq_none.mp hfind (k, v) hmem
    | some r =>
        have hkey : r.1 = k := by simpa using List.find?_some hfind
        obtain rfl := row_eq (List.mem_of_find?_eq_some hfind) hmem hkey
        exact ⟨_, rfl, rfl⟩

theorem get_of_le (h : d ≤ e) (hk : d.get k = some v) : e.get k = some v :=
  get_eq_some.mpr (mem_of_le h (get_eq_some.mp hk))

theorem pop_le : d.pop k ≤ d := filter_le _

theorem pop_mono (h : d ≤ e) : d.pop k ≤ e.pop k := List.Sublist.filter _ h

@[simp] theorem get_pop_self : (d.pop k).get k = none := by
  rw [Option.eq_none_iff_forall_ne_some]
  intro v hv
  simpa using (List.mem_filter.mp (get_eq_some.mp hv)).2

theorem get_pop_of_ne (h : j ≠ k) : (d.pop k).get j = d.get j := by
  ext x
  rw [get_eq_some, get_eq_some]
  show (j, x) ∈ d.rows.filter _ ↔ _
  simp [h]

/-- Only the oldest row is not found any more. -/
theorem get_popOldest {r : κ × ν} {rest : List (κ × ν)} (h : d.rows = r :: rest) (k : κ) :
    d.popOldest.get k = if r.1 = k then none else d.get k := by
  have hnew : r.1 ∉ rest.map Prod.fst := by
    have hnodup := d.nodup
    rw [h, List.map_cons] at hnodup
    exact (List.nodup_cons.mp hnodup).1
  ext v
  rw [get_eq_some]
  show (k, v) ∈ d.rows.tail ↔ _
  rw [h, List.tail_cons]
  split
  · next heq =>
    subst heq
    simp only [reduceCtorEq, iff_false]
    exact fun hmem => hnew (List.mem_map.mpr ⟨_, hmem, rfl⟩)
  · next hne =>
    rw [get_eq_some, h, List.mem_cons]
    constructor
    · exact .inr
    · rintro (rfl | hmem)
      · exact absurd rfl hne
      · exact hmem

/-- The rows under the keys of some of the rows are these rows. -/
theorem filter_keys_perm {rows : List (κ × ν)} (hnodup : rows.Nodup) (hsub : rows ⊆ d.rows) :
    (d.rows.filter fun r => r.1 ∈ rows.map Prod.fst).Perm rows := by
  apply (List.perm_ext_iff_of_nodup (d.nodup.of_map.filter _) hnodup).mpr
  intro r
  rw [List.mem_filter, decide_eq_true_eq, List.mem_map]
  constructor
  · rintro ⟨hr, x, hx, hkey⟩
    exact row_eq hr (hsub hx) hkey.symm ▸ hx
  · intro hr
    exact ⟨hsub hr, r, hr, rfl⟩

/-! ## Assignment -/

/-- The rows after `d[k] = v`. -/
def setRows (rows : List (κ × ν)) (k : κ) (v : ν) : List (κ × ν) :=
  if k ∈ rows.map Prod.fst then rows.map fun r => if r.1 = k then (k, v) else r
  else rows ++ [(k, v)]

theorem nodup_setRows {rows : List (κ × ν)} (h : (rows.map Prod.fst).Nodup) :
    ((setRows rows k v).map Prod.fst).Nodup := by
  unfold setRows
  split
  · have hkeys : (rows.map fun r => if r.1 = k then (k, v) else r).map Prod.fst =
        rows.map Prod.fst := by
      rw [List.map_map]
      apply List.map_congr_left
      intro r _
      show (if r.1 = k then (k, v) else r).1 = r.1
      grind
    rw [hkeys]
    exact h
  · next hnew =>
    rw [List.map_append, List.nodup_append]
    refine ⟨h, List.nodup_singleton k, ?_⟩
    grind

/-- `d[k] = v`. -/
def set (d : OrderedDict κ ν) (k : κ) (v : ν) : OrderedDict κ ν :=
  ⟨setRows d.rows k v, nodup_setRows d.nodup⟩

/-- The new row, and the rows under other keys. -/
theorem mem_set {r : κ × ν} : r ∈ (d.set k v).rows ↔ r = (k, v) ∨ (r ∈ d.rows ∧ r.1 ≠ k) := by
  show r ∈ setRows d.rows k v ↔ _
  unfold setRows
  split
  · next hold =>
    obtain ⟨s, hs, hkey⟩ := List.mem_map.mp hold
    rw [List.mem_map]
    constructor
    · rintro ⟨t, ht, rfl⟩
      grind
    · rintro (rfl | ⟨hr, hne⟩)
      · exact ⟨s, hs, if_pos hkey⟩
      · exact ⟨r, hr, if_neg hne⟩
  · next hnew =>
    have hne : ∀ s ∈ d.rows, s.1 ≠ k := by
      intro s hs hkey
      exact hnew (List.mem_map.mpr ⟨s, hs, hkey⟩)
    rw [List.mem_append, List.mem_singleton]
    grind

theorem get_set : (d.set k v).get j = if j = k then some v else d.get j := by
  ext x
  rw [get_eq_some, mem_set]
  split
  · next h => simp [h, eq_comm]
  · next h => simp [h, get_eq_some]

/-- A new key comes last. -/
theorem rows_set_of_new (h : d.get k = none) : (d.set k v).rows = d.rows ++ [(k, v)] := by
  apply if_neg
  intro hmem
  obtain ⟨r, hr, rfl⟩ := List.mem_map.mp hmem
  rw [get_eq_some.mpr hr] at h
  cases h

/-- A key that is there keeps its place. -/
theorem len_set_of_get (h : d.get k = some x) : (d.set k v).len = d.len := by
  have hmem : k ∈ d.rows.map Prod.fst := List.mem_map.mpr ⟨_, get_eq_some.mp h, rfl⟩
  show (setRows d.rows k v).length = _
  rw [setRows, if_pos hmem, List.length_map]
  rfl

/-- Of two assignments to one key the second one counts. -/
@[simp] theorem set_set : (d.set k x).set k v = d.set k v := by
  have hrows : setRows (setRows d.rows k x) k v = setRows d.rows k v := by
    by_cases hmem : k ∈ d.rows.map Prod.fst
    · have hkeep : k ∈ (d.rows.map fun r => if r.1 = k then (k, x) else r).map Prod.fst := by
        obtain ⟨r, hr, hkey⟩ := List.mem_map.mp hmem
        exact List.mem_map.mpr ⟨_, List.mem_map.mpr ⟨r, hr, if_pos hkey⟩, rfl⟩
      rw [setRows, setRows, if_pos hmem, if_pos hkeep, setRows, if_pos hmem, List.map_map]
      apply List.map_congr_left
      intro r _
      show (if (if r.1 = k then (k, x) else r).1 = k then _ else _) = _
      grind
    · have hother : ∀ r ∈ d.rows, r.1 ≠ k := by
        intro r hr hkey
        exact hmem (List.mem_map.mpr ⟨r, hr, hkey⟩)
      have hlast : k ∈ (d.rows ++ [(k, x)]).map Prod.fst := by simp
      have hkeep : (d.rows.map fun r => if r.1 = k then (k, v) else r) = d.rows := by
        rw [List.map_congr_left fun r hr => if_neg (hother r hr)]
        exact List.map_id' _
      rw [setRows, setRows, if_neg hmem, if_pos hlast, setRows, if_neg hmem, List.map_append, hkeep]
      simp
  show (⟨_, _⟩ : OrderedDict κ ν) = ⟨_, _⟩
  simp only [set, hrows]

@[simp] theorem get_set_self : (d.set k v).get k = some v := by rw [get_set, if_pos rfl]

/-! ## Counting what the rows hold -/

theorem pop_of_get (h : d.get k = none) : d.pop k = d := by
  apply filter_eq_self
  intro r hr
  have hne : r.1 ≠ k := by
    rintro rfl
    rw [get_eq_some.mpr hr] at h
    cases h
  simpa using hne

/-- The row of a key and the rows under other keys. -/
theorem nodup_cons_pop : ((k, v) :: (d.pop k).rows).Nodup := by
  refine List.nodup_cons.mpr ⟨fun hr => ?_, d.nodup.of_map.filter _⟩
  simpa using (List.mem_filter.mp hr).2

theorem mem_pop {r : κ × ν} : r ∈ (d.pop k).rows ↔ r ∈ d.rows ∧ r.1 ≠ k := by
  show r ∈ d.rows.filter _ ↔ _
  simp

theorem perm_pop (h : d.get k = some x) : d.rows.Perm ((k, x) :: (d.pop k).rows) := by
  have hmem := get_eq_some.mp h
  apply (List.perm_ext_iff_of_nodup d.nodup.of_map nodup_cons_pop).mpr
  intro r
  rw [List.mem_cons, mem_pop]
  constructor
  · intro hr
    by_cases hkey : r.1 = k
    · exact .inl (row_eq hr hmem hkey)
    · exact .inr ⟨hr, hkey⟩
  · rintro (rfl | ⟨hr, -⟩)
    · exact hmem
    · exact hr

theorem perm_set : (d.set k v).rows.Perm ((k, v) :: (d.pop k).rows) := by
  apply (List.perm_ext_iff_of_nodup (d.set k v).nodup.of_map nodup_cons_pop).mpr
  intro r
  rw [mem_set, List.mem_cons, mem_pop]

theorem len_pop (h : d.get k = some x) : (d.pop k).len + 1 = d.len := (perm_pop h).length_eq.symm

theorem len_set_le : (d.set k v).len ≤ d.len + 1 := by
  have hlen : (d.set k v).len = (d.pop k).len + 1 := perm_set.length_eq
  rw [hlen]
  exact Nat.succ_le_succ (len_le pop_le)

section Entries

variable {ε : Type*} [BEq ε] {e : ε} {f : κ × ν → Option ε}

/-- What some of the rows hold. -/
def entries (f : κ × ν → Option ε) (d : OrderedDict κ ν) : List ε := d.rows.filterMap f

theorem count_entries_pop (h : d.get k = some x) (f : κ × ν → Option ε) (e : ε) :
    (d.entries f).count e = (f (k, x)).toList.count e + ((d.pop k).entries f).count e := by
  rw [entries, ((perm_pop h).filterMap f).count_eq, List.filterMap_cons]
  cases f (k, x) with
  | none => simp [entries]
  | some y => simp [entries, List.count_cons, Nat.add_comm]

theorem count_entries_set (f : κ × ν → Option ε) (e : ε) : ((d.set k v).entries f).count e =
    (f (k, v)).toList.count e + ((d.pop k).entries f).count e := by
  rw [entries, (perm_set.filterMap f).count_eq, List.filterMap_cons]
  cases f (k, v) with
  | none => simp [entries]
  | some y => simp [entries, List.count_cons, Nat.add_comm]

omit [DecidableEq κ] in
/-- What stays and what goes. -/
theorem count_entries_filter (p : κ × ν → Bool) (f : κ × ν → Option ε) (e : ε) :
    (d.entries f).count e =
      ((d.filter p).entries f).count e + ((d.filter fun r => !p r).entries f).count e := by
  show (d.rows.filterMap f).count e = ((d.rows.filter p).filterMap f).count e +
    ((d.rows.filter fun r => !p r).filterMap f).count e
  induction d.rows with
  | nil => rfl
  | cons r rows ih =>
      cases hp : p r <;> cases hf : f r <;> simp [hp, hf, List.count_cons, ih] <;> omega

omit [DecidableEq κ] [BEq ε] in
theorem entries_mapValues {g : κ × ν → ν} (h : ∀ r ∈ d.rows, f (r.1, g r) = f r) :
    (d.mapValues g).entries f = d.entries f := by
  unfold entries mapValues
  rw [List.filterMap_map]
  exact List.filterMap_congr h

omit [DecidableEq κ] [BEq ε] in
theorem mem_entries {f : κ × ν → Option ε} : e ∈ d.entries f ↔ ∃ r ∈ d.rows, f r = some e :=
  List.mem_filterMap

end Entries

/-! ## Images -/

section Images

/-- The same keys in the same places, with the images of the values. -/
def Maps {μ : Type*} (g : ν → μ) (d : OrderedDict κ ν) (e : OrderedDict κ μ) : Prop :=
  e.rows = d.rows.map fun r => (r.1, g r.2)

variable {μ : Type*} {g : ν → μ} {image : OrderedDict κ μ}

omit [DecidableEq κ] in
theorem Maps.keys (h : d.Maps g image) : image.rows.map Prod.fst = d.rows.map Prod.fst := by
  rw [show image.rows = _ from h, List.map_map]
  rfl

omit [DecidableEq κ] in
theorem Maps.len (h : d.Maps g image) : image.len = d.len := by
  simpa [OrderedDict.len] using congrArg List.length h

theorem Maps.get (h : d.Maps g image) : image.get k = (d.get k).map g := by
  rw [OrderedDict.get, OrderedDict.get, show image.rows = _ from h, List.find?_map, Option.map_map,
    Option.map_map]
  rfl

theorem Maps.pop (h : d.Maps g image) : (d.pop k).Maps g (image.pop k) := by
  show List.filter _ image.rows = List.map _ (List.filter _ d.rows)
  rw [show image.rows = _ from h, List.filter_map]
  rfl

/-- An assignment replaces the value in its place or comes last, in both. -/
theorem Maps.set (h : d.Maps g image) : (d.set k v).Maps g (image.set k (g v)) := by
  show setRows image.rows k (g v) = List.map _ (setRows d.rows k v)
  unfold setRows
  rw [h.keys]
  split
  · rw [show image.rows = _ from h, List.map_map, List.map_map]
    apply List.map_congr_left
    intro r _
    simp only [Function.comp_apply]
    split <;> rfl
  · rw [show image.rows = _ from h, List.map_append]
    rfl

end Images

end Lookup

end OrderedDict

end Scap.Py
