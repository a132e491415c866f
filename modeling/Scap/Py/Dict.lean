import Scap.Lib.KeyedTable

/-!
# Dictionaries

A Python `dict` as far as the code that uses it can tell here: lookups, assignments, `pop`, `len`
and folds over the values, none of which depends on the insertion order. The rows of a keyed table
are such a dictionary.
-/

namespace Scap.Py

open Scap.Lib

abbrev Dict (κ ν : Type*) [LinearOrder κ] := KeyedTable (Prod.fst : κ × ν → κ)

namespace Dict

variable {κ ν : Type*} [LinearOrder κ] {d : Dict κ ν} {k j : κ} {v x : ν}

/-- `d.get(k)`. -/
def get (d : Dict κ ν) (k : κ) : Option ν := (d.find? k).map Prod.snd

/-- `d.pop(k, None)`. -/
def pop (d : Dict κ ν) (k : κ) : Dict κ ν := d.filter fun r => r.1 ≠ k

/-- `d[k] = v`. -/
def set (d : Dict κ ν) (k : κ) (v : ν) : Dict κ ν := (d.pop k).insertNew (k, v)

/-- `len(d)`. -/
def len (d : Dict κ ν) : Nat := d.rows.length

/-- `list(d.values())`. -/
def values (d : Dict κ ν) : List ν := d.rows.map Prod.snd

/-- The keys, each once. -/
def keys (d : Dict κ ν) : List κ := d.rows.map Prod.fst

theorem get_eq_some : d.get k = some v ↔ (k, v) ∈ d.rows := by
  simp only [get, Option.map_eq_some_iff, KeyedTable.find?_iff]
  constructor
  · rintro ⟨⟨k, v⟩, ⟨hmem, rfl⟩, rfl⟩
    exact hmem
  · intro hmem
    exact ⟨(k, v), ⟨hmem, rfl⟩, rfl⟩

theorem get_eq_none : d.get k = none ↔ ∀ r ∈ d.rows, r.1 ≠ k := by
  simp only [get, Option.map_eq_none_iff, KeyedTable.find?_eq_none]

@[simp] theorem get_empty : Dict.get (KeyedTable.empty : Dict κ ν) k = none := rfl

/-- A dictionary is what its lookups say. -/
theorem mem_keys : k ∈ d.keys ↔ d.get k ≠ none := by
  rw [keys, List.mem_map, Option.ne_none_iff_exists']
  constructor
  · rintro ⟨⟨k, v⟩, hmem, rfl⟩
    exact ⟨v, get_eq_some.mpr hmem⟩
  · rintro ⟨v, hv⟩
    exact ⟨(k, v), get_eq_some.mp hv, rfl⟩

theorem nodup_keys (d : Dict κ ν) : d.keys.Nodup :=
  List.pairwise_map.mpr (d.sorted.imp fun h => ne_of_lt h)

theorem mem_values : v ∈ d.values ↔ ∃ k, d.get k = some v := by
  rw [values, List.mem_map]
  constructor
  · rintro ⟨⟨k, v⟩, hmem, rfl⟩
    exact ⟨k, get_eq_some.mpr hmem⟩
  · rintro ⟨k, hk⟩
    exact ⟨(k, v), get_eq_some.mp hk, rfl⟩

/-! ## Assignment -/

/-- What is left of the rows that pass `p`. -/
theorem get_filter {p : κ × ν → Bool} :
    Dict.get (d.filter p) k = (d.get k).filter fun v => p (k, v) := by
  ext v
  rw [get_eq_some, KeyedTable.mem_filter, Option.filter_eq_some_iff, get_eq_some]

@[simp] theorem get_pop_self : (d.pop k).get k = none := by
  rw [pop, get_filter]
  simp

theorem get_pop_of_ne (h : j ≠ k) : (d.pop k).get j = d.get j := by
  rw [pop, get_filter]
  cases d.get j <;> simp [h]

theorem pop_fresh : ∀ r ∈ (d.pop k).rows, r.1 ≠ k := by
  intro r hr
  simpa using (KeyedTable.mem_filter.mp hr).2

@[simp] theorem get_set_self : (d.set k v).get k = some v :=
  get_eq_some.mpr ((KeyedTable.mem_insertNew (r := (k, v)) pop_fresh).mpr (.inl rfl))

theorem get_set_of_ne (h : j ≠ k) : (d.set k v).get j = d.get j := by
  rw [← get_pop_of_ne (d := d) h]
  ext x
  rw [get_eq_some, get_eq_some, set, KeyedTable.mem_insertNew (r := (k, v)) pop_fresh]
  simp [h]

theorem get_set : (d.set k v).get j = if j = k then some v else d.get j := by
  split
  · next h => rw [h, get_set_self]
  · next h => exact get_set_of_ne h

/-! ## Length -/

theorem len_filter_le {p : κ × ν → Bool} : len (d.filter p) ≤ d.len := List.length_filter_le _ _

theorem length_insertNew {t : Dict κ ν} {r : κ × ν} (h : ∀ y ∈ t.rows, y.1 ≠ r.1) :
    (t.insertNew r).rows.length = t.rows.length + 1 := by
  obtain ⟨u, hu⟩ := KeyedTable.exists_insert? h
  rw [KeyedTable.insertNew, hu, Option.getD_some, (KeyedTable.insert?_eq_some hu).2,
    List.orderedInsert_length]

/-- A new key makes the dictionary longer by one, an old one does not. -/
theorem len_set_new (h : d.get k = none) : (d.set k v).len = d.len + 1 := by
  have hsame : (d.pop k).rows = d.rows := by
    apply List.filter_eq_self.mpr
    intro r hr
    simpa using get_eq_none.mp h r hr
  rw [len, set, length_insertNew (r := (k, v)) pop_fresh, hsame, len]

theorem len_pop_lt (h : d.get k = some x) : (d.pop k).len < d.len := by
  apply List.length_filter_lt_length_iff_exists.mpr
  exact ⟨(k, x), get_eq_some.mp h, by simp⟩

theorem len_set_old (h : d.get k = some x) : (d.set k v).len ≤ d.len := by
  rw [len, set, length_insertNew (r := (k, v)) pop_fresh]
  exact len_pop_lt h

theorem len_keys : d.keys.length = d.len := List.length_map ..

end Dict

end Scap.Py
