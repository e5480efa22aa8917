import Holonomy.Foundation.Histories

/-!
# Maps in insertion order

A map lists its entries in the order in which their keys came, every key once. Setting a key that is
there changes its value in place; a key that is set anew comes last.
-/

namespace Holonomy.Foundation

/-- Entries under different keys. -/
structure OrderedMap (κ α : Type) where
  /-- The entries, in the order of their keys' coming. -/
  entries : List (κ × α)
  /-- No key comes twice. -/
  distinct : (entries.map Prod.fst).Nodup

namespace OrderedMap

section Operations

variable {κ α : Type}

/-- The map without entries. -/
def empty : OrderedMap κ α := ⟨[], List.nodup_nil⟩

/-- The number of entries. -/
def size (map : OrderedMap κ α) : ℕ := map.entries.length

/-- The entries that are kept. -/
def filter (map : OrderedMap κ α) (keep : κ × α → Bool) : OrderedMap κ α where
  entries := map.entries.filter keep
  distinct := map.distinct.sublist (List.filter_sublist.map Prod.fst)

/-- Other values under the same keys. -/
def mapValues {β : Type} (map : OrderedMap κ α) (change : α → β) : OrderedMap κ β where
  entries := map.entries.map fun entry => (entry.1, change entry.2)
  distinct := by
    rw [List.map_map]
    exact map.distinct

variable [DecidableEq κ] (map : OrderedMap κ α)

/-- The value under a key. -/
def get? (key : κ) : Option α := (map.entries.find? fun entry => entry.1 = key).map Prod.snd

/-- Drop a key. -/
def delete (key : κ) : OrderedMap κ α := map.filter fun entry => entry.1 ≠ key

/-- Put a value under a key. -/
def set (key : κ) (value : α) : OrderedMap κ α where
  entries :=
    if key ∈ map.entries.map Prod.fst then
      map.entries.map fun entry => if entry.1 = key then (key, value) else entry
    else map.entries ++ [(key, value)]
  distinct := by
    split
    · have same : (map.entries.map fun entry => if entry.1 = key then (key, value) else entry).map
          Prod.fst = map.entries.map Prod.fst := by
        rw [List.map_map]
        refine List.map_congr_left fun entry _ => ?_
        by_cases here : entry.1 = key
        · simp [here]
        · simp [here]
      rw [same]
      exact map.distinct
    · rename_i absent
      rw [List.map_append]
      exact nodup_concat map.distinct absent

end Operations

section Entries

variable {κ α : Type} {map : OrderedMap κ α}

/-- A map is its entries. -/
@[ext]
theorem ext {left right : OrderedMap κ α} (same : left.entries = right.entries) : left = right := by
  cases left
  cases right
  cases same
  rfl

theorem entry_unique {first second : κ × α} (firstIn : first ∈ map.entries)
    (secondIn : second ∈ map.entries) (same : first.1 = second.1) : first = second :=
  List.inj_on_of_nodup_map map.distinct firstIn secondIn same

@[simp]
theorem size_mapValues {β : Type} (change : α → β) : (map.mapValues change).size = map.size := by
  rw [size, mapValues, List.length_map, size]

end Entries

section Lookup

variable {κ α : Type} [DecidableEq κ] {map : OrderedMap κ α} {key other : κ} {value : α}

theorem entries_set_of_mem (present : key ∈ map.entries.map Prod.fst) :
    (map.set key value).entries =
      map.entries.map fun entry => if entry.1 = key then (key, value) else entry :=
  if_pos present

theorem entries_set_of_not_mem (absent : key ∉ map.entries.map Prod.fst) :
    (map.set key value).entries = map.entries ++ [(key, value)] :=
  if_neg absent

/-- A value is found where it is listed. -/
theorem get?_eq_some_iff : map.get? key = some value ↔ (key, value) ∈ map.entries := by
  unfold get?
  rw [Option.map_eq_some_iff]
  constructor
  · rintro ⟨entry, found, same⟩
    have here : decide (entry.1 = key) = true :=
      List.find?_some (p := fun entry : κ × α => decide (entry.1 = key)) found
    have whole : entry = (key, value) := Prod.ext (of_decide_eq_true here) same
    rw [← whole]
    exact List.mem_of_find?_eq_some found
  · intro listed
    cases found : map.entries.find? fun entry => entry.1 = key with
    | none => exact absurd (decide_eq_true rfl) (List.find?_eq_none.mp found _ listed)
    | some entry =>
      have here : decide (entry.1 = key) = true :=
        List.find?_some (p := fun entry : κ × α => decide (entry.1 = key)) found
      exact ⟨entry, rfl, congrArg Prod.snd
        (entry_unique (List.mem_of_find?_eq_some found) listed (of_decide_eq_true here))⟩

/-- The entries are the keys with the values that are found. -/
theorem mem_entries_iff (entry : κ × α) : entry ∈ map.entries ↔ map.get? entry.1 = some entry.2 :=
  get?_eq_some_iff.symm

/-- Nothing is found where the key is not listed. -/
theorem get?_eq_none_iff : map.get? key = none ↔ key ∉ map.entries.map Prod.fst := by
  constructor
  · intro missing listed
    obtain ⟨entry, entryIn, same⟩ := List.mem_map.mp listed
    have found : map.get? key = some entry.2 := by
      rw [get?_eq_some_iff, ← same]
      exact entryIn
    rw [missing] at found
    cases found
  · intro absent
    cases found : map.get? key with
    | none => rfl
    | some value =>
      exact absurd (List.mem_map_of_mem (get?_eq_some_iff.mp found)) absent

theorem perm_of_get? {left right : OrderedMap κ α} (same : ∀ key, left.get? key = right.get? key) :
    left.entries.Perm right.entries := by
  refine (List.perm_ext_iff_of_nodup left.distinct.of_map right.distinct.of_map).mpr
    fun entry => ?_
  rw [mem_entries_iff, mem_entries_iff, same]

@[simp]
theorem get?_empty : (empty : OrderedMap κ α).get? key = none := rfl

theorem get?_filter (keep : κ × α → Bool) :
    (map.filter keep).get? key = (map.get? key).filter fun value => keep (key, value) := by
  ext value
  rw [get?_eq_some_iff, filter, List.mem_filter, ← get?_eq_some_iff, Option.filter_eq_some_iff]

/-- A dropped key is gone, the others stay. -/
theorem get?_delete : (map.delete key).get? other = if other = key then none else map.get?
    other := by
  rw [delete, get?_filter]
  by_cases here : other = key
  · simp [here]
  · cases map.get? other
    · simp [here]
    · simp [here]

theorem get?_set : (map.set key value).get? other =
    if other = key then some value else map.get? other := by
  ext found
  rw [get?_eq_some_iff]
  by_cases present : key ∈ map.entries.map Prod.fst
  · rw [entries_set_of_mem present, List.mem_map]
    by_cases here : other = key
    · rw [if_pos here, Option.some.injEq]
      constructor
      · rintro ⟨entry, _, changed⟩
        by_cases mine : entry.1 = key
        · rw [if_pos mine] at changed
          exact congrArg Prod.snd changed
        · rw [if_neg mine] at changed
          exact absurd ((congrArg Prod.fst changed).trans here) mine
      · intro same
        obtain ⟨entry, entryIn, mine⟩ := List.mem_map.mp present
        exact ⟨entry, entryIn, by rw [if_pos mine, here, same]⟩
    · rw [if_neg here, get?_eq_some_iff]
      constructor
      · rintro ⟨entry, entryIn, changed⟩
        by_cases mine : entry.1 = key
        · rw [if_pos mine] at changed
          exact absurd (congrArg Prod.fst changed).symm here
        · rw [if_neg mine] at changed
          rw [← changed]
          exact entryIn
      · intro listed
        exact ⟨_, listed, if_neg here⟩
  · rw [entries_set_of_not_mem present, List.mem_append, List.mem_singleton]
    by_cases here : other = key
    · rw [if_pos here, Option.some.injEq, here]
      constructor
      · rintro (listed | same)
        · exact absurd (List.mem_map_of_mem listed) present
        · exact (congrArg Prod.snd same).symm
      · intro same
        exact .inr (by rw [same])
    · rw [if_neg here, get?_eq_some_iff]
      constructor
      · rintro (listed | same)
        · exact listed
        · exact absurd (congrArg Prod.fst same) here
      · exact .inl

theorem get?_mapValues {β : Type} (change : α → β) :
    (map.mapValues change).get? key = (map.get? key).map change := by
  ext found
  rw [get?_eq_some_iff, Option.map_eq_some_iff, mapValues]
  constructor
  · intro listed
    obtain ⟨entry, entryIn, same⟩ := List.mem_map.mp listed
    refine ⟨entry.2, ?_, congrArg Prod.snd same⟩
    have mine : entry.1 = key := congrArg Prod.fst same
    rw [get?_eq_some_iff, ← mine]
    exact entryIn
  · rintro ⟨value, present, same⟩
    exact List.mem_map.mpr ⟨_, get?_eq_some_iff.mp present, by rw [← same]⟩

end Lookup

section Accounting

variable {κ α : Type} [DecidableEq κ] {map : OrderedMap κ α} {key : κ} {value : α}

theorem perm_delete (present : map.get? key = some value) :
    map.entries.Perm ((key, value) :: (map.delete key).entries) := by
  have nodup : ((key, value) :: (map.delete key).entries).Nodup := by
    refine List.nodup_cons.mpr ⟨fun listed => ?_, (map.delete key).distinct.of_map⟩
    have found := get?_eq_some_iff.mpr listed
    rw [get?_delete, if_pos rfl] at found
    cases found
  refine (List.perm_ext_iff_of_nodup map.distinct.of_map nodup).mpr fun entry => ?_
  rw [mem_entries_iff, List.mem_cons, mem_entries_iff, get?_delete]
  by_cases here : entry.1 = key
  · rw [if_pos here, here, present]
    constructor
    · intro same
      exact .inl (Prod.ext here (Option.some.inj same).symm)
    · rintro (same | other)
      · rw [same]
      · cases other
  · rw [if_neg here]
    constructor
    · exact .inr
    · rintro (same | listed)
      · exact absurd (congrArg Prod.fst same) here
      · exact listed

/-- Dropping a key that is not there changes nothing. -/
theorem delete_of_none (absent : map.get? key = none) : map.delete key = map := by
  refine ext (List.filter_eq_self.mpr fun entry entryIn => decide_eq_true fun same => ?_)
  exact get?_eq_none_iff.mp absent (List.mem_map.mpr ⟨entry, entryIn, same⟩)

/-- After setting a key there are its entry and those of the others. -/
theorem perm_set : (map.set key value).entries.Perm ((key, value) :: (map.delete key).entries) := by
  have present : (map.set key value).get? key = some value := by
    rw [get?_set, if_pos rfl]
  have rest : ((map.set key value).delete key).entries.Perm (map.delete key).entries := by
    refine perm_of_get? fun other => ?_
    rw [get?_delete, get?_delete, get?_set]
    by_cases here : other = key
    · rw [if_pos here, if_pos here]
    · rw [if_neg here, if_neg here, if_neg here]
  exact (perm_delete present).trans (rest.cons _)

/-- A key that is set anew comes last. -/
theorem entries_set (absent : map.get? key = none) :
    (map.set key value).entries = map.entries ++ [(key, value)] := by
  rw [entries_set_of_not_mem (get?_eq_none_iff.mp absent)]

theorem size_delete (present : map.get? key = some value) :
    map.size = (map.delete key).size + 1 := by
  rw [size, (perm_delete present).length_eq, List.length_cons, size]

/-- A new key makes a map larger by one. -/
theorem size_set_of_none (absent : map.get? key = none) :
    (map.set key value).size = map.size + 1 := by
  rw [size, perm_set.length_eq, delete_of_none absent, List.length_cons, size]

theorem size_set_of_some {old : α} (present : map.get? key = some old) :
    (map.set key value).size = map.size := by
  rw [size, perm_set.length_eq, List.length_cons, size, (perm_delete present).length_eq,
    List.length_cons]

end Accounting

end OrderedMap

end Holonomy.Foundation
