/-!
# Insertion-ordered maps

A `Keyed` map remembers the order in which its keys were first put. Putting a key again keeps its
place and replaces its value; erasing a key closes the gap. Every list that the program shows in
"insertion order" is the list of entries of such a map.
-/

namespace ScopeCheck

/-- A finite map whose entries stand in the order in which their keys were first put. -/
structure Keyed (κ ν : Type) where
  /-- The entries, oldest key first. -/
  entries : List (κ × ν)
  /-- No key has two entries. -/
  nodup : (entries.map Prod.fst).Nodup

namespace Keyed

variable {κ ν : Type}

/-- The map without entries. -/
def empty : Keyed κ ν := ⟨[], List.nodup_nil⟩

instance : Inhabited (Keyed κ ν) := ⟨empty⟩

/-- The keys, oldest first. -/
def keys (map : Keyed κ ν) : List κ := map.entries.map Prod.fst

/-- The values, in the order of their keys. -/
def values (map : Keyed κ ν) : List ν := map.entries.map Prod.snd

/-- The number of keys. -/
def size (map : Keyed κ ν) : Nat := map.entries.length

variable [DecidableEq κ]

/-- The value under a key. -/
def get? (map : Keyed κ ν) (key : κ) : Option ν :=
  (map.entries.find? fun entry => entry.1 = key).map Prod.snd

/-- Whether a key has a value. -/
def contains (map : Keyed κ ν) (key : κ) : Bool :=
  map.entries.any fun entry => entry.1 = key

/-- Replaces the value under a key, wherever it stands. -/
def replaceIn (key : κ) (value : ν) (entries : List (κ × ν)) : List (κ × ν) :=
  entries.map fun entry => if entry.1 = key then (entry.1, value) else entry

/-- Replacing values in place keeps the keys and their order. -/
theorem map_fst_replaceIn (key : κ) (value : ν) (entries : List (κ × ν)) :
    (replaceIn key value entries).map Prod.fst = entries.map Prod.fst := by
  induction entries with
  | nil => rfl
  | cons entry rest ih =>
    simp only [replaceIn, List.map_cons, List.cons.injEq] at ih ⊢
    exact ⟨by split <;> rfl, ih⟩

/-- A key that no entry has is not among the keys. -/
theorem not_mem_map_fst_of_any_eq_false {key : κ} {entries : List (κ × ν)}
    (h : ¬ (entries.any fun entry => entry.1 = key) = true) : key ∉ entries.map Prod.fst := by
  intro hmem
  obtain ⟨entry, hentry, rfl⟩ := List.mem_map.mp hmem
  exact h (List.any_eq_true.mpr ⟨entry, hentry, by simp⟩)

/-- Puts a value under a key: a known key keeps its place, a new one goes to the end. -/
def put (map : Keyed κ ν) (key : κ) (value : ν) : Keyed κ ν :=
  if h : map.contains key = true then
    ⟨replaceIn key value map.entries, by rw [map_fst_replaceIn]; exact map.nodup⟩
  else
    ⟨map.entries ++ [(key, value)], by
      rw [List.map_append, List.nodup_append]
      refine ⟨map.nodup, by simp, ?_⟩
      intro a ha b hb
      simp only [List.map_cons, List.map_nil, List.mem_singleton] at hb
      subst hb
      exact fun hab => not_mem_map_fst_of_any_eq_false h (hab ▸ ha)⟩

/-- Removes a key; the other entries keep their order. -/
def erase (map : Keyed κ ν) (key : κ) : Keyed κ ν :=
  ⟨map.entries.filter fun entry => !decide (entry.1 = key), by
    refine List.Sublist.nodup ?_ map.nodup
    exact List.Sublist.map _ List.filter_sublist⟩

/-- Changes the value under a key, if it has one. -/
def adjust (map : Keyed κ ν) (key : κ) (change : ν → ν) : Keyed κ ν :=
  match map.get? key with
  | some value => map.put key (change value)
  | none => map

/-- Puts a value under a key that has none yet. -/
def putNew (map : Keyed κ ν) (key : κ) (value : ν) : Keyed κ ν :=
  if map.contains key then map else map.put key value

/-- The place of a key among the keys. A key keeps its place while others are put. -/
def placeOf (map : Keyed κ ν) (key : κ) : Nat := map.keys.idxOf key

omit [DecidableEq κ] in
/-- Changes the value at a place, whatever its key is. -/
def adjustAt (map : Keyed κ ν) (place : Nat) (change : ν → ν) : Keyed κ ν :=
  ⟨map.entries.modify place fun entry => (entry.1, change entry.2), by
    have hfst : (map.entries.modify place fun entry => (entry.1, change entry.2)).map Prod.fst =
        map.entries.map Prod.fst := by
      refine List.ext_getElem (by simp) fun index _ _ => ?_
      simp only [List.getElem_map, List.getElem_modify]
      split <;> rfl
    rw [hfst]
    exact map.nodup⟩

/-- Puts the entries of a list one after the other. -/
def ofList (entries : List (κ × ν)) : Keyed κ ν :=
  entries.foldl (fun map entry => map.put entry.1 entry.2) empty

omit [DecidableEq κ] in
/-- Changes every value and leaves the keys as they are. -/
def mapValues {μ : Type} (map : Keyed κ ν) (change : ν → μ) : Keyed κ μ :=
  ⟨map.entries.map fun entry => (entry.1, change entry.2), by
    rw [List.map_map]; exact map.nodup⟩

omit [DecidableEq κ] in
/-- Changes every value in view of its key. -/
def mapEntries {μ : Type} (map : Keyed κ ν) (change : κ → ν → μ) : Keyed κ μ :=
  ⟨map.entries.map fun entry => (entry.1, change entry.1 entry.2), by
    rw [List.map_map]; exact map.nodup⟩

omit [DecidableEq κ] in
/-- The entries in the order of their keys. -/
def sorted (map : Keyed κ ν) (atOrBefore : κ → κ → Bool) : Keyed κ ν :=
  ⟨map.entries.mergeSort fun left right => atOrBefore left.1 right.1,
    ((List.mergeSort_perm _ _).map Prod.fst).nodup_iff.mpr map.nodup⟩

/-! ## What each operation does to lookups -/

/-- A key has a value exactly if it is listed. -/
theorem contains_iff_mem_keys (map : Keyed κ ν) (key : κ) :
    map.contains key = true ↔ key ∈ map.keys := by
  simp [contains, keys]

/-- Nothing is found in an empty map. -/
theorem get?_empty (key : κ) : (empty : Keyed κ ν).get? key = none := rfl

/-- `contains` tells whether `get?` finds a value. -/
theorem get?_isSome (map : Keyed κ ν) (key : κ) :
    (map.get? key).isSome = map.contains key := by
  simp [get?, contains, List.isSome_find?]

/-- After a replacement the new value is found under the key, if it was there, and all else as
before. -/
theorem find?_replaceIn (key other : κ) (value : ν) (entries : List (κ × ν)) :
    ((replaceIn key value entries).find? fun entry => entry.1 = other).map Prod.snd =
      if other = key ∧ key ∈ entries.map Prod.fst then some value
      else (entries.find? fun entry => entry.1 = other).map Prod.snd := by
  induction entries with
  | nil => simp [replaceIn]
  | cons entry rest ih =>
    simp only [replaceIn, List.map_cons] at ih ⊢
    by_cases hkey : entry.1 = key <;> by_cases hother : entry.1 = other
    · subst hkey; subst hother; simp
    · subst hkey
      rw [if_pos rfl, List.find?_cons_of_neg (by simpa using hother),
        List.find?_cons_of_neg (by simpa using hother), ih]
      simp [Ne.symm hother]
    · subst hother
      simp [hkey]
    · rw [if_neg hkey, List.find?_cons_of_neg (by simpa using hother),
        List.find?_cons_of_neg (by simpa using hother), ih]
      simp only [List.mem_cons, Ne.symm hkey, false_or]

/-- What is put is found; other keys are not touched. -/
theorem get?_put (map : Keyed κ ν) (key other : κ) (value : ν) :
    (map.put key value).get? other = if other = key then some value else map.get? other := by
  unfold put
  split
  · rename_i h
    have hmem : key ∈ map.entries.map Prod.fst := (contains_iff_mem_keys map key).mp h
    simp only [get?, find?_replaceIn, hmem, and_true]
  · rename_i h
    simp only [get?, List.find?_append]
    by_cases hother : other = key
    · subst hother
      have hnone : map.entries.find? (fun entry => decide (entry.1 = other)) = none := by
        rw [List.find?_eq_none]
        intro entry hentry heq
        exact h ((contains_iff_mem_keys map other).mpr
          (List.mem_map.mpr ⟨entry, hentry, by simpa using heq⟩))
      simp [hnone]
    · simp [hother, Ne.symm hother]

/-- A new key goes to the end; a known one keeps its place. -/
theorem keys_put (map : Keyed κ ν) (key : κ) (value : ν) :
    (map.put key value).keys = if map.contains key then map.keys else map.keys ++ [key] := by
  unfold put
  split
  · rename_i h
    simp [keys, map_fst_replaceIn]
  · rename_i h
    simp [keys]

/-- What is erased is not found; other keys are not touched. -/
theorem get?_erase (map : Keyed κ ν) (key other : κ) :
    (map.erase key).get? other = if other = key then none else map.get? other := by
  simp only [erase, get?, List.find?_filter]
  by_cases hother : other = key
  · subst hother
    rw [if_pos rfl, Option.map_eq_none_iff, List.find?_eq_none]
    intro entry _
    by_cases hentry : entry.1 = other <;> simp [hentry]
  · rw [if_neg hother]
    refine congrArg (fun p => (List.find? p map.entries).map Prod.snd) ?_
    funext entry
    by_cases hentry : entry.1 = other <;> simp [hentry, hother]

/-- Only the value under the key is changed. -/
theorem get?_adjust (map : Keyed κ ν) (key other : κ) (change : ν → ν) :
    (map.adjust key change).get? other =
      if other = key then (map.get? key).map change else map.get? other := by
  unfold adjust
  split
  · rename_i value h
    rw [get?_put, h]
    rfl
  · rename_i h
    split
    · rename_i heq
      rw [heq, h]; rfl
    · rfl

/-- Every value is changed where it stands. -/
theorem get?_mapValues {μ : Type} (map : Keyed κ ν) (change : ν → μ) (key : κ) :
    (map.mapValues change).get? key = (map.get? key).map change := by
  simp only [get?, mapValues, List.find?_map, Option.map_map]
  rfl

end Keyed

end ScopeCheck
