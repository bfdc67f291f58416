import Mathlib.Data.List.Induction
import Mathlib.Data.List.Sort
import ScopeCheck.Keyed

/-!
# Laws of insertion-ordered maps

Two views of a `Keyed` map carry all later proofs: its keys, in order, and its lookups. Together
they determine the map (`ext_get?`); the lookups alone determine it up to the order of its entries
(`perm_entries`), so whatever is sorted by key depends on the lookups only (`sorted_congr`).

Maps are changed by runs of small steps. What such a run does to one lookup is the run of the
steps that meet its key (`get?_foldl_adjust`), and in a map made from a list the last entry of a
key counts (`get?_ofList`). A change of every value commutes with each of the steps, so it can be
made before or after the run (`mapValues_ofList`).
-/

namespace ScopeCheck.Keyed

variable {κ ν μ : Type} [DecidableEq κ]

/-! ## Lookups and entries -/

/-- A value is found under a key exactly if the two are an entry. -/
theorem get?_eq_some_iff {map : Keyed κ ν} {key : κ} {value : ν} :
    map.get? key = some value ↔ (key, value) ∈ map.entries := by
  unfold get?
  rw [Option.map_eq_some_iff]
  constructor
  · rintro ⟨entry, hfind, rfl⟩
    have hkey : entry.1 = key := by simpa using List.find?_some hfind
    rw [← hkey]
    exact List.mem_of_find?_eq_some hfind
  · intro hmem
    obtain ⟨entry, hfind⟩ : ∃ entry, map.entries.find? (fun e => decide (e.1 = key)) = some entry :=
      Option.isSome_iff_exists.mp (List.find?_isSome.mpr ⟨_, hmem, by simp⟩)
    have hkey : entry.1 = key := by simpa using List.find?_some hfind
    have hentry := List.inj_on_of_nodup_map map.nodup (List.mem_of_find?_eq_some hfind) hmem hkey
    exact ⟨entry, hfind, by rw [hentry]⟩

/-- The keys are those under which a lookup finds something. -/
theorem mem_keys_iff {map : Keyed κ ν} {key : κ} : key ∈ map.keys ↔ (map.get? key).isSome := by
  rw [get?_isSome, contains_iff_mem_keys]

/-- A lookup finds nothing exactly under what is no key. -/
theorem get?_eq_none_iff {map : Keyed κ ν} {key : κ} : map.get? key = none ↔ key ∉ map.keys := by
  rw [mem_keys_iff]
  simp

/-- The values are those that some lookup finds, as no key has two entries. -/
theorem mem_values_iff {map : Keyed κ ν} {value : ν} :
    value ∈ map.values ↔ ∃ key, map.get? key = some value := by
  simp only [values, List.mem_map, Prod.exists, get?_eq_some_iff]
  constructor
  · rintro ⟨key, other, hmem, rfl⟩
    exact ⟨key, hmem⟩
  · rintro ⟨key, hmem⟩
    exact ⟨key, value, hmem, rfl⟩

/-- Values that are determined by their keys are given by the list of keys. -/
theorem values_eq_map_keys {map : Keyed κ ν} {valueAt : κ → ν}
    (hvalue : ∀ key value, map.get? key = some value → value = valueAt key) :
    map.values = map.keys.map valueAt := by
  rw [values, keys, List.map_map]
  exact List.map_congr_left fun entry hentry =>
    hvalue entry.1 entry.2 (get?_eq_some_iff.mpr hentry)

/-- An entry is determined by its key: the entries are the keys with what is found there. -/
theorem entries_eq (map : Keyed κ ν) :
    map.entries = map.keys.filterMap fun key => (map.get? key).map fun value => (key, value) := by
  rw [keys, List.filterMap_map]
  symm
  calc
    _ = map.entries.filterMap some := by
      refine List.filterMap_congr fun entry hentry => ?_
      simp [Function.comp, get?_eq_some_iff.mpr hentry]
    _ = map.entries := List.filterMap_some

/-- Maps with the same keys in the same order and the same lookups are equal. -/
theorem ext_get? {left right : Keyed κ ν} (hkeys : left.keys = right.keys)
    (hget : ∀ key, left.get? key = right.get? key) : left = right := by
  have hentries : left.entries = right.entries := by
    rw [entries_eq left, entries_eq right, hkeys]
    simp only [hget]
  cases left
  cases right
  simp only at hentries
  subst hentries
  rfl

/-- Maps with the same lookups have the same entries up to their order. -/
theorem perm_entries {left right : Keyed κ ν} (hget : ∀ key, left.get? key = right.get? key) :
    left.entries.Perm right.entries := by
  rw [List.perm_ext_iff_of_nodup (List.Nodup.of_map _ left.nodup)
    (List.Nodup.of_map _ right.nodup)]
  rintro ⟨key, value⟩
  rw [← get?_eq_some_iff, ← get?_eq_some_iff, hget]

/-- Maps with the same entries up to their order have the same lookups. -/
theorem get?_of_perm {left right : Keyed κ ν} (hperm : left.entries.Perm right.entries) (key : κ) :
    left.get? key = right.get? key := by
  refine Option.ext fun value => ?_
  rw [get?_eq_some_iff, get?_eq_some_iff, hperm.mem_iff]

/-! ## Single changes -/

/-- Changing a value in place leaves the keys and their order. -/
theorem keys_adjust (map : Keyed κ ν) (key : κ) (change : ν → ν) :
    (map.adjust key change).keys = map.keys := by
  unfold adjust
  split
  · rename_i value h
    have hmem : map.contains key = true := by rw [← get?_isSome, h]; rfl
    rw [keys_put, if_pos hmem]
  · rfl

/-- Only the erased key is gone, and the others keep their order. -/
theorem keys_erase (map : Keyed κ ν) (key : κ) :
    (map.erase key).keys = map.keys.filter fun other => !decide (other = key) := by
  simp only [erase, keys, List.filter_map]
  rfl

omit [DecidableEq κ] in
/-- Changing every entry leaves the keys and their order. -/
theorem keys_mapEntries (map : Keyed κ ν) (change : κ → ν → μ) :
    (map.mapEntries change).keys = map.keys := by
  simp [mapEntries, keys]

/-- A lookup after every entry has been changed finds the changed value. -/
theorem get?_mapEntries (map : Keyed κ ν) (change : κ → ν → μ) (key : κ) :
    (map.mapEntries change).get? key = (map.get? key).map (change key) := by
  refine Option.ext fun value => ?_
  rw [get?_eq_some_iff, Option.map_eq_some_iff]
  simp only [mapEntries, List.mem_map, Prod.mk.injEq, Prod.exists, get?_eq_some_iff]
  constructor
  · rintro ⟨other, old, hmem, rfl, rfl⟩
    exact ⟨old, hmem, rfl⟩
  · rintro ⟨old, hmem, rfl⟩
    exact ⟨key, old, hmem, rfl, rfl⟩

/-- A value that is there already stays, and a new one is found under its key. -/
theorem get?_putNew (map : Keyed κ ν) (key other : κ) (value : ν) :
    (map.putNew key value).get? other =
      if other = key then some ((map.get? key).getD value) else map.get? other := by
  unfold putNew
  split
  · rename_i h
    obtain ⟨known, hknown⟩ := Option.isSome_iff_exists.mp ((get?_isSome map key).trans h)
    split
    · rename_i heq
      rw [heq, hknown, Option.getD_some]
    · rfl
  · rename_i h
    have hnone : map.get? key = none := by
      rw [← Option.not_isSome_iff_eq_none, get?_isSome]
      exact h
    rw [get?_put, hnone, Option.getD_none]

/-- A new key comes last, and one that is there keeps its place. -/
theorem keys_putNew (map : Keyed κ ν) (key : κ) (value : ν) :
    (map.putNew key value).keys = if map.contains key then map.keys else map.keys ++ [key] := by
  unfold putNew
  split
  · rfl
  · rename_i h
    rw [keys_put, if_neg h]

/-! ## Changes at a place -/

omit [DecidableEq κ] in
/-- Changing the value at a place leaves the keys and their order. -/
theorem keys_adjustAt (map : Keyed κ ν) (place : Nat) (change : ν → ν) :
    (map.adjustAt place change).keys = map.keys := by
  simp only [keys, adjustAt]
  refine List.ext_getElem (by simp) fun index _ _ => ?_
  simp only [List.getElem_map, List.getElem_modify]
  split <;> rfl

/-- A change at a place is a change of the key that stands there. -/
theorem get?_adjustAt (map : Keyed κ ν) (place : Nat) (change : ν → ν) (key : κ) :
    (map.adjustAt place change).get? key =
      if map.placeOf key = place then (map.get? key).map change else map.get? key := by
  -- a key that is there stands at its place and nowhere else
  by_cases hmem : key ∈ map.keys
  · have hlt : map.placeOf key < map.entries.length := by
      simpa [keys, placeOf] using List.idxOf_lt_length_of_mem hmem
    have hfst : (map.entries[map.placeOf key]).1 = key := by
      have hget := List.getElem_idxOf (List.idxOf_lt_length_of_mem hmem)
      simp only [keys, List.getElem_map] at hget
      exact hget
    have hold : map.get? key = some (map.entries[map.placeOf key]).2 := by
      rw [get?_eq_some_iff]
      nth_rewrite 1 [← hfst]
      exact List.getElem_mem hlt
    have hnew : (map.adjustAt place change).get? key =
        some (if map.placeOf key = place then change (map.entries[map.placeOf key]).2
          else (map.entries[map.placeOf key]).2) := by
      rw [get?_eq_some_iff, List.mem_iff_getElem]
      refine ⟨map.placeOf key, by simpa [adjustAt] using hlt, ?_⟩
      simp only [adjustAt, List.getElem_modify, eq_comm (a := place)]
      split <;> exact Prod.ext hfst rfl
    rw [hnew, hold]
    split <;> rfl
  · have hold : map.get? key = none := get?_eq_none_iff.mpr hmem
    have hnew : (map.adjustAt place change).get? key = none := by
      rw [get?_eq_none_iff, keys_adjustAt]
      exact hmem
    rw [hnew, hold]
    split <;> rfl

/-- Different keys stand at different places. -/
theorem placeOf_inj {map : Keyed κ ν} {left right : κ} (hmem : right ∈ map.keys) :
    map.placeOf left = map.placeOf right ↔ left = right :=
  ⟨fun h => ((List.idxOf_inj hmem).mp h.symm).symm, fun h => by rw [h]⟩

/-- A key keeps its place when another one is added. -/
theorem placeOf_putNew {map : Keyed κ ν} {key other : κ} (value : ν) (hmem : other ∈ map.keys) :
    (map.putNew key value).placeOf other = map.placeOf other := by
  unfold placeOf
  rw [keys_putNew]
  split
  · rfl
  · exact List.idxOf_append_of_mem hmem

/-- Changing the value at a place leaves the places of all keys. -/
theorem placeOf_adjustAt (map : Keyed κ ν) (place : Nat) (change : ν → ν) (key : κ) :
    (map.adjustAt place change).placeOf key = map.placeOf key := by
  unfold placeOf
  rw [keys_adjustAt]

/-! ## Runs of changes -/

section Runs

variable {ι : Type} (key : ι → κ) (change : ι → ν → ν)

/-- However many values are changed, the keys and their order stay. -/
theorem keys_foldl_adjust (steps : List ι) (map : Keyed κ ν) :
    (steps.foldl (fun map step => map.adjust (key step) (change step)) map).keys = map.keys := by
  induction steps generalizing map with
  | nil => rfl
  | cons step rest ih => rw [List.foldl_cons, ih, keys_adjust]

/-- A run of changes acts on one lookup by the changes that meet its key, in their order. -/
theorem get?_foldl_adjust (steps : List ι) (map : Keyed κ ν) (other : κ) :
    (steps.foldl (fun map step => map.adjust (key step) (change step)) map).get? other =
      (map.get? other).map fun value =>
        (steps.filter fun step => key step = other).foldl (fun value step => change step value)
          value := by
  induction steps generalizing map with
  | nil => simp
  | cons step rest ih =>
    rw [List.foldl_cons, ih, get?_adjust]
    by_cases hkey : key step = other
    · rw [if_pos hkey.symm, hkey, List.filter_cons_of_pos (by simpa using hkey), Option.map_map]
      rfl
    · rw [if_neg (Ne.symm hkey), List.filter_cons_of_neg (by simpa using hkey)]

/-- After a run of puts the last value that was put under a key counts. -/
theorem get?_foldl_put (value : ι → ν) (steps : List ι) (map : Keyed κ ν) (other : κ) :
    (steps.foldl (fun map step => map.put (key step) (value step)) map).get? other =
      ((steps.filter fun step => key step = other).getLast?.map value).or (map.get? other) := by
  induction steps using List.reverseRecOn with
  | nil => rfl
  | append_singleton steps step ih =>
    rw [List.foldl_append, List.foldl_cons, List.foldl_nil, get?_put, ih, List.filter_append]
    by_cases hkey : key step = other
    · rw [if_pos hkey.symm, List.filter_cons_of_pos (by simpa using hkey), List.filter_nil]
      simp
    · rw [if_neg (Ne.symm hkey), List.filter_cons_of_neg (by simpa using hkey), List.filter_nil,
        List.append_nil]

/-- Of a list with different keys, the members of one key do not depend on the order. -/
theorem filter_key_of_perm {left right : List ι} (hperm : left.Perm right)
    (hnodup : (left.map key).Nodup) (wanted : κ) :
    (left.filter fun step => key step = wanted) = right.filter fun step => key step = wanted := by
  have hfilter := hperm.filter fun step => key step = wanted
  have hkeys : ∀ step ∈ left.filter fun step => key step = wanted, key step = wanted :=
    fun step hmem => of_decide_eq_true (List.mem_filter.mp hmem).2
  have hone : ((left.filter fun step => key step = wanted).map key).Nodup :=
    hnodup.sublist (List.filter_sublist.map key)
  generalize (left.filter fun step => key step = wanted) = found at hfilter hkeys hone
  match found with
  | [] => rw [List.nil_perm.mp hfilter]
  | [only] => rw [List.singleton_perm.mp hfilter]
  | first :: second :: rest =>
    have hfirst := hkeys first (by simp)
    have hsecond := hkeys second (by simp)
    simp [hfirst, hsecond] at hone

/-- Puts under different keys can be made in any order. -/
theorem get?_foldl_put_perm (value : ι → ν) {left right : List ι} (hperm : left.Perm right)
    (hnodup : (left.map key).Nodup) (map : Keyed κ ν) (other : κ) :
    (left.foldl (fun map step => map.put (key step) (value step)) map).get? other =
      (right.foldl (fun map step => map.put (key step) (value step)) map).get? other := by
  rw [get?_foldl_put, get?_foldl_put, filter_key_of_perm key hperm hnodup]

end Runs

/-- In a map made from a list, the last entry of a key counts. -/
theorem get?_ofList (entries : List (κ × ν)) (key : κ) :
    (ofList entries).get? key =
      ((entries.filter fun entry => entry.1 = key).getLast?).map Prod.snd := by
  rw [ofList, get?_foldl_put, get?_empty, Option.or_none]

/-- What is found in a map that was built from a list stands in the list. -/
theorem mem_of_get?_ofList {entries : List (κ × ν)} {key : κ} {value : ν}
    (h : (ofList entries).get? key = some value) : (key, value) ∈ entries := by
  rw [get?_ofList, Option.map_eq_some_iff] at h
  obtain ⟨entry, hlast, rfl⟩ := h
  have hmem := List.mem_filter.mp (List.mem_of_getLast? hlast)
  have hkey : entry.1 = key := by simpa using hmem.2
  rw [← hkey]
  exact hmem.1

/-- In a map made from a list, an entry without rivals is found. -/
theorem get?_ofList_of_unique {entries : List (κ × ν)} {key : κ} {value : ν}
    (hmem : (key, value) ∈ entries) (honly : ∀ other, (key, other) ∈ entries → other = value) :
    (ofList entries).get? key = some value := by
  cases hget : (ofList entries).get? key with
  | some other => rw [honly other (mem_of_get?_ofList hget)]
  | none =>
    rw [get?_ofList, Option.map_eq_none_iff, List.getLast?_eq_none_iff,
      List.filter_eq_nil_iff] at hget
    exact absurd (decide_eq_true rfl) (hget _ hmem)

/-- A map made by a function on some keys gives its values, if it has none for other keys. -/
theorem get?_ofList_filterMap (keys : List κ) (value? : κ → Option ν)
    (hkeys : ∀ key value, value? key = some value → key ∈ keys) (key : κ) :
    (ofList (keys.filterMap fun key => (value? key).map fun value => (key, value))).get? key =
      value? key := by
  have hmem : ∀ value, (key, value) ∈ (keys.filterMap fun key =>
      (value? key).map fun value => (key, value)) ↔ value? key = some value := by
    intro value
    rw [List.mem_filterMap]
    constructor
    · rintro ⟨other, -, hentry⟩
      obtain ⟨found, hfound, heq⟩ := Option.map_eq_some_iff.mp hentry
      obtain ⟨rfl, rfl⟩ := Prod.mk.inj heq
      exact hfound
    · exact fun hvalue => ⟨key, hkeys key value hvalue, by rw [hvalue]; rfl⟩
  cases hvalue : value? key with
  | some value =>
    refine get?_ofList_of_unique ((hmem value).mpr hvalue) fun other hother => ?_
    exact Option.some.inj (((hmem other).mp hother).symm.trans hvalue)
  | none =>
    cases hget : (ofList (keys.filterMap fun key =>
      (value? key).map fun value => (key, value))).get? key with
    | none => rfl
    | some other => exact absurd ((hmem other).mp (mem_of_get?_ofList hget)) (by simp [hvalue])

/-- Entries with different keys are put one after the other. -/
theorem entries_foldl_put (entries : List (κ × ν)) (map : Keyed κ ν)
    (hnodup : (map.keys ++ entries.map Prod.fst).Nodup) :
    (entries.foldl (fun map entry => map.put entry.1 entry.2) map).entries =
      map.entries ++ entries := by
  induction entries generalizing map with
  | nil => exact (List.append_nil _).symm
  | cons entry rest ih =>
    have hfresh : entry.1 ∉ map.keys := fun hmem =>
      (List.nodup_append.mp hnodup).2.2 entry.1 hmem entry.1 List.mem_cons_self rfl
    have hnew : ¬ map.contains entry.1 = true := by
      intro hcontains
      obtain ⟨other, hother, hkey⟩ := List.any_eq_true.mp hcontains
      rw [← of_decide_eq_true hkey] at hfresh
      exact hfresh (List.mem_map_of_mem hother)
    have hput : (map.put entry.1 entry.2).entries = map.entries ++ [entry] := by
      rw [put, dif_neg hnew]
    rw [List.foldl_cons, ih, hput, List.append_assoc, List.singleton_append]
    rw [keys, hput]
    simpa [keys] using hnodup

/-- A map of the values that some keys have lists them in the order of the keys. -/
theorem values_ofList_filterMap {keys : List κ} (hnodup : keys.Nodup) (value? : κ → Option ν) :
    (ofList (keys.filterMap fun key => (value? key).map fun value => (key, value))).values =
      keys.filterMap value? := by
  have hfst : (keys.filterMap fun key => (value? key).map fun value => (key, value)).map Prod.fst =
      keys.filter fun key => (value? key).isSome := by
    rw [List.map_filterMap, ← List.filterMap_eq_filter]
    refine List.filterMap_congr fun key _ => ?_
    cases hvalue : value? key <;> simp [Option.guard, hvalue]
  have hkeys : ((empty : Keyed κ ν).keys ++
      (keys.filterMap fun key => (value? key).map fun value => (key, value)).map
        Prod.fst).Nodup := by
    rw [hfst]
    exact hnodup.filter _
  rw [values, ofList, entries_foldl_put _ _ hkeys]
  change List.map Prod.snd (keys.filterMap _) = _
  rw [List.map_filterMap]
  refine List.filterMap_congr fun key _ => ?_
  cases value? key <;> rfl

/-! ## Values that know their keys -/

section KeyOf

variable {map : Keyed κ ν} {keyOf : ν → κ}
  (hkeyed : ∀ key value, map.get? key = some value → keyOf value = key)
include hkeyed

/-- If every value knows its key, the values give the keys in order. -/
theorem map_values_eq_keys : map.values.map keyOf = map.keys := by
  rw [values, keys, List.map_map]
  exact List.map_congr_left fun entry hentry =>
    hkeyed entry.1 entry.2 (get?_eq_some_iff.mpr hentry)

/-- If every value knows its key, it is found under that key. -/
theorem get?_of_mem_values {value : ν} (hmem : value ∈ map.values) :
    map.get? (keyOf value) = some value := by
  obtain ⟨key, hget⟩ := mem_values_iff.mp hmem
  rw [hkeyed key value hget]
  exact hget

/-- A map is made again by putting its values, in any order. -/
theorem get?_foldl_put_values {list : List ν} (hperm : list.Perm map.values) (other : κ) :
    (list.foldl (fun map value => map.put (keyOf value) value) empty).get? other =
      map.get? other := by
  have hnodup : (list.map keyOf).Nodup := by
    rw [(hperm.map keyOf).nodup_iff, map_values_eq_keys hkeyed]
    exact map.nodup
  have hmem : ∀ value ∈ map.values.filter fun value => keyOf value = other,
      map.get? other = some value := by
    intro value hvalue
    obtain ⟨hvalue, hkey⟩ := List.mem_filter.mp hvalue
    rw [← of_decide_eq_true hkey]
    exact get?_of_mem_values hkeyed hvalue
  rw [get?_foldl_put_perm keyOf (fun value => value) hperm hnodup, get?_foldl_put, get?_empty,
    Option.or_none]
  cases hlast : (map.values.filter fun value => keyOf value = other).getLast? with
  | none =>
    rw [List.getLast?_eq_none_iff, List.filter_eq_nil_iff] at hlast
    refine (Option.eq_none_iff_forall_ne_some.mpr fun value hget => ?_).symm
    exact hlast value (mem_values_iff.mpr ⟨other, hget⟩) (decide_eq_true (hkeyed other value hget))
  | some last => exact (hmem last (List.mem_of_getLast? hlast)).symm

end KeyOf

/-! ## Sorting -/

/-- Sorting keeps all lookups. -/
theorem get?_sorted (map : Keyed κ ν) (atOrBefore : κ → κ → Bool) (key : κ) :
    (map.sorted atOrBefore).get? key = map.get? key :=
  get?_of_perm (List.mergeSort_perm _ _) key

section Sorted

variable {atOrBefore : κ → κ → Bool}
  (trans : ∀ a b c, atOrBefore a b → atOrBefore b c → atOrBefore a c)
  (total : ∀ a b, atOrBefore a b || atOrBefore b a)

omit [DecidableEq κ] in
include trans total in
/-- After sorting, no key comes before one that should precede it. -/
theorem pairwise_keys_sorted (map : Keyed κ ν) :
    (map.sorted atOrBefore).keys.Pairwise fun left right => atOrBefore left right := by
  unfold keys sorted
  rw [List.pairwise_map]
  exact List.pairwise_mergeSort (fun a b c => trans a.1 b.1 c.1) (fun a b => total a.1 b.1)
    map.entries

include trans total in
/-- The sorted map depends on the lookups only, not on the order in which keys were put. -/
theorem sorted_congr (antisymm : ∀ a b, atOrBefore a b → atOrBefore b a → a = b)
    {left right : Keyed κ ν} (hget : ∀ key, left.get? key = right.get? key) :
    left.sorted atOrBefore = right.sorted atOrBefore := by
  refine ext_get? ?_ fun key => by rw [get?_sorted, get?_sorted, hget]
  have hperm : (left.sorted atOrBefore).keys.Perm (right.sorted atOrBefore).keys :=
    (perm_entries fun key => by rw [get?_sorted, get?_sorted, hget]).map Prod.fst
  exact hperm.eq_of_pairwise (fun a b _ _ => antisymm a b)
    (pairwise_keys_sorted trans total left) (pairwise_keys_sorted trans total right)

end Sorted

/-! ## Changing every value -/

omit [DecidableEq κ] in
/-- Changing every value leaves the keys and their order. -/
theorem keys_mapValues (map : Keyed κ ν) (change : ν → μ) :
    (map.mapValues change).keys = map.keys := by
  rw [keys, mapValues, List.map_map, keys]
  rfl

omit [DecidableEq κ] in
/-- The values of a changed map are the changed values, in order. -/
theorem values_mapValues (map : Keyed κ ν) (change : ν → μ) :
    (map.mapValues change).values = map.values.map change := by
  rw [values, mapValues, List.map_map, values, List.map_map]
  rfl

/-- Changing every value neither adds nor removes a key. -/
theorem contains_mapValues (map : Keyed κ ν) (change : ν → μ) (key : κ) :
    (map.mapValues change).contains key = map.contains key := by
  rw [← get?_isSome, get?_mapValues, Option.isSome_map, get?_isSome]

/-- A value may be put in before or after all are changed. -/
theorem mapValues_put (map : Keyed κ ν) (change : ν → μ) (key : κ) (value : ν) :
    (map.put key value).mapValues change = (map.mapValues change).put key (change value) := by
  refine ext_get? ?_ fun other => ?_
  · rw [keys_mapValues, keys_put, keys_put, contains_mapValues, keys_mapValues]
  · rw [get?_mapValues, get?_put, get?_put, get?_mapValues]
    split <;> rfl

/-- A value may be added before or after all are changed, as only the keys decide whether it is. -/
theorem mapValues_putNew (map : Keyed κ ν) (change : ν → μ) (key : κ) (value : ν) :
    (map.putNew key value).mapValues change = (map.mapValues change).putNew key (change value) := by
  rw [putNew, putNew, contains_mapValues]
  split
  · rfl
  · exact map.mapValues_put change key value

/-- Two changes of one value commute on a map if they do on each value. -/
theorem mapValues_adjust (map : Keyed κ ν) (change step : ν → ν)
    (hcomm : ∀ value, change (step value) = step (change value)) (key : κ) :
    (map.adjust key step).mapValues change = (map.mapValues change).adjust key step := by
  refine ext_get? ?_ fun other => ?_
  · rw [keys_mapValues, keys_adjust, keys_adjust, keys_mapValues]
  · rw [get?_mapValues, get?_adjust, get?_adjust, get?_mapValues, get?_mapValues]
    split
    · rw [Option.map_map, Option.map_map]
      exact congrArg (Option.map · (map.get? key)) (funext hcomm)
    · rfl

/-- Values may be changed before or after a map is built from a list. -/
theorem mapValues_ofList (change : ν → μ) (entries : List (κ × ν)) :
    (ofList entries).mapValues change = ofList (entries.map (Prod.map id change)) := by
  have hfold : ∀ map : Keyed κ ν,
      (entries.foldl (fun map entry => map.put entry.1 entry.2) map).mapValues change =
        (entries.map (Prod.map id change)).foldl (fun map entry => map.put entry.1 entry.2)
          (map.mapValues change) := by
    induction entries with
    | nil => exact fun _ => rfl
    | cons entry rest ih =>
      intro map
      rw [List.foldl_cons, ih, mapValues_put, List.map_cons, List.foldl_cons]
      rfl
  exact hfold empty

end ScopeCheck.Keyed
