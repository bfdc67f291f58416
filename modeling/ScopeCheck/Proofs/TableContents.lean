import ScopeCheck.Proofs.TextOrder
import ScopeCheck.Table.Graph

/-!
# What tables hold

Tables are made and dropped, get bindings one at a time, take over the bindings of other tables and
get or lose siblings, in any order (`TableOp`). Accounts of what each table has been given can be
kept beside them without looking at the tables (`Bookkeeping`). One account is the order in which
bindings were given, another one has a list for each name. What everything that is done to a table
keeps holds of all tables and their accounts (`Bookkeeping.Keeps.performAll`).

The listing of a table is what it has been given, sorted by name and place, with what compares equal
in the order in which it was given (`SortedFrom`). A merge adds bindings as the other table lists
them, so a table does not hold them in that order. It does hold those of one name and one place in
that order (`SymbolTable.Holds`), since sorting keeps the order of ties, and this is enough to tell
the listing. In whatever order the names are gone through, the listing is the same.
-/

namespace ScopeCheck

/-! ## Sorting keeps the order of ties -/

section StableSort

variable {α : Type} {before : α → α → Bool}
  (trans : ∀ a b c, before a b = true → before b c = true → before a c = true)
  (total : ∀ a b, (before a b || before b a) = true)
include trans total

/-- Members that are all tied stay in their order when a list is sorted. -/
theorem filter_mergeSort_of_tied {test : α → Bool}
    (htied : ∀ a b, test a = true → test b = true → before a b = true) (list : List α) :
    (list.mergeSort before).filter test = list.filter test := by
  have hsorted : (list.filter test).Pairwise fun a b => before a b = true := by
    refine List.pairwise_of_forall_mem_list fun a ha b hb => ?_
    exact htied a b (List.mem_filter.mp ha).2 (List.mem_filter.mp hb).2
  have hsublist := (List.sublist_mergeSort trans total hsorted List.filter_sublist).filter test
  rw [List.filter_filter, List.filter_congr fun a _ => Bool.and_self (test a)] at hsublist
  have hlength := ((List.mergeSort_perm list before).filter test).length_eq
  exact (hsublist.eq_of_length hlength.symm).symm

end StableSort

section Groups

variable {α κ : Type} [DecidableEq κ] {groupOf : α → κ}

/-- Lists that agree on every group have the same members, equally often. -/
theorem perm_of_filter_group [DecidableEq α] {left right : List α}
    (hgroup : ∀ group, left.filter (groupOf · = group) = right.filter (groupOf · = group)) :
    left.Perm right := by
  refine List.perm_iff_count.mpr fun member => ?_
  have hcount : ∀ list : List α,
      (list.filter (groupOf · = groupOf member)).count member = list.count member := by
    intro list
    apply List.count_filter
    simp
  rw [← hcount left, hgroup, hcount right]

/-- A member of a list is a member of each list that agrees with it on every group. -/
theorem mem_of_filter_group {left right : List α}
    (hgroup : ∀ group, left.filter (groupOf · = group) = right.filter (groupOf · = group))
    {member : α} (hmember : member ∈ left) : member ∈ right := by
  have hfound : member ∈ left.filter (groupOf · = groupOf member) :=
    List.mem_filter.mpr ⟨hmember, decide_eq_true rfl⟩
  rw [hgroup] at hfound
  exact (List.mem_filter.mp hfound).1

/-- Lists that agree on every group and begin alike go on to agree. -/
theorem filter_group_of_cons {first : α} {left right : List α}
    (hgroup : ∀ group, (first :: left).filter (groupOf · = group) =
      (first :: right).filter (groupOf · = group)) (group : κ) :
    left.filter (groupOf · = group) = right.filter (groupOf · = group) := by
  have hboth := hgroup group
  by_cases hfirst : groupOf first = group
  · rw [List.filter_cons_of_pos (by simp [hfirst]), List.filter_cons_of_pos (by simp [hfirst])]
      at hboth
    exact (List.cons.inj hboth).2
  · rwa [List.filter_cons_of_neg (by simp [hfirst]), List.filter_cons_of_neg (by simp [hfirst])]
      at hboth

/-- Sorted lists that agree on every group of ties are equal. -/
theorem eq_of_filter_group {before : α → α → Bool} (hrefl : ∀ a, before a a = true)
    (htie : ∀ a b, before a b = true → before b a = true → groupOf a = groupOf b)
    {left right : List α} (hleft : left.Pairwise fun a b => before a b = true)
    (hright : right.Pairwise fun a b => before a b = true)
    (hgroup : ∀ group, left.filter (groupOf · = group) = right.filter (groupOf · = group)) :
    left = right := by
  -- the head of a sorted list comes before each member
  have hhead : ∀ {first : α} {rest : List α},
      (first :: rest).Pairwise (fun a b => before a b = true) →
      ∀ member ∈ first :: rest, before first member = true := by
    intro first rest hsorted member hmember
    rcases List.mem_cons.mp hmember with rfl | hrest
    · exact hrefl member
    · exact (List.pairwise_cons.mp hsorted).1 member hrest
  induction left generalizing right with
  | nil =>
    refine (List.eq_nil_iff_forall_not_mem.mpr fun member hmember => ?_).symm
    exact List.not_mem_nil (mem_of_filter_group (fun group => (hgroup group).symm) hmember)
  | cons member left ih =>
    have hmember := mem_of_filter_group hgroup List.mem_cons_self
    cases right with
    | nil => exact absurd hmember List.not_mem_nil
    | cons other right =>
      have hother := mem_of_filter_group (fun group => (hgroup group).symm) List.mem_cons_self
      have hsame : groupOf member = groupOf other :=
        htie member other (hhead hleft other hother) (hhead hright member hmember)
      -- the group of the heads begins with either head
      have hheads := hgroup (groupOf member)
      rw [List.filter_cons_of_pos (by simp), List.filter_cons_of_pos (by simp [hsame])] at hheads
      obtain rfl : member = other := (List.cons.inj hheads).1
      rw [ih hleft.of_cons hright.of_cons (filter_group_of_cons hgroup)]

end Groups

/-! ## The order of listing -/

namespace Binding

/-- Where a binding stands in the order of listing. -/
def spot (binding : Binding) : String × Range := (binding.key, binding.range)

/-- Whether a binding of a name stands no later than another one of that name. -/
def rangedBefore (left right : Binding) : Bool := (compare left.range right.range).isLE

instance : Std.TransCmp listingOrder :=
  inferInstanceAs (Std.TransCmp (compareLex (compareOn key) (compareOn range)))

/-- Bindings are listed by key, and under one key by place. -/
theorem listedBefore_iff {left right : Binding} :
    left.listedBefore right = true ↔
      left.key < right.key ∨ left.key = right.key ∧ left.rangedBefore right = true := by
  have hless : ∀ first second : String, compare first second = .lt ↔ first < second := by
    intro first second
    exact compareOfLessAndEq_eq_lt
  unfold listedBefore listingOrder compareLex compareOn rangedBefore
  rw [Ordering.isLE_then_iff_or, Std.LawfulEqCmp.compare_eq_iff_eq, hless]

/-- The order of listing is transitive. -/
theorem listedBefore_trans (a b c : Binding) (hab : a.listedBefore b) (hbc : b.listedBefore c) :
    a.listedBefore c :=
  Std.TransCmp.isLE_trans hab hbc

/-- Any two bindings can be listed in one order or the other. -/
theorem listedBefore_total (a b : Binding) : (a.listedBefore b || b.listedBefore a) = true := by
  have hswap : listingOrder b a = (listingOrder a b).swap := Std.OrientedCmp.eq_swap
  unfold listedBefore
  rw [hswap]
  cases listingOrder a b <;> rfl

/-- The order by place is transitive. -/
theorem rangedBefore_trans (a b c : Binding) (hab : a.rangedBefore b) (hbc : b.rangedBefore c) :
    a.rangedBefore c :=
  Std.TransCmp.isLE_trans hab hbc

/-- Any two bindings are in order by place one way or the other. -/
theorem rangedBefore_total (a b : Binding) : (a.rangedBefore b || b.rangedBefore a) = true := by
  have hswap : compare b.range a.range = (compare a.range b.range).swap := Std.OrientedCmp.eq_swap
  unfold rangedBefore
  rw [hswap]
  cases compare a.range b.range <;> rfl

/-- Bindings of one key and one place tie. -/
theorem listedBefore_of_spot_eq {left right : Binding} (hspot : left.spot = right.spot) :
    left.listedBefore right = true := by
  obtain ⟨hkey, hrange⟩ := Prod.mk.inj hspot
  have hself : compare right.range right.range = .eq := Std.ReflCmp.compare_self
  refine listedBefore_iff.mpr (Or.inr ⟨hkey, ?_⟩)
  rw [rangedBefore, hrange, hself]
  rfl

/-- Bindings that are listed before each other have one name and one place. -/
theorem spot_eq_of_listedBefore (left right : Binding) (hle : left.listedBefore right = true)
    (hge : right.listedBefore left = true) : left.spot = right.spot := by
  have heq : listingOrder left right = .eq := Std.OrientedCmp.isLE_antisymm hle hge
  obtain ⟨hkey, hrange⟩ := compareLex_eq_eq.mp heq
  exact Prod.ext (Std.LawfulEqOrd.eq_of_compare hkey) (Std.LawfulEqOrd.eq_of_compare hrange)

end Binding

/-- Bindings that were given one after the other, as they are listed. -/
structure SortedFrom (received listing : List Binding) : Prop where
  /-- Each binding is listed as often as it was given. -/
  perm : listing.Perm received
  /-- Bindings are listed by name, then by place. -/
  sorted : listing.Pairwise fun left right =>
    left.key < right.key ∨ left.key = right.key ∧ left.rangedBefore right = true
  /-- Those of one name and one place are listed in the order in which they were given. -/
  ties : ∀ spot, listing.filter (·.spot = spot) = received.filter (·.spot = spot)

/-- Sorting keeps the order of bindings of one name and one place. -/
theorem filter_spot_mergeSort (bindings : List Binding) (spot : String × Range) :
    (bindings.mergeSort Binding.listedBefore).filter (·.spot = spot) =
      bindings.filter (·.spot = spot) := by
  apply filter_mergeSort_of_tied Binding.listedBefore_trans Binding.listedBefore_total
  intro left right hleft hright
  apply Binding.listedBefore_of_spot_eq
  rw [of_decide_eq_true hleft, of_decide_eq_true hright]

/-- Sorted bindings are in the order of listing. -/
theorem pairwise_mergeSort_listedBefore (bindings : List Binding) :
    (bindings.mergeSort Binding.listedBefore).Pairwise fun left right =>
      left.listedBefore right = true :=
  List.pairwise_mergeSort Binding.listedBefore_trans Binding.listedBefore_total bindings

/-- Bindings that are in the order of listing are told by those of each name and place. -/
theorem eq_of_filter_spot {left right : List Binding}
    (hleft : left.Pairwise fun a b => a.listedBefore b = true)
    (hright : right.Pairwise fun a b => a.listedBefore b = true)
    (hspot : ∀ spot, left.filter (·.spot = spot) = right.filter (·.spot = spot)) :
    left = right :=
  eq_of_filter_group (fun _ => Binding.listedBefore_of_spot_eq rfl) Binding.spot_eq_of_listedBefore
    hleft hright hspot

/-- What is listed is told by the bindings of each name and place, in their order. -/
theorem mergeSort_congr_spot {left right : List Binding}
    (hspot : ∀ spot, left.filter (·.spot = spot) = right.filter (·.spot = spot)) :
    left.mergeSort Binding.listedBefore = right.mergeSort Binding.listedBefore := by
  apply eq_of_filter_spot
  · exact pairwise_mergeSort_listedBefore left
  · exact pairwise_mergeSort_listedBefore right
  · intro spot
    rw [filter_spot_mergeSort, filter_spot_mergeSort, hspot]

/-- Sorting keeps bindings of one key and one place in the order they came in, so only that order
has to be known. -/
theorem sortedFrom_mergeSort {bindings received : List Binding}
    (hspot : ∀ spot, bindings.filter (·.spot = spot) = received.filter (·.spot = spot)) :
    SortedFrom received (bindings.mergeSort Binding.listedBefore) where
  perm := (List.mergeSort_perm _ _).trans (perm_of_filter_group hspot)
  sorted := (pairwise_mergeSort_listedBefore bindings).imp Binding.listedBefore_iff.mp
  ties spot := by rw [filter_spot_mergeSort, hspot]

/-- Bindings of one name and place are found among those of the name. -/
theorem filter_spot_eq (bindings : List Binding) (spot : String × Range) :
    bindings.filter (·.spot = spot) =
      (bindings.filter (·.key = spot.1)).filter (·.range = spot.2) := by
  rw [List.filter_filter]
  refine List.filter_congr fun binding _ => ?_
  rw [← Bool.decide_and, decide_eq_decide, Binding.spot, Prod.ext_iff, and_comm]

/-! ## Lists of names -/

/-- A binding is added to the list of its name. -/
def fileUnderName (lists : Keyed String (List Binding)) (binding : Binding) :
    Keyed String (List Binding) :=
  lists.put binding.key ((lists.get? binding.key).getD [] ++ [binding])

/-- Filing bindings one after the other adds to each list the bindings of its key, in order. -/
theorem get?_foldl_fileUnderName (bindings : List Binding) (lists : Keyed String (List Binding))
    (key : String) :
    (bindings.foldl fileUnderName lists).get? key =
      if bindings.filter (·.key = key) = [] then lists.get? key
      else some ((lists.get? key).getD [] ++ bindings.filter (·.key = key)) := by
  induction bindings generalizing lists with
  | nil => rfl
  | cons binding rest ih =>
    rw [List.foldl_cons, ih, fileUnderName, Keyed.get?_put, List.filter_cons]
    by_cases hkey : binding.key = key
    · by_cases hrest : rest.filter (·.key = key) = []
      · simp [hkey, hrest]
      · simp [hkey, hrest]
    · simp [hkey, Ne.symm hkey]

/-- Bindings that are kept in lists under their names are found in the list of their name, in
whatever order the names stand. -/
theorem filter_key_flatten {entries : List (String × List Binding)}
    (hnodup : (entries.map Prod.fst).Nodup)
    (hnames : ∀ entry ∈ entries, ∀ binding ∈ entry.2, binding.key = entry.1) (key : String) :
    (entries.map Prod.snd).flatten.filter (·.key = key) =
      ((entries.find? fun entry => entry.1 = key).map Prod.snd).getD [] := by
  induction entries with
  | nil => rfl
  | cons entry rest ih =>
    obtain ⟨hown, hrest⟩ := List.forall_mem_cons.mp hnames
    rw [List.map_cons, List.nodup_cons] at hnodup
    rw [List.map_cons, List.flatten_cons, List.filter_append, ih hnodup.2 hrest, List.find?_cons]
    by_cases hkey : entry.1 = key
    · have hall : entry.2.filter (·.key = key) = entry.2 :=
        List.filter_eq_self.mpr fun binding hbinding => by simp [hown binding hbinding, hkey]
      have hnone : (rest.find? fun other => other.1 = key) = none := by
        refine List.find?_eq_none.mpr fun other hother hsame => hnodup.1 ?_
        rw [hkey, ← of_decide_eq_true hsame]
        exact List.mem_map_of_mem hother
      simp [hall, hnone, hkey]
    · have hnone : entry.2.filter (·.key = key) = [] :=
        List.filter_eq_nil_iff.mpr fun binding hbinding => by simp [hown binding hbinding, hkey]
      simp [hnone, hkey]

namespace SymbolTable

variable {ρ : Type}

/-- The bindings of a table in lists, one for each name. -/
def lists (table : SymbolTable ρ) : Keyed String (List Binding) :=
  table.bindings.foldl fileUnderName .empty

/-- The list under a key is what the table binds there, if anything. -/
theorem get?_lists (table : SymbolTable ρ) (key : String) :
    table.lists.get? key = if table.own key = [] then none else some (table.own key) := by
  rw [lists, get?_foldl_fileUnderName, Keyed.get?_empty]
  rfl

/-- There is a list under a key exactly if the table binds it. -/
theorem get?_lists_eq_some_iff {table : SymbolTable ρ} {key : String} {list : List Binding} :
    table.lists.get? key = some list ↔ list = table.own key ∧ list ≠ [] := by
  rw [get?_lists]
  split
  · rename_i hnone
    simp [hnone]
  · rename_i hsome
    constructor
    · intro heq
      rw [← Option.some.inj heq]
      exact ⟨rfl, hsome⟩
    · rintro ⟨rfl, -⟩
      rfl

/-- The listing is the same in whatever order the lists of the names are gone through. -/
theorem listing_eq_of_lists {table : SymbolTable ρ} {map : Keyed String (List Binding)}
    (hget : ∀ key, map.get? key = table.lists.get? key) :
    map.values.flatten.mergeSort Binding.listedBefore = table.listing := by
  have hnames : ∀ entry ∈ map.entries, ∀ binding ∈ entry.2, binding.key = entry.1 := by
    intro entry hentry binding hbinding
    have hlist := hget entry.1 ▸ Keyed.get?_eq_some_iff.mpr hentry
    rw [(get?_lists_eq_some_iff.mp hlist).1] at hbinding
    exact of_decide_eq_true (List.mem_filter.mp hbinding).2
  have hown : ∀ key, map.values.flatten.filter (·.key = key) = table.own key := by
    intro key
    have hlookup : map.values.flatten.filter (·.key = key) = (map.get? key).getD [] :=
      filter_key_flatten map.nodup hnames key
    rw [hlookup, hget, get?_lists]
    split
    · rename_i hnone
      exact hnone.symm
    · rfl
  apply mergeSort_congr_spot
  intro spot
  rw [filter_spot_eq, hown, filter_spot_eq table.bindings]
  rfl

/-- Tables that bind the same under every key list the same. -/
theorem listing_congr {left right : SymbolTable ρ} (hown : ∀ key, left.own key = right.own key) :
    left.listing = right.listing := by
  apply mergeSort_congr_spot
  intro spot
  rw [filter_spot_eq, filter_spot_eq right.bindings]
  exact congrArg (List.filter _) (hown spot.1)

/-- The listed bindings of one name are those of the name, sorted by place. -/
theorem filter_key_listing (table : SymbolTable ρ) (key : String) :
    table.listing.filter (·.key = key) = (table.own key).mergeSort Binding.rangedBefore := by
  apply eq_of_filter_spot
  · exact (pairwise_mergeSort_listedBefore table.bindings).sublist List.filter_sublist
  · have hsorted := List.pairwise_mergeSort Binding.rangedBefore_trans Binding.rangedBefore_total
      (table.own key)
    refine hsorted.imp_of_mem fun {left right} hleft hright hle => ?_
    have hkey : ∀ binding ∈ (table.own key).mergeSort Binding.rangedBefore, binding.key = key := by
      intro binding hbinding
      exact of_decide_eq_true (List.mem_filter.mp (List.mem_mergeSort.mp hbinding)).2
    have hsame : left.key = right.key := (hkey left hleft).trans (hkey right hright).symm
    exact Binding.listedBefore_iff.mpr (Or.inr ⟨hsame, hle⟩)
  · intro spot
    have hties : ((table.own key).mergeSort Binding.rangedBefore).filter (·.spot = spot) =
        (table.own key).filter (·.spot = spot) := by
      apply filter_mergeSort_of_tied Binding.rangedBefore_trans Binding.rangedBefore_total
      intro left right hleft hright
      have hrange : left.range = right.range :=
        congrArg Prod.snd ((of_decide_eq_true hleft).trans (of_decide_eq_true hright).symm)
      have hself : compare right.range right.range = .eq := Std.ReflCmp.compare_self
      rw [Binding.rangedBefore, hrange, hself]
      rfl
    rw [hties, List.filter_comm, listing, filter_spot_mergeSort, List.filter_comm]
    rfl

/-- A table that absorbs another has, of each name, its own bindings and then those of the other by
place. -/
theorem own_absorb (table other : SymbolTable ρ) (key : String) :
    (table.absorb other).own key =
      table.own key ++ (other.own key).mergeSort Binding.rangedBefore := by
  rw [← filter_key_listing]
  exact List.filter_append ..

end SymbolTable

/-! ## Operations -/

/-- An operation on tables. -/
inductive TableOp (ρ : Type) where
  /-- A table without bindings is made, under a reference that is free. -/
  | make (ref : ρ) (name : String)
  /-- A table is dropped. -/
  | drop (ref : ρ)
  /-- A table gets a binding. -/
  | bind (ref : ρ) (binding : Binding)
  /-- A table takes over the bindings of another. -/
  | merge (ref other : ρ)
  /-- A table gets a sibling. -/
  | addSibling (ref sibling : ρ)
  /-- A table loses a sibling. -/
  | removeSibling (ref sibling : ρ)

/-- A way of keeping account of what each table is given. -/
structure Bookkeeping (β : Type) where
  /-- The account of a new table. -/
  opening : β
  /-- The account of a table that gets a binding. -/
  add : β → Binding → β
  /-- The account of a table that takes over what another has. -/
  takeOver : β → β → β

namespace Bookkeeping

/-- Bindings are written down in the order in which they are given; a merge adds all that the other
table has been given. -/
def given : Bookkeeping (List Binding) where
  opening := []
  add received binding := received ++ [binding]
  takeOver received other := received ++ other

/-- Bindings are kept in lists under their names. A merge goes through the lists of the other table,
sorts what it finds and adds it one after the other. -/
def byName : Bookkeeping (Keyed String (List Binding)) where
  opening := .empty
  add := fileUnderName
  takeOver lists other :=
    (other.values.flatten.mergeSort Binding.listedBefore).foldl fileUnderName lists

/-- Nothing is written down. -/
def blank : Bookkeeping Unit := ⟨(), fun _ _ => (), fun _ _ => ()⟩

variable {β ρ : Type} [DecidableEq ρ] (keeping : Bookkeeping β)

/-- The accounts of the tables that exist, after an operation. -/
def record (books : ρ → Option β) : TableOp ρ → ρ → Option β
  | .make ref _ => Function.update books ref (some ((books ref).getD keeping.opening))
  | .drop ref => Function.update books ref none
  | .bind ref binding =>
    Function.update books ref ((books ref).map fun account => keeping.add account binding)
  | .merge ref other =>
    match books other with
    | some taken =>
      if ref = other then books
      else Function.update books ref ((books ref).map fun account => keeping.takeOver account taken)
    | none => books
  | .addSibling .. | .removeSibling .. => books

/-- The accounts after some operations, where there were no tables at first. -/
def books (ops : List (TableOp ρ)) : ρ → Option β := ops.foldl keeping.record fun _ => none

end Bookkeeping

section Operations

variable {ρ : Type} [DecidableEq ρ]

/-- The tables after an operation. -/
def Tables.perform (tables : Tables ρ) : TableOp ρ → Tables ρ
  | .make ref name => tables.putNew ref (.named name)
  | .drop ref => tables.erase ref
  | .bind ref binding => tables.adjust ref fun table => table.bind binding
  | .merge ref other => tables.merge ref other
  | .addSibling ref sibling => tables.adjust ref fun table => table.addSibling sibling
  | .removeSibling ref sibling => tables.removeSibling ref sibling

/-- The tables after some operations. -/
def Tables.performAll (tables : Tables ρ) (ops : List (TableOp ρ)) : Tables ρ :=
  ops.foldl Tables.perform tables

end Operations

/-! ## Tables and their accounts -/

/-- What holds of a table and its account, and is kept by everything that is done to a table. -/
structure Bookkeeping.Keeps {β ρ : Type} [DecidableEq ρ] (keeping : Bookkeeping β)
    (holds : SymbolTable ρ → β → Prop) : Prop where
  /-- It holds of a new table. -/
  opening : ∀ name, holds (.named name) keeping.opening
  /-- It is kept when a table gets a binding. -/
  add : ∀ table account, holds table account → ∀ binding,
    holds (table.bind binding) (keeping.add account binding)
  /-- It is kept when a table takes over the bindings of another. -/
  takeOver : ∀ table account, holds table account → ∀ other taken, holds other taken →
    holds (table.absorb other) (keeping.takeOver account taken)
  /-- It is kept when a table gets a sibling. -/
  addSibling : ∀ table account, holds table account → ∀ sibling,
    holds (table.addSibling sibling) account
  /-- It is kept when a table loses siblings. -/
  dropSiblings : ∀ table account, holds table account → ∀ stays : ρ → Bool,
    holds { table with siblings := table.siblings.filter stays } account

namespace Bookkeeping.Keeps

/-- A change of a table and of its account keeps them together, if there are any. -/
theorem rel_map {β ρ : Type} {holds : SymbolTable ρ → β → Prop}
    {change : SymbolTable ρ → SymbolTable ρ} {note : β → β} {table : Option (SymbolTable ρ)}
    {account : Option β} (hrel : Option.Rel holds table account)
    (hkept : ∀ table account, holds table account → holds (change table) (note account)) :
    Option.Rel holds (table.map change) (account.map note) := by
  cases hrel with
  | none => exact .none
  | some hheld => exact .some (hkept _ _ hheld)

variable {β ρ : Type} [DecidableEq ρ] {keeping : Bookkeeping β} {holds : SymbolTable ρ → β → Prop}
  {tables : Tables ρ} {books : ρ → Option β}

/-- Tables and books that change under one reference go on to match if they match there. -/
theorem match_update {later : Tables ρ} {ref : ρ} {changed : Option (SymbolTable ρ)}
    {noted : Option β} (hbooks : ∀ ref, Option.Rel holds (tables.get? ref) (books ref))
    (hget : ∀ other, later.get? other = if other = ref then changed else tables.get? other)
    (hchanged : Option.Rel holds changed noted) (other : ρ) :
    Option.Rel holds (later.get? other) (Function.update books ref noted other) := by
  rw [hget]
  by_cases hother : other = ref
  · rw [if_pos hother, hother, Function.update_self]
    exact hchanged
  · rw [if_neg hother, Function.update_of_ne hother]
    exact hbooks other

/-- A change that an account does not note. -/
theorem match_adjust (hbooks : ∀ ref, Option.Rel holds (tables.get? ref) (books ref)) (ref : ρ)
    {change : SymbolTable ρ → SymbolTable ρ}
    (hkept : ∀ table account, holds table account → holds (change table) account) (other : ρ) :
    Option.Rel holds ((tables.adjust ref change).get? other) (books other) := by
  rw [Keyed.get?_adjust]
  split
  · rename_i heq
    have hrel : Option.Rel holds ((tables.get? ref).map change) ((books ref).map id) :=
      rel_map (hbooks ref) hkept
    rw [Option.map_id] at hrel
    exact heq ▸ hrel
  · exact hbooks other

variable (h : keeping.Keeps holds)
include h

/-- Every operation keeps what holds of the tables and their accounts. -/
theorem perform (hbooks : ∀ ref, Option.Rel holds (tables.get? ref) (books ref)) (op : TableOp ρ)
    (ref : ρ) : Option.Rel holds ((tables.perform op).get? ref) (keeping.record books op ref) := by
  cases op with
  | make made name =>
    refine match_update hbooks (fun other => Keyed.get?_putNew tables made other _) ?_ ref
    have hrel := hbooks made
    generalize tables.get? made = table at hrel ⊢
    generalize books made = account at hrel ⊢
    cases hrel with
    | none => exact .some (h.opening name)
    | some hheld => exact .some hheld
  | drop gone =>
    exact match_update hbooks (fun other => Keyed.get?_erase tables gone other) .none ref
  | bind bound binding =>
    refine match_update hbooks (fun other => Keyed.get?_adjust tables bound other _) ?_ ref
    exact rel_map (hbooks bound) fun table account hheld => h.add table account hheld binding
  | merge target other =>
    have hrel := hbooks other
    simp only [Tables.perform, Tables.merge, record]
    generalize tables.get? other = source at hrel ⊢
    generalize books other = taken at hrel ⊢
    cases hrel with
    | none =>
      simp only [ite_self]
      exact hbooks ref
    | some hsource =>
      -- a table that is merged into itself stays as it is, in the books as well
      by_cases hself : target = other
      · simp only [if_pos hself]
        exact hbooks ref
      · simp only [if_neg hself]
        refine match_update hbooks (fun other => Keyed.get?_adjust tables target other _) ?_ ref
        exact rel_map (hbooks target) fun table account hheld =>
          h.takeOver table account hheld _ _ hsource
  | addSibling joined sibling =>
    exact match_adjust hbooks joined (fun table account hheld =>
      h.addSibling table account hheld sibling) ref
  | removeSibling left sibling =>
    exact match_adjust hbooks left (fun table account hheld =>
      h.dropSiblings table account hheld _) ref

/-- What is kept by everything that is done to a table holds of all tables and their accounts. -/
theorem performAll (ops : List (TableOp ρ)) (ref : ρ) :
    Option.Rel holds ((Tables.performAll .empty ops).get? ref) (keeping.books ops ref) := by
  have hrun : ∀ {tables : Tables ρ} {books : ρ → Option β},
      (∀ ref, Option.Rel holds (tables.get? ref) (books ref)) →
      Option.Rel holds ((tables.performAll ops).get? ref) (ops.foldl keeping.record books ref) := by
    induction ops with
    | nil => exact fun hbooks => hbooks ref
    | cons op rest ih => exact fun hbooks => ih (h.perform hbooks op)
  exact hrun fun _ => .none

/-- A table that exists has an account. -/
theorem exists_account {ops : List (TableOp ρ)} {ref : ρ} {table : SymbolTable ρ}
    (htable : (Tables.performAll .empty ops).get? ref = some table) :
    ∃ account, keeping.books ops ref = some account ∧ holds table account := by
  have hrel := h.performAll ops ref
  rw [htable] at hrel
  generalize keeping.books ops ref = account at hrel ⊢
  cases hrel with
  | some hheld => exact ⟨_, rfl, hheld⟩

end Bookkeeping.Keeps

namespace SymbolTable

variable {ρ : Type}

/-- A table holds what it has been given, the bindings of one name and one place in the order in
which they were given. -/
def Holds (table : SymbolTable ρ) (received : List Binding) : Prop :=
  ∀ spot, table.bindings.filter (·.spot = spot) = received.filter (·.spot = spot)

variable [DecidableEq ρ]

/-- A sibling brings no bindings. -/
theorem bindings_addSibling (table : SymbolTable ρ) (sibling : ρ) :
    (table.addSibling sibling).bindings = table.bindings := by
  unfold addSibling
  split <;> rfl

/-- Although a table absorbs what another one lists, it holds what the other one was given. -/
theorem keeps_holds :
    Bookkeeping.given.Keeps fun (table : SymbolTable ρ) received => table.Holds received where
  opening _ _ := rfl
  add table received hheld binding spot := by
    rw [bind, Bookkeeping.given, List.filter_append, List.filter_append, hheld spot]
  takeOver table received hheld other given hother spot := by
    rw [absorb, Bookkeeping.given, List.filter_append, List.filter_append, hheld spot, listing,
      filter_spot_mergeSort, hother spot]
  addSibling table received hheld sibling spot := by
    rw [bindings_addSibling, hheld spot]
  dropSiblings _ _ hheld _ := hheld

/-- The lists of a table are those that are kept one binding at a time. -/
theorem keeps_lists :
    Bookkeeping.byName.Keeps fun (table : SymbolTable ρ) lists => table.lists = lists where
  opening _ := rfl
  add table lists hlists binding := by
    rw [← hlists, SymbolTable.lists, bind, List.foldl_append]
    rfl
  takeOver table lists hlists other taken htaken := by
    have hlisting : taken.values.flatten.mergeSort Binding.listedBefore = other.listing := by
      rw [← htaken, listing_eq_of_lists fun _ => rfl]
    calc (table.absorb other).lists
        = other.listing.foldl fileUnderName table.lists := List.foldl_append ..
      _ = Bookkeeping.byName.takeOver lists taken := by rw [hlists, ← hlisting]; rfl
  addSibling table lists hlists sibling := by
    rw [← hlists, SymbolTable.lists, bindings_addSibling]
    rfl
  dropSiblings _ _ hlists _ := hlists

/-- No sibling is listed twice. -/
theorem keeps_nodup_siblings :
    Bookkeeping.blank.Keeps fun (table : SymbolTable ρ) _ => table.siblings.Nodup where
  opening _ := List.nodup_nil
  add _ _ hnodup _ := hnodup
  takeOver _ _ hnodup _ _ _ := hnodup
  addSibling table _ hnodup sibling := by
    unfold addSibling
    split
    · exact hnodup
    · rename_i hnew
      refine List.nodup_append.mpr ⟨hnodup, List.nodup_singleton sibling, ?_⟩
      intro old hold new hsibling heq
      rw [List.mem_singleton.mp hsibling] at heq
      exact hnew (List.contains_iff_mem.mpr (heq ▸ hold))
  dropSiblings _ _ hnodup _ := hnodup.filter _

end SymbolTable

section Operations

variable {ρ : Type} [DecidableEq ρ]

/-- A merge changes no other table than the one that gets the bindings. -/
theorem Tables.get?_merge {tables : Tables ρ} {ref other : ρ} {source : SymbolTable ρ}
    (hne : ref ≠ other) (hsource : tables.get? other = some source) (third : ρ) :
    (tables.merge ref other).get? third =
      if third = ref then (tables.get? ref).map (·.absorb source) else tables.get? third := by
  rw [Tables.merge, if_neg hne, hsource]
  exact Keyed.get?_adjust ..

end Operations

/-- Whatever operations tables have been through, a table keeps its bindings in lists, each under
their name in lower case and none of them empty; no sibling is listed twice; and the listing is what
the table has been given, sorted by name and place. It depends on the lists only and is the same in
whatever order the names are gone through. When a table takes over the bindings of another, each
name gets those of the other by place, and no other table changes; a table takes over nothing from
itself. -/
theorem table_contents_kept {ρ : Type} [DecidableEq ρ] (ops : List (TableOp ρ)) :
    let tables := Tables.performAll .empty ops
    (∀ ref table, tables.get? ref = some table →
      (∃ lists, Bookkeeping.byName.books ops ref = some lists ∧
        (∀ key list, lists.get? key = some list ↔ list = table.own key ∧ list ≠ []) ∧
        (∀ key list, lists.get? key = some list → list ≠ [] ∧
          ∀ binding ∈ list, Text.lower binding.name = key) ∧
        ∀ map : Keyed String (List Binding), (∀ key, map.get? key = lists.get? key) →
          map.values.flatten.mergeSort Binding.listedBefore = table.listing) ∧
      table.siblings.Nodup ∧
      (∃ received, Bookkeeping.given.books ops ref = some received ∧
        SortedFrom received table.listing) ∧
      ∀ other : SymbolTable ρ, (∀ key, other.own key = table.own key) →
        other.listing = table.listing) ∧
    (∀ ref other table source, ref ≠ other → tables.get? ref = some table →
      tables.get? other = some source →
      ∃ merged, (tables.merge ref other).get? ref = some merged ∧
        (∀ key, merged.own key =
          table.own key ++ (source.own key).mergeSort Binding.rangedBefore) ∧
        ∀ third, third ≠ ref → (tables.merge ref other).get? third = tables.get? third) ∧
    ∀ ref, tables.merge ref ref = tables := by
  refine ⟨fun ref table htable => ⟨?_, ?_, ?_, ?_⟩, ?_, ?_⟩
  -- each of the first three is read off an account that every operation keeps
  · obtain ⟨_, hbooks, rfl⟩ := SymbolTable.keeps_lists.exists_account htable
    refine ⟨_, hbooks, fun key list => SymbolTable.get?_lists_eq_some_iff, ?_,
      fun map => SymbolTable.listing_eq_of_lists⟩
    intro key list hlist
    obtain ⟨rfl, hne⟩ := SymbolTable.get?_lists_eq_some_iff.mp hlist
    refine ⟨hne, fun binding hbinding => ?_⟩
    exact of_decide_eq_true (List.mem_filter.mp hbinding).2
  · obtain ⟨_, -, hnodup⟩ := SymbolTable.keeps_nodup_siblings.exists_account htable
    exact hnodup
  · obtain ⟨received, hbooks, hheld⟩ := SymbolTable.keeps_holds.exists_account htable
    exact ⟨received, hbooks, sortedFrom_mergeSort hheld⟩
  · exact fun other hown => SymbolTable.listing_congr hown
  · intro ref other table source hne htable hsource
    refine ⟨table.absorb source, ?_, SymbolTable.own_absorb table source, ?_⟩
    · rw [Tables.get?_merge hne hsource, if_pos rfl, htable, Option.map_some]
    · intro third hthird
      rw [Tables.get?_merge hne hsource, if_neg hthird]
  · intro ref
    rw [Tables.merge, if_pos rfl]

/-- Two tables that bind one name, spelled in three ways. -/
def hallAndAttic : List (TableOp Nat) :=
  [.make 0 "hall", .make 1 "attic", .bind 0 ⟨"Lamp", .onLine 5 0 4, .object⟩,
    .bind 0 ⟨"lamp", .onLine 2 0 4, .string⟩, .bind 1 ⟨"LAMP", .onLine 9 0 4, .integer⟩,
    .addSibling 0 1, .addSibling 0 1, .removeSibling 0 7]

/-- The hall, in which the later lamp was bound first. -/
def hall : SymbolTable Nat :=
  ⟨"hall", [⟨"Lamp", .onLine 5 0 4, .object⟩, ⟨"lamp", .onLine 2 0 4, .string⟩], [1], []⟩

/-- The attic with its lamp. -/
def attic : SymbolTable Nat := ⟨"attic", [⟨"LAMP", .onLine 9 0 4, .integer⟩], [], []⟩

/-- Once the attic has taken over the hall it has its own lamp first, then those of the hall by
their places. The hall stays as it was. -/
theorem attic_takes_over_hall :
    let tables := Tables.performAll .empty hallAndAttic
    tables.get? 0 = some hall ∧ tables.get? 1 = some attic ∧
      SortedFrom hall.bindings hall.listing ∧
      ∃ merged, (tables.merge 1 0).get? 1 = some merged ∧
        merged.own "lamp" = attic.own "lamp" ++ (hall.own "lamp").mergeSort Binding.rangedBefore ∧
        (tables.merge 1 0).get? 0 = some hall := by
  intro tables
  have hhall : tables.get? 0 = some hall := by decide +kernel
  have hattic : tables.get? 1 = some attic := by decide +kernel
  obtain ⟨htables, hmerge, -⟩ := table_contents_kept hallAndAttic
  obtain ⟨-, -, ⟨received, hreceived, hsorted⟩, -⟩ := htables 0 hall hhall
  obtain ⟨merged, hmerged, hown, hothers⟩ := hmerge 1 0 attic hall (by decide) hattic hhall
  obtain rfl : hall.bindings = received := Option.some.inj hreceived
  exact ⟨hhall, hattic, hsorted, merged, hmerged, hown "lamp",
    (hothers 0 (by decide)).trans hhall⟩

end ScopeCheck
