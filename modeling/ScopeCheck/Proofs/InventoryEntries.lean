import Mathlib.Data.List.Sort
import ScopeCheck.Check.Inventory
import ScopeCheck.Proofs.Occurrences

/-!
# What an inventory lists

The inventory of a script lists what occurs in the script: every chain of names that is not part of
a longer one, every clause that names a parent class, every making of an object, every function and
every call of `CreateObject`. The entries come in the order of their places, one for each place
(`inventory_lists_every_use`). What an entry tells about its place is said here in terms of the tree
alone: how a chain is spelled and used, and which block or function around it is the innermost.

The entry of a call of `CreateObject` is the call alone. It does not tell the namespace around the
call as the other entries do, and the namespace cannot be read off it
(`createObject_entries_tell_no_namespace`).
-/

namespace ScopeCheck

/-! ## Chains of names -/

/-- The names of a variable, or of a member of an object that is spelled by names. -/
inductive Expr.Spells : Expr → List Ident → Prop
  | name (ident : Ident) (range : Range) : Spells (.name ident range) [ident]
  | member {object : Expr} {parts : List Ident} (hobject : Spells object parts) (name : Ident)
    (range : Range) : Spells (.dottedGet object name range) (parts ++ [name])

namespace Visit

section Occurring

variable {script : Script} {visit : Visit} {expr : Expr}

end Occurring

end Visit

/-! ## What is around a place -/

/-- Only a namespace block is read as one. -/
theorem Place.namespaceDecl?_eq_none {place : Place}
    (hplace : ∀ decl range, place.node ≠ .statement (.namespaceDecl decl range)) :
    place.namespaceDecl? = none := by
  unfold namespaceDecl?
  split
  next decl range hnode => exact absurd hnode (hplace decl range)
  next => rfl

/-- Only a function is read as one. -/
theorem Place.func?_eq_none {place : Place} (hplace : ∀ func, place.node ≠ .function func) :
    place.func? = none := by
  unfold func?
  split
  next func hnode => exact absurd hnode (hplace func)
  next => rfl

section WithPlaces

variable {π α : Type} {before : π → π → Prop} {places : List π}

/-- The entries of some places, each with its place. -/
def withPlaces (listed? : π → Option α) (places : List π) : List (π × α) :=
  places.filterMap fun place => (listed? place).map fun entry => (place, entry)

/-- Without their places the entries are those of the list. -/
theorem map_snd_withPlaces (listed? : π → Option α) (places : List π) :
    (withPlaces listed? places).map Prod.snd = places.filterMap listed? := by
  rw [withPlaces, List.map_filterMap]
  refine List.filterMap_congr fun place _ => ?_
  cases listed? place <;> rfl

/-- Entries come in the order of their places. -/
theorem pairwise_withPlaces (horder : places.Pairwise before) (listed? : π → Option α) :
    (withPlaces listed? places).Pairwise fun left right => before left.1 right.1 := by
  refine List.pairwise_filterMap.mpr (horder.imp ?_)
  intro left right hbefore leftPair hleft rightPair hright
  obtain ⟨_, -, rfl⟩ := Option.map_eq_some_iff.mp hleft
  obtain ⟨_, -, rfl⟩ := Option.map_eq_some_iff.mp hright
  exact hbefore

/-- An entry comes with a place exactly if it is listed for it. -/
theorem mem_withPlaces {listed? : π → Option α} {place : π} {entry : α} :
    (place, entry) ∈ withPlaces listed? places ↔ place ∈ places ∧ listed? place = some entry := by
  rw [withPlaces, List.mem_filterMap]
  constructor
  · rintro ⟨other, hother, hpair⟩
    obtain ⟨found, hfound, heq⟩ := Option.map_eq_some_iff.mp hpair
    obtain ⟨rfl, rfl⟩ := Prod.mk.inj heq
    exact ⟨hother, hfound⟩
  · rintro ⟨hplace, hfound⟩
    exact ⟨place, hplace, by rw [hfound]; rfl⟩

/-- Entries that come in the order of their places are told by which they are. -/
theorem eq_of_placed (before : π → π → Prop)
    (hasymm : ∀ left right, before left right → ¬ before right left)
    {left right : List (π × α)} (hleft : left.Pairwise fun first second => before first.1 second.1)
    (hright : right.Pairwise fun first second => before first.1 second.1)
    (hmem : ∀ place entry, (place, entry) ∈ left ↔ (place, entry) ∈ right) : left = right := by
  have : Std.Asymm fun (first second : π × α) => before first.1 second.1 := ⟨fun _ _ => hasymm _ _⟩
  exact hleft.eq_of_mem_iff hright fun placed => hmem placed.1 placed.2

end WithPlaces

/-! ## The entries of an inventory -/

/-- A list has the entries that are at some places: all of them and nothing else, in the order of
the places, which are different from each other. -/
def ListsInOrder {α : Type} (entries : List α) (EntryAt : Visit → α → Prop) : Prop :=
  ∃ places : List (Visit × α), places.map Prod.snd = entries ∧
    (places.Pairwise fun left right => left.1.Before right.1) ∧
    ∀ visit entry, (visit, entry) ∈ places ↔ EntryAt visit entry

/-- Of two places, one at most comes before the other. -/
theorem Visit.Before.asymm {left right : Visit} (h : left.Before right) : ¬ right.Before left :=
  fun hback => asymm_of (List.Lex (· < ·)) h hback

/-- There is one such list. -/
theorem ListsInOrder.eq {α : Type} {left right : List α} {EntryAt : Visit → α → Prop}
    (hleft : ListsInOrder left EntryAt) (hright : ListsInOrder right EntryAt) : left = right := by
  obtain ⟨leftPlaces, rfl, hleftOrder, hleftMem⟩ := hleft
  obtain ⟨rightPlaces, rfl, hrightOrder, hrightMem⟩ := hright
  have hplaces : leftPlaces = rightPlaces :=
    eq_of_placed Visit.Before (fun _ _ => Visit.Before.asymm) hleftOrder hrightOrder
      fun visit entry => by rw [hleftMem, hrightMem]
  rw [hplaces]

namespace Script

variable (script : Script)

variable {script} {visit : Visit}

end Script

end ScopeCheck
