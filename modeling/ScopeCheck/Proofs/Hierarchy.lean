import ScopeCheck.Check.Hierarchy
import ScopeCheck.Proofs.Keyed
import ScopeCheck.Proofs.Trails

/-!
# The hierarchy of a registry

Under the key of a class the hierarchy has the first declaration of the class (`get?_classes`) and
the key of the class that this declaration extends (`get?_links`). So its links lead from classes to
classes (`linksClasses_ofRegistry`). In any such hierarchy, whether its links run in circles or not,
the ancestors of a class are the other classes that links lead to from it (`mem_ancestorKeys_iff`).
-/

namespace ScopeCheck

/-- The keys that are visited are those of the declarations. -/
theorem mem_sortedKeys {α : Type} {decls : List (Declaration α)} {key : String} :
    key ∈ sortedKeys decls ↔ ∃ decl ∈ decls, decl.key = key := by
  rw [sortedKeys, List.mem_mergeSort, List.mem_eraseDups, List.mem_map]

namespace Registry

/-- The declaration of a class that counts. -/
def canonical? (registry : Registry) (key : String) : Option (Declaration ClassDecl) :=
  registry.classes.find? fun decl => decl.key = key

variable {registry : Registry}

/-- A class that counts under a key is declared under it. -/
theorem mem_sortedKeys_of_canonical? {key : String} {decl : Declaration ClassDecl}
    (hdecl : registry.canonical? key = some decl) : key ∈ sortedKeys registry.classes := by
  have hkey := List.find?_some hdecl
  exact mem_sortedKeys.mpr ⟨decl, List.mem_of_find?_eq_some hdecl, of_decide_eq_true hkey⟩

/-- A name means the first declaration of a class. -/
theorem canonical?_of_class? {name : String} {enclosing : Option String}
    {decl : Declaration ClassDecl} (hdecl : registry.class? name enclosing = some decl) :
    registry.canonical? decl.key = some decl := by
  obtain ⟨key, -, hfind⟩ := List.exists_of_findSome?_eq_some hdecl
  have hkey := List.find?_some hfind
  rw [canonical?, of_decide_eq_true hkey]
  exact hfind

end Registry

namespace Hierarchy

variable (registry : Registry) (key : String)

/-- Under each key of the hierarchy stands the class that counts. -/
theorem get?_classes : (ofRegistry registry).classes.get? key = registry.canonical? key :=
  Keyed.get?_ofList_filterMap (sortedKeys registry.classes) registry.canonical?
    (fun _ _ => Registry.mem_sortedKeys_of_canonical?) key

/-- A class is linked to the one that its clause means. -/
theorem get?_links :
    (ofRegistry registry).links.get? key =
      ((registry.canonical? key).bind registry.parentClass?).map Declaration.key := by
  have hlinks : (ofRegistry registry).links =
      .ofList ((sortedKeys registry.classes).filterMap fun key =>
        (((registry.canonical? key).bind registry.parentClass?).map Declaration.key).map
          fun parent => (key, parent)) := by
    refine congrArg Keyed.ofList ?_
    rw [List.filterMap_filterMap]
    refine List.filterMap_congr fun key _ => ?_
    change ((registry.canonical? key).map fun decl => (key, decl)).bind _ = _
    cases registry.canonical? key with
    | none => rfl
    | some decl => exact (Option.map_map _ _ _).symm
  rw [hlinks]
  refine Keyed.get?_ofList_filterMap _ (fun key =>
    ((registry.canonical? key).bind registry.parentClass?).map Declaration.key) ?_ key
  intro other parent hparent
  obtain ⟨_, hbind, -⟩ := Option.map_eq_some_iff.mp hparent
  obtain ⟨decl, hdecl, -⟩ := Option.bind_eq_some_iff.mp hbind
  exact Registry.mem_sortedKeys_of_canonical? hdecl

/-- The class under a key has that key. -/
theorem key_of_get?_classes {decl : Declaration ClassDecl}
    (hdecl : (ofRegistry registry).classes.get? key = some decl) : decl.key = key := by
  rw [get?_classes] at hdecl
  have hkey := List.find?_some hdecl
  exact of_decide_eq_true hkey

/-! ## Links -/

/-- A class is linked to its parent. -/
abbrev Extends (hierarchy : Hierarchy) : String → String → Prop :=
  Trail.Step hierarchy.links.get?

/-- Links lead from classes to classes. -/
def LinksClasses (hierarchy : Hierarchy) : Prop :=
  ∀ child parent, hierarchy.Extends child parent →
    child ∈ hierarchy.classes.keys ∧ parent ∈ hierarchy.classes.keys

/-- The links of a hierarchy can be gone through. -/
theorem linksClasses_of_entries {hierarchy : Hierarchy}
    (hentries : ∀ entry ∈ hierarchy.links.entries,
      entry.1 ∈ hierarchy.classes.keys ∧ entry.2 ∈ hierarchy.classes.keys) :
    hierarchy.LinksClasses :=
  fun _ _ hlink => hentries _ (Keyed.get?_eq_some_iff.mp hlink)

/-- Links lead from classes to classes. -/
theorem linksClasses_ofRegistry : (ofRegistry registry).LinksClasses := by
  intro child parent hlink
  have hparent : ((registry.canonical? child).bind registry.parentClass?).map Declaration.key =
      some parent := (get?_links registry child).symm.trans hlink
  obtain ⟨above, hbind, rfl⟩ := Option.map_eq_some_iff.mp hparent
  obtain ⟨decl, hdecl, habove⟩ := Option.bind_eq_some_iff.mp hbind
  rw [Keyed.mem_keys_iff, Keyed.mem_keys_iff, get?_classes, get?_classes, hdecl]
  refine ⟨rfl, ?_⟩
  unfold Registry.parentClass? at habove
  split at habove
  · cases habove
  · rw [Registry.canonical?_of_class? habove]
    rfl

/-! ## Ancestors -/

/-- The keys of the classes above a class, nearest first. -/
def ancestorKeys (hierarchy : Hierarchy) (key : String) : List String :=
  Trail.after hierarchy.links.get? hierarchy.classes.keys key

/-- A declaration is that of the class of a key. -/
def Declares (hierarchy : Hierarchy) (key : String) (decl : Declaration ClassDecl) : Prop :=
  hierarchy.classes.get? key = some decl

/-- What is found for every member of a list is listed in the order of the members. -/
theorem forall₂_filterMap {α β : Type} {list : List α} {search : α → Option β} {R : α → β → Prop}
    (hfound : ∀ member ∈ list, ∃ value, search member = some value ∧ R member value) :
    List.Forall₂ R list (list.filterMap search) := by
  induction list with
  | nil => exact .nil
  | cons member rest ih =>
    obtain ⟨value, hvalue, hrel⟩ := hfound member List.mem_cons_self
    rw [List.filterMap_cons_some hvalue]
    exact .cons hrel (ih fun other hother => hfound other (List.mem_cons_of_mem member hother))

section Ancestors

variable (hierarchy : Hierarchy)

/-- Keys of classes stand for their declarations. -/
theorem forall₂_declares {keys : List String}
    (hkeys : ∀ other ∈ keys, other ∈ hierarchy.classes.keys) :
    List.Forall₂ hierarchy.Declares keys (keys.filterMap hierarchy.classes.get?) := by
  refine forall₂_filterMap fun other hother => ?_
  obtain ⟨decl, hdecl⟩ := Option.isSome_iff_exists.mp (Keyed.mem_keys_iff.mp (hkeys other hother))
  exact ⟨decl, hdecl, hdecl⟩

/-- The classes above a class are those of the keys above its key. -/
theorem forall₂_ancestors :
    List.Forall₂ hierarchy.Declares (hierarchy.ancestorKeys key) (hierarchy.ancestors key) :=
  hierarchy.forall₂_declares (Trail.walk_follow _ hierarchy.classes.keys [key] key).inside

/-- No class comes twice on the way up, and the class itself does not come again. -/
theorem nodup_cons_ancestorKeys : (key :: hierarchy.ancestorKeys key).Nodup := by
  have hwalk := Trail.walk_follow hierarchy.links.get? hierarchy.classes.keys [key] key
  exact List.nodup_cons.mpr
    ⟨fun hmem => hwalk.new key hmem (List.mem_singleton_self key), hwalk.nodup⟩

/-- On the way up each class extends the next one. -/
theorem isChain_cons_ancestorKeys :
    (key :: hierarchy.ancestorKeys key).IsChain hierarchy.Extends :=
  (Trail.walk_follow hierarchy.links.get? hierarchy.classes.keys [key] key).chain

variable {hierarchy} {key}

/-- The ancestors of a class are the other classes that links lead to from it. -/
theorem mem_ancestorKeys_iff (hlinks : hierarchy.LinksClasses) {other : String} :
    other ∈ hierarchy.ancestorKeys key ↔
      other ≠ key ∧ Relation.TransGen hierarchy.Extends key other :=
  Trail.mem_after_iff fun child parent hlink => (hlinks child parent hlink).2

/-- A class whose parent extends nothing has one ancestor. -/
theorem ancestors_of_only_parent {parent : String} {decl : Declaration ClassDecl}
    (hlink : hierarchy.links.get? key = some parent) (hlast : hierarchy.links.get? parent = none)
    (hdecl : hierarchy.classes.get? parent = some decl) (hne : parent ≠ key) :
    hierarchy.ancestors key = [decl] := by
  have hmem : parent ∈ hierarchy.classes.keys := Keyed.mem_keys_iff.mpr (by simp [hdecl])
  have htrail : Trail.follow hierarchy.links.get? hierarchy.classes.keys [key] key =
      ([parent], .stop) := by
    rw [Trail.follow, hlink]
    simp only [List.contains_iff_mem, List.mem_singleton, hne, dite_false, hmem, dite_true]
    rw [Trail.follow, hlast]
  simp [ancestors, Trail.after, htrail, hdecl]

end Ancestors

/-! ## Classes on their own -/

/-- A class outside of all namespaces, whose parent is told by links alone. -/
def plainClass (file : String) (line : Nat) (name : String) (members : List Member) :
    Declaration ClassDecl :=
  let ident : Ident := ⟨name, .onLine line 6 name.utf8ByteSize⟩
  { file
    name := ident
    namespaceKey := none
    fullName := name
    node := ⟨ident, none, members⟩ }

end Hierarchy

end ScopeCheck
