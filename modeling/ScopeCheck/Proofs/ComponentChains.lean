import ScopeCheck.Proofs.Consistency
import ScopeCheck.Proofs.Trails

/-!
# The components above a component

What a component extends is written by users, so it may be no component, the component itself, or
lead in a circle; and it may be spelled in any case. Still each name has one list of components
above it (`Components.AncestorsOf`): each extends the next, none comes twice, and the list ends only
where the last extends nothing that is registered or something that has come before. It is what
`Components.ancestors` gives, for every database that additions and removals lead to
(`Components.ancestorsOf_iff`).

The chain of the scope of a component has the scopes of these components, in their order, if all of
them have one and no other component is declared in the same file (`component_chains_exact`). The
last condition is needed since a scope finds its component by the file only.
-/

namespace ScopeCheck

namespace Components

/-! ## Databases -/

/-- A change of the components that are registered. -/
inductive Edit where
  /-- A component is added or replaced. -/
  | add (component : Component)
  /-- The component that a file declares is removed. -/
  | remove (xmlPath : String)

/-- The components after a change. -/
def edit (components : Components) : Edit → Components
  | .add component => components.add component
  | .remove xmlPath => components.removeDeclaredIn xmlPath

/-- The components after some changes, where there were none at first. -/
def edited (edits : List Edit) : Components := edits.foldl edit .empty

/-- Components stand under their names in lower case. -/
def Named (components : Components) : Prop :=
  ∀ key component, components.byName.get? key = some component → component.key = key

/-- In an empty database nothing stands under a wrong key. -/
theorem named_empty : empty.Named := by
  intro key component hget
  rw [empty, Keyed.get?_empty] at hget
  cases hget

variable {components : Components}

/-- A component is entered under its own key, and a removal moves no other. -/
theorem Named.edit (h : components.Named) (change : Edit) : (components.edit change).Named := by
  intro key component hget
  cases change with
  | add added =>
    rw [Components.edit, add, Keyed.get?_put] at hget
    split at hget
    · rename_i hkey
      rw [← Option.some.inj hget, hkey]
    · exact h key component hget
  | remove xmlPath =>
    rw [Components.edit, removeDeclaredIn] at hget
    split at hget
    · rw [Keyed.get?_erase] at hget
      split at hget
      · cases hget
      · exact h key component hget
    · exact h key component hget

/-- In every database that edits lead to, components stand under their own keys. -/
theorem named_edited (edits : List Edit) : (edited edits).Named := by
  have hrun : ∀ {components : Components}, components.Named →
      (edits.foldl edit components).Named := by
    induction edits with
    | nil => exact id
    | cons change rest ih => exact fun h => ih (h.edit change)
  exact hrun named_empty

/-! ## What a component extends -/

/-- A component extends another, which is registered under the name that it gives. -/
def Extends (components : Components) (child parent : Component) : Prop :=
  ∃ written, child.parentName = some written ∧ components.get? written = some parent

/-- The components above a component, nearest first. -/
structure ChainAbove (components : Components) (own : Component) (above : List Component) :
    Prop where
  /-- Each component extends the next one. -/
  next : (own :: above).IsChain components.Extends
  /-- No component comes twice, and the first does not come again. -/
  nodup : ((own :: above).map Component.key).Nodup
  /-- What the last one extends is not registered or has come before. -/
  stop : ∀ last ∈ (own :: above).getLast?, ∀ parent, components.Extends last parent →
    parent ∈ own :: above

/-- The components above a name, nearest first. -/
inductive AncestorsOf (components : Components) (name : String) : List Component → Prop
  /-- Above what is no component there is nothing. -/
  | unknown (hname : components.get? name = none) : AncestorsOf components name []
  /-- Above a component there is what it extends, what that extends, and so on. -/
  | known {own : Component} {above : List Component} (hname : components.get? name = some own)
    (hchain : components.ChainAbove own above) : AncestorsOf components name above

/-- What a component extends is one of the database. -/
theorem Extends.mem_list {child parent : Component} (hextends : components.Extends child parent) :
    parent ∈ components.list := by
  obtain ⟨written, -, hget⟩ := hextends
  exact Components.mem_list.mpr ⟨_, hget⟩

/-- All components of a chain are of the database, as each is extended by the one before. -/
theorem ChainAbove.mem_list {own component : Component} {above : List Component}
    (hchain : components.ChainAbove own above) (hmem : component ∈ above) :
    component ∈ components.list := by
  obtain ⟨index, hindex, rfl⟩ := List.getElem_of_mem hmem
  exact (List.isChain_iff_getElem.mp hchain.next index (Nat.succ_lt_succ hindex)).mem_list

/-- The components above a name are of the database. -/
theorem mem_list_of_mem_ancestors {name : String} {component : Component}
    (hmem : component ∈ components.ancestors name) : component ∈ components.list := by
  obtain ⟨key, -, hget⟩ := List.mem_filterMap.mp hmem
  exact mem_list.mpr ⟨key, hget⟩

/-- Removing what a file declares does nothing if it declares nothing. -/
theorem removeDeclaredIn_of_none {xmlPath : String}
    (hnone : components.declaredIn? xmlPath = none) :
    components.removeDeclaredIn xmlPath = components := by
  rw [declaredIn?, list, Keyed.values, List.find?_map, Option.map_eq_none_iff] at hnone
  simp only [Function.comp_def] at hnone
  rw [removeDeclaredIn, keyDeclaredIn?, hnone, Option.map_none]

/-- Above a name without a component there is nothing. -/
theorem ancestors_of_none {name : String} (hname : components.get? name = none) :
    components.ancestors name = [] := by
  have hget : components.byName.get? (Text.lower name) = none := hname
  have hnext : components.parentKey (Text.lower name) = none := by
    rw [parentKey, hget, Option.bind_none]
  rw [ancestors, trail, Trail.follow, hnext]
  rfl

/-- At most every component is above a name. -/
theorem length_ancestors_le (name : String) :
    (components.ancestors name).length ≤ components.list.length := by
  have hwalk := Trail.walk_follow components.parentKey components.byName.keys [Text.lower name]
    (Text.lower name)
  calc (components.ancestors name).length
      ≤ (components.trail name).1.length := List.length_filterMap_le _ _
    _ ≤ components.byName.keys.length := (List.subperm_of_subset hwalk.nodup hwalk.inside).length_le
    _ = components.list.length := by
        rw [list, Keyed.keys, Keyed.values, List.length_map, List.length_map]

namespace Named

variable (h : components.Named)
include h

/-- A component is found under its own key. -/
theorem get?_key {component : Component} (hmem : component ∈ components.list) :
    components.byName.get? component.key = some component := by
  obtain ⟨key, hget⟩ := mem_list.mp hmem
  rw [h key component hget]
  exact hget

/-- The key of a component is one of the database. -/
theorem key_mem_keys {component : Component} (hmem : component ∈ components.list) :
    component.key ∈ components.byName.keys :=
  Keyed.mem_keys_iff.mpr (Option.isSome_iff_exists.mpr ⟨component, h.get?_key hmem⟩)

/-- No two components have one key. -/
theorem eq_of_key_eq {left right : Component} (hleft : left ∈ components.list)
    (hright : right ∈ components.list) (hkey : left.key = right.key) : left = right := by
  have hget := h.get?_key hleft
  rw [hkey, h.get?_key hright] at hget
  exact (Option.some.inj hget).symm

/-- What is found under a name has that name. -/
theorem key_of_get? {name : String} {component : Component}
    (hget : components.get? name = some component) : component.key = Text.lower name :=
  h _ component hget

/-- Among registered components, to extend is a step from key to key. -/
theorem extends_iff_step {child parent : Component} (hchild : child ∈ components.list)
    (hparent : parent ∈ components.list) :
    components.Extends child parent ↔ Trail.Step components.parentKey child.key parent.key := by
  simp only [Trail.Step, parentKey, h.get?_key hchild, Option.bind_some, Option.map_eq_some_iff]
  constructor
  · rintro ⟨written, hwritten, hget⟩
    exact ⟨written, hwritten, (h.key_of_get? hget).symm⟩
  · rintro ⟨written, hwritten, hkey⟩
    refine ⟨written, hwritten, ?_⟩
    rw [get?, hkey, h.get?_key hparent]

/-- The keys on the way up are those of the components above. -/
theorem map_key_ancestors (name : String) :
    (components.ancestors name).map Component.key = (components.trail name).1 := by
  have hwalk := Trail.walk_follow components.parentKey components.byName.keys [Text.lower name]
    (Text.lower name)
  have hkeys : ∀ key ∈ (components.trail name).1,
      (components.byName.get? key).map Component.key = some key := by
    intro key hkey
    obtain ⟨component, hget⟩ :=
      Option.isSome_iff_exists.mp (Keyed.mem_keys_iff.mp (hwalk.inside key hkey))
    rw [hget, Option.map_some, h key component hget]
  rw [ancestors, List.map_filterMap]
  calc (components.trail name).1.filterMap
        (fun key => (components.byName.get? key).map Component.key)
      = (components.trail name).1.filterMap some := List.filterMap_congr hkeys
    _ = (components.trail name).1 := List.filterMap_some

/-- The keys of a component and those above it are the name and the trail that is followed from it:
nothing on the trail is lost when components are looked up again. -/
theorem map_key_cons_ancestors {name : String} {own : Component}
    (hown : components.get? name = some own) :
    (own :: components.ancestors name).map Component.key =
      Text.lower name :: (components.trail name).1 := by
  rw [List.map_cons, h.key_of_get? hown, h.map_key_ancestors]

/-- Above a component there are the components that are found. -/
theorem chainAbove_ancestors {name : String} {own : Component}
    (hown : components.get? name = some own) :
    components.ChainAbove own (components.ancestors name) := by
  have hwalk := Trail.walk_follow components.parentKey components.byName.keys [Text.lower name]
    (Text.lower name)
  have hkeys := h.map_key_cons_ancestors hown
  have hlist : ∀ component ∈ own :: components.ancestors name, component ∈ components.list :=
    List.forall_mem_cons.mpr ⟨mem_list.mpr ⟨_, hown⟩, fun _ => mem_list_of_mem_ancestors⟩
  refine ⟨?_, ?_, ?_⟩
  · have hchain : ((own :: components.ancestors name).map Component.key).IsChain
        (Trail.Step components.parentKey) := hkeys ▸ hwalk.chain
    refine List.IsChain.imp_of_mem_imp ?_ ((List.isChain_map Component.key).mp hchain)
    intro child parent hchild hparent hstep
    exact (h.extends_iff_step (hlist child hchild) (hlist parent hparent)).mpr hstep
  · rw [hkeys]
    refine List.nodup_cons.mpr ⟨fun hmem => ?_, hwalk.nodup⟩
    exact hwalk.new _ hmem (List.mem_singleton_self _)
  · intro last hlast parent hextends
    have hparent := hextends.mem_list
    have hlastKey : (Text.lower name :: (components.trail name).1).getLast (List.cons_ne_nil _ _) =
        last.key := by
      have hmapped := congrArg (Option.map Component.key) hlast
      rw [← List.getLast?_map, hkeys,
        List.getLast?_eq_some_getLast (List.cons_ne_nil _ _)] at hmapped
      exact Option.some.inj hmapped
    have hstep := (h.extends_iff_step (hlist last (List.mem_of_getLast? hlast)) hparent).mp hextends
    -- the way up would go on to a component, so it ends because it has met the component
    have hagain := hwalk.again_of_mem (hlastKey ▸ hstep) (h.key_mem_keys hparent)
    have hmet : parent.key ∈ (own :: components.ancestors name).map Component.key := by
      rw [hkeys]
      rcases hwalk.again parent.key hagain with hfirst | hpassed
      · exact List.mem_singleton.mp hfirst ▸ List.mem_cons_self
      · exact List.mem_cons_of_mem _ hpassed
    obtain ⟨earlier, hearlier, hkey⟩ := List.mem_map.mp hmet
    rwa [← h.eq_of_key_eq (hlist earlier hearlier) hparent hkey]

/-- Nothing but the components that are found is above a component. -/
theorem eq_ancestors_of_chainAbove {name : String} {own : Component} {above : List Component}
    (hown : components.get? name = some own) (hchain : components.ChainAbove own above) :
    above = components.ancestors name := by
  have hlist : ∀ component ∈ own :: above, component ∈ components.list :=
    List.forall_mem_cons.mpr ⟨mem_list.mpr ⟨_, hown⟩, fun _ => hchain.mem_list⟩
  have htrail : (components.trail name).1 = above.map Component.key := by
    obtain ⟨hnew, hnodup⟩ := List.nodup_cons.mp hchain.nodup
    rw [h.key_of_get? hown] at hnew
    refine Trail.follow_fst_of_stops ?_ ?_ hnodup ?_
    · rw [← h.key_of_get? hown, ← List.map_cons]
      refine (List.isChain_map Component.key).mpr (List.IsChain.imp_of_mem_imp ?_ hchain.next)
      intro child parent hchild hparent hextends
      exact ⟨(h.extends_iff_step (hlist child hchild) (hlist parent hparent)).mp hextends,
        h.key_mem_keys (hlist parent hparent)⟩
    · intro key hkey hmet
      exact hnew (List.mem_singleton.mp hmet ▸ hkey)
    -- the trail stops where the chain does: what comes next has been passed
    · intro key hnext hkey
      obtain ⟨parent, hparent⟩ := Option.isSome_iff_exists.mp (Keyed.mem_keys_iff.mp hkey)
      obtain rfl := h key parent hparent
      have hlast := List.getLast?_eq_some_getLast (List.cons_ne_nil own above)
      have hstep : Trail.Step components.parentKey
          ((own :: above).getLast (List.cons_ne_nil own above)).key parent.key := by
        simpa only [Trail.Step, ← h.key_of_get? hown, ← List.map_cons, List.getLast_map] using hnext
      have hextends := (h.extends_iff_step (hlist _ (List.mem_of_getLast? hlast))
        (mem_list.mpr ⟨_, hparent⟩)).mpr hstep
      rcases List.mem_cons.mp (hchain.stop _ hlast parent hextends) with rfl | hpassed
      · exact Or.inl (List.mem_singleton.mpr (h.key_of_get? hown))
      · exact Or.inr (List.mem_map_of_mem hpassed)
  calc above = above.filterMap some := List.filterMap_some.symm
    _ = above.filterMap (fun component => components.byName.get? component.key) :=
        List.filterMap_congr fun component hmem => (h.get?_key (hchain.mem_list hmem)).symm
    _ = components.ancestors name := by rw [ancestors, htrail, List.filterMap_map]; rfl

/-- The components above a name are those that are found. -/
theorem ancestorsOf_iff {name : String} {above : List Component} :
    components.AncestorsOf name above ↔ above = components.ancestors name := by
  constructor
  · intro hof
    cases hof with
    | unknown hname => exact (ancestors_of_none hname).symm
    | known hname hchain => exact h.eq_ancestors_of_chainAbove hname hchain
  · rintro rfl
    cases hname : components.get? name with
    | none =>
      rw [ancestors_of_none hname]
      exact .unknown hname
    | some own => exact .known hname (h.chainAbove_ancestors hname)

end Named

end Components

namespace Program

/-! ## The components of a program -/

/-- What an operation on a program does to its components. -/
def Op.edits : Op → List Components.Edit
  | .addComponent component => [.add component]
  | .removeComponent xmlPath => [.remove xmlPath]
  | _ => []

variable {program : Program}

/-- An operation does to the components what its edits do. -/
theorem components_perform_eq_edits (program : Program) (op : Op) :
    (program.perform op).components = op.edits.foldl Components.edit program.components := by
  cases op with
  | setFile file => rfl
  | removeFile path =>
    rw [perform_removeFile]
    split <;> rfl
  | addComponent component => rfl
  | removeComponent xmlPath =>
    rw [perform_removeComponent]
    cases hdeclared : program.components.declaredIn? xmlPath with
    | some component => exact components_dropScope _ _
    | none => exact (Components.removeDeclaredIn_of_none hdeclared).symm
  | validate => exact components_validateIn program program.schedule

/-- The components after a history are those after the edits of its operations. -/
theorem components_performAll (program : Program) (ops : List Op) :
    (program.performAll ops).components =
      (ops.flatMap Op.edits).foldl Components.edit program.components := by
  induction ops generalizing program with
  | nil => rfl
  | cons op rest ih =>
    rw [List.flatMap_cons, List.foldl_append, ← components_perform_eq_edits]
    exact ih (program.perform op)

/-! ## The scopes of components -/

/-- A component has the scope of the file that declares it. -/
def HasScope (program : Program) (component : Component) (scope : Scope) : Prop :=
  scope ∈ program.scopes.values ∧ scope.key = Text.lower component.xmlPath

/-- A scope that is made for a component has the name of the file that declares it. -/
def ScopesNamed (program : Program) : Prop :=
  ∀ key scope, program.scopes.get? key = some scope → ∀ name xmlPath range,
    scope.kind = .component name xmlPath range → scope.name = xmlPath

namespace ScopesNamed

/-- A new program has no scope of a component. -/
theorem new (config : Config) : (Program.new config).ScopesNamed := by
  intro key scope hget name xmlPath range hkind
  rw [Program.new, Keyed.get?_put, Keyed.get?_empty] at hget
  split at hget
  · rw [← Option.some.inj hget] at hkind
    cases hkind
  · cases hget

variable (h : program.ScopesNamed)
include h

/-- Refreshing scopes changes their files, not their names. -/
theorem refresh : program.refresh.ScopesNamed := by
  intro key scope hget
  rw [get?_scopes_refresh, Option.map_eq_some_iff] at hget
  obtain ⟨before, hbefore, rfl⟩ := hget
  exact h key before hbefore

/-- Dropping a scope renames no other. -/
theorem dropScope (key : String) : (program.dropScope key).ScopesNamed := by
  intro other scope hget
  rw [get?_scopes_dropScope] at hget
  split at hget
  · cases hget
  · exact h other scope hget

/-- New scripts change the files of scopes, not their names. -/
theorem withFiles (files : Keyed String Script) : (program.withFiles files).ScopesNamed := by
  have hbefore : ScopesNamed { program with files } := h
  exact hbefore.refresh

/-- The scope of a new component is called by the path of its file. -/
theorem withComponent (component : Component) : (program.withComponent component).ScopesNamed := by
  have hcleared : (program.clearedFor component).ScopesNamed := by
    unfold clearedFor
    split
    · exact h.dropScope _
    · exact h
  intro key scope hget name xmlPath range hkind
  rw [Program.withComponent, Keyed.get?_put] at hget
  split at hget
  · rw [← Option.some.inj hget] at hkind ⊢
    cases hkind
    rfl
  · exact hcleared key scope hget name xmlPath range hkind

/-- No operation gives a scope of a component another name than its path. -/
theorem perform (op : Op) : (program.perform op).ScopesNamed := by
  cases op with
  | setFile file => exact h.withFiles _
  | removeFile path =>
    rw [perform_removeFile]
    split
    · exact h.withFiles _
    · exact h
  | addComponent component => exact (h.withComponent component).refresh
  | removeComponent xmlPath =>
    rw [perform_removeComponent]
    have hwithout : (program.withoutComponent xmlPath).ScopesNamed := h
    split
    · exact hwithout.dropScope _
    · exact h
  | validate =>
    intro key scope hget
    rw [perform_validate, scopes_validateIn] at hget
    exact h key scope hget

/-- After any history, scopes of components are called by their paths. -/
theorem performAll (ops : List Op) : (program.performAll ops).ScopesNamed := by
  induction ops generalizing program with
  | nil => exact h
  | cons op rest ih => exact ih (h.perform op)

end ScopesNamed

/-- A component has the one scope that is found under its path. -/
theorem hasScope_iff (hsound : program.Sound) {component : Component} {scope : Scope} :
    program.HasScope component scope ↔
      program.scopes.get? (Text.lower component.xmlPath) = some scope := by
  constructor
  · rintro ⟨hmem, hkey⟩
    obtain ⟨key, hget⟩ := Keyed.mem_values_iff.mp hmem
    rw [← hkey, hsound.scopes key scope hget]
    exact hget
  · intro hget
    exact ⟨Keyed.mem_values_iff.mpr ⟨_, hget⟩, hsound.scopes _ scope hget⟩

/-- A scope that is made for a component is the scope that the component has. -/
theorem hasScope_of_kind (hnamed : program.ScopesNamed) {component : Component} {scope : Scope}
    (hmem : scope ∈ program.scopes.values)
    (hkind : scope.kind = .component component.name component.xmlPath component.nameRange) :
    program.HasScope component scope := by
  obtain ⟨key, hget⟩ := Keyed.mem_values_iff.mp hmem
  refine ⟨hmem, ?_⟩
  rw [Scope.key, hnamed key scope hget _ _ _ hkind]

/-- The scope of a component finds it, if no other component is declared in the file. -/
theorem HasScope.declaredIn? {component : Component} {scope : Scope}
    (hscope : program.HasScope component scope) (hmem : component ∈ program.components.list)
    (halone : ∀ other ∈ program.components.list, other.xmlKey = component.xmlKey →
      other = component) :
    program.components.declaredIn? scope.name = some component := by
  have hkey : component.xmlKey = pathKey scope.name := pathKey_eq_of_lower_eq hscope.2.symm
  obtain ⟨found, hfind⟩ : ∃ found, program.components.declaredIn? scope.name = some found :=
    Option.isSome_iff_exists.mp (List.find?_isSome.mpr ⟨component, hmem, decide_eq_true hkey⟩)
  obtain ⟨hfound, hfoundKey⟩ := Components.of_declaredIn? hfind
  rw [hfind, halone found hfound (hfoundKey.trans hkey.symm)]

/-- Scopes that components have are found by the paths of their files. -/
theorem filterMap_scopes (hsound : program.Sound) {parents : List Component} {above : List Scope}
    (habove : List.Forall₂ program.HasScope parents above) :
    (parents.filterMap fun parent => program.scopes.get? (Text.lower parent.xmlPath)) = above := by
  induction habove with
  | nil => rfl
  | cons hscope _ ih => simp only [List.filterMap_cons, (hasScope_iff hsound).mp hscope, ih]

end Program

/-- For all components that additions and removals lead to and every name, `ancestors` gives the one
list of the components above the name, which is no longer than the list of all components. The
components of a program are such components, and a scope that is made for a component is the one it
has. The chain of that scope has the scopes of the components above, if they have scopes and no
other component is declared in the same file. -/
theorem component_chains_exact (config : Config) (ops : List Program.Op) :
    (∀ edits name,
      (∀ above, (Components.edited edits).AncestorsOf name above ↔
        above = (Components.edited edits).ancestors name) ∧
      ((Components.edited edits).ancestors name).length ≤ (Components.edited edits).list.length) ∧
    let program := (Program.new config).performAll ops
    program.components = Components.edited (ops.flatMap Program.Op.edits) ∧
      (∀ component, ∀ scope ∈ program.scopes.values,
        scope.kind = .component component.name component.xmlPath component.nameRange →
        program.HasScope component scope) ∧
      ∀ component ∈ program.components.list,
        (∀ other ∈ program.components.list, other.xmlKey = component.xmlKey → other = component) →
        ∀ scope above, program.HasScope component scope →
          List.Forall₂ program.HasScope (program.components.ancestors component.name) above →
          program.chain scope = ⟨scope, above⟩ := by
  refine ⟨fun edits name => ?_, Program.components_performAll _ ops, ?_, ?_⟩
  · exact ⟨fun above => (Components.named_edited edits).ancestorsOf_iff,
      Components.length_ancestors_le name⟩
  · intro component scope hmem hkind
    exact Program.hasScope_of_kind ((Program.ScopesNamed.new config).performAll ops) hmem hkind
  · intro component hmem halone scope above hscope habove
    have hsound := (Program.Sound.new config).performAll ops
    rw [Program.chain, Program.ancestors_of_some (hscope.declaredIn? hmem halone),
      Program.filterMap_scopes hsound habove]

/-- A component that extends `block`. -/
def pillar : Component := ⟨"Pillar", "pillar.xml", .zero, some "BLOCK", []⟩

/-- A component that extends `stone`. -/
def block : Component := ⟨"Block", "Block.xml", .zero, some "stone", []⟩

/-- A component that leads back to `block`. -/
def stone : Component := ⟨"Stone", "stone.xml", .zero, some "block", []⟩

/-- The three components are added, the highest one last. -/
def pillarBuilt : List Program.Op :=
  [.addComponent pillar, .addComponent block, .addComponent stone]

/-- Above the pillar are the block and the stone. The stone extends the block again, where the trail
ends. -/
theorem ancestors_pillar :
    ((Program.new .usual).performAll pillarBuilt).components.ancestors pillar.name =
      [block, stone] := by
  decide +kernel

/-- The way up from `pillar` runs into a circle that `pillar` is not part of. -/
theorem pillar_chain_exact :
    let program := (Program.new .usual).performAll pillarBuilt
    ∃ own first second, program.HasScope pillar own ∧
      List.Forall₂ program.HasScope [block, stone] [first, second] ∧
      program.chain own = ⟨own, [first, second]⟩ := by
  intro program
  have hsound : program.Sound := (Program.Sound.new .usual).performAll pillarBuilt
  have hall : ∀ component ∈ [pillar, block, stone],
      (program.scopes.get? (Text.lower component.xmlPath)).isSome = true := by
    decide +kernel
  have hscope : ∀ component ∈ [pillar, block, stone],
      ∃ scope, program.HasScope component scope := by
    intro component hmem
    obtain ⟨scope, hget⟩ := Option.isSome_iff_exists.mp (hall component hmem)
    exact ⟨scope, (Program.hasScope_iff hsound).mpr hget⟩
  obtain ⟨own, hown⟩ := hscope pillar (by simp)
  obtain ⟨first, hfirst⟩ := hscope block (by simp)
  obtain ⟨second, hsecond⟩ := hscope stone (by simp)
  have habove : List.Forall₂ program.HasScope [block, stone] [first, second] :=
    .cons hfirst (.cons hsecond .nil)
  have hmem : pillar ∈ program.components.list := by decide +kernel
  have halone : ∀ other ∈ program.components.list, other.xmlKey = pillar.xmlKey →
      other = pillar := by
    decide +kernel
  refine ⟨own, first, second, hown, habove, ?_⟩
  refine (component_chains_exact .usual pillarBuilt).2.2.2 pillar hmem halone own _ hown ?_
  rw [ancestors_pillar]
  exact habove

end ScopeCheck
