import ScopeCheck.Proofs.Keyed
import ScopeCheck.Registry.Basic

/-!
# The namespaces of a registry

A namespace is entered under the lower case of its full name, and stays entered. So the namespaces
of a registry stand under their names (`Registry.lower_fullName`), they are those that its blocks
enter (`Registry.mem_keys_namespaces_iff`), and every block has its own
(`Registry.mem_keys_namespaces`). With a namespace, those around it are entered too, one for each
front of the parts of its name (`mem_keys_enterParts_of_prefix`).
-/

namespace ScopeCheck

/-- Namespaces stand under their full names in lower case. -/
def UnderNames (entries : Keyed String NamespaceEntry) : Prop :=
  ∀ key entry, entries.get? key = some entry → Text.lower entry.fullName = key

/-- The name of a part inside a namespace, or outside of all. -/
def nameWithin (outer part : String) : String := if outer.isEmpty then part else s!"{outer}.{part}"

/-- Enters one namespace inside another. -/
def enterOne (entries : Keyed String NamespaceEntry) (outer fullName : String) :
    Keyed String NamespaceEntry :=
  if entries.contains (Text.lower fullName) then entries
  else
    (entries.put (Text.lower fullName) ⟨fullName, []⟩).adjust (Text.lower outer) fun parent =>
      { parent with children := parent.children ++ [Text.lower fullName] }

section Enter

variable {entries : Keyed String NamespaceEntry}

/-- Entering the parts of a name enters the first and goes on inside it. -/
theorem enterParts_cons (outer part : String) (rest : List String) :
    enterParts entries outer (part :: rest) =
      enterParts (enterOne entries outer (nameWithin outer part)) (nameWithin outer part) rest :=
  rfl

/-- A namespace is put under its own name. -/
theorem UnderNames.put (h : UnderNames entries) (fullName : String) (children : List String) :
    UnderNames (entries.put (Text.lower fullName) ⟨fullName, children⟩) := by
  intro key entry hget
  rw [Keyed.get?_put] at hget
  split at hget
  · rename_i hkey
    rw [← Option.some.inj hget, hkey]
  · exact h key entry hget

/-- A further child changes no name. -/
theorem UnderNames.adjust (h : UnderNames entries) (outer key : String) :
    UnderNames (entries.adjust outer fun parent =>
      { parent with children := parent.children ++ [key] }) := by
  intro other entry hget
  rw [Keyed.get?_adjust] at hget
  split at hget
  · rename_i hother
    obtain ⟨before, hbefore, rfl⟩ := Option.map_eq_some_iff.mp hget
    rw [hother]
    exact h outer before hbefore
  · exact h other entry hget

/-- Entering one namespace keeps all under their names. -/
theorem UnderNames.enterOne (h : UnderNames entries) (outer fullName : String) :
    UnderNames (enterOne entries outer fullName) := by
  unfold ScopeCheck.enterOne
  split
  · exact h
  · exact (h.put fullName []).adjust _ _

/-- So does entering those along a name, part by part. -/
theorem UnderNames.enterParts (h : UnderNames entries) (outer : String) (parts : List String) :
    UnderNames (enterParts entries outer parts) := by
  induction parts generalizing entries outer with
  | nil => exact h
  | cons part rest ih =>
    rw [enterParts_cons]
    exact ih (h.enterOne outer _) _

/-- So does entering the namespace of a block. -/
theorem UnderNames.enterNamespace (h : UnderNames entries) (name : String) :
    UnderNames (enterNamespace entries name) := by
  unfold ScopeCheck.enterNamespace Keyed.putNew
  split
  · exact h.enterParts "" _
  · exact (h.enterParts "" _).put name []

/-- Entering one namespace adds its key. -/
theorem mem_keys_enterOne {key : String} (outer fullName : String) :
    key ∈ (enterOne entries outer fullName).keys ↔
      key ∈ entries.keys ∨ key = Text.lower fullName := by
  unfold enterOne
  split
  · rename_i hknown
    rw [Keyed.contains_iff_mem_keys] at hknown
    refine ⟨Or.inl, fun h => h.elim id ?_⟩
    rintro rfl
    exact hknown
  · rename_i hnew
    rw [Keyed.keys_adjust, Keyed.keys_put, if_neg hnew, List.mem_append, List.mem_singleton]

/-- What entering the parts of a name adds does not depend on what was entered before. -/
theorem mem_keys_enterParts {key : String} (outer : String) (parts : List String) :
    key ∈ (enterParts entries outer parts).keys ↔
      key ∈ entries.keys ∨ key ∈ (enterParts .empty outer parts).keys := by
  induction parts generalizing entries outer with
  | nil => exact ⟨Or.inl, fun h => h.resolve_right List.not_mem_nil⟩
  | cons part rest ih =>
    have hnone : key ∉ (Keyed.empty : Keyed String NamespaceEntry).keys := List.not_mem_nil
    rw [enterParts_cons, enterParts_cons, ih, @ih (enterOne .empty _ _), mem_keys_enterOne,
      mem_keys_enterOne, or_iff_right hnone, or_assoc]

/-- Each front of the parts of a name has a namespace. -/
theorem mem_keys_enterParts_of_prefix {outer : String} {front parts : List String}
    (hfront : front <+: parts) (hne : front ≠ []) :
    Text.lower (front.foldl nameWithin outer) ∈ (enterParts entries outer parts).keys := by
  induction parts generalizing entries outer front with
  | nil => exact absurd (List.prefix_nil.mp hfront) hne
  | cons part rest ih =>
    obtain ⟨first, further, rfl⟩ := List.exists_cons_of_ne_nil hne
    obtain ⟨rfl, hfurther⟩ := List.cons_prefix_cons.mp hfront
    rw [enterParts_cons, List.foldl_cons]
    by_cases hlast : further = []
    · subst hlast
      rw [List.foldl_nil, mem_keys_enterParts, mem_keys_enterOne]
      exact Or.inl (Or.inr rfl)
    · exact ih hfurther hlast

/-- What is entered along the parts of a name stays when the whole name is entered. -/
theorem mem_keys_enterNamespace_of_parts {key name : String}
    (hmem : key ∈ (enterParts entries "" (Text.split '.' name)).keys) :
    key ∈ (enterNamespace entries name).keys := by
  rw [enterNamespace, Keyed.mem_keys_iff, Keyed.get?_putNew]
  split
  · rfl
  · exact Keyed.mem_keys_iff.mp hmem

/-- A block adds the same keys to whatever is there. -/
theorem mem_keys_enterNamespace {key name : String} :
    key ∈ (enterNamespace entries name).keys ↔
      key ∈ entries.keys ∨ key ∈ (enterNamespace .empty name).keys := by
  have hput : ∀ entered : Keyed String NamespaceEntry,
      key ∈ (entered.putNew (Text.lower name) ⟨name, []⟩).keys ↔
        key = Text.lower name ∨ key ∈ entered.keys := by
    intro entered
    rw [Keyed.mem_keys_iff, Keyed.get?_putNew, Keyed.mem_keys_iff]
    split <;> simp_all
  rw [enterNamespace, hput, mem_keys_enterParts, enterNamespace, hput, or_left_comm]

/-- The whole name of a block is among the keys it adds. -/
theorem lower_mem_keys_enterNamespace (name : String) :
    Text.lower name ∈ (enterNamespace entries name).keys := by
  rw [enterNamespace, Keyed.mem_keys_iff, Keyed.get?_putNew, if_pos rfl]
  rfl

end Enter

namespace Registry

variable {chain : ScopeChain} {platform : Platform}

/-- The namespaces of a registry stand under their names. -/
theorem lower_fullName {key : String} {entry : NamespaceEntry}
    (hget : (build chain platform).namespaces.get? key = some entry) :
    Text.lower entry.fullName = key := by
  have hfold : ∀ (blocks : List NamespaceBlock) (entries : Keyed String NamespaceEntry),
      UnderNames entries → UnderNames
        (blocks.foldl (fun entries block => enterNamespace entries block.name.text) entries) := by
    intro blocks
    induction blocks with
    | nil => exact fun _ h => h
    | cons block rest ih => exact fun _ h => ih _ (h.enterNamespace block.name.text)
  exact hfold _ .empty (fun _ _ hnone => nomatch hnone) key entry hget

/-- The namespaces are what the blocks enter, each by itself. -/
theorem mem_keys_namespaces_iff {key : String} :
    key ∈ (build chain platform).namespaces.keys ↔
      ∃ block ∈ (build chain platform).blocks,
        key ∈ (enterNamespace .empty block.name.text).keys := by
  have hfold : ∀ (blocks : List NamespaceBlock) (entries : Keyed String NamespaceEntry),
      key ∈ (blocks.foldl (fun entries block => enterNamespace entries block.name.text)
          entries).keys ↔
        key ∈ entries.keys ∨
          ∃ block ∈ blocks, key ∈ (enterNamespace .empty block.name.text).keys := by
    intro blocks
    induction blocks with
    | nil => simp
    | cons first rest ih =>
      intro entries
      rw [List.foldl_cons, ih, mem_keys_enterNamespace, List.exists_mem_cons_iff, or_assoc]
  refine (hfold _ .empty).trans (or_iff_right ?_)
  exact List.not_mem_nil

/-- What every entering of a block enters is a namespace. -/
theorem mem_keys_of_entered {block : NamespaceBlock} (hmem : block ∈ (build chain platform).blocks)
    {key : String} (hentered : ∀ entries : Keyed String NamespaceEntry,
      key ∈ (enterNamespace entries block.name.text).keys) :
    key ∈ (build chain platform).namespaces.keys :=
  mem_keys_namespaces_iff.mpr ⟨block, hmem, hentered .empty⟩

/-- Every block has its namespace. -/
theorem mem_keys_namespaces {block : NamespaceBlock}
    (hmem : block ∈ (build chain platform).blocks) :
    block.key ∈ (build chain platform).namespaces.keys :=
  mem_keys_of_entered hmem fun _ => lower_mem_keys_enterNamespace block.name.text

end Registry

end ScopeCheck
