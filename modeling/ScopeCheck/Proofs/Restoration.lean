import ScopeCheck.Proofs.Relinking

/-!
# Tables after an examination

Scripts and their tables are shared, so an examination has to leave the tables as it found them,
whatever state they were in. It does, up to siblings that do not exist any more, which lookups pass
over: unlinking takes these away from the tables of blocks (`Registry.live_unlink_link`). An
examination that is made again then finds the same, though it may carry another number
(`examination_leaves_tables`).
-/

namespace ScopeCheck

/-! ## Tables -/

/-- Tables are as they were before: each has its bindings, all its parents, and of its siblings
those that exist, in their order. So nothing that is looked up can tell the difference. -/
structure Tables.Restored (before after : Tables TableRef) : Prop where
  /-- The tables under every reference. -/
  live : ∀ ref, after.live ref = before.live ref
  /-- Names are looked up alike from every table. -/
  lookup : ∀ ref name, after.lookup ref name = before.lookup ref name
  /-- Names are looked up alike in every table by itself. -/
  lookupHere : ∀ ref name, after.lookupHere ref name = before.lookupHere ref name

/-- Tables whose live tables are as before are restored. -/
theorem Tables.Restored.of_live_eq {before after : Tables TableRef}
    (hlive : ∀ ref, after.live ref = before.live ref) : Tables.Restored before after := by
  have hcarries := Carries.of_live_eq hlive
  refine ⟨hlive, fun ref name => ?_, fun ref name => ?_⟩
  · simpa using hcarries.lookup_eq (fun _ => Iff.rfl) ref name
  · have hhere := hcarries.view_firstContribution (fun _ => Iff.rfl) [ref] (Text.lower name)
    rw [Option.map_id, List.map_id] at hhere
    exact hhere

/-- Unlinking undoes what linking did to live tables, reference by reference. -/
theorem Registry.live_unlink_link (registry : Registry) {examination : Nat}
    {tables : Tables TableRef} (hbefore : Before examination tables) (ref : TableRef) :
    (registry.unlink examination (registry.link examination tables)).live ref =
      tables.live ref := by
  have hcontains : (registry.unlink examination (registry.link examination tables)).contains =
      tables.contains := by
    funext other
    rw [← Keyed.get?_isSome, ← Keyed.get?_isSome, get?_unlink_link hbefore, Option.isSome_map]
  rw [Tables.live, get?_unlink_link hbefore, hcontains, Option.map_map, Tables.live]
  congr 1
  funext table
  simp only [Function.comp_apply, SymbolTable.keepSiblings]
  split
  · simp only [List.filter_filter, Bool.and_self]
  · rfl

/-- Examining the names of a scope leaves the live tables of the bench. -/
theorem live_examineNames (registry : Registry) (bench : Workbench) (ref : TableRef) :
    (examineNames registry bench).2.tables.live ref = bench.tables.live ref :=
  registry.live_unlink_link (olderThan_freshExamination bench.tables).before ref

/-- So does a whole examination. -/
theorem live_examineOn (chain : ScopeChain) (platform : Platform) (bench : Workbench)
    (ref : TableRef) :
    (examineOn chain platform bench).2.tables.live ref = bench.tables.live ref :=
  live_examineNames (Registry.build chain platform) bench ref

/-! ## Inventories -/

/-- An inventory that is known stays known. -/
theorem get?_takeInventories {memo : Memo String Inventory} {key : String} {inventory : Inventory}
    (hknown : memo.get? key = some inventory) (files : List Script) :
    (takeInventories memo files).2.get? key = some inventory := by
  induction files generalizing memo with
  | nil => exact hknown
  | cons file rest ih =>
    rw [takeInventories_cons]
    apply ih
    rw [Memo.remember_eq]
    cases hfile : memo.get? file.key with
    | some known => exact hknown
    | none =>
      have hne : key ≠ file.key := by
        rintro rfl
        rw [hfile] at hknown
        cases hknown
      rw [← hknown]
      exact (Keyed.get?_put _ _ _ _).trans (if_neg hne)

/-- The inventories that are taken are known afterwards. -/
theorem known_takeInventories (memo : Memo String Inventory) (files : List Script) :
    List.Forall₂ (fun file inventory =>
        (takeInventories memo files).2.get? file.key = some inventory)
      files (takeInventories memo files).1 := by
  induction files generalizing memo with
  | nil => exact .nil
  | cons file rest ih =>
    rw [takeInventories_cons]
    refine .cons (get?_takeInventories ?_ rest) (ih _)
    rw [Memo.remember_eq]
    cases hfile : memo.get? file.key with
    | some known => exact hfile
    | none => exact (Keyed.get?_put _ _ _ _).trans (if_pos rfl)

/-- Inventories that are all known are taken as they are. -/
theorem takeInventories_of_known {memo : Memo String Inventory} {files : List Script}
    {inventories : List Inventory}
    (hknown : List.Forall₂ (fun file inventory => memo.get? file.key = some inventory)
      files inventories) : (takeInventories memo files).1 = inventories := by
  induction hknown with
  | nil => rfl
  | cons hfile _ ih =>
    rw [takeInventories_cons, Memo.remember_eq, hfile]
    exact congrArg (_ :: ·) ih

/-- Taken again, inventories are the same. -/
theorem takeInventories_again (memo : Memo String Inventory) (files : List Script) :
    (takeInventories (takeInventories memo files).2 files).1 = (takeInventories memo files).1 :=
  takeInventories_of_known (known_takeInventories memo files)

/-! ## Examinations -/

/-- What is found depends on the live tables and on the inventories only, not on how many
examinations came before. -/
theorem Registry.Orderly.examineNames_eq {registry : Registry} (horderly : registry.Orderly)
    {bench other : Workbench} (hlive : ∀ ref, other.tables.live ref = bench.tables.live ref)
    (hinventories : (takeInventories other.inventories registry.files).1 =
      (takeInventories bench.inventories registry.files).1) :
    (examineNames registry other).1 = (examineNames registry bench).1 :=
  ((SameMaps.refl registry).examineNames_eq horderly hlive hinventories).symm

/-- Linking the tables of a scope and unlinking them, checking its names, and examining it leave
the tables as they were, in whatever state they were; made again, with what was noted of the scripts
or without, an examination finds the same. -/
theorem examination_leaves_tables (chain : ScopeChain) (platform : Platform) (bench : Workbench) :
    let registry := Registry.build chain platform
    let number := freshExamination bench.tables
    let names := examineNames registry bench
    let whole := examineOn chain platform bench
    bench.tables.Restored (registry.unlink number (registry.link number bench.tables)) ∧
      bench.tables.Restored names.2.tables ∧
      bench.tables.Restored whole.2.tables ∧
      (examineNames registry names.2).1 = names.1 ∧
      (examineOn chain platform whole.2).1 = whole.1 ∧
      ∀ memo, (examineOn chain platform ⟨whole.2.tables, memo⟩).1 =
        (examineOn chain platform ⟨bench.tables, memo⟩).1 := by
  intro registry number names whole
  have horderly : registry.Orderly := Registry.orderly_build chain platform
  have hrestored : bench.tables.Restored names.2.tables :=
    .of_live_eq (live_examineNames registry bench)
  have hagain : (examineNames registry names.2).1 = names.1 :=
    horderly.examineNames_eq hrestored.live (takeInventories_again _ _)
  -- names are looked up in live tables alone, and these are as before
  have hmemo : ∀ memo, (examineNames registry ⟨whole.2.tables, memo⟩).1 =
      (examineNames registry ⟨bench.tables, memo⟩).1 := by
    intro memo
    exact horderly.examineNames_eq hrestored.live rfl
  have hwhole : ∀ bench, (examineOn chain platform bench).1 =
      ⟨chain.scope.label, checkClasses registry ++ (examineNames registry bench).1⟩ :=
    fun _ => rfl
  refine ⟨hrestored, hrestored, hrestored, hagain, ?_, fun memo => ?_⟩
  · rw [hwhole, hwhole]
    exact congrArg (fun names => ScopeFindings.mk _ (checkClasses registry ++ names)) hagain
  · rw [hwhole, hwhole, hmemo]

end ScopeCheck
