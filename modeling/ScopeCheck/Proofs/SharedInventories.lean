import ScopeCheck.Proofs.Restoration

/-!
# Examinations that share inventories

An inventory is kept under the key of its script alone, while the tables of the script are linked
anew for every scope. What is kept is nevertheless nothing but the inventory of the script: it names
tables by their references and holds nothing of a scope. So of the examinations that share one memo,
each finds what it finds with an empty one (`sharing_inventories_is_unobservable`), as long as
different scripts have different keys.
-/

namespace ScopeCheck

/-- An examination to be made: of a chain, on a platform. -/
structure Pass where
  /-- The scope with those above it. -/
  chain : ScopeChain
  /-- The platform that the scripts run on. -/
  platform : Platform

/-- Makes examinations one after the other on one workbench. -/
def examineEach (bench : Workbench) : List Pass → List ScopeFindings
  | [] => []
  | pass :: rest =>
    let (found, bench) := examineOn pass.chain pass.platform bench
    found :: examineEach bench rest

/-- An empty memo says nothing that is not true. -/
theorem Memo.trueOf_empty (scripts : List Script) : Memo.TrueOf .empty scripts :=
  fun _ _ _ hget => nomatch hget

section Step

variable {scripts : List Script} (hnodup : (scripts.map Script.key).Nodup) {bench : Workbench}
  (htrue : bench.inventories.TrueOf scripts) {tables : Tables TableRef}
  (hlive : ∀ ref, bench.tables.live ref = tables.live ref) {pass : Pass}
  (hfiles : ∀ file ∈ pass.chain.sortedFiles, file ∈ scripts)
include hnodup htrue hfiles

/-- One examination leaves inventories that are true of the scripts. -/
theorem trueOf_examineOn :
    (examineOn pass.chain pass.platform bench).2.inventories.TrueOf scripts :=
  (takeInventories_of_trueOf hnodup htrue hfiles).2

include hlive

/-- One examination finds with such inventories what it finds with none. -/
theorem examineOn_of_trueOf :
    (examineOn pass.chain pass.platform bench).1 =
      (examineOn pass.chain pass.platform ⟨tables, .empty⟩).1 := by
  have hknown := (takeInventories_of_trueOf hnodup htrue hfiles).1
  have hnone := (takeInventories_of_trueOf hnodup (Memo.trueOf_empty scripts) hfiles).1
  have hnames : (examineNames (Registry.build pass.chain pass.platform) bench).1 =
      (examineNames (Registry.build pass.chain pass.platform) ⟨tables, .empty⟩).1 :=
    (Registry.orderly_build pass.chain pass.platform).examineNames_eq hlive
      (hknown.trans hnone.symm)
  exact congrArg (fun names => ScopeFindings.mk pass.chain.scope.label
    (checkClasses (Registry.build pass.chain pass.platform) ++ names)) hnames

end Step

/-- A run of examinations finds what each finds with no inventories. -/
theorem examineEach_of_trueOf {scripts : List Script} (hnodup : (scripts.map Script.key).Nodup)
    {tables : Tables TableRef} {passes : List Pass} {bench : Workbench}
    (htrue : bench.inventories.TrueOf scripts)
    (hlive : ∀ ref, bench.tables.live ref = tables.live ref)
    (hfiles : ∀ pass ∈ passes, ∀ file ∈ pass.chain.sortedFiles, file ∈ scripts) :
    examineEach bench passes =
      passes.map fun pass => (examineOn pass.chain pass.platform ⟨tables, .empty⟩).1 := by
  induction passes generalizing bench with
  | nil => rfl
  | cons pass rest ih =>
    have hpass := hfiles pass List.mem_cons_self
    have hrest := ih (trueOf_examineOn hnodup htrue hpass)
      (fun ref => (live_examineOn pass.chain pass.platform bench ref).trans (hlive ref))
      fun other hmem => hfiles other (List.mem_cons_of_mem pass hmem)
    rw [List.map_cons, ← hrest, ← examineOn_of_trueOf hnodup htrue hlive hpass]
    rfl

/-- Examinations that share one memo, empty at first, find each what it finds with an empty memo of
its own, whatever examinations were made before it and whatever state the tables are in. On tables
that are as they were made, this is what an examination of the scope by itself finds. -/
theorem sharing_inventories_is_unobservable (passes : List Pass)
    (hkeys : Script.DistinctKeys (passes.flatMap fun pass => pass.chain.files)) :
    (∀ tables, examineEach ⟨tables, .empty⟩ passes =
        passes.map fun pass => (examineOn pass.chain pass.platform ⟨tables, .empty⟩).1) ∧
      ∀ scripts, (scripts.map Script.key).Nodup →
        (∀ pass ∈ passes, ∀ file ∈ pass.chain.files, file ∈ scripts) →
        examineEach (.ofScripts scripts) passes =
          passes.map fun pass => examine pass.chain pass.platform := by
  constructor
  · intro tables
    refine examineEach_of_trueOf (nodup_map_firstBy Script.key _) (Memo.trueOf_empty _)
      (fun _ => rfl) fun pass hpass file hfile => mem_firstBy_of_injOn Script.key hkeys ?_
    exact List.mem_flatMap.mpr ⟨pass, hpass, ScopeChain.mem_files_of_mem_sortedFiles hfile⟩
  · intro scripts hnodup hscripts
    have hsorted : ∀ pass ∈ passes, ∀ file ∈ pass.chain.sortedFiles, file ∈ scripts :=
      fun pass hpass file hfile =>
        hscripts pass hpass file (ScopeChain.mem_files_of_mem_sortedFiles hfile)
    have hserves := Workbench.serves_ofScripts scripts
    rw [examineEach_of_trueOf hnodup hserves.inventories (fun _ => rfl) hsorted]
    refine List.map_congr_left fun pass hpass => ?_
    exact (examineOn_of_serves pass.platform hserves hnodup (hsorted pass hpass)).1

/-! ## A script in two scopes -/

/-- A script with a sub that calls another one. -/
def callingScript (path name callee : String) : Script :=
  ⟨path, none, [.functionDecl ⟨⟨name, .zero⟩, ⟨.sub, [], none,
    [.expression (.call (.name ⟨callee, .zero⟩ .zero) [] .zero) .zero], .zero⟩⟩ .zero]⟩

/-- A script that calls what it does not declare. -/
def chimes : Script := callingScript "chimes.bs" "chime" "strike"

/-- A script that declares what the other calls. -/
def tower : Script := callingScript "tower.bs" "strike" "chime"

/-- A scope in which the call leads somewhere, the scope of the first script alone, in which it
leads nowhere, and the former again. -/
def clockPasses : List Pass :=
  [⟨⟨.ofComponent "Clock" "clock.xml" .zero [chimes, tower] none, []⟩, .withNodes []⟩,
    ⟨⟨.ofComponent "Bell" "bell.xml" .zero [chimes] none, []⟩, .withNodes []⟩,
    ⟨⟨.ofComponent "Clock" "clock.xml" .zero [chimes, tower] none, []⟩, .withNodes []⟩]

/-- The two scopes share the inventory of a script, in which a name means different things. -/
theorem clockPasses_share_inventories :
    Script.DistinctKeys (clockPasses.flatMap fun pass => pass.chain.files) ∧
      examineEach (.ofScripts [chimes, tower]) clockPasses =
        clockPasses.map fun pass => examine pass.chain pass.platform := by
  have hnodup : ([chimes, tower].map Script.key).Nodup := by decide +kernel
  have hscripts : ∀ pass ∈ clockPasses, ∀ file ∈ pass.chain.files, file ∈ [chimes, tower] := by
    simp [clockPasses, ScopeChain.files, Scope.ofComponent]
  have hkeys : Script.DistinctKeys (clockPasses.flatMap fun pass => pass.chain.files) := by
    intro script hscript other hother
    obtain ⟨pass, hpass, hfile⟩ := List.mem_flatMap.mp hscript
    obtain ⟨pass', hpass', hfile'⟩ := List.mem_flatMap.mp hother
    exact List.inj_on_of_nodup_map hnodup (hscripts pass hpass script hfile)
      (hscripts pass' hpass' other hfile')
  exact ⟨hkeys, (sharing_inventories_is_unobservable clockPasses hkeys).2 _ hnodup hscripts⟩

end ScopeCheck
