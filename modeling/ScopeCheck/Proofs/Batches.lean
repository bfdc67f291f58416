import Mathlib.Data.List.GetD
import Mathlib.Data.List.Induction
import ScopeCheck.Program.Validation
import ScopeCheck.Proofs.Examination

/-!
# Batches have no scripts in common

Tasks are placed one after the other, each into the first batch that uses none of its scripts. A
batch remembers only which scripts are in use; since these are what its tasks read
(`Batch.Accounts`), a task that is admitted has no script in common with any of them.

`GreedyPacking` says what comes of it. Each task has a slot, the number of its batch. Tasks of one
slot have no script in common, and a task could have gone into no earlier batch, for there is a task
before it with which it has a script in common. Placing one more task keeps this
(`Packed.placeTask`), so it holds of all batches (`disjointBatches_greedy`).
-/

namespace ScopeCheck

/-! ## Tasks and what they read -/

namespace Task

/-- A task reads a script of a key: one of its scope or of a scope above. -/
def Reads (task : Task) (key : String) : Prop :=
  ∃ scope ∈ task.chain.scope :: task.chain.ancestors, ∃ file ∈ scope.files, file.key = key

/-- Two tasks read a common script. -/
def Meets (left right : Task) : Prop := ∃ key, left.Reads key ∧ right.Reads key

/-- Tasks that have a script in common have it either way round. -/
theorem Meets.symm {left right : Task} (h : left.Meets right) : right.Meets left := by
  obtain ⟨key, hleft, hright⟩ := h
  exact ⟨key, hright, hleft⟩

/-- The keys of a task are those of the scripts that it reads. -/
theorem mem_fileKeys {task : Task} {key : String} : key ∈ task.fileKeys ↔ task.Reads key := by
  rw [fileKeys, ScopeChain.allFiles_eq, mem_map_firstBy, List.mem_map]
  constructor
  · rintro ⟨file, hfile, hkey⟩
    obtain ⟨scope, hscope, hmem⟩ := List.mem_flatMap.mp hfile
    exact ⟨scope, hscope, file, hmem, hkey⟩
  · rintro ⟨scope, hscope, file, hmem, hkey⟩
    exact ⟨file, List.mem_flatMap.mpr ⟨scope, hscope, hmem⟩, hkey⟩

end Task

namespace Batch

/-- The scripts that are in use are those that the tasks of the batch read. -/
def Accounts (batch : Batch) : Prop :=
  ∀ key, key ∈ batch.used ↔ ∃ task ∈ batch.tasks, task.Reads key

/-- An empty batch accounts for nothing. -/
theorem accounts_empty : empty.Accounts := by
  intro key
  simp [empty]

/-- With a task its scripts are added to the account. -/
theorem Accounts.add {batch : Batch} (h : batch.Accounts) (task : Task) :
    (batch.add task).Accounts := by
  intro key
  simp only [Batch.add, List.mem_append, List.mem_singleton, h key, Task.mem_fileKeys, or_and_right,
    exists_or, exists_eq_left]

/-- A task is admitted exactly if it has no script in common with a task of the batch. -/
theorem Accounts.admits_iff {batch : Batch} (h : batch.Accounts) {task : Task} :
    batch.admits task = true ↔ ∀ other ∈ batch.tasks, ¬ task.Meets other := by
  have hadmits : batch.admits task = true ↔ ∀ key, task.Reads key → key ∉ batch.used := by
    simp [admits, Task.mem_fileKeys]
  rw [hadmits]
  constructor
  · rintro hfree other hother ⟨key, htask, hread⟩
    exact hfree key htask ((h key).mpr ⟨other, hother, hread⟩)
  · intro hapart key htask hused
    obtain ⟨other, hother, hread⟩ := (h key).mp hused
    exact hapart other hother ⟨key, htask, hread⟩

end Batch

/-! ## Packings -/

/-- The tasks of a slot, in their order. -/
def tasksIn (slot : Nat → Nat) (number : Nat) (tasks : List Task) : List Task :=
  (tasks.zipIdx.filter fun entry => slot entry.2 = number).map Prod.fst

/-- Batches into which tasks are packed one after the other, each into the first that it fits. The
slot of the task at an index is the number of its batch. -/
structure GreedyPacking (tasks : List Task) (slot : Nat → Nat) (batches : List (List Task)) :
    Prop where
  /-- A batch has the tasks of its slot, in their order, and there are no others. -/
  batch : ∀ number, batches.getD number [] = tasksIn slot number tasks
  /-- No batch is empty. -/
  filled : ∀ batch ∈ batches, batch ≠ []
  /-- Two tasks of one slot have no script in common. -/
  apart : ∀ earlier later left right, earlier < later → tasks[earlier]? = some left →
    tasks[later]? = some right → slot earlier = slot later → ¬ left.Meets right
  /-- Before a task, each of the batches that it was not put into has got a task with which it has a
  script in common. -/
  first : ∀ index task, tasks[index]? = some task → ∀ number < slot index,
    ∃ earlier other, earlier < index ∧ tasks[earlier]? = some other ∧ slot earlier = number ∧
      task.Meets other

section Slots

variable {slot : Nat → Nat} {number : Nat} {tasks : List Task}

/-- The tasks in a slot are those that were given its number. -/
theorem mem_tasksIn {task : Task} :
    task ∈ tasksIn slot number tasks ↔
      ∃ index, tasks[index]? = some task ∧ slot index = number := by
  simp only [tasksIn, List.mem_map, List.mem_filter, List.mem_zipIdx_iff_getElem?,
    decide_eq_true_eq, Prod.exists]
  constructor
  · rintro ⟨_, index, ⟨htask, hslot⟩, rfl⟩
    exact ⟨index, htask, hslot⟩
  · rintro ⟨index, htask, hslot⟩
    exact ⟨task, index, ⟨htask, hslot⟩, rfl⟩

/-- A task more joins its slot at the end; the others stay. -/
theorem tasksIn_concat (slot : Nat → Nat) (number : Nat) (tasks : List Task) (task : Task)
    (place : Nat) :
    tasksIn (Function.update slot tasks.length place) number (tasks ++ [task]) =
      tasksIn slot number tasks ++ if number = place then [task] else [] := by
  have hold : (tasks.zipIdx.filter fun entry =>
      Function.update slot tasks.length place entry.2 = number) =
        tasks.zipIdx.filter fun entry => slot entry.2 = number := by
    refine List.filter_congr fun entry hentry => ?_
    have hne : entry.2 ≠ tasks.length := by
      have hlt := List.snd_lt_of_mem_zipIdx hentry
      omega
    rw [Function.update_of_ne hne]
  rw [tasksIn, List.zipIdx_append, List.filter_append, hold, List.map_append, tasksIn]
  by_cases hplace : number = place
  · simp [hplace]
  · simp [hplace, Ne.symm hplace]

/-- A task at an index is one of before, or the last one. -/
theorem getElem?_concat_cases {task other : Task} {index : Nat}
    (hother : (tasks ++ [task])[index]? = some other) :
    index < tasks.length ∧ tasks[index]? = some other ∨ index = tasks.length ∧ other = task := by
  have hlt : index < tasks.length + 1 := by simpa using (List.getElem?_eq_some_iff.mp hother).1
  rcases Nat.lt_succ_iff_lt_or_eq.mp hlt with hbefore | rfl
  · exact Or.inl ⟨hbefore, List.getElem?_append_left hbefore ▸ hother⟩
  · rw [List.getElem?_concat_length] at hother
    exact Or.inr ⟨rfl, (Option.some.inj hother).symm⟩

end Slots

/-! ## Placing a task -/

/-- Placing a task adds it to the first batch that admits it, which may be a new one, and changes no
other. -/
theorem getElem?_placeTask (task : Task) (batches : List Batch) (number : Nat) :
    (placeTask task batches)[number]? =
      if number = batches.findIdx fun batch => batch.admits task then
        some ((batches.getD number .empty).add task)
      else batches[number]? := by
  induction batches generalizing number with
  | nil => cases number <;> simp [placeTask]
  | cons batch rest ih =>
    rw [placeTask, List.findIdx_cons]
    cases hadmits : batch.admits task with
    | true => cases number <;> simp
    | false =>
      cases number with
      | zero => simp
      | succ number => simpa using ih number

/-- A batch after a task is placed is one of before or got the task. -/
theorem of_mem_placeTask {task : Task} {batches : List Batch} {batch : Batch}
    (hmem : batch ∈ placeTask task batches) :
    batch ∈ batches ∨ ∃ before, (before ∈ batches ∨ before = .empty) ∧ batch = before.add task := by
  obtain ⟨number, hnumber⟩ := List.mem_iff_getElem?.mp hmem
  rw [getElem?_placeTask] at hnumber
  split at hnumber
  · refine Or.inr ⟨_, ?_, (Option.some.inj hnumber).symm⟩
    rw [List.getD_eq_getElem?_getD]
    cases hold : batches[number]? with
    | none => exact Or.inr rfl
    | some before => exact Or.inl (List.mem_of_getElem? hold)
  · exact Or.inl (List.mem_of_getElem? hnumber)

/-- The tasks of the batches after a task is placed. -/
theorem getD_tasks_placeTask (task : Task) (batches : List Batch) (number : Nat) :
    ((placeTask task batches).map Batch.tasks).getD number [] =
      (batches.map Batch.tasks).getD number [] ++
        if number = batches.findIdx fun batch => batch.admits task then [task] else [] := by
  have htasks : ∀ list : List Batch,
      (list.map Batch.tasks).getD number [] = (list.getD number .empty).tasks :=
    fun list => List.getD_map list Batch.empty Batch.tasks
  rw [htasks, htasks, List.getD_eq_getElem?_getD, getElem?_placeTask]
  split
  · rfl
  · rw [List.append_nil, List.getD_eq_getElem?_getD]

/-- What holds while tasks are placed. -/
structure Packed (tasks : List Task) (slot : Nat → Nat) (batches : List Batch) : Prop where
  /-- The batches know which scripts they use. -/
  accounts : ∀ batch ∈ batches, batch.Accounts
  /-- The tasks are packed. -/
  packing : GreedyPacking tasks slot (batches.map Batch.tasks)

namespace Packed

variable {tasks : List Task} {slot : Nat → Nat} {batches : List Batch}

/-- Without tasks there are no batches. -/
theorem nil : Packed [] (fun _ => 0) [] where
  accounts _ hmem := absurd hmem List.not_mem_nil
  packing :=
    { batch := fun _ => rfl
      filled := fun _ hmem => absurd hmem List.not_mem_nil
      apart := by simp
      first := by simp }

/-- The tasks of a batch are those of its slot. -/
theorem mem_tasks_iff (h : Packed tasks slot batches) {number : Nat} {batch : Batch}
    (hbatch : batches[number]? = some batch) {task : Task} :
    task ∈ batch.tasks ↔ ∃ index, tasks[index]? = some task ∧ slot index = number := by
  have htasks := h.packing.batch number
  rw [List.getD_eq_getElem?_getD, List.getElem?_map, hbatch] at htasks
  rw [← mem_tasksIn, ← htasks]
  rfl

/-- A task has no script in common with those of the first batch that admits it. -/
theorem not_meets_of_slot (h : Packed tasks slot batches) {task other : Task} {index : Nat}
    (hother : tasks[index]? = some other)
    (hslot : slot index = batches.findIdx fun batch => batch.admits task) :
    ¬ other.Meets task := by
  -- the slot has a task, so it is not that of a new batch
  have hsome : other ∈ (batches.map Batch.tasks).getD (slot index) [] := by
    rw [h.packing.batch]
    exact mem_tasksIn.mpr ⟨index, hother, rfl⟩
  cases hbatch : batches[slot index]? with
  | none =>
    rw [List.getD_eq_getElem?_getD, List.getElem?_map, hbatch] at hsome
    exact absurd hsome List.not_mem_nil
  | some batch =>
    have hadmits : batch.admits task = true := by
      obtain ⟨hlt, rfl⟩ := List.getElem?_eq_some_iff.mp hbatch
      exact ((List.findIdx_eq hlt).mp hslot.symm).1
    have hapart := (h.accounts batch (List.mem_of_getElem? hbatch)).admits_iff.mp hadmits
    intro hmeets
    exact hapart other ((h.mem_tasks_iff hbatch).mpr ⟨index, hother, rfl⟩) hmeets.symm

/-- Each batch before the first that admits a task has a task that meets it. -/
theorem exists_meets_of_lt (h : Packed tasks slot batches) {task : Task} {number : Nat}
    (hlt : number < batches.findIdx fun batch => batch.admits task) :
    ∃ index other, tasks[index]? = some other ∧ slot index = number ∧ task.Meets other := by
  have hlength : number < batches.length := Nat.lt_of_lt_of_le hlt List.findIdx_le_length
  have hbatch : batches[number]? = some batches[number] := List.getElem?_eq_getElem hlength
  have hrefused : ¬ batches[number].admits task = true := by
    rw [List.not_of_lt_findIdx hlt]
    exact Bool.false_ne_true
  simp only [(h.accounts _ (List.getElem_mem hlength)).admits_iff, not_forall, not_not] at hrefused
  obtain ⟨other, hother, hmeets⟩ := hrefused
  obtain ⟨index, hindex, hslot⟩ := (h.mem_tasks_iff hbatch).mp hother
  exact ⟨index, other, hindex, hslot, hmeets⟩

/-- The slots when one more task goes to the first batch that admits it. -/
def nextSlot (slot : Nat → Nat) (tasks : List Task) (batches : List Batch) (task : Task) :
    Nat → Nat :=
  Function.update slot tasks.length (batches.findIdx fun batch => batch.admits task)

/-- Tasks that were placed stay where they are. -/
theorem nextSlot_of_lt {task : Task} {index : Nat} (hindex : index < tasks.length) :
    nextSlot slot tasks batches task index = slot index :=
  Function.update_of_ne (Nat.ne_of_lt hindex) _ _

/-- A task is placed in the first batch that admits it, or in a new one after the last. -/
theorem nextSlot_length {task : Task} :
    nextSlot slot tasks batches task tasks.length =
      batches.findIdx fun batch => batch.admits task :=
  Function.update_self _ _ _

/-- The task that is placed meets none of those that share its slot. -/
theorem apart_nextSlot (h : Packed tasks slot batches) {task left right : Task}
    {earlier later : Nat} (hearlier : earlier < later)
    (hleft : (tasks ++ [task])[earlier]? = some left)
    (hright : (tasks ++ [task])[later]? = some right)
    (hslot : nextSlot slot tasks batches task earlier = nextSlot slot tasks batches task later) :
    ¬ left.Meets right := by
  rcases getElem?_concat_cases hright with ⟨hlater, hright⟩ | ⟨rfl, rfl⟩
  · have hfirst := hearlier.trans hlater
    rw [List.getElem?_append_left hfirst] at hleft
    rw [nextSlot_of_lt hfirst, nextSlot_of_lt hlater] at hslot
    exact h.packing.apart earlier later left right hearlier hleft hright hslot
  · rw [List.getElem?_append_left hearlier] at hleft
    rw [nextSlot_of_lt hearlier, nextSlot_length] at hslot
    exact h.not_meets_of_slot hleft hslot

/-- Each batch before the slot of a task has an earlier task that it meets. -/
theorem first_nextSlot (h : Packed tasks slot batches) {task other : Task} {index number : Nat}
    (hother : (tasks ++ [task])[index]? = some other)
    (hnumber : number < nextSlot slot tasks batches task index) :
    ∃ earlier before, earlier < index ∧ (tasks ++ [task])[earlier]? = some before ∧
      nextSlot slot tasks batches task earlier = number ∧ other.Meets before := by
  -- an earlier task keeps its place and its slot
  have hkept : ∀ {earlier : Nat} {before : Task}, tasks[earlier]? = some before →
      earlier < tasks.length ∧ (tasks ++ [task])[earlier]? = some before ∧
        nextSlot slot tasks batches task earlier = slot earlier := by
    intro earlier before hbefore
    have hlt := (List.getElem?_eq_some_iff.mp hbefore).1
    exact ⟨hlt, (List.getElem?_append_left hlt).trans hbefore, nextSlot_of_lt hlt⟩
  rcases getElem?_concat_cases hother with ⟨hindex, hother⟩ | ⟨rfl, rfl⟩
  · rw [nextSlot_of_lt hindex] at hnumber
    obtain ⟨earlier, before, hearlier, hbefore, hslot, hmeets⟩ :=
      h.packing.first index other hother number hnumber
    obtain ⟨-, hplace, hsame⟩ := hkept hbefore
    exact ⟨earlier, before, hearlier, hplace, hsame.trans hslot, hmeets⟩
  · rw [nextSlot_length] at hnumber
    obtain ⟨earlier, before, hbefore, hslot, hmeets⟩ := h.exists_meets_of_lt hnumber
    obtain ⟨hearlier, hplace, hsame⟩ := hkept hbefore
    exact ⟨earlier, before, hearlier, hplace, hsame.trans hslot, hmeets⟩

/-- Placing a task keeps the packing; its slot is the first batch that admits it. -/
theorem placeTask (h : Packed tasks slot batches) (task : Task) :
    Packed (tasks ++ [task]) (nextSlot slot tasks batches task)
      (ScopeCheck.placeTask task batches) := by
  refine ⟨fun batch hbatch => ?_, fun number => ?_, fun tasksOf htasks => ?_, ?_, ?_⟩
  · rcases of_mem_placeTask hbatch with hbefore | ⟨before, hbefore | rfl, rfl⟩
    · exact h.accounts batch hbefore
    · exact (h.accounts before hbefore).add task
    · exact Batch.accounts_empty.add task
  · rw [getD_tasks_placeTask, h.packing.batch, nextSlot, tasksIn_concat]
  · obtain ⟨batch, hbatch, rfl⟩ := List.mem_map.mp htasks
    rcases of_mem_placeTask hbatch with hbefore | ⟨before, -, rfl⟩
    · exact h.packing.filled _ (List.mem_map_of_mem hbefore)
    · simp [Batch.add]
  · intro earlier later left right hearlier hleft hright hslot
    exact h.apart_nextSlot hearlier hleft hright hslot
  · intro index other hother number hnumber
    exact h.first_nextSlot hother hnumber

/-- Tasks that are placed one after the other are packed. -/
theorem exists_packed (tasks : List Task) : ∃ slot, Packed tasks slot (packTasks tasks) := by
  induction tasks using List.reverseRecOn with
  | nil => exact ⟨_, nil⟩
  | append_singleton tasks task ih =>
    obtain ⟨slot, h⟩ := ih
    have hlast : packTasks (tasks ++ [task]) = ScopeCheck.placeTask task (packTasks tasks) := by
      rw [packTasks, List.foldl_append]
      rfl
    rw [hlast]
    exact ⟨_, h.placeTask task⟩

end Packed

/-! ## All tasks, each once -/

/-- Placing a task adds it once and loses no other. -/
theorem flatten_placeTask_perm (task : Task) (batches : List Batch) :
    ((placeTask task batches).map Batch.tasks).flatten.Perm
      (task :: (batches.map Batch.tasks).flatten) := by
  induction batches with
  | nil => exact List.Perm.refl _
  | cons batch rest ih =>
    rw [placeTask]
    split
    · rw [List.map_cons, List.map_cons, List.flatten_cons, List.flatten_cons, Batch.add,
        List.append_assoc]
      exact List.perm_middle
    · rw [List.map_cons, List.map_cons, List.flatten_cons, List.flatten_cons]
      exact (ih.append_left batch.tasks).trans List.perm_middle

/-- Batches hold every task once. -/
theorem flatten_disjointBatches_perm (tasks : List Task) :
    (disjointBatches tasks).flatten.Perm tasks := by
  have hfold : ∀ (batches : List Batch),
      ((tasks.foldl (fun batches task => placeTask task batches) batches).map
          Batch.tasks).flatten.Perm
        ((batches.map Batch.tasks).flatten ++ tasks) := by
    induction tasks with
    | nil =>
      intro batches
      rw [List.append_nil]
      exact List.Perm.refl _
    | cons task rest ih =>
      intro batches
      refine (ih (placeTask task batches)).trans ?_
      exact ((flatten_placeTask_perm task batches).append_right rest).trans List.perm_middle.symm
  exact hfold []

/-- Whatever scripts tasks read, the batches hold every task once, in the order of the tasks, no two
tasks of a batch have a script in common, and every task meets one before it in each of the batches
before its own. -/
theorem disjointBatches_greedy (tasks : List Task) :
    (disjointBatches tasks).flatten.Perm tasks ∧
      ∃ slot, GreedyPacking tasks slot (disjointBatches tasks) := by
  obtain ⟨slot, h⟩ := Packed.exists_packed tasks
  exact ⟨flatten_disjointBatches_perm tasks, slot, h.packing⟩

end ScopeCheck
