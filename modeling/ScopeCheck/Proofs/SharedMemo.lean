import Mathlib.Data.List.Basic
import Mathlib.Logic.Function.Basic
import ScopeCheck.Memo
import ScopeCheck.Proofs.Keyed

/-!
# Users that share a memo

While a value is computed, the memo is free for everyone. A call of `getOrAdd` is therefore two
steps: it looks its key up, and, if there is no value, it stores later what it has computed and
returns what is stored then. In between, other users take steps of theirs, and so does the user
itself if the computation needs further values, even that of the same key. `step` is one such step
and a `Run` is any sequence of them. What a computation ends with is left open, so that two
computations for one key may end with different values.

All that a step does to the memo is said by two lemmas: a key without a value gets the one that is
offered for it, and any other key keeps what it has (`get?_of_step`); what a call returns is stored
from then on (`get?_of_returned`). By induction a run leaves every key with what was first stored
under it (`Run.get?_last`). That these are the steps of `getOrAdd` is said by `Performs.getOrAdd`: a
call that nobody disturbs is a run of its user that does to the memo what `getOrAdd` does, and ends
with returning what `getOrAdd` returns. From this the users agree (`racing_calls_agree`).
-/

namespace ScopeCheck

variable {ι κ ν : Type}

/-! ## Storing -/

namespace Memo

variable [DecidableEq κ]

/-- Storing gives a value to a key that has none, and changes nothing else. -/
theorem get?_store (memo : Memo κ ν) (key other : κ) (value : ν) :
    (memo.store key value).2.get? other =
      (memo.get? other).or (if key = other then some value else none) := by
  unfold store
  cases hget : memo.get? key with
  | some known =>
    by_cases hkey : key = other
    · rw [← hkey, hget, Option.some_or]
    · rw [if_neg hkey, Option.or_none]
  | none =>
    change (memo.stored.put key value).get? other = _
    rw [Keyed.get?_put]
    by_cases hkey : key = other
    · rw [if_pos hkey.symm, if_pos hkey, ← hkey, hget, Option.none_or]
    · rw [if_neg (Ne.symm hkey), if_neg hkey, Option.or_none]
      rfl

/-- What storing hands over is what is stored. -/
theorem get?_store_self (memo : Memo κ ν) (key : κ) (value : ν) :
    (memo.store key value).2.get? key = some (memo.store key value).1 := by
  rw [get?_store, if_pos rfl]
  unfold store
  cases memo.get? key <;> rfl

/-- Storing adds at most one key, after those that are there. -/
theorem keys_prefix_store (memo : Memo κ ν) (key : κ) (value : ν) :
    memo.stored.keys <+: (memo.store key value).2.stored.keys := by
  unfold store
  cases memo.get? key with
  | some known => exact List.prefix_refl _
  | none =>
    change _ <+: (memo.stored.put key value).keys
    rw [Keyed.keys_put]
    split
    · exact List.prefix_refl _
    · exact List.prefix_append _ _

end Memo

/-! ## Steps of users -/

/-- A memo and what its users are computing. -/
structure SharedMemo (ι κ ν : Type) where
  /-- The memo. -/
  memo : Memo κ ν
  /-- The keys whose values a user is computing, innermost first. -/
  computing : ι → List κ

namespace SharedMemo

/-- What a user does next. -/
inductive Move (ι κ ν : Type) where
  /-- It calls `getOrAdd`, which looks the key up. -/
  | call (user : ι) (key : κ)
  /-- Its innermost computation ends with a value, which is stored unless the key has one by now. -/
  | finish (user : ι) (made : ν)
  /-- It calls `get?`. -/
  | look (user : ι) (key : κ)

/-- What a step shows to its user. -/
inductive Event (ι κ ν : Type) where
  /-- A call has found a value and returns it. -/
  | found (user : ι) (key : κ) (value : ν)
  /-- A call has found no value, so one is computed. -/
  | missed (user : ι) (key : κ)
  /-- A call has computed the value `made` and returns `value`. -/
  | settled (user : ι) (key : κ) (made value : ν)
  /-- A lookup has been answered. -/
  | answered (user : ι) (key : κ) (answer : Option ν)

namespace Event

/-- The user that takes the step. -/
def user : Event ι κ ν → ι
  | found user _ _ | missed user _ | settled user _ _ _ | answered user _ _ => user

/-- The key and the value of a call of `getOrAdd` that returns. -/
def returned? : Event ι κ ν → Option (κ × ν)
  | found _ key value | settled _ key _ value => some (key, value)
  | missed _ _ | answered _ _ _ => none

/-- The key and the answer of a call of `get?`. -/
def answered? : Event ι κ ν → Option (κ × Option ν)
  | answered _ key answer => some (key, answer)
  | found _ _ _ | missed _ _ | settled _ _ _ _ => none

/-- The value that is offered to be stored under a key. -/
def offered? [DecidableEq κ] (key : κ) : Event ι κ ν → Option ν
  | settled _ other made _ => if other = key then some made else none
  | found _ _ _ | missed _ _ | answered _ _ _ => none

end Event

variable [DecidableEq ι] [DecidableEq κ]

/-- Takes a step; `none` if the user computes nothing that could end. -/
def step (shared : SharedMemo ι κ ν) : Move ι κ ν → Option (Event ι κ ν × SharedMemo ι κ ν)
  | .call user key =>
    match shared.memo.get? key with
    | some value => some (.found user key value, shared)
    | none =>
      some (.missed user key, { shared with
        computing := Function.update shared.computing user (key :: shared.computing user) })
  | .finish user made =>
    match shared.computing user with
    | [] => none
    | key :: outer =>
      some (.settled user key made (shared.memo.store key made).1,
        ⟨(shared.memo.store key made).2, Function.update shared.computing user outer⟩)
  | .look user key => some (.answered user key (shared.memo.get? key), shared)

/-- Steps of any users in any order. -/
inductive Run : SharedMemo ι κ ν → List (Event ι κ ν) → SharedMemo ι κ ν → Prop
  | nil (shared : SharedMemo ι κ ν) : Run shared [] shared
  | cons {shared next last : SharedMemo ι κ ν} {event : Event ι κ ν} {events : List (Event ι κ ν)}
      (move : Move ι κ ν) (hstep : shared.step move = some (event, next))
      (hrest : Run next events last) : Run shared (event :: events) last

/-- What was first stored under a key: what was there at the start, or else the first offer. -/
def firstStored (memo : Memo κ ν) (events : List (Event ι κ ν)) (key : κ) : Option ν :=
  (memo.get? key).or (events.findSome? (Event.offered? key))

/-! ## What a step does -/

section Step

variable {shared next : SharedMemo ι κ ν} {move : Move ι κ ν} {event : Event ι κ ν}
  (hstep : shared.step move = some (event, next))
include hstep

/-- The four things a step can be. -/
theorem step_cases :
    (∃ user key value, shared.memo.get? key = some value ∧ event = .found user key value ∧
      next = shared) ∨
    (∃ user key, shared.memo.get? key = none ∧ event = .missed user key ∧
      next.memo = shared.memo) ∨
    (∃ user key made, event = .settled user key made (shared.memo.store key made).1 ∧
      next.memo = (shared.memo.store key made).2) ∨
    ∃ user key, event = .answered user key (shared.memo.get? key) ∧ next = shared := by
  cases move with
  | call user key =>
    cases hget : shared.memo.get? key with
    | some value =>
      simp only [step, hget, Option.some.injEq, Prod.mk.injEq] at hstep
      exact Or.inl ⟨user, key, value, hget, hstep.1.symm, hstep.2.symm⟩
    | none =>
      simp only [step, hget, Option.some.injEq, Prod.mk.injEq] at hstep
      exact Or.inr (Or.inl ⟨user, key, hget, hstep.1.symm, by rw [← hstep.2]⟩)
  | finish user made =>
    cases hcomputing : shared.computing user with
    | nil =>
      simp only [step, hcomputing] at hstep
      cases hstep
    | cons key outer =>
      simp only [step, hcomputing, Option.some.injEq, Prod.mk.injEq] at hstep
      exact Or.inr (Or.inr (Or.inl ⟨user, key, made, hstep.1.symm, by rw [← hstep.2]⟩))
  | look user key =>
    simp only [step, Option.some.injEq, Prod.mk.injEq] at hstep
    exact Or.inr (Or.inr (Or.inr ⟨user, key, hstep.1.symm, hstep.2.symm⟩))

/-- A step gives a value to a key that has none, if one is offered, and changes nothing else. -/
theorem get?_of_step (key : κ) :
    next.memo.get? key = (shared.memo.get? key).or (event.offered? key) := by
  obtain ⟨user, other, value, -, rfl, rfl⟩ | ⟨user, other, -, rfl, hmemo⟩ |
    ⟨user, other, made, rfl, hmemo⟩ | ⟨user, other, rfl, rfl⟩ := step_cases hstep
  · rw [Event.offered?, Option.or_none]
  · rw [hmemo, Event.offered?, Option.or_none]
  · rw [hmemo, Memo.get?_store, Event.offered?]
  · rw [Event.offered?, Option.or_none]

/-- What a call returns is stored under its key when it returns. -/
theorem get?_of_returned {key : κ} {value : ν} (hreturned : event.returned? = some (key, value)) :
    next.memo.get? key = some value := by
  obtain ⟨user, other, known, hget, rfl, rfl⟩ | ⟨user, other, -, rfl, -⟩ |
    ⟨user, other, made, rfl, hmemo⟩ | ⟨user, other, rfl, -⟩ := step_cases hstep
  · cases hreturned
    exact hget
  · cases hreturned
  · cases hreturned
    rw [hmemo, Memo.get?_store_self]
  · cases hreturned

/-- A lookup is answered with what is stored. -/
theorem get?_of_answered {key : κ} {answer : Option ν}
    (hanswered : event.answered? = some (key, answer)) : shared.memo.get? key = answer := by
  obtain ⟨_, _, _, -, rfl, -⟩ | ⟨_, _, -, rfl, -⟩ | ⟨_, _, _, rfl, -⟩ | ⟨_, _, rfl, -⟩ :=
    step_cases hstep
  · cases hanswered
  · cases hanswered
  · cases hanswered
  · cases hanswered
    rfl

/-- No step takes a key away or moves one. -/
theorem keys_prefix_of_step : shared.memo.stored.keys <+: next.memo.stored.keys := by
  obtain ⟨_, _, _, -, -, rfl⟩ | ⟨_, _, -, -, hmemo⟩ | ⟨_, key, made, -, hmemo⟩ |
    ⟨_, _, -, rfl⟩ := step_cases hstep
  · exact List.prefix_refl _
  · exact hmemo ▸ List.prefix_refl _
  · exact hmemo ▸ shared.memo.keys_prefix_store key made
  · exact List.prefix_refl _

end Step

/-! ## What a run does -/

namespace Run

variable {start middle last : SharedMemo ι κ ν} {events earlier later : List (Event ι κ ν)}

/-- A run can be followed by another from where it ends. -/
theorem append (hearlier : Run start earlier middle) (hlater : Run middle later last) :
    Run start (earlier ++ later) last := by
  induction hearlier with
  | nil => exact hlater
  | cons move hstep _ ih => exact .cons move hstep (ih hlater)

/-- After a run every key has what was first stored under it. -/
theorem get?_last (hrun : Run start events last) (key : κ) :
    last.memo.get? key = firstStored start.memo events key := by
  induction hrun with
  | nil shared => rw [firstStored, List.findSome?_nil, Option.or_none]
  | @cons shared next last event events move hstep hrest ih =>
    rw [ih, firstStored, firstStored, get?_of_step hstep, Option.or_assoc, List.findSome?_cons]
    cases event.offered? key <;> rfl

/-- What is stored stays. -/
theorem get?_of_get? (hrun : Run start events last) {key : κ} {value : ν}
    (hget : start.memo.get? key = some value) : last.memo.get? key = some value := by
  rw [hrun.get?_last, firstStored, hget, Option.some_or]

/-- What a call has returned is still stored at the end. -/
theorem get?_of_returned (hrun : Run start events last) {event : Event ι κ ν}
    (hevent : event ∈ events) {key : κ} {value : ν}
    (hreturned : event.returned? = some (key, value)) : last.memo.get? key = some value := by
  induction hrun with
  | nil => cases hevent
  | cons move hstep hrest ih =>
    rcases List.mem_cons.mp hevent with rfl | hevent
    · exact hrest.get?_of_get? (SharedMemo.get?_of_returned hstep hreturned)
    · exact ih hevent

/-- Every lookup sees what was stored at the start. -/
theorem answer_of_get? (hrun : Run start events last) {event : Event ι κ ν}
    (hevent : event ∈ events) {key : κ} {value : ν} {answer : Option ν}
    (hget : start.memo.get? key = some value) (hanswered : event.answered? = some (key, answer)) :
    answer = some value := by
  induction hrun with
  | nil => cases hevent
  | cons move hstep hrest ih =>
    rcases List.mem_cons.mp hevent with rfl | hevent
    · rw [← get?_of_answered hstep hanswered, hget]
    · refine ih hevent ?_
      rw [get?_of_step hstep, hget, Option.some_or]

/-- No run takes a key away or moves one, by induction on its steps. -/
theorem keys_prefix (hrun : Run start events last) :
    start.memo.stored.keys <+: last.memo.stored.keys := by
  induction hrun with
  | nil => exact List.prefix_refl _
  | cons move hstep _ ih => exact (keys_prefix_of_step hstep).trans ih

end Run

/-! ## Undisturbed calls -/

/-- A user can make a use of the memo by steps of its own, whatever is being computed. -/
def Performs (user : ι) (use : Memo κ ν → ν × Memo κ ν) : Prop :=
  ∀ shared : SharedMemo ι κ ν, ∃ events,
    Run shared events { shared with memo := (use shared.memo).2 } ∧
      ∀ event ∈ events, event.user = user

/-- A value that is at hand needs no steps. -/
theorem performs_value (user : ι) (value : ν) :
    Performs user fun memo : Memo κ ν => (value, memo) := by
  intro shared
  refine ⟨[], .nil shared, ?_⟩
  intro event hevent
  cases hevent

/-- If a user can compute a value, then a call of `getOrAdd` with this computation is made by steps
of the user, the last of which returns what `getOrAdd` returns. -/
theorem Performs.getOrAdd {user : ι} {make : Memo κ ν → ν × Memo κ ν} (hmake : Performs user make)
    (key : κ) (shared : SharedMemo ι κ ν) :
    let result := Id.run (shared.memo.getOrAdd key make)
    ∃ events event, Run shared (events ++ [event]) { shared with memo := result.2 } ∧
      (∀ other ∈ events ++ [event], other.user = user) ∧
      event.returned? = some (key, result.1) := by
  intro result
  cases hget : shared.memo.get? key with
  | some value =>
    have hresult : result = (value, shared.memo) := by
      simp only [result, Memo.getOrAdd, hget]
      rfl
    rw [hresult]
    refine ⟨[], .found user key value, ?_, by simp [Event.user], rfl⟩
    refine .cons (.call user key) ?_ (.nil _)
    simp only [step, hget]
  | none =>
    have hresult : result = (make shared.memo).2.store key (make shared.memo).1 := by
      simp only [result, Memo.getOrAdd, hget]
      rfl
    rw [hresult]
    -- the computation runs with the key on top of what the user is computing already
    obtain ⟨events, hrun, hown⟩ := hmake { shared with
      computing := Function.update shared.computing user (key :: shared.computing user) }
    refine ⟨.missed user key :: events, .settled user key (make shared.memo).1 _,
      .cons (.call user key) ?_
        (hrun.append (.cons (.finish user (make shared.memo).1) ?_ (.nil _))), ?_, rfl⟩
    · simp only [step, hget]
    · simp [step]
    · simpa [Event.user, or_imp, forall_and] using hown

/-! ## Calls that race -/

/-- Let users of a memo take steps in any order, and look at it in the middle. Every call of
`getOrAdd` that returns, before or after, returns the value that was first stored under its key. In
the middle the memo holds what has been first stored by then, among it what every call has returned;
this is there to the end, and is the answer to every later lookup. No key is removed. Whoever can
compute a value can call `getOrAdd` in the middle: if nobody disturbs the call, the user takes steps
that leave the memo as `getOrAdd` does, and the last one returns the result of `getOrAdd`, which is
the value that is stored in the middle if there is one. -/
theorem racing_calls_agree {start middle last : SharedMemo ι κ ν}
    {earlier later : List (Event ι κ ν)} (hearlier : Run start earlier middle)
    (hlater : Run middle later last) (key : κ) :
    (∀ event ∈ earlier ++ later, ∀ value, event.returned? = some (key, value) →
        firstStored start.memo (earlier ++ later) key = some value) ∧
      middle.memo.get? key = firstStored start.memo earlier key ∧
      (∀ event ∈ earlier, ∀ value, event.returned? = some (key, value) →
        middle.memo.get? key = some value) ∧
      (∀ value, middle.memo.get? key = some value →
        last.memo.get? key = some value ∧
          ∀ event ∈ later, ∀ answer, event.answered? = some (key, answer) →
            answer = some value) ∧
      start.memo.stored.keys <+: middle.memo.stored.keys ∧
      middle.memo.stored.keys <+: last.memo.stored.keys ∧
      ∀ user make, Performs user make →
        ∃ events event,
          Run middle (events ++ [event])
            { middle with memo := (Id.run (middle.memo.getOrAdd key make)).2 } ∧
          (∀ other ∈ events ++ [event], other.user = user) ∧
          event.returned? = some (key, (Id.run (middle.memo.getOrAdd key make)).1) ∧
          ∀ value, middle.memo.get? key = some value →
            (Id.run (middle.memo.getOrAdd key make)).1 = value := by
  have hwhole := hearlier.append hlater
  refine ⟨fun event hevent value hreturned => ?_, hearlier.get?_last key,
    fun event hevent value => hearlier.get?_of_returned hevent, fun value hget => ?_,
    hearlier.keys_prefix, hlater.keys_prefix, fun user make hmake => ?_⟩
  · rw [← hwhole.get?_last]
    exact hwhole.get?_of_returned hevent hreturned
  · exact ⟨hlater.get?_of_get? hget,
      fun event hevent answer => hlater.answer_of_get? hevent hget⟩
  · obtain ⟨events, event, hrun, hown, hreturned⟩ := hmake.getOrAdd key middle
    refine ⟨events, event, hrun, hown, hreturned, fun value hget => ?_⟩
    -- the value stays through the call, and it is what the call returns
    have hstays := hrun.get?_of_get? hget
    rw [hrun.get?_of_returned (List.mem_append_right events List.mem_cons_self) hreturned] at hstays
    exact Option.some.inj hstays

/-- Two users compute the value of one key, one of them in need of another value meanwhile. The
value of the user that ends first is what both calls return, and what `getOrAdd` returns to whoever
brings another value from then on. -/
theorem racing_calls_agree_two_users :
    ∃ middle last : SharedMemo Bool Nat Nat,
      Run ⟨.empty, fun _ => []⟩
        [.missed false 1, .missed false 2, .missed true 1, .settled true 1 10 10] middle ∧
      Run middle
        [.settled false 2 20 20, .settled false 1 30 10, .found true 2 20,
          .answered false 1 (some 10)] last ∧
      middle.memo.get? 1 = some 10 ∧ last.memo.get? 1 = some 10 ∧
      (middle.memo.remember 1 40).1 = 10 := by
  obtain ⟨middle, last, hearlier, hlater⟩ : ∃ middle last : SharedMemo Bool Nat Nat,
      Run ⟨.empty, fun _ => []⟩
        [.missed false 1, .missed false 2, .missed true 1, .settled true 1 10 10] middle ∧
      Run middle
        [.settled false 2 20 20, .settled false 1 30 10, .found true 2 20,
          .answered false 1 (some 10)] last :=
    ⟨_, _, .cons (.call false 1) rfl <| .cons (.call false 2) rfl <| .cons (.call true 1) rfl <|
        .cons (.finish true 10) rfl <| .nil _,
      .cons (.finish false 20) rfl <| .cons (.finish false 30) rfl <| .cons (.call true 2) rfl <|
        .cons (.look false 1) rfl <| .nil _⟩
  obtain ⟨-, -, hreturned, hkept, -, -, hcalls⟩ := racing_calls_agree hearlier hlater 1
  have hmiddle := hreturned (.settled true 1 10 10) (by simp) 10 rfl
  obtain ⟨-, -, -, -, -, hcalled⟩ := hcalls true _ (performs_value true 40)
  exact ⟨middle, last, hearlier, hlater, hmiddle, (hkept 10 hmiddle).1, hcalled 10 hmiddle⟩

end SharedMemo

end ScopeCheck
