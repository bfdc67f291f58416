import ScopeCheck.Proofs.QualifiedNames

/-!
# Names that lead nowhere

A chain of names is followed from left to right, and what its front leads to does not depend on what
comes after (`Registry.followChain_append`). So a name that leads nowhere is reported in the same
words at the same place whatever stands behind it, and the names before it are not reported as
leading nowhere when they stand alone (`dead_end_decided_by_front`): of one mistake there is one
report, however long the chain. What a chain is used for and where it is written as a whole plays no
part in this; both matter only once the whole chain has led somewhere.
-/

namespace ScopeCheck

/-- Whether a finding tells of a name that leads nowhere: it is not declared, or the enum has no
such value. -/
def Finding.isDeadEnd (finding : Finding) : Bool :=
  finding.diagnostic.code = (Problem.cannotFindName "" none).code ||
    finding.diagnostic.code = (Problem.unknownEnumValue "" "").code

/-- Going on from what some names have led to. -/
def Followed.andThen (first : Followed) (next : Resolved → Followed) : Followed :=
  match first with
  | .reached target => next target
  | .member => .member
  | .broken finding => .broken finding

/-- What is reported of a walk, where something may still be reported of its end. -/
def Followed.report (followed : Followed) (atEnd : Resolved → Option Finding) : Option Finding :=
  match followed with
  | .broken finding => some finding
  | .member => none
  | .reached target => atEnd target

namespace Registry

variable {registry : Registry} {file : String}

/-! ## Following a front and then the rest -/

/-- A chain is followed by a step and then from where that leads. -/
theorem followChain_cons (current : Resolved) (part : Ident) (rest : List Ident) :
    registry.followChain file current (part :: rest) =
      (registry.stepChain file current part).andThen (registry.followChain file · rest) := by
  rw [followChain]
  cases registry.stepChain file current part <;> rfl

/-- A chain is followed along its front and then along the rest. -/
theorem followChain_append (current : Resolved) (front rest : List Ident) :
    registry.followChain file current (front ++ rest) =
      (registry.followChain file current front).andThen (registry.followChain file · rest) := by
  induction front generalizing current with
  | nil => rfl
  | cons part front ih =>
    rw [List.cons_append, followChain_cons, followChain_cons]
    cases registry.stepChain file current part with
    | reached next => exact ih next
    | member => rfl
    | broken finding => rfl

/-- A walk that breaks has come as far as the name at which it breaks. -/
theorem exists_step_of_broken {current : Resolved} {names : List Ident} {finding : Finding}
    (hbroken : registry.followChain file current names = .broken finding) :
    ∃ front part rest target, names = front ++ part :: rest ∧
      registry.followChain file current front = .reached target ∧
      registry.stepChain file target part = .broken finding := by
  induction names generalizing current with
  | nil => cases hbroken
  | cons part rest ih =>
    rw [followChain_cons] at hbroken
    cases hstep : registry.stepChain file current part with
    | reached next =>
      rw [hstep] at hbroken
      obtain ⟨front, last, more, target, rfl, hfront, hlast⟩ := ih hbroken
      refine ⟨part :: front, last, more, target, rfl, ?_, hlast⟩
      rw [followChain_cons, hstep]
      exact hfront
    | member =>
      rw [hstep] at hbroken
      cases hbroken
    | broken found =>
      rw [hstep] at hbroken
      exact ⟨[], part, rest, current, rfl, rfl, hstep.trans hbroken⟩

/-! ## Where a walk breaks -/

/-- A walk that breaks at a part is reported at that part. -/
theorem place_of_stepChain {current : Resolved} {part : Ident} {finding : Finding}
    (hbroken : registry.stepChain file current part = .broken finding) :
    finding.diagnostic.file = file ∧ finding.diagnostic.range = part.range := by
  cases current with
  | inNamespace fullName =>
    simp only [stepChain, stepNamespace] at hbroken
    split at hbroken
    · cases hbroken
    · split at hbroken
      · cases hbroken
      · split at hbroken
        · cases hbroken
        · split at hbroken <;> cases hbroken
          exact ⟨rfl, rfl⟩
  | enum decl =>
    simp only [stepChain, stepEnum] at hbroken
    split at hbroken <;> cases hbroken
    exact ⟨rfl, rfl⟩
  | callable | declared => cases hbroken

/-- A walk that does not start is reported at the first name. -/
theorem place_of_resolveRoot {enclosing : Option String} {root : Ident} {finding : Finding}
    (hbroken : registry.resolveRoot file enclosing root = .broken finding) :
    finding.diagnostic.file = file ∧ finding.diagnostic.range = root.range := by
  unfold resolveRoot at hbroken
  split at hbroken
  · cases hbroken
  · split at hbroken <;> cases hbroken
    exact ⟨rfl, rfl⟩

/-- What the names of a chain lead to whose first name the tables do not bind. -/
def lead (registry : Registry) (file : String) (enclosing : Option String) (root : Ident)
    (rest : List Ident) : Followed :=
  (registry.resolveRoot file enclosing root).andThen (registry.followChain file · rest)

/-- A walk breaks at a name that its front decides: whatever begins with that front, and so with the
same first name, breaks there in the same way, and nothing shorter breaks. -/
theorem exists_front_of_broken {enclosing : Option String} {root : Ident} {rest : List Ident}
    {finding : Finding} (hbroken : registry.lead file enclosing root rest = .broken finding) :
    ∃ front part, front ++ [part] <+: root :: rest ∧
      (finding.diagnostic.file = file ∧ finding.diagnostic.range = part.range) ∧
      (∀ first more, front ++ [part] <+: first :: more →
        first = root ∧ registry.lead file enclosing first more = .broken finding) ∧
      ∀ first more, first :: more <+: front →
        first = root ∧ ∃ target, registry.lead file enclosing first more = .reached target := by
  unfold lead at hbroken
  cases hroot : registry.resolveRoot file enclosing root with
  | reached start =>
    rw [hroot] at hbroken
    -- the front leads somewhere, and the part after it does not lead on
    obtain ⟨front, part, more, target, rfl, hfront, hpart⟩ := exists_step_of_broken hbroken
    refine ⟨root :: front, part, ⟨more, by simp⟩, place_of_stepChain hpart, ?_, ?_⟩
    · rintro first others ⟨suffix, hothers⟩
      obtain ⟨rfl, rfl⟩ : root = first ∧ front ++ part :: suffix = others := by simpa using hothers
      refine ⟨rfl, ?_⟩
      rw [lead, hroot, Followed.andThen, followChain_append, hfront, Followed.andThen,
        followChain_cons, hpart]
      rfl
    · rintro first others hothers
      obtain ⟨rfl, suffix, rfl⟩ := List.cons_prefix_cons.mp hothers
      rw [followChain_append] at hfront
      refine ⟨rfl, ?_⟩
      rw [lead, hroot, Followed.andThen]
      cases hothers : registry.followChain file start others with
      | reached between => exact ⟨between, rfl⟩
      | member | broken =>
        rw [hothers] at hfront
        cases hfront
  | member =>
    rw [hroot] at hbroken
    cases hbroken
  | broken found =>
    rw [hroot] at hbroken
    -- the walk does not start, so the front is empty
    refine ⟨[], root, List.prefix_append [root] rest, ?_, ?_, ?_⟩
    · exact place_of_resolveRoot (hroot.trans hbroken)
    · intro first others hothers
      obtain ⟨rfl, -⟩ := List.cons_prefix_cons.mp hothers
      refine ⟨rfl, ?_⟩
      rw [lead, hroot]
      exact hbroken
    · intro first others hothers
      cases List.prefix_nil.mp hothers

end Registry

/-! ## What is reported -/

/-- Two chains are written where the same names are bound and the same namespace is around. -/
structure ChainUse.SameSite (left right : ChainUse) : Prop where
  table : left.table = right.table
  namespaceKey : left.namespaceKey = right.namespaceKey

/-- The check reports where the walk along the chain ends. -/
theorem checkUnbound_eq_lead (registry : Registry) (file : String) (chain : ChainUse) (root : Ident)
    (rest : List Ident) :
    checkUnbound registry file chain root rest =
      (registry.lead file chain.namespaceKey root rest).report (checkReached file chain) := by
  unfold checkUnbound Registry.lead
  cases registry.resolveRoot file chain.namespaceKey root <;> rfl

/-- The number of arguments is no dead end. -/
theorem isDeadEnd_of_checkArity {file : String} {range : Range} {callable : Callable} {count : Nat}
    {finding : Finding} (hfound : checkArity file range callable count = some finding) :
    finding.isDeadEnd = false := by
  rw [(checkArity_eq_some_iff.mp hfound).2]
  rfl

/-- What is reported of a bound name is no dead end. -/
theorem isDeadEnd_of_checkBound {registry : Registry} {file : String} {chain : ChainUse}
    {root : Ident} {rest : List Ident} {bindings : List Binding} {finding : Finding}
    (hfound : checkBound registry file chain root rest bindings = some finding) :
    finding.isDeadEnd = false := by
  unfold checkBound at hfound
  split at hfound
  · split at hfound
    · split at hfound
      · exact isDeadEnd_of_checkArity hfound
      · cases hfound
    · cases hfound
  · cases hfound

/-- A chain that leads somewhere as a whole has no dead end. -/
theorem isDeadEnd_of_checkReached {file : String} {chain : ChainUse} {target : Resolved}
    {finding : Finding} (hfound : checkReached file chain target = some finding) :
    finding.isDeadEnd = false := by
  unfold checkReached at hfound
  split at hfound
  · cases hfound
    rfl
  · split at hfound
    · exact isDeadEnd_of_checkArity hfound
    · cases hfound
    · cases hfound
  · cases hfound
  · cases hfound

/-- A dead end is where the walk along an unbound chain breaks. -/
theorem broken_of_isDeadEnd {registry : Registry} {tables : Tables TableRef} {script : Script}
    {chain : ChainUse} {finding : Finding}
    (hfound : checkChain registry tables script chain = some finding)
    (hdead : finding.isDeadEnd = true) :
    ∃ root rest, chain.parts = root :: rest ∧
      Tables.lookup tables (script.ref chain.table) root.text = none ∧
      registry.lead script.path chain.namespaceKey root rest = .broken finding := by
  unfold checkChain at hfound
  split at hfound
  · cases hfound
  · rename_i root rest hparts
    refine ⟨root, rest, hparts, ?_⟩
    split at hfound
    · rw [isDeadEnd_of_checkBound hfound] at hdead
      cases hdead
    · rename_i hunbound
      refine ⟨hunbound, ?_⟩
      rw [checkUnbound_eq_lead] at hfound
      -- of the three ends of a walk only a break is reported as a dead end
      cases hlead : registry.lead script.path chain.namespaceKey root rest with
      | broken found =>
        rw [hlead] at hfound
        rw [Option.some.inj hfound]
      | member =>
        rw [hlead] at hfound
        cases hfound
      | reached target =>
        rw [hlead] at hfound
        rw [isDeadEnd_of_checkReached hfound] at hdead
        cases hdead

/-- If the first name is not bound, the walk along the chain decides. -/
theorem checkChain_of_unbound {registry : Registry} {tables : Tables TableRef} {script : Script}
    {chain : ChainUse} {root : Ident} {rest : List Ident} (hparts : chain.parts = root :: rest)
    (hunbound : Tables.lookup tables (script.ref chain.table) root.text = none) :
    checkChain registry tables script chain =
      (registry.lead script.path chain.namespaceKey root rest).report
        (checkReached script.path chain) := by
  rw [← checkUnbound_eq_lead]
  simp only [checkChain, hparts, hunbound]

/-- Of a chain of names at most one thing is reported. If that is a name that leads nowhere, it
stands at one of the parts, every chain at the same site that is the same up to this part gets the
same report, and no chain at the site that ends before this part gets such a report at all. -/
theorem dead_end_decided_by_front (registry : Registry) (tables : Tables TableRef) (script : Script)
    (chain : ChainUse) :
    (checkChain registry tables script chain).toList.length ≤ 1 ∧
      ∀ finding, checkChain registry tables script chain = some finding →
        finding.isDeadEnd = true →
        ∃ front part rest, chain.parts = front ++ part :: rest ∧
          finding.diagnostic.file = script.path ∧ finding.diagnostic.range = part.range ∧
          (∀ other : ChainUse, other.SameSite chain → front ++ [part] <+: other.parts →
            checkChain registry tables script other = some finding) ∧
          ∀ other : ChainUse, other.SameSite chain → other.parts <+: front →
            ∀ found, checkChain registry tables script other = some found →
              found.isDeadEnd = false := by
  refine ⟨Option.length_toList_le, fun finding hfound hdead => ?_⟩
  obtain ⟨root, rest, hparts, hunbound, hbroken⟩ := broken_of_isDeadEnd hfound hdead
  obtain ⟨front, part, hfront, ⟨hfile, hrange⟩, hsame, hshorter⟩ :=
    Registry.exists_front_of_broken hbroken
  obtain ⟨more, hmore⟩ := hfront
  refine ⟨front, part, more, ?_, hfile, hrange, ?_, ?_⟩
  · rw [hparts, ← hmore, List.append_assoc, List.singleton_append]
  · intro other hsite hother
    -- another chain that goes through the front has the same first name, so it is not bound either
    obtain ⟨first, others, hothers⟩ := List.exists_cons_of_ne_nil
      (List.ne_nil_of_mem (hother.subset (List.mem_append_right front List.mem_cons_self)))
    obtain ⟨rfl, hlead⟩ := hsame first others (hothers ▸ hother)
    rw [checkChain_of_unbound hothers (hsite.table ▸ hunbound), hsite.namespaceKey, hlead]
    rfl
  · intro other hsite hother found hchecked
    cases hothers : other.parts with
    | nil =>
      simp only [checkChain, hothers] at hchecked
      cases hchecked
    | cons first others =>
      obtain ⟨rfl, target, hlead⟩ := hshorter first others (hothers ▸ hother)
      rw [checkChain_of_unbound hothers (hsite.table ▸ hunbound), hsite.namespaceKey, hlead]
        at hchecked
      exact isDeadEnd_of_checkReached hchecked

/-! ## A name that a namespace does not have -/

/-- A chain of which the second name leads nowhere. -/
def lostUse : ChainUse :=
  ⟨[⟨"APP", .onLine 3 0 3⟩, ⟨"gone", .onLine 3 4 4⟩, ⟨"far", .onLine 3 9 3⟩], .value, none, [],
    .onLine 3 0 12⟩

/-- A call by the first two names. -/
def lostCall : ChainUse :=
  ⟨[⟨"APP", .onLine 3 0 3⟩, ⟨"gone", .onLine 3 4 4⟩], .callee 2, none, [], .onLine 3 0 8⟩

/-- The report of the second name. -/
def goneFinding : Finding := .of (.cannotFindName "gone" (some "app")) "network.bs" (.onLine 3 4 4)

/-- The missing name is reported. -/
theorem checkChain_lostUse :
    checkChain (Registry.build networkChain (.withNodes []))
      (linkedTables networkChain (.withNodes [])) network lostUse = some goneFinding := by
  simp only [checkChain, lostUse, lookup_network]
  simp only [Registry.build, sortedFiles_networkChain, List.flatMap_cons, List.flatMap_nil,
    Script.blocks, Script.classes, Script.enums, Script.consts, Script.interfaces, Script.functions,
    Script.topLevel, visits_network]
  decide +kernel

/-- The second name is reported in the call as it is in the longer chain. -/
theorem gone_reported_alike :
    checkChain (Registry.build networkChain (.withNodes []))
        (linkedTables networkChain (.withNodes [])) network lostUse = some goneFinding ∧
      goneFinding.isDeadEnd = true ∧
      checkChain (Registry.build networkChain (.withNodes []))
        (linkedTables networkChain (.withNodes [])) network lostCall = some goneFinding := by
  obtain ⟨front, part, rest, hparts, -, hrange, hsame, -⟩ :=
    (dead_end_decided_by_front (Registry.build networkChain (.withNodes []))
      (linkedTables networkChain (.withNodes [])) network lostUse).2 goneFinding checkChain_lostUse
      rfl
  refine ⟨checkChain_lostUse, rfl, hsame lostCall ⟨rfl, rfl⟩ ?_⟩
  -- The range of the report tells which of the three names it is.
  rcases front with _ | ⟨first, _ | ⟨second, more⟩⟩
  · obtain ⟨rfl, -⟩ := List.cons.inj hparts
    exact absurd hrange (by decide)
  · obtain ⟨rfl, hlater⟩ := List.cons.inj hparts
    obtain ⟨rfl, -⟩ := List.cons.inj hlater
    exact List.prefix_rfl
  · obtain ⟨rfl, hlater⟩ := List.cons.inj hparts
    obtain ⟨rfl, hlast⟩ := List.cons.inj hlater
    have hmem : part ∈ [(⟨"far", .onLine 3 9 3⟩ : Ident)] := by
      rw [hlast]
      exact List.mem_append_right more List.mem_cons_self
    rw [List.mem_singleton.mp hmem] at hrange
    exact absurd hrange (by decide)

end ScopeCheck
