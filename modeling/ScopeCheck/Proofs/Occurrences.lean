import Mathlib.Data.List.Lex
import ScopeCheck.Proofs.WrittenPlaces

/-!
# Every position of a script is visited once

`Node.HasPart` names the positions of the grammar: one constructor for every part of an expression,
a function, a member or a statement that is itself a node, with its number among the parts. What a
script contains is a statement of the file or a part of something that the script contains
(`Script.Occurs`). The walk over a script visits what occurs in it and nothing else
(`Script.mem_visits_iff_occurs`), in the order in which it is written
(`Script.pairwise_before_visits`) and so each once.
-/

namespace ScopeCheck

/-! ## The parts of lists -/

section Lists

variable {α β : Type}

/-- What stands at an index of a list is the first element or stands in the rest. -/
theorem getElem?_cons_eq_some_iff {first wanted : α} {rest : List α} {index : Nat} :
    (first :: rest)[index]? = some wanted ↔
      index = 0 ∧ first = wanted ∨ ∃ i, index = i + 1 ∧ rest[i]? = some wanted := by
  cases index with
  | zero => simp
  | succ index => simp

/-- The only element of a list stands at index zero. -/
theorem getElem?_singleton_eq_some_iff {only wanted : α} {index : Nat} :
    [only][index]? = some wanted ↔ index = 0 ∧ only = wanted := by
  simp [getElem?_cons_eq_some_iff]

/-- What stands at an index of a changed list is the change of what stood there. -/
theorem getElem?_map_eq_some_iff {f : α → β} {list : List α} {index : Nat} {wanted : β} :
    (list.map f)[index]? = some wanted ↔
      ∃ member, list[index]? = some member ∧ f member = wanted := by
  rw [List.getElem?_map, Option.map_eq_some_iff]

/-- What stands at an index of two lists in a row stands in the first or, by the rest of the index,
in the second. -/
theorem getElem?_append_eq_some_iff {left right : List α} {index : Nat} {wanted : α} :
    (left ++ right)[index]? = some wanted ↔
      left[index]? = some wanted ∨ ∃ i, index = left.length + i ∧ right[i]? = some wanted := by
  rw [List.getElem?_append]
  split
  next hlt =>
    refine ⟨Or.inl, ?_⟩
    rintro (hleft | ⟨i, rfl, -⟩)
    · exact hleft
    · omega
  next hge =>
    constructor
    · exact fun hright => Or.inr ⟨index - left.length, by omega, hright⟩
    · rintro (hleft | ⟨i, rfl, hright⟩)
      · rw [List.getElem?_eq_none (by omega)] at hleft
        cases hleft
      · rwa [Nat.add_sub_cancel_left]

/-- The parts that some members of a list have are numbered by the members before that have one. -/
theorem getElem?_filterMap_eq_some_iff {part? : α → Option β} {list : List α} {index : Nat}
    {wanted : β} :
    (list.filterMap part?)[index]? = some wanted ↔
      ∃ before member after, list = before ++ member :: after ∧ part? member = some wanted ∧
        index = before.countP fun other => (part? other).isSome := by
  induction list generalizing index with
  | nil => simp
  | cons first rest ih =>
    cases hfirst : part? first with
    | none =>
      rw [List.filterMap_cons_none hfirst, ih]
      constructor
      · rintro ⟨before, member, after, rfl, hmember, rfl⟩
        exact ⟨first :: before, member, after, rfl, hmember, by simp [hfirst]⟩
      · rintro ⟨before, member, after, hlist, hmember, rfl⟩
        rcases List.cons_eq_append_iff.mp hlist with ⟨rfl, hrest⟩ | ⟨before, rfl, rfl⟩
        · rw [(List.cons.inj hrest).1, hfirst] at hmember
          cases hmember
        · exact ⟨before, member, after, rfl, hmember, by simp [hfirst]⟩
    | some part =>
      rw [List.filterMap_cons_some hfirst, getElem?_cons_eq_some_iff]
      constructor
      · rintro (⟨rfl, rfl⟩ | ⟨i, rfl, hrest⟩)
        · exact ⟨[], first, rest, rfl, hfirst, rfl⟩
        · obtain ⟨before, member, after, rfl, hmember, rfl⟩ := ih.mp hrest
          exact ⟨first :: before, member, after, rfl, hmember, by simp [hfirst]⟩
      · rintro ⟨before, member, after, hlist, hmember, rfl⟩
        rcases List.cons_eq_append_iff.mp hlist with ⟨rfl, hrest⟩ | ⟨before, rfl, rfl⟩
        · rw [(List.cons.inj hrest).1, hfirst] at hmember
          exact Or.inl ⟨rfl, Option.some.inj hmember⟩
        · exact Or.inr ⟨_, by simp [hfirst], ih.mpr ⟨before, member, after, rfl, hmember, rfl⟩⟩

end Lists

/-! ## The parts of nodes -/

/-- The positions of the grammar: a node has another as its part of the given number. -/
inductive Node.HasPart : Node → Nat → Node → Prop
  -- expressions
  | memberObject (object name range) : HasPart (.expression (.dottedGet object name range)) 0
      (.expression object)
  | indexedObject (object index range) : HasPart (.expression (.indexedGet object index range)) 0
      (.expression object)
  | index (object index range) : HasPart (.expression (.indexedGet object index range)) 1
      (.expression index)
  | callee (callee args range) : HasPart (.expression (.call callee args range)) 0
      (.expression callee)
  | argument (callee range) {args : List Expr} {i arg} (h : args[i]? = some arg) :
      HasPart (.expression (.call callee args range)) (i + 1) (.expression arg)
  | callfuncObject (object method args range) :
      HasPart (.expression (.callfunc object method args range)) 0 (.expression object)
  | callfuncArgument (object method range) {args : List Expr} {i arg} (h : args[i]? = some arg) :
      HasPart (.expression (.callfunc object method args range)) (i + 1) (.expression arg)
  | newArgument (className range) {args : List Expr} {i arg} (h : args[i]? = some arg) :
      HasPart (.expression (.new className args range)) i (.expression arg)
  | left (op left right range) : HasPart (.expression (.binary op left right range)) 0
      (.expression left)
  | right (op left right range) : HasPart (.expression (.binary op left right range)) 1
      (.expression right)
  | operand (op operand range) : HasPart (.expression (.unary op operand range)) 0
      (.expression operand)
  | inner (inner range) : HasPart (.expression (.grouping inner range)) 0 (.expression inner)
  | functionValue (func range) : HasPart (.expression (.function func range)) 0 (.function func)
  | arrayItem (range) {items : List Expr} {i item} (h : items[i]? = some item) :
      HasPart (.expression (.array items range)) i (.expression item)
  | recordValue (range) {entries : List Entry} {i entry} (h : entries[i]? = some entry) :
      HasPart (.expression (.record entries range)) i (.expression entry.value)
  | templateItem (range) {items : List Expr} {i item} (h : items[i]? = some item) :
      HasPart (.expression (.template items range)) i (.expression item)
  -- functions
  | paramDefault {func : Func} {before param after value}
      (hparams : func.params = before ++ param :: after) (hvalue : param.default = some value) :
      HasPart (.function func) (before.countP fun other => other.default.isSome) (.expression value)
  | bodyStatement {func : Func} {i stmt} (h : func.body[i]? = some stmt) :
      HasPart (.function func) ((func.params.countP fun other => other.default.isSome) + i)
        (.statement stmt)
  -- members of classes
  | methodFunction (method : Method) : HasPart (.member (.method method)) 0 (.function method.func)
  | fieldInitial {field : Field} {value} (h : field.initial = some value) :
      HasPart (.member (.field field)) 0 (.expression value)
  -- statements
  | assigned (name value range) : HasPart (.statement (.assign name value range)) 0
      (.expression value)
  | setObject (object name value range) :
      HasPart (.statement (.dottedSet object name value range)) 0 (.expression object)
  | setValue (object name value range) :
      HasPart (.statement (.dottedSet object name value range)) 1 (.expression value)
  | expressionValue (value range) : HasPart (.statement (.expression value range)) 0
      (.expression value)
  | printed (range) {values : List Expr} {i value} (h : values[i]? = some value) :
      HasPart (.statement (.print values range)) i (.expression value)
  | returned (value range) : HasPart (.statement (.ret (some value) range)) 0 (.expression value)
  | branchCondition (condition thenBody elseBody range) :
      HasPart (.statement (.branch condition thenBody elseBody range)) 0 (.expression condition)
  | thenStatement (condition elseBody range) {thenBody : List Stmt} {i stmt}
      (h : thenBody[i]? = some stmt) :
      HasPart (.statement (.branch condition thenBody elseBody range)) (i + 1) (.statement stmt)
  | elseStatement (condition) (thenBody : List Stmt) (range) {elseBody : List Stmt} {i stmt}
      (h : elseBody[i]? = some stmt) :
      HasPart (.statement (.branch condition thenBody elseBody range)) (thenBody.length + i + 1)
        (.statement stmt)
  | loopCondition (condition body range) : HasPart (.statement (.loop condition body range)) 0
      (.expression condition)
  | loopStatement (condition range) {body : List Stmt} {i stmt} (h : body[i]? = some stmt) :
      HasPart (.statement (.loop condition body range)) (i + 1) (.statement stmt)
  | forEachTarget (item target body range) :
      HasPart (.statement (.forEach item target body range)) 0 (.expression target)
  | forEachStatement (item target range) {body : List Stmt} {i stmt} (h : body[i]? = some stmt) :
      HasPart (.statement (.forEach item target body range)) (i + 1) (.statement stmt)
  | declaredFunction (decl : FunctionDecl) (range) :
      HasPart (.statement (.functionDecl decl range)) 0 (.function decl.func)
  | namespaceStatement (range) {decl : NamespaceDecl} {i stmt} (h : decl.body[i]? = some stmt) :
      HasPart (.statement (.namespaceDecl decl range)) i (.statement stmt)
  | classMember (range) {decl : ClassDecl} {i target} (h : decl.members[i]? = some target) :
      HasPart (.statement (.classDecl decl range)) i (.member target)
  | enumValue (range) {decl : EnumDecl} {before item after value}
      (hitems : decl.items = before ++ item :: after) (hvalue : item.value = some value) :
      HasPart (.statement (.enumDecl decl range)) (before.countP fun other => other.value.isSome)
        (.expression value)
  | constValue (decl : ConstDecl) (range) : HasPart (.statement (.constDecl decl range)) 0
      (.expression decl.value)

namespace Node.HasPart

variable {node child : Node} {index : Nat}

/-- A part is a child. -/
theorem getElem?_children (h : node.HasPart index child) : node.children[index]? = some child := by
  cases h with
  | paramDefault hparams hvalue =>
    refine getElem?_append_eq_some_iff.mpr (Or.inl ?_)
    exact getElem?_filterMap_eq_some_iff.mpr
      ⟨_, _, _, hparams, by rw [hvalue]; rfl, by simp⟩
  | bodyStatement h =>
    refine getElem?_append_eq_some_iff.mpr
      (Or.inr ⟨_, ?_, getElem?_map_eq_some_iff.mpr ⟨_, h, rfl⟩⟩)
    simp [List.length_filterMap_eq_countP]
  | enumValue _ hitems hvalue =>
    exact getElem?_filterMap_eq_some_iff.mpr ⟨_, _, _, hitems, by rw [hvalue]; rfl, by simp⟩
  | thenStatement condition elseBody range h =>
    refine getElem?_cons_eq_some_iff.mpr (Or.inr ⟨_, rfl, ?_⟩)
    exact getElem?_append_eq_some_iff.mpr (Or.inl (getElem?_map_eq_some_iff.mpr ⟨_, h, rfl⟩))
  | elseStatement condition thenBody range h =>
    refine getElem?_cons_eq_some_iff.mpr (Or.inr ⟨_, rfl, ?_⟩)
    refine getElem?_append_eq_some_iff.mpr
      (Or.inr ⟨_, ?_, getElem?_map_eq_some_iff.mpr ⟨_, h, rfl⟩⟩)
    rw [List.length_map]
  | _ => simp [Node.children, Expr.children, Member.children, Stmt.children, *]

/-! Every child is a part. -/

/-- Every child of an expression is a part of it. -/
theorem of_expr {expr : Expr} (h : expr.children[index]? = some child) :
    HasPart (.expression expr) index child := by
  cases expr <;> simp only [Expr.children, getElem?_cons_eq_some_iff, getElem?_map_eq_some_iff,
    List.getElem?_nil, reduceCtorEq, and_false, exists_false, or_false] at h
  case dottedGet object name range =>
    obtain ⟨rfl, rfl⟩ := h
    exact memberObject object name range
  case indexedGet object position range =>
    rcases h with ⟨rfl, rfl⟩ | ⟨_, rfl, rfl, rfl⟩
    · exact indexedObject object position range
    · exact HasPart.index object position range
  case call target args range =>
    rcases h with ⟨rfl, rfl⟩ | ⟨_, rfl, arg, harg, rfl⟩
    · exact callee target args range
    · exact argument target range harg
  case callfunc object method args range =>
    rcases h with ⟨rfl, rfl⟩ | ⟨_, rfl, arg, harg, rfl⟩
    · exact callfuncObject object method args range
    · exact callfuncArgument object method range harg
  case new className args range =>
    obtain ⟨arg, harg, rfl⟩ := h
    exact newArgument className range harg
  case binary op first second range =>
    rcases h with ⟨rfl, rfl⟩ | ⟨_, rfl, rfl, rfl⟩
    · exact left op first second range
    · exact right op first second range
  case unary op value range =>
    obtain ⟨rfl, rfl⟩ := h
    exact operand op value range
  case grouping value range =>
    obtain ⟨rfl, rfl⟩ := h
    exact inner value range
  case function func range =>
    obtain ⟨rfl, rfl⟩ := h
    exact functionValue func range
  case array items range =>
    obtain ⟨item, hitem, rfl⟩ := h
    exact arrayItem range hitem
  case record entries range =>
    obtain ⟨entry, hentry, rfl⟩ := h
    exact recordValue range hentry
  case template items range =>
    obtain ⟨item, hitem, rfl⟩ := h
    exact templateItem range hitem

/-- Every child of a function is a part of it. -/
theorem of_func {func : Func} (h : func.children[index]? = some child) :
    HasPart (.function func) index child := by
  rcases getElem?_append_eq_some_iff.mp h with hdefault | ⟨i, rfl, hbody⟩
  · obtain ⟨before, param, after, hparams, hpart, rfl⟩ :=
      getElem?_filterMap_eq_some_iff.mp hdefault
    obtain ⟨value, hvalue, rfl⟩ := Option.map_eq_some_iff.mp hpart
    simp only [Option.isSome_map]
    exact paramDefault hparams hvalue
  · obtain ⟨stmt, hstmt, rfl⟩ := getElem?_map_eq_some_iff.mp hbody
    simp only [List.length_filterMap_eq_countP, Option.isSome_map]
    exact bodyStatement hstmt

/-- Every child of a member is a part of it. -/
theorem of_member {target : Member} (h : target.children[index]? = some child) :
    HasPart (.member target) index child := by
  cases target with
  | method target =>
    obtain ⟨rfl, rfl⟩ := getElem?_singleton_eq_some_iff.mp h
    exact methodFunction target
  | field target =>
    cases hvalue : target.initial with
    | none => simp [Member.children, hvalue] at h
    | some value =>
      rw [Member.children, hvalue] at h
      obtain ⟨rfl, rfl⟩ := getElem?_singleton_eq_some_iff.mp h
      exact fieldInitial hvalue

/-- Every child of a statement is a part of it. -/
theorem of_stmt {stmt : Stmt} (h : stmt.children[index]? = some child) :
    HasPart (.statement stmt) index child := by
  cases stmt <;> simp only [Stmt.children, getElem?_cons_eq_some_iff, getElem?_map_eq_some_iff,
    getElem?_append_eq_some_iff, List.getElem?_nil, List.length_map, reduceCtorEq, and_false,
    exists_false, or_false] at h
  case assign name value range =>
    obtain ⟨rfl, rfl⟩ := h
    exact assigned name value range
  case dottedSet object name value range =>
    rcases h with ⟨rfl, rfl⟩ | ⟨_, rfl, rfl, rfl⟩
    · exact setObject object name value range
    · exact setValue object name value range
  case expression value range =>
    obtain ⟨rfl, rfl⟩ := h
    exact expressionValue value range
  case print values range =>
    obtain ⟨value, hvalue, rfl⟩ := h
    exact printed range hvalue
  case ret value range =>
    cases value with
    | none => simp at h
    | some value =>
      obtain ⟨rfl, rfl⟩ := getElem?_singleton_eq_some_iff.mp h
      exact returned value range
  case branch condition thenBody elseBody range =>
    rcases h with ⟨rfl, rfl⟩ | ⟨_, rfl, ⟨stmt, hstmt, rfl⟩ | ⟨i, rfl, stmt, hstmt, rfl⟩⟩
    · exact branchCondition condition thenBody elseBody range
    · exact thenStatement condition elseBody range hstmt
    · exact elseStatement condition thenBody range hstmt
  case loop condition body range =>
    rcases h with ⟨rfl, rfl⟩ | ⟨_, rfl, stmt, hstmt, rfl⟩
    · exact loopCondition condition body range
    · exact loopStatement condition range hstmt
  case forEach item target body range =>
    rcases h with ⟨rfl, rfl⟩ | ⟨_, rfl, stmt, hstmt, rfl⟩
    · exact forEachTarget item target body range
    · exact forEachStatement item target range hstmt
  case functionDecl decl range =>
    obtain ⟨rfl, rfl⟩ := h
    exact declaredFunction decl range
  case namespaceDecl decl range =>
    obtain ⟨stmt, hstmt, rfl⟩ := h
    exact namespaceStatement range hstmt
  case classDecl decl range =>
    obtain ⟨target, htarget, rfl⟩ := h
    exact classMember range htarget
  case enumDecl decl range =>
    obtain ⟨before, item, after, hitems, hpart, rfl⟩ := getElem?_filterMap_eq_some_iff.mp h
    obtain ⟨value, hvalue, rfl⟩ := Option.map_eq_some_iff.mp hpart
    simp only [Option.isSome_map]
    exact enumValue range hitems hvalue
  case constDecl decl range =>
    obtain ⟨rfl, rfl⟩ := h
    exact constValue decl range

/-- The parts of a node are its children, by their numbers. -/
theorem iff_getElem?_children : node.HasPart index child ↔ node.children[index]? = some child := by
  refine ⟨getElem?_children, fun h => ?_⟩
  cases node with
  | statement => exact of_stmt h
  | expression => exact of_expr h
  | member => exact of_member h
  | function => exact of_func h

end Node.HasPart

/-! ## Occurrences -/

/-- What a script contains, each at its place. -/
inductive Script.Occurs (script : Script) : Visit → Prop
  /-- A statement of the file. -/
  | file {i : Nat} {stmt : Stmt} (h : script.body[i]? = some stmt) :
    Occurs script ⟨⟨.statement stmt, [i]⟩, []⟩
  /-- A part of something that the script contains. -/
  | part {outer : Visit} {i : Nat} {node : Node} (houter : Occurs script outer)
    (hpart : outer.node.HasPart i node) : Occurs script (outer.child i node)

/-- The walk over a script visits what the script contains. -/
theorem Script.mem_visits_iff_occurs {script : Script} {visit : Visit} :
    visit ∈ script.visits ↔ script.Occurs visit := by
  constructor
  · intro hmem
    induction hmem using visits_induction with
    | file index stmt hstmt _ => exact .file hstmt
    | below parent _ ih index child hchild _ =>
      exact .part ih (Node.HasPart.iff_getElem?_children.mpr hchild)
  · intro hoccurs
    induction hoccurs with
    | @file index stmt hstmt =>
      have hself : ⟨⟨.statement stmt, [index]⟩, []⟩ ∈ (Node.statement stmt).visits [] [index] := by
        rw [Node.visits_eq]
        exact List.mem_cons_self
      exact List.mem_flatMap.mpr ⟨(stmt, index), List.mem_zipIdx_iff_getElem?.mpr hstmt, hself⟩
    | part _ hpart ih =>
      obtain ⟨entry, hentry, hmem⟩ := List.mem_flatMap.mp ih
      exact List.mem_flatMap.mpr
        ⟨entry, hentry, Node.child_mem_visits hmem hpart.getElem?_children⟩

/-! ## The order of visiting -/

/-- A place is written before another: where the ways from the file part, it takes the earlier part,
or its way ends and the other goes on. -/
def Visit.Before (left right : Visit) : Prop :=
  List.Lex (· < ·) left.path.reverse right.path.reverse

namespace Node

/-- What is met below a node has a path that goes on from that of the node. -/
theorem exists_path_of_mem_visits {above : List Place} {path : Path} {node : Node} {visit : Visit}
    (hmem : visit ∈ node.visits above path) : ∃ down, visit.path = down ++ path := by
  rw [visits_eq] at hmem
  rcases List.mem_cons.mp hmem with rfl | hbelow
  · exact ⟨[], rfl⟩
  · obtain ⟨entry, hentry, hvisit⟩ := List.mem_flatMap.mp hbelow
    have hchild : entry.1 ∈ node.children := List.fst_mem_of_mem_zipIdx hentry
    obtain ⟨down, hpath⟩ := exists_path_of_mem_visits hvisit
    exact ⟨down ++ [entry.2], by rw [hpath, List.append_assoc, List.singleton_append]⟩
termination_by sizeOf node
decreasing_by exact sizeOf_child_lt hchild

/-- The parts of a node come after the node. -/
theorem before_of_below {visit : Visit} {path down : Path} {index : Nat}
    (hpath : visit.path = down ++ index :: path) (node : Node) (above : List Place) :
    Visit.Before ⟨⟨node, path⟩, above⟩ visit := by
  rw [Visit.Before, hpath, List.reverse_append, List.reverse_cons, List.append_assoc]
  have hmore : List.Lex (· < ·) (path.reverse ++ []) (path.reverse ++ ([index] ++ down.reverse)) :=
    List.Lex.append_left _ .nil _
  rwa [List.append_nil] at hmore

/-- What is in an earlier part comes before what is in a later one. -/
theorem before_of_index_lt {left right : Visit} {path leftDown rightDown : Path}
    {leftIndex rightIndex : Nat} (hleft : left.path = leftDown ++ leftIndex :: path)
    (hright : right.path = rightDown ++ rightIndex :: path) (hlt : leftIndex < rightIndex) :
    left.Before right := by
  rw [Visit.Before, hleft, hright, List.reverse_append, List.reverse_append, List.reverse_cons,
    List.reverse_cons, List.append_assoc, List.append_assoc]
  exact List.Lex.append_left _ (.rel hlt) _

/-- Numbered entries are numbered upwards. -/
theorem pairwise_snd_zipIdx {α : Type} (list : List α) :
    list.zipIdx.Pairwise fun left right => left.2 < right.2 := by
  have hrange : (list.zipIdx.map Prod.snd).Pairwise (· < ·) := by
    rw [List.zipIdx_map_snd]
    exact List.pairwise_lt_range'
  exact List.pairwise_map.mp hrange

/-- The visits of the parts of a node or of a file come in order if those of each part do. -/
theorem pairwise_before_flatMap {α : Type} {list : List α} {path : Path}
    {visitsOf : α × Nat → List Visit}
    (hpath : ∀ entry, ∀ visit ∈ visitsOf entry, ∃ down, visit.path = down ++ entry.2 :: path)
    (heach : ∀ entry ∈ list.zipIdx, (visitsOf entry).Pairwise Visit.Before) :
    (list.zipIdx.flatMap visitsOf).Pairwise Visit.Before := by
  refine List.pairwise_flatMap.mpr ⟨heach, (pairwise_snd_zipIdx list).imp ?_⟩
  intro left right hlt earlier hearlier later hlater
  obtain ⟨earlierDown, hearlier⟩ := hpath left earlier hearlier
  obtain ⟨laterDown, hlater⟩ := hpath right later hlater
  exact before_of_index_lt hearlier hlater hlt

/-- A node is visited before all below it, and these part by part. -/
theorem pairwise_before_visits (above : List Place) (path : Path) (node : Node) :
    (node.visits above path).Pairwise Visit.Before := by
  rw [visits_eq]
  refine List.pairwise_cons.mpr ⟨fun visit hvisit => ?_, ?_⟩
  · obtain ⟨entry, -, hbelow⟩ := List.mem_flatMap.mp hvisit
    obtain ⟨down, hpath⟩ := exists_path_of_mem_visits hbelow
    exact before_of_below hpath node above
  · refine pairwise_before_flatMap (fun _ _ => exists_path_of_mem_visits) fun entry hentry => ?_
    have hchild : entry.1 ∈ node.children := List.fst_mem_of_mem_zipIdx hentry
    exact pairwise_before_visits _ _ entry.1
termination_by sizeOf node
decreasing_by exact sizeOf_child_lt hchild

end Node

/-- A script is visited in the order in which it is written, and no place twice. -/
theorem Script.pairwise_before_visits (script : Script) :
    script.visits.Pairwise Visit.Before :=
  Node.pairwise_before_flatMap (fun _ _ => Node.exists_path_of_mem_visits) fun _ _ =>
    Node.pairwise_before_visits _ _ _

end ScopeCheck
