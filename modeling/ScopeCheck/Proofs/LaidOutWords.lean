import Mathlib.Data.List.Count
import Mathlib.Data.List.Flatten
import Mathlib.Data.List.Perm.Basic
import ScopeCheck.Script.Layout
import ScopeCheck.Script.Visit

/-!
# The words of trees that are laid out

Whoever lays out trees calls `Layout` again and again, with what earlier calls have made. A call
makes a piece that has the identifiers it was given and some of its own. That its own ones have
ranges of their own is said by `PlacedBetween`: they lie on the lines that the call has taken, and
no two of them have the same range. This is kept when one step follows another, since they take
different lines (`PlacedBetween.append`), and a line holds one identifier or the words of one dotted
name, which start at different columns (`placedBetween_placeParts`).

`Makes` says of a step of a layout which identifiers it is given and that all others are placed in
this way. It passes from steps to what is put together from them (`Makes.bind`, `Makes.mapM`), so it
holds of every call (`Call.makes`), and a list of calls is one more step
(`created_words_have_own_ranges`).
-/

namespace ScopeCheck

/-! ## The identifiers of a tree -/

/-- The identifiers that stand in an expression itself. -/
def Expr.ownWords : Expr → List Ident
  | name ident _ => [ident]
  | dottedGet _ member _ => [member]
  | callfunc _ method _ _ => [method]
  | new className _ _ => className.parts
  | record entries _ => entries.map Entry.key
  | literal .. | indexedGet .. | call .. | binary .. | unary .. | grouping .. | function ..
  | array .. | template .. => []

/-- The identifiers that stand in a statement itself. -/
def Stmt.ownWords : Stmt → List Ident
  | assign name _ _ | dottedSet _ name _ _ | forEach name _ _ _ => [name]
  | functionDecl decl _ => [decl.name]
  | namespaceDecl decl _ => decl.name.parts
  | classDecl decl _ => decl.name :: decl.parent.toList.flatMap DottedName.parts
  | enumDecl decl _ => decl.name :: decl.items.map EnumItem.name
  | interfaceDecl decl _ => decl.name :: decl.fields.map InterfaceField.name
  | constDecl decl _ => [decl.name]
  | expression .. | print .. | ret .. | branch .. | loop .. | importScript .. => []

/-- The identifiers that stand in a node itself. -/
def Node.ownWords : Node → List Ident
  | statement stmt => stmt.ownWords
  | expression expr => expr.ownWords
  | member target => [target.name]
  | function func => func.params.map Param.name

/-- All identifiers of a tree. -/
def Node.words (node : Node) : List Ident :=
  node.ownWords ++ node.children.attach.flatMap fun child => child.1.words
termination_by sizeOf node
decreasing_by exact Node.sizeOf_child_lt child.2

/-- The identifiers of a tree are its own and those of its children, without the membership proofs
that the recursion carries. -/
theorem Node.words_eq (node : Node) :
    node.words = node.ownWords ++ node.children.flatMap Node.words := by
  have hattach : node.children.attach.flatMap (fun child => child.1.words) =
      (node.children.attach.map Subtype.val).flatMap Node.words := by
    rw [List.flatMap_map]
  rw [Node.words, hattach, List.attach_map_subtype_val]

/-- The identifiers of an expression. -/
def Expr.words (expr : Expr) : List Ident := (Node.expression expr).words

/-- The identifiers of a statement. -/
def Stmt.words (stmt : Stmt) : List Ident := (Node.statement stmt).words

/-- The identifiers of a member of a class. -/
def Member.words (member : Member) : List Ident := (Node.member member).words

/-- The identifiers of a function. -/
def Func.words (func : Func) : List Ident := (Node.function func).words

/-- The identifiers of a parameter. -/
def Param.words (param : Param) : List Ident :=
  param.name :: param.default.toList.flatMap Expr.words

/-- The identifiers of an entry of a map. -/
def Entry.words (entry : Entry) : List Ident := entry.key :: entry.value.words

/-- The identifiers of a value of an enum. -/
def EnumItem.words (item : EnumItem) : List Ident :=
  item.name :: item.value.toList.flatMap Expr.words

/-- A node that is an expression has the identifiers of the expression. -/
@[simp]
theorem Node.words_expression (expr : Expr) : (Node.expression expr).words = expr.words := rfl

/-- A node that is a statement has the identifiers of the statement. -/
@[simp]
theorem Node.words_statement (stmt : Stmt) : (Node.statement stmt).words = stmt.words := rfl

/-- A node that is a member has the identifiers of the member. -/
@[simp]
theorem Node.words_member (member : Member) : (Node.member member).words = member.words := rfl

/-- A node that is a function has the identifiers of the function. -/
@[simp]
theorem Node.words_function (func : Func) : (Node.function func).words = func.words := rfl

/-- Children that are expressions contribute the identifiers of these. -/
@[simp]
theorem flatMap_words_expressions (exprs : List Expr) :
    (exprs.map Node.expression).flatMap Node.words = exprs.flatMap Expr.words :=
  List.flatMap_map ..

/-- Children that are statements contribute the identifiers of these. -/
@[simp]
theorem flatMap_words_statements (stmts : List Stmt) :
    (stmts.map Node.statement).flatMap Node.words = stmts.flatMap Stmt.words :=
  List.flatMap_map ..

/-- Children that are members contribute the identifiers of these. -/
@[simp]
theorem flatMap_words_members (members : List Member) :
    (members.map Node.member).flatMap Node.words = members.flatMap Member.words :=
  List.flatMap_map ..

/-- A child that may be missing contributes the identifiers it has, if it is there. -/
@[simp]
theorem flatMap_words_optional (value : Option Expr) :
    (value.map Node.expression).toList.flatMap Node.words = value.toList.flatMap Expr.words := by
  cases value <;> rfl

/-- The identifiers of an expression are its own and those of its children. -/
theorem Expr.words_eq (expr : Expr) :
    expr.words = expr.ownWords ++ expr.children.flatMap Node.words := Node.words_eq _

/-- The identifiers of a statement are its own and those of its children. -/
theorem Stmt.words_eq (stmt : Stmt) :
    stmt.words = stmt.ownWords ++ stmt.children.flatMap Node.words := Node.words_eq _

/-- The identifiers of a member are its name and those of its children. -/
theorem Member.words_eq (member : Member) :
    member.words = member.name :: member.children.flatMap Node.words := Node.words_eq _

section Lists

/-- The identifiers of some things are their own ones and those of the nodes below them. -/
theorem flatMap_words_perm {α : Type} (things : List α) (own : α → Ident) (below : α → List Node) :
    (things.map own ++ (things.flatMap below).flatMap Node.words).Perm
      (things.flatMap fun thing => own thing :: (below thing).flatMap Node.words) := by
  rw [List.map_eq_flatMap, List.flatMap_assoc]
  exact List.flatMap_append_perm things _ _

/-- The identifiers of things that may have a value. -/
theorem filterMap_words_perm {α : Type} (things : List α) (own : α → Ident)
    (value? : α → Option Expr) :
    (things.map own ++
        (things.filterMap fun thing => (value? thing).map Node.expression).flatMap Node.words).Perm
      (things.flatMap fun thing => own thing :: (value? thing).toList.flatMap Expr.words) := by
  rw [List.filterMap_eq_flatMap_toList]
  simpa only [flatMap_words_optional] using
    flatMap_words_perm things own fun thing => ((value? thing).map Node.expression).toList

/-- The identifiers of things that have a value each. -/
theorem map_words_perm {α : Type} (things : List α) (own : α → Ident) (value : α → Expr) :
    (things.map own ++
        (things.map fun thing => Node.expression (value thing)).flatMap Node.words).Perm
      (things.flatMap fun thing => own thing :: (value thing).words) := by
  have hbelow := flatMap_words_perm things own fun thing => [.expression (value thing)]
  simp only [List.flatMap_cons, List.flatMap_nil, List.append_nil, Node.words_expression,
    ← List.map_eq_flatMap] at hbelow
  exact hbelow

/-- The names of parameters come before all defaults among the children of a function. Up to order
they can be told parameter by parameter. -/
theorem Func.words_perm (func : Func) :
    func.words.Perm (func.params.flatMap Param.words ++ func.body.flatMap Stmt.words) := by
  have hparams := filterMap_words_perm func.params Param.name Param.default
  rw [Func.words, Node.words_eq, Node.ownWords, Node.children, Func.children, List.flatMap_append,
    flatMap_words_statements, ← List.append_assoc]
  exact hparams.append_right _

end Lists

/-! ## Words on lines of their own -/

/-- Identifiers on lines from `first` on and before `next`, no two of them with the same range. -/
structure PlacedBetween (first next : Nat) (words : List Ident) : Prop where
  /-- The lines do not go back. -/
  le : first ≤ next
  /-- Each identifier stands on one of the lines. -/
  lines : ∀ word ∈ words, first ≤ word.range.start.line ∧ word.range.start.line < next ∧
    word.range.stop.line = word.range.start.line
  /-- Different ones have different ranges. -/
  distinct : words.Pairwise fun left right => left.range ≠ right.range

namespace PlacedBetween

variable {first middle next : Nat} {words more : List Ident}

/-- Where nothing is placed, lines may be left out. -/
theorem nil (hle : first ≤ next) : PlacedBetween first next [] :=
  ⟨hle, fun _ hmem => absurd hmem List.not_mem_nil, List.Pairwise.nil⟩

/-- What stands on different lines has different ranges. -/
theorem append (h : PlacedBetween first middle words) (hmore : PlacedBetween middle next more) :
    PlacedBetween first next (words ++ more) where
  le := Nat.le_trans h.le hmore.le
  lines word hmem := by
    rcases List.mem_append.mp hmem with hword | hword
    · obtain ⟨hge, hlt, hstop⟩ := h.lines word hword
      exact ⟨hge, Nat.lt_of_lt_of_le hlt hmore.le, hstop⟩
    · obtain ⟨hge, hlt, hstop⟩ := hmore.lines word hword
      exact ⟨Nat.le_trans h.le hge, hlt, hstop⟩
  distinct := by
    refine List.pairwise_append.mpr ⟨h.distinct, hmore.distinct, fun left hleft right hright => ?_⟩
    have hlt := (h.lines left hleft).2.1
    have hge := (hmore.lines right hright).1
    intro heq
    rw [heq] at hlt
    omega

/-- The order in which identifiers are listed does not matter to where they stand. -/
theorem perm (h : PlacedBetween first next words) (hperm : words.Perm more) :
    PlacedBetween first next more where
  le := h.le
  lines word hmem := h.lines word (hperm.mem_iff.mpr hmem)
  distinct := (hperm.pairwise_iff fun hne => hne.symm).mp h.distinct

end PlacedBetween

namespace Layout

/-- The words of a dotted name stand on their line, from their first column on. -/
theorem range_of_mem_placeParts {line column : Nat} {pieces : List String} {word : Ident}
    (hmem : word ∈ placeParts line column pieces) :
    word.range.start.line = line ∧ word.range.stop.line = line ∧
      column ≤ word.range.start.character := by
  induction pieces generalizing column with
  | nil => cases hmem
  | cons piece rest ih =>
    have hlater : word ∈ placeParts line (column + piece.utf8ByteSize + 1) rest →
        word.range.start.line = line ∧ word.range.stop.line = line ∧
          column ≤ word.range.start.character := by
      intro hword
      obtain ⟨hstart, hstop, hcolumn⟩ := ih hword
      exact ⟨hstart, hstop, by omega⟩
    rw [placeParts] at hmem
    split at hmem
    · exact hlater hmem
    · rcases List.mem_cons.mp hmem with rfl | hword
      · exact ⟨rfl, rfl, Nat.le_refl _⟩
      · exact hlater hword

/-- The words of one dotted name start at different columns, as each is followed by a dot. -/
theorem pairwise_placeParts (line column : Nat) (pieces : List String) :
    (placeParts line column pieces).Pairwise fun left right => left.range ≠ right.range := by
  induction pieces generalizing column with
  | nil => exact List.Pairwise.nil
  | cons piece rest ih =>
    rw [placeParts]
    split
    · exact ih _
    · -- later words start behind this one and its dot
      refine List.pairwise_cons.mpr ⟨fun word hword heq => ?_, ih _⟩
      have hcolumn := (range_of_mem_placeParts hword).2.2
      rw [← heq] at hcolumn
      simp only [Range.onLine] at hcolumn
      omega

/-- The words of a dotted name stand on its line. -/
theorem placedBetween_placeParts (line column : Nat) (pieces : List String) :
    PlacedBetween line (line + 1) (placeParts line column pieces) where
  le := Nat.le_succ line
  lines word hmem := by
    obtain ⟨hstart, hstop, -⟩ := range_of_mem_placeParts hmem
    omega
  distinct := pairwise_placeParts line column pieces

/-! ## Steps of a layout -/

section Steps

variable {α β : Type}

/-- A step makes something that has the identifiers it is given and others, which it places on the
lines that it takes. -/
def Makes (make : Layout α) (words : α → List Ident) (given : List Ident) : Prop :=
  ∀ line, ∃ placed, (words (make line).1).Perm (given ++ placed) ∧
    PlacedBetween line (make line).2 placed

variable {make : Layout α} {words : α → List Ident} {given more : List Ident}

/-- What a step is given can be listed in any order. -/
theorem Makes.of_perm (h : Makes make words given) (hperm : given.Perm more) :
    Makes make words more := by
  intro line
  obtain ⟨placed, hwords, hplaced⟩ := h line
  exact ⟨placed, hwords.trans (hperm.append_right placed), hplaced⟩

/-- A value that is at hand has the identifiers it was given and places none. -/
theorem Makes.pure {value : α} (hwords : (words value).Perm given) :
    Makes (Pure.pure value) words given := by
  intro line
  refine ⟨[], ?_, .nil (Nat.le_refl line)⟩
  rw [List.append_nil]
  exact hwords

/-- One step after another: the second one is given what the first one has made. -/
theorem Makes.bind {next : α → Layout β} {result : β → List Ident} (h : Makes make words given)
    (hnext : ∀ value, Makes (next value) result (words value ++ more)) :
    Makes (make >>= next) result (given ++ more) := by
  intro line
  obtain ⟨placed, hwords, hplaced⟩ := h line
  obtain ⟨later, hresult, hlater⟩ := hnext (make line).1 (make line).2
  refine ⟨placed ++ later, ?_, hplaced.append hlater⟩
  have hboth : (words (make line).1 ++ more ++ later).Perm (given ++ placed ++ more ++ later) :=
    (hwords.append_right more).append_right later
  have hturn : (given ++ placed ++ more ++ later).Perm (given ++ more ++ (placed ++ later)) := by
    simpa only [List.append_assoc] using
      (List.perm_append_comm_assoc placed more later).append_left given
  exact hresult.trans (hboth.trans hturn)

/-- A first step that is given nothing leaves it to the second one to be given something. -/
theorem Makes.andThen {next : α → Layout β} {result : β → List Ident} (h : Makes make words [])
    (hnext : ∀ value, Makes (next value) result (words value ++ more)) :
    Makes (make >>= next) result more :=
  h.bind hnext

/-- The second step may be given just what the first one has made. -/
theorem Makes.handOn {next : α → Layout β} {result : β → List Ident} (h : Makes make words given)
    (hnext : ∀ value, Makes (next value) result (words value)) :
    Makes (make >>= next) result given :=
  (h.bind fun value => (hnext value).of_perm (.of_eq (List.append_nil _).symm)).of_perm
    (.of_eq (List.append_nil given))

/-- Wrapping up what a step has made places nothing, as long as no identifier is lost or added. -/
theorem Makes.map {change : α → β} {result : β → List Ident} (h : Makes make words given)
    (hresult : ∀ value, result (change value) = words value) :
    Makes (change <$> make) result given := by
  intro line
  obtain ⟨placed, hwords, hplaced⟩ := h line
  exact ⟨placed, (List.Perm.of_eq (hresult _)).trans hwords, hplaced⟩

/-- A step for each item of a list is given what each item brings, and each takes the lines after
those of the one before. -/
theorem Makes.mapM {step : β → Layout α} {givenTo : β → List Ident}
    (h : ∀ item, Makes (step item) words (givenTo item)) (items : List β) :
    Makes (items.mapM step) (fun made => made.flatMap words) (items.flatMap givenTo) := by
  induction items with
  | nil => exact .pure (List.Perm.refl _)
  | cons item rest ih =>
    rw [List.mapM_cons, List.flatMap_cons]
    refine (h item).bind fun first => ?_
    -- the other items hand on what the first one has made, which stands in front of theirs
    refine Makes.of_perm (ih.bind fun later => .pure ?_) List.perm_append_comm
    rw [List.flatMap_cons]
    exact List.perm_append_comm

/-- A range alone holds no identifier, though it takes a line. -/
theorem makes_range (length : Nat) : Makes (range length) (fun _ => []) [] :=
  fun line => ⟨[], List.Perm.refl _, .nil (Nat.le_succ line)⟩

/-- An identifier is placed on a line of its own. -/
theorem makes_ident (text : String) : Makes (ident text) (fun word => [word]) [] := by
  intro line
  refine ⟨[⟨text, .onLine line column text.utf8ByteSize⟩], List.Perm.refl _, ?_⟩
  refine ⟨Nat.le_succ line, ?_, List.pairwise_singleton _ _⟩
  intro word hmem
  obtain rfl := List.mem_singleton.mp hmem
  exact ⟨Nat.le_refl _, Nat.lt_succ_self _, rfl⟩

/-- A dotted name that is put together from parts has these parts. -/
theorem parts_ofParts (parts : List Ident) : (DottedName.ofParts parts).parts = parts := by
  unfold DottedName.ofParts
  split <;> rfl

/-- The words of a dotted name are all placed by the call. -/
theorem makes_name (dotted : String) : Makes (name dotted) DottedName.parts [] := by
  intro line
  refine ⟨placeParts line column (Text.split '.' dotted), ?_, placedBetween_placeParts _ _ _⟩
  rw [List.nil_append]
  exact List.Perm.of_eq (parts_ofParts _)

/-- Types are not walked, so a type holds no identifier of the tree. -/
theorem makes_typeNote (text : String) : Makes (typeNote text) (fun _ => []) [] :=
  (makes_range text.utf8ByteSize).andThen fun _ => .pure (List.Perm.refl _)

/-- A type that may be missing holds no identifier either. -/
theorem makes_typeNote? (text : Option String) : Makes (typeNote? text) (fun _ => []) [] := by
  cases text with
  | none => exact .pure (List.Perm.refl _)
  | some text => exact (makes_typeNote text).map fun _ => rfl

end Steps

-- A call makes one node, so its words are read off the node and what stands below it.
attribute [local simp] Expr.ownWords Expr.children Stmt.ownWords Stmt.children Member.name
  Member.children

/-! ## Expressions -/

/-- An expression that is put together from pieces has its own identifiers and those of its
children. -/
theorem Makes.expr {expr : Expr} {given : List Ident}
    (hwords : (expr.ownWords ++ expr.children.flatMap Node.words).Perm given) :
    Makes (Pure.pure expr) Expr.words given :=
  .pure ((List.Perm.of_eq expr.words_eq).trans hwords)

/-- A literal has no identifiers. -/
theorem makes_literal (value : Literal) (length : Nat) :
    Makes (literal value length) Expr.words [] :=
  (makes_range length).andThen fun _ => .expr (List.Perm.refl _)

/-- A variable has the one identifier that is placed for it. -/
theorem makes_variableNamed (text : String) : Makes (variableNamed text) Expr.words [] :=
  (makes_ident text).andThen fun _ => .expr (List.Perm.refl _)

/-- The name of the member is placed, and the object is as it was given. -/
theorem makes_get (object : Expr) (member : String) :
    Makes (get object member) Expr.words object.words :=
  (makes_ident member).andThen fun word => .expr (by simp)

/-- An element by its place adds no identifier to those of the object and the place. -/
theorem makes_index (object place : Expr) :
    Makes (index object place) Expr.words (object.words ++ place.words) :=
  .expr (by simp)

/-- A call adds no identifier to those of what is called and of the arguments. -/
theorem makes_call (callee : Expr) (args : List Expr) :
    Makes (call callee args) Expr.words (callee.words ++ args.flatMap Expr.words) :=
  .expr (by simp [callOf])

/-- The texts a platform object is made from are literals, so the callee is the only identifier, and
it is placed. -/
theorem makes_createObject (texts : List String) : Makes (createObject texts) Expr.words [] := by
  have hargs : Makes (texts.mapM string) (fun args => args.flatMap Expr.words) [] :=
    (Makes.mapM (fun text => makes_literal _ _) texts).of_perm (by simp)
  refine (makes_variableNamed "CreateObject").andThen fun callee => ?_
  refine hargs.andThen fun args => .expr ?_
  simpa [callOf] using List.perm_append_comm

/-- The name of the method is placed, and the object and the arguments are as they were given. -/
theorem makes_callfunc (object : Expr) (method : String) (args : List Expr) :
    Makes (callfunc object method args) Expr.words (object.words ++ args.flatMap Expr.words) :=
  (makes_ident method).andThen fun word => .expr (by simp)

/-- The words of the name of the class are placed, and the arguments are as they were given. -/
theorem makes_newObject (className : String) (args : List Expr) :
    Makes (newObject className args) Expr.words (args.flatMap Expr.words) :=
  (makes_name className).andThen fun whole => .expr (by simp)

/-- An operator adds no identifier to those of its two operands. -/
theorem makes_binary (op : BinaryOp) (left right : Expr) :
    Makes (binary op left right) Expr.words (left.words ++ right.words) :=
  .expr (by simp)

/-- An operator adds no identifier to those of its operand. -/
theorem makes_unary (op : UnaryOp) (operand : Expr) :
    Makes (unary op operand) Expr.words operand.words :=
  .expr (by simp)

/-- Parentheses add no identifier. -/
theorem makes_grouping (inner : Expr) : Makes (grouping inner) Expr.words inner.words :=
  .expr (by simp)

/-- An array has the identifiers of its items. -/
theorem makes_array (items : List Expr) :
    Makes (array items) Expr.words (items.flatMap Expr.words) :=
  (makes_range 2).andThen fun _ => .expr (by simp)

/-- A template has the identifiers of what is written into it. -/
theorem makes_template (items : List Expr) :
    Makes (template items) Expr.words (items.flatMap Expr.words) :=
  (makes_range 2).andThen fun _ => .expr (by simp)

/-- The keys of a record are placed, each on a line of its own, and the values are as they were
given. -/
theorem makes_record (entries : List (String × Expr)) :
    Makes (record entries) Expr.words (entries.flatMap fun entry => entry.2.words) := by
  have hentry : ∀ entry : String × Expr, Makes (do return Entry.mk (← ident entry.1) entry.2)
      Entry.words entry.2.words :=
    fun entry => (makes_ident entry.1).andThen fun word => .pure (List.Perm.refl _)
  refine (Makes.mapM hentry entries).handOn fun placed => (makes_range 2).andThen fun _ => .expr ?_
  exact map_words_perm placed Entry.key Entry.value

/-- A function has the identifiers of its parameters and of its body, all of which were given. -/
theorem makes_func (kind : FuncKind) (params : List Param) (returnType : Option String)
    (body : List Stmt) :
    Makes (func kind params returnType body) Func.words
      (params.flatMap Param.words ++ body.flatMap Stmt.words) :=
  (makes_typeNote? returnType).andThen fun _ =>
    (makes_range 8).andThen fun _ => .pure (Func.words_perm _)

/-- A function without a name adds no identifier to those of its parameters and its body. -/
theorem makes_functionExpr (params : List Param) (body : List Stmt) :
    Makes (functionExpr params body) Expr.words
      (params.flatMap Param.words ++ body.flatMap Stmt.words) :=
  (makes_func .function params none body).handOn fun _ => .expr (by simp)

/-- The name of a parameter is placed. -/
theorem makes_param (text : String) (typeText : Option String) :
    Makes (param text typeText) Param.words [] :=
  (makes_ident text).andThen fun _ => (makes_typeNote? typeText).andThen fun _ =>
    .pure (List.Perm.refl _)

/-- The name of a parameter is placed, and its default is as it was given. -/
theorem makes_optionalParam (text : String) (default : Expr) :
    Makes (optionalParam text default) Param.words default.words :=
  (makes_ident text).andThen fun _ => .pure (by simp [Param.words])

/-- A chain has the words it is made of. -/
theorem words_chainOf (object : Expr) (words : List Ident) :
    (chainOf object words).words.Perm (object.words ++ words) := by
  induction words generalizing object with
  | nil =>
    rw [chainOf, List.append_nil]
  | cons word rest ih =>
    have hword : (Expr.dottedGet object word (object.range.merge word.range)).words =
        word :: object.words := by
      rw [Expr.words_eq]
      simp
    refine (ih _).trans ?_
    rw [hword]
    exact List.perm_middle.symm

/-- Empty parts are left out, so a name has no words exactly if all its parts are empty. -/
theorem placeParts_eq_nil_iff {line column : Nat} {pieces : List String} :
    placeParts line column pieces = [] ↔ pieces.all String.isEmpty = true := by
  induction pieces generalizing column with
  | nil => simp [placeParts]
  | cons piece rest ih =>
    rw [placeParts]
    by_cases hpiece : piece.isEmpty = true
    · simp [hpiece, ih]
    · simp [hpiece]

/-- The variable without a name that stands for a chain without words. It is on no line. -/
def nameless (path : String) : List Ident :=
  if (Text.split '.' path).all String.isEmpty then [⟨"", .zero⟩] else []

/-- What is made of the words of a chain. -/
theorem dotted_of_placeParts (path : String) (line : Nat) {parts : List Ident}
    (hparts : placeParts line column (Text.split '.' path) = parts) :
    (dotted path line).2 = line + 1 ∧
      (dotted path line).1.words.Perm (if parts = [] then [⟨"", .zero⟩] else parts) := by
  have hname : name path line = (.ofParts parts, line + 1) := by rw [← hparts]; rfl
  cases parts with
  | nil =>
    have hdotted : dotted path line = (.name ⟨"", .zero⟩ .zero, line + 1) := by
      simp only [dotted, bind, StateT.bind, hname]
      rfl
    rw [hdotted, Expr.words_eq]
    exact ⟨rfl, List.Perm.refl _⟩
  | cons first rest =>
    have hdotted : dotted path line = (chainOf (.name first first.range) rest, line + 1) := by
      simp only [dotted, bind, StateT.bind, hname]
      rfl
    have hfirst : (Expr.name first first.range).words = [first] := Expr.words_eq _
    rw [hdotted, if_neg (List.cons_ne_nil first rest)]
    refine ⟨rfl, (words_chainOf _ _).trans (.of_eq ?_)⟩
    rw [hfirst, List.singleton_append]

/-- The words of a chain are placed. Where the path has none, the chain is one identifier without a
text or a place, which is not placed. -/
theorem makes_dotted (path : String) : Makes (dotted path) Expr.words (nameless path) := by
  intro line
  have hplaced := placedBetween_placeParts line column (Text.split '.' path)
  obtain ⟨hline, hwords⟩ := dotted_of_placeParts path line rfl
  refine ⟨placeParts line column (Text.split '.' path), hwords.trans (.of_eq ?_), hline ▸ hplaced⟩
  by_cases hnone : placeParts line column (Text.split '.' path) = []
  · rw [nameless, if_pos hnone, if_pos (placeParts_eq_nil_iff.mp hnone), hnone, List.append_nil]
  · rw [nameless, if_neg hnone, if_neg (mt placeParts_eq_nil_iff.mpr hnone), List.nil_append]

/-! ## Statements -/

/-- A statement that is put together from pieces has its own identifiers and those of its children.
-/
theorem Makes.stmt {stmt : Stmt} {given : List Ident}
    (hwords : (stmt.ownWords ++ stmt.children.flatMap Node.words).Perm given) :
    Makes (Pure.pure stmt) Stmt.words given :=
  .pure ((List.Perm.of_eq stmt.words_eq).trans hwords)

/-- The name that is assigned is placed, and the value is as it was given. -/
theorem makes_assign (target : String) (value : Expr) :
    Makes (assign target value) Stmt.words value.words :=
  (makes_ident target).andThen fun _ => .stmt (by simp)

/-- The name of the member that is set is placed, and the object and the value are as they were
given. -/
theorem makes_dottedSet (object : Expr) (member : String) (value : Expr) :
    Makes (dottedSet object member value) Stmt.words (object.words ++ value.words) :=
  (makes_ident member).andThen fun _ => .stmt (by simp)

/-- An expression as a statement adds no identifier. -/
theorem makes_expression (value : Expr) : Makes (expression value) Stmt.words value.words :=
  .stmt (by simp)

/-- A print statement has the identifiers of what is printed. -/
theorem makes_print (values : List Expr) :
    Makes (print values) Stmt.words (values.flatMap Expr.words) :=
  (makes_range 5).andThen fun _ => .stmt (by simp)

/-- A return statement has the identifiers of what is returned. -/
theorem makes_ret (value : Option Expr) :
    Makes (ret value) Stmt.words (value.toList.flatMap Expr.words) :=
  (makes_range 6).andThen fun _ => .stmt (by simp)

/-- A branch adds no identifier to those of its condition and of its two bodies. -/
theorem makes_branch (condition : Expr) (thenBody elseBody : List Stmt) :
    Makes (branch condition thenBody elseBody) Stmt.words
      (condition.words ++ (thenBody.flatMap Stmt.words ++ elseBody.flatMap Stmt.words)) :=
  (makes_range 2).andThen fun _ => .stmt (by simp)

/-- A loop adds no identifier to those of its condition and its body. -/
theorem makes_loop (condition : Expr) (body : List Stmt) :
    Makes (loop condition body) Stmt.words (condition.words ++ body.flatMap Stmt.words) :=
  (makes_range 5).andThen fun _ => .stmt (by simp)

/-- The name of the item is placed, and what is run through and the body are as they were given. -/
theorem makes_forEach (item : String) (target : Expr) (body : List Stmt) :
    Makes (forEach item target body) Stmt.words (target.words ++ body.flatMap Stmt.words) :=
  (makes_ident item).andThen fun _ => (makes_range 8).andThen fun _ => .stmt (by simp)

/-- The name of the function is placed, and its parameters and its body are as they were given. -/
theorem makes_functionDecl (kind : FuncKind) (text : String) (params : List Param)
    (returnType : Option String) (body : List Stmt) :
    Makes (functionDecl kind text params returnType body) Stmt.words
      (params.flatMap Param.words ++ body.flatMap Stmt.words) := by
  refine (makes_ident text).andThen fun word => ?_
  -- the name is made before the rest, which hands it on
  refine Makes.of_perm ((makes_func kind params returnType body).bind fun function => .stmt ?_)
    List.perm_append_comm
  simpa using (List.perm_append_singleton word function.words).symm

/-- The words of the name of the block are placed, and the body is as it was given. -/
theorem makes_namespaceDecl (dotted : String) (body : List Stmt) :
    Makes (namespaceDecl dotted body) Stmt.words (body.flatMap Stmt.words) :=
  (makes_name dotted).andThen fun _ => .stmt (by simp)

/-- The words of a name that may be missing are placed, if it is there. -/
theorem makes_name? (dotted : Option String) :
    Makes (name? dotted) (fun whole => whole.toList.flatMap DottedName.parts) [] := by
  cases dotted with
  | none => exact .pure (List.Perm.refl _)
  | some dotted => exact (makes_name dotted).map fun whole => List.append_nil _

/-- The name of the class and the words of the name of its parent are placed, and the members are as
they were given. -/
theorem makes_classDecl (text : String) (parent : Option String) (members : List Member) :
    Makes (classDecl text parent members) Stmt.words (members.flatMap Member.words) :=
  (makes_ident text).andThen fun _ => (makes_name? parent).andThen fun _ =>
    .stmt (by simpa using List.perm_middle.symm)

/-- The name of the enum and those of its values are placed, and the expressions that are written
for values are as they were given. -/
theorem makes_enumDecl (text : String) (items : List (String × Option Expr)) :
    Makes (enumDecl text items) Stmt.words
      (items.flatMap fun item => item.2.toList.flatMap Expr.words) := by
  have hitem : ∀ item : String × Option Expr, Makes (do
      let itemWord ← ident item.1
      return EnumItem.mk itemWord item.2 itemWord.range) EnumItem.words
        (item.2.toList.flatMap Expr.words) :=
    fun item => (makes_ident item.1).andThen fun _ => .pure (List.Perm.refl _)
  refine (makes_ident text).andThen fun word => ?_
  refine Makes.of_perm ((Makes.mapM hitem items).bind fun placed => .stmt ?_) List.perm_append_comm
  exact ((filterMap_words_perm placed EnumItem.name EnumItem.value).cons word).trans
    (List.perm_append_singleton word _).symm

/-- The name of the interface and those of its fields are placed, and nothing is given. -/
theorem makes_interfaceDecl (text : String) (fields : List (String × String)) :
    Makes (interfaceDecl text fields) Stmt.words [] := by
  have hfield : ∀ field : String × String, Makes (do
      let fieldWord ← ident field.1
      return InterfaceField.mk fieldWord (← typeNote field.2)) (fun field => [field.name]) [] :=
    fun field => (makes_ident field.1).andThen fun _ => (makes_typeNote field.2).andThen fun _ =>
      .pure (List.Perm.refl _)
  have hnone : (fields.flatMap fun _ => ([] : List Ident)).Perm [] := by simp
  refine (makes_ident text).andThen fun word => ?_
  refine ((Makes.mapM hfield fields).of_perm hnone).andThen fun placed => .stmt ?_
  simpa [← List.map_eq_flatMap] using
    (List.perm_append_singleton word (placed.map InterfaceField.name)).symm

/-- The name of the constant is placed, and the value is as it was given. -/
theorem makes_constDecl (text : String) (value : Expr) :
    Makes (constDecl text value) Stmt.words value.words :=
  (makes_ident text).andThen fun _ => .stmt (by simp)

/-- An import has no identifiers. -/
theorem makes_importScript (path : String) : Makes (importScript path) Stmt.words [] :=
  (makes_range _).andThen fun _ => .stmt (by simp)

/-! ## Members -/

/-- A member that is put together from pieces has its name and the identifiers of its children. -/
theorem Makes.member {member : Member} {given : List Ident}
    (hwords : (member.name :: member.children.flatMap Node.words).Perm given) :
    Makes (Pure.pure member) Member.words given :=
  .pure ((List.Perm.of_eq member.words_eq).trans hwords)

/-- The name of the method is placed, and its parameters and its body are as they were given. -/
theorem makes_method (text : String) (params : List Param) (returnType : Option String)
    (body : List Stmt) :
    Makes (method text params returnType body) Member.words
      (params.flatMap Param.words ++ body.flatMap Stmt.words) := by
  refine (makes_ident text).andThen fun word => ?_
  refine Makes.of_perm ((makes_func _ params returnType body).bind fun function => .member ?_)
    List.perm_append_comm
  simpa using (List.perm_append_singleton word function.words).symm

/-- The name of the field is placed, and its first value is as it was given. -/
theorem makes_field (text : String) (typeText : Option String) (initial : Option Expr) :
    Makes (field text typeText initial) Member.words (initial.toList.flatMap Expr.words) :=
  (makes_ident text).andThen fun _ => (makes_typeNote? typeText).andThen fun _ => .member (by simp)

/-! ## Calls -/

/-- What a call of the layout makes. -/
inductive Piece where
  | word (ident : Ident)
  | name (whole : DottedName)
  | note (note : TypeNote)
  | expr (expr : Expr)
  | param (param : Param)
  | stmt (stmt : Stmt)
  | member (member : Member)
  | script (script : Script)

/-- The identifiers of a piece. -/
def Piece.words : Piece → List Ident
  | word ident => [ident]
  | name whole => whole.parts
  | note _ => []
  | expr made => made.words
  | param made => made.words
  | stmt made => made.words
  | member made => made.words
  | script made => made.body.flatMap Stmt.words

/-- A call of the layout, with the texts and the parts that it is given. -/
inductive Call where
  | ident (text : String)
  | name (path : String)
  | typeNote (text : String)
  | literal (value : Literal) (length : Nat)
  | variableNamed (text : String)
  | dotted (path : String)
  | get (object : Expr) (member : String)
  | index (object place : Expr)
  | call (callee : Expr) (args : List Expr)
  | createObject (texts : List String)
  | callfunc (object : Expr) (method : String) (args : List Expr)
  | newObject (className : String) (args : List Expr)
  | binary (op : BinaryOp) (left right : Expr)
  | unary (op : UnaryOp) (operand : Expr)
  | grouping (inner : Expr)
  | array (items : List Expr)
  | record (entries : List (String × Expr))
  | template (items : List Expr)
  | functionExpr (params : List Param) (body : List Stmt)
  | param (text : String) (typeText : Option String)
  | optionalParam (text : String) (default : Expr)
  | assign (target : String) (value : Expr)
  | dottedSet (object : Expr) (member : String) (value : Expr)
  | expression (value : Expr)
  | print (values : List Expr)
  | ret (value : Option Expr)
  | branch (condition : Expr) (thenBody elseBody : List Stmt)
  | loop (condition : Expr) (body : List Stmt)
  | forEach (item : String) (target : Expr) (body : List Stmt)
  | functionDecl (kind : FuncKind) (text : String) (params : List Param)
      (returnType : Option String) (body : List Stmt)
  | namespaceDecl (path : String) (body : List Stmt)
  | classDecl (text : String) (parent : Option String) (members : List Member)
  | method (text : String) (params : List Param) (returnType : Option String) (body : List Stmt)
  | field (text : String) (typeText : Option String) (initial : Option Expr)
  | enumDecl (text : String) (items : List (String × Option Expr))
  | interfaceDecl (text : String) (fields : List (String × String))
  | constDecl (text : String) (value : Expr)
  | importScript (path : String)
  /-- The statements become a script, for which nothing is placed. -/
  | script (path : String) (body : List Stmt)

namespace Call

/-- What a call does. -/
def make : Call → Layout Piece
  | ident text => .word <$> Layout.ident text
  | name path => .name <$> Layout.name path
  | typeNote text => .note <$> Layout.typeNote text
  | literal value length => .expr <$> Layout.literal value length
  | variableNamed text => .expr <$> Layout.variableNamed text
  | dotted path => .expr <$> Layout.dotted path
  | get object member => .expr <$> Layout.get object member
  | index object place => .expr <$> Layout.index object place
  | call callee args => .expr <$> Layout.call callee args
  | createObject texts => .expr <$> Layout.createObject texts
  | callfunc object member args => .expr <$> Layout.callfunc object member args
  | newObject className args => .expr <$> Layout.newObject className args
  | binary op left right => .expr <$> Layout.binary op left right
  | unary op operand => .expr <$> Layout.unary op operand
  | grouping inner => .expr <$> Layout.grouping inner
  | array items => .expr <$> Layout.array items
  | record entries => .expr <$> Layout.record entries
  | template items => .expr <$> Layout.template items
  | functionExpr params body => .expr <$> Layout.functionExpr params body
  | param text typeText => .param <$> Layout.param text typeText
  | optionalParam text default => .param <$> Layout.optionalParam text default
  | assign target value => .stmt <$> Layout.assign target value
  | dottedSet object member value => .stmt <$> Layout.dottedSet object member value
  | expression value => .stmt <$> Layout.expression value
  | print values => .stmt <$> Layout.print values
  | ret value => .stmt <$> Layout.ret value
  | branch condition thenBody elseBody => .stmt <$> Layout.branch condition thenBody elseBody
  | loop condition body => .stmt <$> Layout.loop condition body
  | forEach item target body => .stmt <$> Layout.forEach item target body
  | functionDecl kind text params returnType body =>
    .stmt <$> Layout.functionDecl kind text params returnType body
  | namespaceDecl path body => .stmt <$> Layout.namespaceDecl path body
  | classDecl text parent members => .stmt <$> Layout.classDecl text parent members
  | method text params returnType body => .member <$> Layout.method text params returnType body
  | field text typeText initial => .member <$> Layout.field text typeText initial
  | enumDecl text items => .stmt <$> Layout.enumDecl text items
  | interfaceDecl text fields => .stmt <$> Layout.interfaceDecl text fields
  | constDecl text value => .stmt <$> Layout.constDecl text value
  | importScript path => .stmt <$> Layout.importScript path
  | script path body => pure (.script ⟨path, none, body⟩)

/-- The identifiers of the parts that a call is given, which it hands on. A chain without words has
a variable without a name, which is placed on no line. -/
def given : Call → List Ident
  | ident _ | name _ | typeNote _ | literal .. | variableNamed _ | createObject _ | param ..
  | interfaceDecl .. | importScript _ => []
  | dotted path => nameless path
  | get object _ => object.words
  | index object place => object.words ++ place.words
  | call callee args => callee.words ++ args.flatMap Expr.words
  | callfunc object _ args => object.words ++ args.flatMap Expr.words
  | newObject _ args => args.flatMap Expr.words
  | binary _ left right => left.words ++ right.words
  | unary _ operand => operand.words
  | grouping inner => inner.words
  | array items | template items => items.flatMap Expr.words
  | record entries => entries.flatMap fun entry => entry.2.words
  | optionalParam _ default => default.words
  | assign _ value | expression value | constDecl _ value => value.words
  | dottedSet object _ value => object.words ++ value.words
  | print values => values.flatMap Expr.words
  | ret value | field _ _ value => value.toList.flatMap Expr.words
  | branch condition thenBody elseBody =>
    condition.words ++ (thenBody.flatMap Stmt.words ++ elseBody.flatMap Stmt.words)
  | loop condition body => condition.words ++ body.flatMap Stmt.words
  | forEach _ target body => target.words ++ body.flatMap Stmt.words
  | functionExpr params body | functionDecl _ _ params _ body | method _ params _ body =>
    params.flatMap Param.words ++ body.flatMap Stmt.words
  | namespaceDecl _ body | script _ body => body.flatMap Stmt.words
  | classDecl _ _ members => members.flatMap Member.words
  | enumDecl _ items => items.flatMap fun item => item.2.toList.flatMap Expr.words

/-- Every call makes a piece from what it is given and from identifiers that it places on lines of
their own. -/
theorem makes (call : Call) : Makes call.make Piece.words call.given := by
  cases call with
  | ident text => exact (makes_ident text).map fun _ => rfl
  | name path => exact (makes_name path).map fun _ => rfl
  | typeNote text => exact (makes_typeNote text).map fun _ => rfl
  | literal value length => exact (makes_literal value length).map fun _ => rfl
  | variableNamed text => exact (makes_variableNamed text).map fun _ => rfl
  | dotted path => exact (makes_dotted path).map fun _ => rfl
  | get object member => exact (makes_get object member).map fun _ => rfl
  | index object place => exact (makes_index object place).map fun _ => rfl
  | call callee args => exact (makes_call callee args).map fun _ => rfl
  | createObject texts => exact (makes_createObject texts).map fun _ => rfl
  | callfunc object method args => exact (makes_callfunc object method args).map fun _ => rfl
  | newObject className args => exact (makes_newObject className args).map fun _ => rfl
  | binary op left right => exact (makes_binary op left right).map fun _ => rfl
  | unary op operand => exact (makes_unary op operand).map fun _ => rfl
  | grouping inner => exact (makes_grouping inner).map fun _ => rfl
  | array items => exact (makes_array items).map fun _ => rfl
  | record entries => exact (makes_record entries).map fun _ => rfl
  | template items => exact (makes_template items).map fun _ => rfl
  | functionExpr params body => exact (makes_functionExpr params body).map fun _ => rfl
  | param text typeText => exact (makes_param text typeText).map fun _ => rfl
  | optionalParam text default => exact (makes_optionalParam text default).map fun _ => rfl
  | assign target value => exact (makes_assign target value).map fun _ => rfl
  | dottedSet object member value => exact (makes_dottedSet object member value).map fun _ => rfl
  | expression value => exact (makes_expression value).map fun _ => rfl
  | print values => exact (makes_print values).map fun _ => rfl
  | ret value => exact (makes_ret value).map fun _ => rfl
  | branch condition thenBody elseBody =>
    exact (makes_branch condition thenBody elseBody).map fun _ => rfl
  | loop condition body => exact (makes_loop condition body).map fun _ => rfl
  | forEach item target body => exact (makes_forEach item target body).map fun _ => rfl
  | functionDecl kind text params returnType body =>
    exact (makes_functionDecl kind text params returnType body).map fun _ => rfl
  | namespaceDecl path body => exact (makes_namespaceDecl path body).map fun _ => rfl
  | classDecl text parent members => exact (makes_classDecl text parent members).map fun _ => rfl
  | method text params returnType body =>
    exact (makes_method text params returnType body).map fun _ => rfl
  | field text typeText initial => exact (makes_field text typeText initial).map fun _ => rfl
  | enumDecl text items => exact (makes_enumDecl text items).map fun _ => rfl
  | interfaceDecl text fields => exact (makes_interfaceDecl text fields).map fun _ => rfl
  | constDecl text value => exact (makes_constDecl text value).map fun _ => rfl
  | importScript path => exact (makes_importScript path).map fun _ => rfl
  | script path body => exact .pure (List.Perm.refl _)

/-- The identifiers that a call makes itself. -/
def created (call : Call) (line : Nat) : List Ident :=
  (call.make line).1.words.diff call.given

/-- What a call makes has the identifiers it was given and those it made. -/
theorem words_perm_created (call : Call) (line : Nat) :
    (call.make line).1.words.Perm (call.given ++ call.created line) ∧
      PlacedBetween line (call.make line).2 (call.created line) := by
  obtain ⟨placed, hwords, hplaced⟩ := call.makes line
  -- what is given may be equal to what is placed, so occurrences are counted
  have hcreated : (call.created line).Perm placed := by
    refine List.perm_iff_count.mpr fun word => ?_
    rw [created, List.count_diff, hwords.count_eq, List.count_append, Nat.add_sub_cancel_left]
  exact ⟨hwords.trans (hcreated.symm.append_left _), hplaced.perm hcreated.symm⟩

end Call

/-- The next free line after some calls. -/
def lineAfter (line : Nat) (calls : List Call) : Nat :=
  calls.foldl (fun line call => (call.make line).2) line

/-- The identifiers that are made by some calls, one after another. -/
def createdBy (line : Nat) : List Call → List Ident
  | [] => []
  | call :: rest => call.created line ++ createdBy (call.make line).2 rest

/-- Each call takes the lines after those of the calls before it, so all that they create stands on
lines of its own. -/
theorem placedBetween_createdBy (calls : List Call) (line : Nat) :
    PlacedBetween line (lineAfter line calls) (createdBy line calls) := by
  induction calls generalizing line with
  | nil => exact .nil (Nat.le_refl line)
  | cons call rest ih => exact (call.words_perm_created line).2.append (ih _)

/-- Whatever is called on one layout, no two of the identifiers that the calls make have the same
range. Those of one call stand on the lines from the one that was free before it up to the one that
is free after it; all others in what it makes are those it was given. -/
theorem created_words_have_own_ranges (calls : List Call) (line : Nat) :
    ((createdBy line calls).Pairwise fun left right => left.range ≠ right.range) ∧
    ∀ before call after, calls = before ++ call :: after →
      let first := lineAfter line before
      (call.make first).1.words.Perm (call.given ++ call.created first) ∧
      ∀ word ∈ call.created first,
        first ≤ word.range.start.line ∧ word.range.start.line < lineAfter first [call] ∧
          word.range.stop.line = word.range.start.line := by
  refine ⟨(placedBetween_createdBy calls line).distinct, ?_⟩
  intro before call after _ first
  obtain ⟨hwords, hplaced⟩ := call.words_perm_created first
  exact ⟨hwords, hplaced.lines⟩

end Layout

end ScopeCheck
