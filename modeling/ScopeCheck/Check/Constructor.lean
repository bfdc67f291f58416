import ScopeCheck.Check.Hierarchy

/-!
# Checking constructors

The constructor of a class that extends another must call that of its parent, and must not use its
object before. The body is read from left to right up to the first such call, at whatever depth it
stands; the arguments of the call come before the call. A nested function has an object of its own
and is left out.
-/

namespace ScopeCheck

/-- What has been met in the body of a constructor. -/
structure ConstructorScan where
  /-- Where the object is used before the parent is called. -/
  uses : List Range
  /-- Whether the parent has been called. -/
  calledParent : Bool
deriving DecidableEq, Repr

/-- Whether a node is a call of the constructor of the parent class. -/
def Node.isParentCall : Node → Bool
  | .expression (.call callee _ _) => callee.isNamed "super"
  | _ => false

/-- Whether a node is a function. -/
def Node.isFunction : Node → Bool
  | .function _ => true
  | _ => false

/-- Where a node names the object of the constructor. -/
def Node.receiverUse? : Node → Option Range
  | .expression (.name ident _) =>
    if Text.sameIgnoringAsciiCase ident.text "m" then some ident.range else none
  | _ => none

/-- Reads a node of the body of a constructor and all below it. -/
def Node.scanConstructor (scan : ConstructorScan) (node : Node) : ConstructorScan :=
  if scan.calledParent then scan
  else if node.isFunction then scan
  else if node.isParentCall then
    let after := node.children.tail.attach.foldl
      (fun scan child => child.1.scanConstructor scan) scan
    { after with calledParent := true }
  else
    node.children.attach.foldl (fun scan child => child.1.scanConstructor scan)
      { scan with uses := scan.uses ++ node.receiverUse?.toList }
termination_by sizeOf node
decreasing_by
  · exact Node.sizeOf_child_lt (List.mem_of_mem_tail child.2)
  · exact Node.sizeOf_child_lt child.2

/-- Reads the body of a constructor. -/
def scanBody (body : List Stmt) : ConstructorScan :=
  body.foldl (fun scan stmt => (Node.statement stmt).scanConstructor scan) ⟨[], false⟩

/-- Checks the constructor of a class, if it extends another and has one. -/
def checkConstructor (decl : Declaration ClassDecl) : List Finding :=
  match decl.node.parent, decl.node.constructor? with
  | some _, some constructor =>
    let scan := scanBody constructor.func.body
    (scan.uses.map fun range => .of .receiverBeforeSuperCall decl.file range)
      ++ (if scan.calledParent then []
        else [.of .missingSuperCall decl.file constructor.name.range])
  | _, _ => []

end ScopeCheck
