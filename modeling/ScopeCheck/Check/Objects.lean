import ScopeCheck.Check.Inventory
import ScopeCheck.Platform.Basic
import ScopeCheck.Problem

/-!
# Checking `CreateObject`

A call of `CreateObject` whose first argument is a string literal must name an object of the
platform and give its constructor a number of arguments that it takes. For `roSGNode` the second
argument, if it is a string literal, must name a node type; a name with a colon belongs to a
component library and is not checked. What is found does not depend on the scope, so it is listed
once.
-/

namespace ScopeCheck

/-- The object that makes nodes of the scene graph. -/
def nodeObject : String := "roSGNode"

/-- A finding that is listed once. -/
def Finding.once (problem : Problem) (file : String) (range : Range) : Finding :=
  ⟨problem.located file range, .once⟩

/-- Checks the node type that is asked of the object for nodes. -/
def checkNodeType (platform : Platform) (file : String) : List Expr → List Finding
  | [] => []
  | node :: _ =>
    match node.stringLiteral? with
    | none => []
    | some name =>
      if name.toList.contains ':' || platform.isNode name then []
      else [.once (.unknownNode name) file node.range]

/-- Checks the making of an object of the platform. -/
def checkObject (platform : Platform) (file : String) (object : PlatformObject) (call first : Expr)
    (rest : List Expr) : List Finding :=
  let expected := " or ".intercalate (object.arities.map toString)
  (if object.accepts rest.length then []
    else [.once (.objectArgumentCount object.name expected rest.length) file call.range])
    ++ (object.deprecation.toList.map fun note =>
      .once (.deprecatedObject object.name note) file first.range)
    ++ (if object.name = nodeObject then checkNodeType platform file rest else [])

/-- Checks one call of `CreateObject`. -/
def checkCreateObject (platform : Platform) (file : String) (call : Expr) : List Finding :=
  match call with
  | .call _ (first :: rest) _ =>
    match first.stringLiteral? with
    | none => []
    | some name =>
      match platformObject? name with
      | none => [.once (.unknownObject name) file first.range]
      | some object => checkObject platform file object call first rest
  | _ => []

end ScopeCheck
