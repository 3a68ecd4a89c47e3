/-!
Classes as the source language has them: a name, a base class, and methods in order.
-/

namespace Polyglot

structure Parameter where
  name : String
  /-- The default exactly as the source writes it. -/
  default : Option String := none
  deriving DecidableEq, Repr

structure Method where
  name : String
  isAsync : Bool
  parameters : List Parameter
  /-- The lines between the signature and the closing brace. -/
  body : String
  /-- The variables: parameters, locals and names bound by `catch`, each once, in the order in which
  they are found. -/
  bindings : List String
  deriving DecidableEq, Repr

structure ClassDecl where
  name : String
  baseClass : String
  methods : List Method
  deriving DecidableEq, Repr

def ClassDecl.methodNames (c : ClassDecl) : List String :=
  c.methods.map Method.name

end Polyglot
