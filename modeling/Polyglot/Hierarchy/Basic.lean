/-!
The hierarchy of exception classes: each class with its parent, parents before their children.
-/

namespace Polyglot

structure HierarchyEntry where
  name : String
  parent : Option String
  deriving DecidableEq, Repr

structure Hierarchy where
  classes : List HierarchyEntry
  deriving DecidableEq, Repr

namespace Hierarchy

def ofPairs (pairs : List (String × Option String)) : Hierarchy :=
  ⟨pairs.map fun p => ⟨p.1, p.2⟩⟩

def names (h : Hierarchy) : List String :=
  h.classes.map HierarchyEntry.name

def contains (h : Hierarchy) (name : String) : Bool :=
  h.names.contains name

def isEmpty (h : Hierarchy) : Bool :=
  h.classes.isEmpty

/-- The hierarchy of the exchange library. -/
def builtin : Hierarchy :=
  ofPairs
    [ ("BaseError", none),
      ("ExchangeError", some "BaseError"),
      ("AuthenticationError", some "ExchangeError"),
      ("PermissionDenied", some "AuthenticationError"),
      ("AccountSuspended", some "AuthenticationError"),
      ("ArgumentsRequired", some "ExchangeError"),
      ("BadRequest", some "ExchangeError"),
      ("BadSymbol", some "BadRequest"),
      ("BadResponse", some "ExchangeError"),
      ("NullResponse", some "BadResponse"),
      ("InsufficientFunds", some "ExchangeError"),
      ("InvalidAddress", some "ExchangeError"),
      ("AddressPending", some "InvalidAddress"),
      ("InvalidOrder", some "ExchangeError"),
      ("OrderNotFound", some "InvalidOrder"),
      ("OrderNotCached", some "InvalidOrder"),
      ("CancelPending", some "InvalidOrder"),
      ("OrderImmediatelyFillable", some "InvalidOrder"),
      ("OrderNotFillable", some "InvalidOrder"),
      ("DuplicateOrderId", some "InvalidOrder"),
      ("NotSupported", some "ExchangeError"),
      ("NetworkError", some "BaseError"),
      ("DDoSProtection", some "NetworkError"),
      ("RateLimitExceeded", some "DDoSProtection"),
      ("ExchangeNotAvailable", some "NetworkError"),
      ("OnMaintenance", some "ExchangeNotAvailable"),
      ("InvalidNonce", some "NetworkError"),
      ("RequestTimeout", some "NetworkError") ]

end Hierarchy

end Polyglot
