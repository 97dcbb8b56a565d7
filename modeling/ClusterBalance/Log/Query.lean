import ClusterBalance.Document.Comparison
import ClusterBalance.Log

/-! The log set up by any values in the places of the level and the scopes, and modules and scopes
that are named by any values. -/

namespace ClusterBalance.Log

/-- Why the log is not set up. -/
inductive QueryError where
  | unknownLevel (cause : UnknownLevel)
  | misuse (cause : Misuse)
  deriving DecidableEq, Repr

/-- The text that a value has to be where it is asked for a member that only texts have. -/
def requireText (member : String) : Document → Except Misuse String
  | .string s => .ok s.shown
  | other => .error (.noMember other.kindName member)

/-- A misuse while the log is set up. -/
def QueryError.lift {β : Type} : Except Misuse β → Except QueryError β
  | .ok x => .ok x
  | .error cause => .error (.misuse cause)

/-- The handlers for a level and scopes. -/
def handlers (level : String) (scopes : List String) : Except QueryError (List Handler) :=
  match configure level scopes with
  | .ok handlers => .ok handlers
  | .error cause => .error (.unknownLevel cause)

/-- The handlers for a value as the level and one with the scopes as its parts. The level is judged
before the scopes. -/
def configureFor (level scopes : Document) : Except QueryError (List Handler) := do
  let level ← QueryError.lift (requireText "upper" level)
  let _ ← handlers level []
  let parts ← QueryError.lift scopes.elements
  let scopes ← QueryError.lift (parts.mapM (requireText "strip"))
  handlers level scopes

/-- The module that a value names; a value that is not set names none. -/
def sourceOf (source : Document) : Except Misuse String :=
  if source.isSet then requireText "startswith" source else .ok ""

/-- Whether the module of one value is in the scope of another. -/
def inScopeFor (source scope : Document) : Except Misuse Bool := do
  let source ← sourceOf source
  match scope with
  | .string s => return inScope source s.shown
  | other => throw (.notStart other.kindName)

end ClusterBalance.Log
