import ClusterBalance.Document.Literal
import ClusterBalance.Statistics.Error

/-! Notices about statistics, made from what is given for them. -/

namespace ClusterBalance

/-- The class of a notice, by its name. -/
def NoticeKind.className : NoticeKind → String
  | general => "ClusterStatsError"
  | degenerate => ErrorClass.degenerateCluster.name
  | alreadyFilled => ErrorClass.alreadyFilled.name

/-- Why there is no notice: a quantity was given for one that is not about a quantity, or what it is
to say is no text or has none. -/
inductive NoticeError where
  | strayQuantity (kind : NoticeKind)
  | notText (kind : String)
  | noLiteral (cause : Document.LiteralError)
  deriving DecidableEq, Repr

/-- The class of the error. -/
def NoticeError.errorClass : NoticeError → ErrorClass
  | noLiteral cause => cause.errorClass
  | _ => .wrongType

/-- The text of the error. -/
def NoticeError.message : NoticeError → String
  | strayQuantity kind =>
    kind.className ++ ".__init__() got an unexpected keyword argument 'quantity'"
  | notText kind => "__str__ returned non-string (type " ++ kind ++ ")"
  | noLiteral cause => cause.message

/-- The text of a value that has to be one. -/
def requireNoticeText : Document → Except NoticeError String
  | .string s => .ok s.shown
  | other => .error (.notText other.kindName)

/-- The text of a notice. Only that of a degenerate cluster is about a quantity; where it is set,
nothing else is said. -/
def notice? [Limits] (kind : NoticeKind) (message quantity : Option Document) :
    Except NoticeError String :=
  if kind ≠ .degenerate ∧ quantity.isSome then .error (.strayQuantity kind)
  else
    match quantity.filter Document.isSet, message with
    | some quantity, _ =>
      match quantity.wording? with
      | .ok text => .ok (noticeText kind none text.shown)
      | .error cause => .error (.noLiteral cause)
    | none, some message => requireNoticeText message
    | none, none => .ok (noticeText kind none "")

end ClusterBalance
