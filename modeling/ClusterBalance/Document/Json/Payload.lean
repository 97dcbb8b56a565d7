import ClusterBalance.Document.Json.Writer
import ClusterBalance.Statistic

/-! What a program may hand to the writer: documents with statistics and resources among their
parts, and things that have no written form. -/

namespace ClusterBalance.Document.Json

/-- A value to be written. -/
inductive Payload where
  | document (value : Document)
  | list (items : List Payload)
  | object (fields : List (LooseText × Payload))
  | statistic (value : Statistic)
  | resource (value : Resource)
  | foreign
  deriving Inhabited

namespace Payload

/-- The document of a resource: its name and whether it is shared. -/
def resourceDocument (r : Resource) : Document := .list [.string r.wireName, .bool r.isShared]

mutual

/-- The document that is written for a value where there is room for some levels of lists and
objects. The first part that cannot be written decides. A resource takes up no level. -/
def document? (room : Nat) : Payload → Except WriteError Document
  | document value => do
    check room value
    return value
  | list items => do return .list (← items? (← roomBelow room) items)
  | object fields => do return .object (← fields? (← roomBelow room) fields)
  | statistic s => .ok (.string s.key)
  | resource r => .ok (resourceDocument r)
  | foreign => .error .foreign

/-- The documents of the items of a list. -/
def items? (room : Nat) : List Payload → Except WriteError (List Document)
  | [] => .ok []
  | item :: rest => do return (← document? room item) :: (← items? room rest)

/-- The documents of the fields of an object. -/
def fields? (room : Nat) :
    List (LooseText × Payload) → Except WriteError (List (LooseText × Document))
  | [] => .ok []
  | (key, value) :: rest => do
    checkText key
    return (key, ← document? room value) :: (← fields? room rest)

end

/-- The text of a value. -/
def write? (spacing : Spacing) (p : Payload) : Except WriteError String := do
  return text spacing (← p.document? writtenDepth)

end Payload

end ClusterBalance.Document.Json
