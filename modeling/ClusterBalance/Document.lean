import ClusterBalance.Document.Moment
import ClusterBalance.Text.Loose

/-! Documents: the values that snapshots, settings and reports are written in. An object keeps its
fields in order. -/

namespace ClusterBalance

/-- A value of a structured document. Whole numbers have any size and differ from floats. -/
inductive Document where
  | null
  | bool (value : Bool)
  | int (value : Int)
  | float (value : Float)
  | string (value : LooseText)
  | moment (value : Moment)
  | list (items : List Document)
  | object (fields : List (LooseText × Document))
  deriving Inhabited

namespace Document

/-- The object of fields whose names are sound. -/
def ofFields (fields : List (String × Document)) : Document :=
  object (fields.map fun (key, value) => (LooseText.sound key, value))

/-- The field of a name among the fields of an object. -/
def find? (key : LooseText) (fields : List (LooseText × Document)) : Option Document :=
  fields.lookup key

/-- The field of a name, or a default where it is absent. -/
def findD (key : LooseText) (default : Document) (fields : List (LooseText × Document)) :
    Document :=
  (find? key fields).getD default

/-- Sets a field: in place if the name is taken, else at the end. -/
def put (key : LooseText) (value : Document) :
    List (LooseText × Document) → List (LooseText × Document)
  | [] => [(key, value)]
  | (k, v) :: rest => if k = key then (k, value) :: rest else (k, v) :: put key value rest

theorem find?_cons (name key : LooseText) (value : Document)
    (rest : List (LooseText × Document)) :
    find? name ((key, value) :: rest) = if name = key then some value else find? name rest := by
  rw [find?, List.lookup_cons, find?]
  by_cases h : name = key
  · simp [h]
  · simp [h, beq_false_of_ne h]

/-- The word by which messages name the kind of a value. -/
def kindName : Document → String
  | null => "NoneType"
  | bool _ => "bool"
  | int _ => "int"
  | float _ => "float"
  | string _ => "str"
  | moment m => m.kindName
  | list _ => "list"
  | object _ => "dict"

/-- Whether a value counts as set: not null, false, zero or empty. Not-a-number counts as set. -/
def isSet : Document → Bool
  | null => false
  | bool b => b
  | int n => n != 0
  | float x => x != 0.0
  | string s => s != LooseText.sound ""
  | moment _ => true
  | list items => !items.isEmpty
  | object fields => !fields.isEmpty

end Document

end ClusterBalance
