import ClusterBalance.Document

/-! The tables of a TOML document while it is read: the fields so far, and which names may still be
opened. A name may be opened as a table once; a value written in one piece stays as it is; and a
table that dotted keys have made is closed to headers from the next header on. -/

namespace ClusterBalance.Document.Toml

/-- The fields of a table. -/
abbrev Fields := List (LooseText × Document)

/-- A dotted key. -/
abbrev Path := List String

/-- Changes the table at a path, making the tables on the way. With `enterLists`, a list of tables
stands for its last table. -/
def atPath? (enterLists : Bool) (change : Fields → Option Fields) :
    Path → Fields → Option Fields
  | [], fields => change fields
  | key :: path, fields =>
    match find? key fields with
    | none => do
      let inner ← atPath? enterLists change path []
      return put key (.object inner) fields
    | some (.object inner) => do
      let inner ← atPath? enterLists change path inner
      return put key (.object inner) fields
    | some (.list items) =>
      match enterLists, items.getLast? with
      | true, some (.object last) => do
        let last ← atPath? enterLists change path last
        return put key (.list (items.dropLast ++ [.object last])) fields
      | _, _ => none
    | some _ => none

/-- Adds a field that is not there yet. -/
def addNew? (key : String) (value : Document) (fields : Fields) : Option Fields :=
  if (find? key fields).isSome then none else some (put key value fields)

/-- Adds an empty table to the list of tables of a name. -/
def addTable? (key : String) (fields : Fields) : Option Fields :=
  match find? key fields with
  | none => some (put key (.list [.object []]) fields)
  | some (.list items) => some (put key (.list (items ++ [.object []])) fields)
  | some _ => none

/-- A key parted into the path to its table and its last name. -/
def splitLast? (key : Path) : Option (Path × String) :=
  key.getLast?.map fun last => (key.dropLast, last)

/-- Whether a value is written in one piece and closed afterwards. -/
def isClosed : Document → Bool
  | .list _ | .object _ => true
  | _ => false

/-- The fields read so far, the paths opened, those to be counted as opened at the next header, the
paths of closed values, and the path of the current table. -/
structure Tables where
  fields : Fields := []
  opened : List Path := []
  pending : List Path := []
  closed : List Path := []
  current : Path := []

namespace Tables

/-- Whether a path lies in a closed value. -/
def isClosedAt (t : Tables) (path : Path) : Bool := t.closed.any (·.isPrefixOf path)

/-- Counts the pending paths as opened. -/
def settle (t : Tables) : Tables := { t with opened := t.pending ++ t.opened, pending := [] }

/-- Opens a table by its header. -/
def openTable? (t : Tables) (key : Path) : Option Tables :=
  if t.opened.contains key || t.isClosedAt key then none
  else do
    let fields ← atPath? true some key t.fields
    return { t with fields, opened := key :: t.opened, current := key }

/-- Opens the next table of a list of tables by its header; what its name held before may be opened
again. -/
def openListTable? (t : Tables) (key : Path) : Option Tables :=
  if t.isClosedAt key then none
  else do
    let (parent, last) ← splitLast? key
    let fields ← atPath? true (addTable? last) parent t.fields
    let opened := key :: t.opened.filter fun path => !key.isPrefixOf path
    let closed := t.closed.filter fun path => !key.isPrefixOf path
    return { t with fields, opened, closed, current := key }

/-- The paths that a dotted key passes through. -/
def passed (current key : Path) : List Path :=
  (List.range key.length).drop 1 |>.map fun n => current ++ key.take n

/-- Adds a field to the current table. -/
def addField? (t : Tables) (key : Path) (value : Document) : Option Tables := do
  let (parent, last) ← splitLast? key
  let through := passed t.current key
  if through.any t.opened.contains || t.isClosedAt (t.current ++ parent) then none
  else do
    let fields ← atPath? true (addNew? last value) (t.current ++ parent) t.fields
    let closed := if isClosed value then (t.current ++ key) :: t.closed else t.closed
    return { t with fields, closed, pending := through ++ t.pending }

end Tables

/-- The fields of an inline table so far and the paths of its closed values. -/
structure InlineTable where
  fields : Fields := []
  closed : List Path := []

/-- Adds a field to an inline table. -/
def InlineTable.addField? (t : InlineTable) (key : Path) (value : Document) :
    Option InlineTable := do
  let (parent, last) ← splitLast? key
  if t.closed.any (·.isPrefixOf key) then none
  else do
    let fields ← atPath? false (addNew? last value) parent t.fields
    return { fields, closed := if isClosed value then key :: t.closed else t.closed }

end ClusterBalance.Document.Toml
