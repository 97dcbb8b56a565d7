import ClusterBalance.ErrorClass
import ClusterBalance.Text.Quoted

/-! Names of files: the plain form of a path, its last part, the type that this part ends in, and
what keeps a path from being one of a file at all. -/

namespace ClusterBalance.FileName

/-- The parts of a path, without empty ones and those that stand for the directory itself. -/
def parts (path : String) : List String :=
  (path.splitOn "/").filter fun part => part ≠ "" ∧ part ≠ "."

/-- The slashes that a path starts with. Two of them are told apart from one; more are one. -/
def root (path : String) : String :=
  match path.toList.takeWhile (· = '/') with
  | [] => ""
  | [_, _] => "//"
  | _ => "/"

/-- The plain form of a path. -/
def plain (path : String) : String :=
  let whole := root path ++ "/".intercalate (parts path)
  if whole = "" then "." else whole

/-- The last part of a path. -/
def last (path : String) : String := (parts path).getLast?.getD ""

/-- The characters from the last dot on, and whether there is one. -/
def fromLastDot (cs : List Char) : Option (List Char × List Char) :=
  let tail := (cs.reverse.takeWhile (· != '.')).reverse
  if tail.length < cs.length then some (cs.take (cs.length - tail.length - 1), tail) else none

/-- What the name of a file ends in, with its dot, if that is neither its first nor its last
character; else nothing. -/
def type (path : String) : String :=
  match fromLastDot (last path).toList with
  | some (stem, tail) =>
    if stem.isEmpty || tail.isEmpty then "" else String.ofList ('.' :: tail)
  | none => ""

/-- Why a path is that of no file. -/
inductive Fault where
  | nullCharacter
  | tooLong (path : String)
  deriving DecidableEq, Repr

namespace Fault

/-- The class of a fault. -/
def errorClass : Fault → ErrorClass
  | nullCharacter => .invalidValue
  | tooLong _ => .fileSystem

/-- The text of a fault. -/
def message : Fault → String
  | nullCharacter => "embedded null byte"
  | tooLong path => "[Errno 36] File name too long: " ++ Text.quoted path

end Fault

/-- A part of a path has at most this many bytes. -/
def maxPartBytes : Nat := 255

/-- A path has fewer bytes than this. -/
def maxPathBytes : Nat := 4096

/-- The directories that every system has at its root. -/
def rootDirectories : List String :=
  ["bin", "dev", "etc", "home", "lib", "proc", "tmp", "usr", "var"]

/-- The parts of a path behind those that lead to a directory that is always there: upwards, or to
one at the root. -/
def soughtParts (path : String) : List String :=
  match (parts path).dropWhile (· = "..") with
  | [] => []
  | part :: rest =>
    if root path ≠ "" ∧ rootDirectories.contains part then rest else part :: rest

/-- Whether a path is that of a directory that is always there. -/
def isCommonDirectory (path : String) : Bool := (soughtParts path).isEmpty

/-- What is wrong with a path, whatever files there are. Only the part that is looked for first can
be found too long, for the others are missed before. -/
def fault? (path : String) : Option Fault :=
  if path.toList.contains '\x00' then some .nullCharacter
  else if path.utf8ByteSize ≥ maxPathBytes ∨
      ((soughtParts path).headD "").utf8ByteSize > maxPartBytes then
    some (.tooLong path)
  else none

end ClusterBalance.FileName
