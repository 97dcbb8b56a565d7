import ClusterBalance.Text.Quoted
import ClusterBalance.Text.Similarity

/-! The arguments of a command line: options with long and short names, flags and options with a
value, and the operands between or behind them. -/

namespace ClusterBalance.CommandLine

/-- An option. Its kind tells what it is for. -/
structure OptionSpec (κ : Type) where
  kind : κ
  long : String
  short : Option Char
  takesValue : Bool

/-- What is wrong with arguments before any of their values is looked at. An option that is not
there comes with the options that may have been meant. -/
inductive ArgumentFault where
  | noSuchOption (name : String) (similar : List String)
  | needsValue (name : String)
  | takesNoValue (name : String)
  deriving DecidableEq, Repr

/-- What is said about the names that may have been meant. -/
def alternatives : List String → String
  | [] => ""
  | [name] => " Did you mean " ++ Text.quoted name ++ "?"
  | names => " (Did you mean one of: " ++ ", ".intercalate (names.map Text.quoted) ++ "?)"

/-- The text of a fault. -/
def ArgumentFault.message : ArgumentFault → String
  | noSuchOption name similar =>
    "No such option " ++ Text.quoted name ++ "." ++ alternatives similar
  | needsValue name => "Option " ++ Text.quoted name ++ " requires an argument."
  | takesNoValue name => "Option " ++ Text.quoted name ++ " does not take a value."

/-- Arguments sorted into options, in order and with their values, and operands. -/
structure Arguments (κ : Type) where
  options : List (κ × String)
  operands : List String

/-- What one argument says: flags and options with their values, and maybe an option whose value is
the next argument, with the name it was called by. -/
structure Token (κ : Type) where
  options : List (κ × String)
  awaiting : Option (κ × String)

/-- The name and the value of an argument with an equals sign. -/
def splitValue (arg : String) : String × Option String :=
  let cs := arg.toList
  let name := cs.takeWhile (· != '=')
  match cs.dropWhile (· != '=') with
  | _ :: value => (String.ofList name, some (String.ofList value))
  | [] => (arg, none)

/-- An argument that calls an option by its long name. -/
def longToken? {κ : Type} (specs : List (OptionSpec κ)) (arg : String) :
    Option (Except ArgumentFault (Token κ)) :=
  let (name, value) := splitValue arg
  (specs.find? fun spec => "--" ++ spec.long = name).map fun spec =>
    match spec.takesValue, value with
    | true, some value => .ok ⟨[(spec.kind, value)], none⟩
    | true, none => .ok ⟨[], some (spec.kind, name)⟩
    | false, some _ => .error (.takesNoValue name)
    | false, none => .ok ⟨[(spec.kind, "")], none⟩

/-- The letters of an argument that calls options by their short names. An option with a value takes
the letters behind it, if there are any. -/
def shortToken {κ : Type} (specs : List (OptionSpec κ)) :
    List Char → Except ArgumentFault (Token κ)
  | [] => .ok ⟨[], none⟩
  | c :: cs =>
    let name := String.ofList ['-', c]
    match specs.find? fun spec => spec.short = some c with
    | none => .error (.noSuchOption name [])
    | some spec =>
      if spec.takesValue then
        if cs.isEmpty then .ok ⟨[], some (spec.kind, name)⟩
        else .ok ⟨[(spec.kind, String.ofList cs)], none⟩
      else do
        let token ← shortToken specs cs
        return { token with options := (spec.kind, "") :: token.options }

/-- The long names of options, as they are called. -/
def longNames {κ : Type} (specs : List (OptionSpec κ)) : List String :=
  specs.map fun spec => "--" ++ spec.long

/-- An argument that starts with a dash. -/
def readToken {κ : Type} (specs : List (OptionSpec κ)) (arg : String) :
    Except ArgumentFault (Token κ) :=
  match longToken? specs arg with
  | some token => token
  | none =>
    match arg.toList with
    | '-' :: '-' :: _ =>
      let name := (splitValue arg).1
      .error (.noSuchOption name (Text.suggestions (longNames specs) name))
    | _ => shortToken specs (arg.toList.drop 1)

/-- Whether an argument is read as an option: a dash with something behind it. -/
def looksLikeOption (arg : String) : Bool :=
  arg.toList.head? = some '-' && arg.toList.length > 1

/-- Sorts arguments. Two dashes end the options. Where options and operands may not be mixed, the
first operand ends them too. -/
def readArguments {κ : Type} (specs : List (OptionSpec κ)) (mixed : Bool) :
    List String → Except ArgumentFault (Arguments κ)
  | [] => .ok ⟨[], []⟩
  | "--" :: rest => .ok ⟨[], rest⟩
  | arg :: rest =>
    if looksLikeOption arg then do
      let token ← readToken specs arg
      match token.awaiting with
      | none =>
        let more ← readArguments specs mixed rest
        return { more with options := token.options ++ more.options }
      | some (kind, name) =>
        match rest with
        | [] => throw (.needsValue name)
        | value :: rest' =>
          let more ← readArguments specs mixed rest'
          return { more with options := token.options ++ (kind, value) :: more.options }
    else if mixed then do
      let more ← readArguments specs mixed rest
      return { more with operands := arg :: more.operands }
    else .ok ⟨[], arg :: rest⟩

/-- The values of one kind of option, in order. -/
def Arguments.values {κ : Type} [DecidableEq κ] (a : Arguments κ) (kind : κ) : List String :=
  (a.options.filter fun (k, _) => k = kind).map Prod.snd

/-- The kinds of options given, in the order in which they first appear. -/
def Arguments.kinds {κ : Type} [DecidableEq κ] (a : Arguments κ) : List κ :=
  (a.options.map Prod.fst).eraseDups

end ClusterBalance.CommandLine
