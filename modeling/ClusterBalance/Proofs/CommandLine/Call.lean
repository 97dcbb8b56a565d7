import ClusterBalance.CommandLine.Run
import ClusterBalance.Proofs.Chain

/-! Calls of the command with options for the output and for the constraint. Main statement: the
arguments of a call are read as the options that it gives and the path that it names, and its
request is refused only for the value of an option. -/

namespace ClusterBalance.CommandLine

/-- The long or the short name of an option, as it is called. -/
def OptionSpec.called {κ : Type} (spec : OptionSpec κ) (short : Bool) : String :=
  match short, spec.short with
  | true, some c => String.ofList ['-', c]
  | _, _ => "--" ++ spec.long

/-- An option of the command with a value, given by its long or its short name. -/
structure GivenOption where
  spec : OptionSpec StatsOption
  known : spec ∈ statsOptions
  valued : spec.takesValue = true
  short : Bool
  value : String

namespace GivenOption

/-- The name by which an option is given. -/
def name (o : GivenOption) : String := o.spec.called o.short

/-- The arguments that give an option. -/
def args (o : GivenOption) : List String := [o.name, o.value]

/-- The kind of an option and its value. -/
def pair (o : GivenOption) : StatsOption × String := (o.spec.kind, o.value)

theorem name_ne (o : GivenOption) : o.name ≠ "--" ∧ looksLikeOption o.name = true := by
  have hall : ∀ spec ∈ statsOptions, ∀ short,
      spec.called short ≠ "--" ∧ looksLikeOption (spec.called short) = true := by decide
  exact hall o.spec o.known o.short

theorem readToken_name (o : GivenOption) :
    readToken statsOptions o.name = .ok ⟨[], some (o.spec.kind, o.name)⟩ := by
  obtain ⟨spec, known, valued, short, value⟩ := o
  simp only [statsOptions, List.mem_cons, List.not_mem_nil, or_false] at known
  rcases known with rfl | rfl | rfl | rfl
  case inr.inr.inr => cases valued
  all_goals
    cases short <;>
      simp [name, OptionSpec.called, readToken, longToken?, splitValue, shortToken, statsOptions]

end GivenOption

theorem readArguments_given (given : List GivenOption) {rest : List String}
    {more : Arguments StatsOption} (h : readArguments statsOptions true rest = .ok more) :
    readArguments statsOptions true (given.flatMap GivenOption.args ++ rest) =
      .ok { more with options := given.map GivenOption.pair ++ more.options } := by
  induction given with
  | nil => exact h
  | cons o given ih =>
    obtain ⟨hne, hlooks⟩ := o.name_ne
    show readArguments statsOptions true
      (o.name :: o.value :: (given.flatMap GivenOption.args ++ rest)) = _
    rw [readArguments.eq_def]
    split
    next heq => cases heq
    next heq => exact absurd (List.cons.inj heq).1 hne
    next arg rest' _ heq =>
      cases heq
      rw [if_pos hlooks, o.readToken_name]
      show (readArguments statsOptions true (given.flatMap GivenOption.args ++ rest) >>= _) = _
      rw [ih]
      rfl

section Values

variable {β : Type} {x : Except ValueFault β}

/-- The fault of a form or of a pair is not that of a path. -/
def ValueFault.NotPath (cause : ValueFault) : Prop := ∀ fault, cause ≠ .badPath fault

/-- A value is refused for something else than a path, or it is read. -/
theorem named_cases (name : String) (hx : ∀ cause, x = .error cause → cause.NotPath) :
    ((∀ y, x ≠ .ok y) ∧ ∃ fault, named name x = .error fault ∧ fault.badPath? = none) ∨
      ∃ y, x = .ok y ∧ named name x = .ok y := by
  cases x with
  | ok y => exact .inr ⟨y, rfl, rfl⟩
  | error cause =>
    refine .inl ⟨nofun, .invalidValue name cause, rfl, ?_⟩
    cases cause with
    | badPath fault => exact absurd rfl (hx _ rfl fault)
    | _ => rfl

theorem notPath_readFormat {names : List String} {cause : ValueFault}
    (h : readFormat names = .error cause) : cause.NotPath := by
  unfold readFormat at h
  split at h
  · cases h
  · split at h
    · cases h
    · cases h
      exact nofun

theorem notPath_readPair {item : String} {cause : ValueFault}
    (h : readPair item = .error cause) : cause.NotPath := by
  unfold readPair at h
  split at h
  · cases h
    exact nofun
  · split at h
    · cases h
      exact nofun
    · split at h
      · cases h
      · cases h
        exact nofun

theorem notPath_readPairs {items : List String} {cause : ValueFault}
    (h : readPairs items = .error cause) : cause.NotPath := by
  have hfold : ∀ values : PerResource (Option Float),
      items.foldlM (fun values item => do
        let pair ← readPair item
        return values.set pair.1 (some pair.2)) values = .error cause → cause.NotPath := by
    clear h
    induction items with
    | nil => exact fun _ h => nomatch h
    | cons item rest ih =>
      intro values h
      rw [List.foldlM_cons] at h
      rcases bind_eq_error_iff.mp h with h | ⟨values', -, h⟩
      · rcases bind_eq_error_iff.mp h with h | ⟨_, -, h⟩
        · exact notPath_readPair h
        · cases h
      · exact ih values' h
  exact hfold _ h

end Values

theorem readArguments_path {path : String} {rest : List String} {more : Arguments StatsOption}
    (hpath : looksLikeOption path = false)
    (h : readArguments statsOptions true rest = .ok more) :
    readArguments statsOptions true (path :: rest) =
      .ok { more with operands := path :: more.operands } := by
  have hdashes : path ≠ "--" := by
    rintro rfl
    exact absurd hpath (by decide)
  rw [readArguments.eq_def]
  split
  next heq => cases heq
  next heq => exact absurd (List.cons.inj heq).1 hdashes
  next heq =>
    cases heq
    rw [hpath, h]
    rfl

/-- A call of the command for a file, with options before and after its path. -/
structure Call where
  verbose : Bool
  before : List GivenOption
  path : String
  after : List GivenOption

namespace Call

/-- All options of a call. -/
def given (c : Call) : List GivenOption := c.before ++ c.after

/-- The arguments of the command. A path that looks like an option stands at the end, behind two
dashes. -/
def commandArgs (c : Call) : List String :=
  if looksLikeOption c.path then c.given.flatMap GivenOption.args ++ ["--", c.path]
  else c.before.flatMap GivenOption.args ++ c.path :: c.after.flatMap GivenOption.args

/-- The arguments of the program. -/
def args (c : Call) : List String :=
  (if c.verbose then ["--verbose"] else []) ++ statsCommand :: c.commandArgs

/-- The arguments as they are sorted. -/
def arguments (c : Call) : Arguments StatsOption := ⟨c.given.map GivenOption.pair, [c.path]⟩

/-- The values of one kind of option, in order. -/
def values (c : Call) (kind : StatsOption) : List String := c.arguments.values kind

variable {c : Call} {env : Environment}

theorem readArguments_commandArgs (c : Call) :
    readArguments statsOptions true c.commandArgs = .ok c.arguments := by
  unfold commandArgs arguments
  split
  · have hpath : readArguments statsOptions true ["--", c.path] = .ok ⟨[], [c.path]⟩ := rfl
    rw [readArguments_given c.given hpath, List.append_nil]
  next hpath =>
    have hnil : readArguments statsOptions true [] = .ok ⟨[], []⟩ := rfl
    have hafter := readArguments_given c.after hnil
    rw [List.append_nil, List.append_nil] at hafter
    have hbefore := readArguments_path (Bool.eq_false_iff.mpr hpath) hafter
    rw [readArguments_given c.before hbefore, given, List.map_append]

theorem readArguments_statsCommand (rest : List String) :
    readArguments programOptions false (statsCommand :: rest) =
      .ok ⟨[], statsCommand :: rest⟩ := by
  rw [readArguments.eq_def]
  split
  next heq => cases heq
  next heq => exact absurd (List.cons.inj heq).1 (by decide)
  next heq =>
    cases heq
    rfl

theorem readArguments_verbose (rest : List String) :
    readArguments programOptions false ("--verbose" :: statsCommand :: rest) =
      .ok ⟨[(.verbose, "")], statsCommand :: rest⟩ := by
  have htoken : readToken programOptions "--verbose" = .ok ⟨[(.verbose, "")], none⟩ := by
    simp [readToken, longToken?, splitValue, programOptions]
  rw [readArguments.eq_def]
  split
  next heq => cases heq
  next heq => exact absurd (List.cons.inj heq).1 (by decide)
  next heq =>
    cases heq
    rw [if_pos (by decide), htoken]
    show (readArguments programOptions false (statsCommand :: rest) >>= _) = _
    rw [readArguments_statsCommand]
    rfl

theorem readProgramLine_args (env : Environment) (c : Call) :
    readProgramLine env c.args = .ok ⟨c.verbose, none, statsCommand :: c.commandArgs⟩ := by
  have hargs : readArguments programOptions false c.args =
      .ok ⟨if c.verbose then [(.verbose, "")] else [], statsCommand :: c.commandArgs⟩ := by
    unfold args
    cases c.verbose with
    | false => exact readArguments_statsCommand _
    | true => exact readArguments_verbose _
  rw [readProgramLine, hargs]
  cases c.verbose <;> rfl

theorem isEmpty_values_help (c : Call) : (c.arguments.values .help).isEmpty := by
  have hkind : ∀ spec ∈ statsOptions, spec.takesValue = true → spec.kind ≠ .help := by decide
  have hgiven : ∀ pair ∈ c.given.map GivenOption.pair, ¬decide (pair.1 = .help) = true := by
    intro pair hpair
    obtain ⟨o, -, rfl⟩ := List.mem_map.mp hpair
    rw [decide_eq_true_eq]
    exact hkind o.spec o.known o.valued
  have hvalues : c.arguments.values .help = [] := by
    rw [Arguments.values, List.map_eq_nil_iff]
    exact List.filter_eq_nil_iff.mpr hgiven
  rw [hvalues]
  rfl

/-- The values of the options that a call gives are read. -/
structure Reads (c : Call) (format : Format) (overrides : Constraint.Overrides Float) : Prop where
  format : readFormat (c.values .output) = .ok format
  percentage : readPairs (c.values .percentage) = .ok overrides.percentage
  threshold : readPairs (c.values .threshold) = .ok overrides.threshold

/-- A check of an option is refused for a value that is not read, or passes. -/
theorem checkOption_cases (c : Call) (option : StatsOption) :
    ((∀ format overrides, ¬c.Reads format overrides) ∧
        ∃ fault, checkOption c.arguments option = .error fault ∧ fault.badPath? = none) ∨
      checkOption c.arguments option = .ok () := by
  have hformat := named_cases option.title fun _ => @notPath_readFormat (c.values option) _
  have hpairs := named_cases option.title fun _ => @notPath_readPairs (c.values option) _
  cases option with
  | output =>
    rcases hformat with ⟨hnot, fault, h, hpath⟩ | ⟨format, -, h⟩
    · refine .inl ⟨fun format _ hreads => hnot format hreads.format, fault, ?_, hpath⟩
      exact bind_eq_error_iff.mpr (.inl h)
    · exact .inr (bind_eq_ok_iff.mpr ⟨format, h, rfl⟩)
  | percentage =>
    rcases hpairs with ⟨hnot, fault, h, hpath⟩ | ⟨values, -, h⟩
    · refine .inl ⟨fun _ _ hreads => hnot _ hreads.percentage, fault, ?_, hpath⟩
      exact bind_eq_error_iff.mpr (.inl h)
    · exact .inr (bind_eq_ok_iff.mpr ⟨values, h, rfl⟩)
  | threshold =>
    rcases hpairs with ⟨hnot, fault, h, hpath⟩ | ⟨values, -, h⟩
    · refine .inl ⟨fun _ _ hreads => hnot _ hreads.threshold, fault, ?_, hpath⟩
      exact bind_eq_error_iff.mpr (.inl h)
    · exact .inr (bind_eq_ok_iff.mpr ⟨values, h, rfl⟩)
  | help => exact .inr rfl

/-- The request of a call is refused for a value that is not read, but not for the path, or it asks
for what the values say. -/
theorem readRequest_cases {entry : String → Entry} {text? : Option String} (c : Call)
    (hfile : fileText? entry c.path = .ok text?) :
    ((∀ format overrides, ¬c.Reads format overrides) ∧
        ∃ fault, readRequest entry c.arguments = .error fault ∧ fault.badPath? = none) ∨
      ∃ format overrides, c.Reads format overrides ∧
        readRequest entry c.arguments = .ok ⟨format, overrides, FileName.plain c.path, text?⟩ := by
  unfold readRequest
  -- An option that is not given has not been checked, so the values are split on once more.
  rcases (forM_cases (checkOption c.arguments) c.arguments.kinds).symm with
    ⟨option, -, fault, hfault, hchecks⟩ | hchecks
  · rcases c.checkOption_cases option with ⟨hnot, fault', h, hpath⟩ | h
    · cases hfault.symm.trans h
      exact .inl ⟨hnot, fault, by rw [hchecks]; rfl, hpath⟩
    · cases hfault.symm.trans h
  rw [hchecks, ok_bind]
  rcases named_cases StatsOption.output.title fun _ =>
      @notPath_readFormat (c.arguments.values .output) _ with
    ⟨hnot, fault, h, hpath⟩ | ⟨format, hformat, h⟩
  · exact .inl ⟨fun format _ hreads => hnot format hreads.format, fault, by rw [h]; rfl, hpath⟩
  rw [h, ok_bind]
  rcases named_cases StatsOption.percentage.title fun _ =>
      @notPath_readPairs (c.arguments.values .percentage) _ with
    ⟨hnot, fault, h, hpath⟩ | ⟨percentage, hpercentage, h⟩
  · exact .inl ⟨fun _ _ hreads => hnot _ hreads.percentage, fault, by rw [h]; rfl, hpath⟩
  rw [h, ok_bind]
  rcases named_cases StatsOption.threshold.title fun _ =>
      @notPath_readPairs (c.arguments.values .threshold) _ with
    ⟨hnot, fault, h, hpath⟩ | ⟨threshold, hthreshold, h⟩
  · exact .inl ⟨fun _ _ hreads => hnot _ hreads.threshold, fault, by rw [h]; rfl, hpath⟩
  rw [h, ok_bind]
  have hnamed : named "'SNAPSHOT'" (fileText? entry c.path) = .ok text? := by rw [hfile, named]
  refine .inr ⟨format, ⟨percentage, threshold⟩, ⟨hformat, hpercentage, hthreshold⟩, ?_⟩
  exact bind_eq_ok_iff.mpr ⟨text?, hnamed, rfl⟩

end Call

end ClusterBalance.CommandLine
