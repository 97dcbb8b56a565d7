import ClusterBalance.Proofs.CommandLine.Call
import ClusterBalance.Proofs.Snapshot.File
import ClusterBalance.Proofs.Statistics.Overflow

/-! How a run of the command ends. Main statement: a call for a file prints the report that it asks
for or is refused with a message, except where the file has a value that nests too deep to be
written or the statistics overflow. -/

namespace ClusterBalance.CommandLine

namespace Outcome

/-- A run fails with a message and prints nothing else. -/
structure Refuses (o : Outcome) : Prop where
  exit : o.exit ≠ 0
  escaped : o.escaped = none
  output : o.output = ""
  message : ∃ before message, o.errors = before ++ errorLine message

theorem refuses_failure (message : String) : (failure message).Refuses :=
  ⟨Nat.one_ne_zero, rfl, rfl, "", message, String.empty_append.symm⟩

theorem refuses_usage {program : String} {u : Usage} {fault : UsageFault}
    (h : fault.badPath? = none) : (usage program u fault).Refuses := by
  rw [usage, h]
  exact ⟨Nat.succ_ne_zero 1, rfl, rfl, _, _, rfl⟩

theorem Refuses.logged {o : Outcome} (h : o.Refuses) (handlers : List Log.Handler)
    (records : List Log.Record) : (o.logged handlers records).Refuses := by
  obtain ⟨before, message, herrors⟩ := h.message
  refine ⟨h.exit, h.escaped, h.output, Format.unlines (Log.written handlers records) ++ before,
    message, ?_⟩
  rw [Outcome.logged, herrors, String.append_assoc]

end Outcome

section Rejection

variable {handlers : List Log.Handler} {path : String} {fault : Fault}

theorem refuses_rejection
    (h : fault.errorClass.isInvalidValue ∨ fault.errorClass = .missingKey) :
    (rejection handlers path fault).Refuses := by
  unfold rejection
  split
  · exact Outcome.refuses_failure _
  · exact (Outcome.refuses_failure _).logged _ _

/-- Only an overflow and too many levels end a run otherwise. -/
theorem rejection_eq_escape
    (h : fault.errorClass = .overflow ∨ fault.errorClass = .tooDeep) :
    rejection handlers path fault = .escape fault := by
  unfold rejection
  rcases h with h | h <;> rw [h] <;> rfl

end Rejection

theorem refuses_statsError {handlers : List Log.Handler} {path : String} {e : StatsError}
    (h : e.errorClass ≠ .overflow) : (rejection handlers path e.fault).Refuses := by
  refine refuses_rejection (.inl ?_)
  show e.errorClass.isInvalidValue = true
  cases e with
  | degenerate quantity => rfl
  | alreadyFilled => rfl
  | tooManyDigits => rfl
  | arithmetic cause =>
    cases cause with
    | negativeRoot => rfl
    | squareTooLarge => exact absurd rfl h
    | wholeTooLarge => exact absurd rfl h

theorem effectiveConstraint_cases [Limits] (overrides : Constraint.Overrides Float) :
    (∃ constraint, Constraint.default.override overrides = .ok constraint ∧
        effectiveConstraint {} overrides = .ok constraint) ∨
      (∀ constraint, Constraint.default.override overrides ≠ .ok constraint) ∧
        ∃ message, effectiveConstraint {} overrides = .error (.failure message) := by
  have hdefault : ({} : Settings).constraint = Constraint.default := rfl
  have hclass : ∀ refusal, Constraint.default.override overrides = .error refusal →
      refusal.fault.errorClass.isInvalidValue = true := by
    intro refusal h
    unfold Constraint.override Constraint.make at h
    split at h
    · cases h
      rfl
    · split at h
      · cases h
        rfl
      · cases h
  unfold effectiveConstraint
  rw [hdefault]
  cases h : Constraint.default.override overrides with
  | ok constraint => exact .inl ⟨constraint, rfl, rfl⟩
  | error refusal =>
    refine .inr ⟨nofun, "Invalid balancing constraint: " ++ refusal.fault.message, ?_⟩
    show (if refusal.fault.errorClass.isInvalidValue then _ else _) = _
    rw [if_pos (hclass refusal h)]

theorem exists_readHandlers (verbose : Bool) :
    ∃ handlers, readHandlers {} verbose = .ok handlers := by
  have hdebug : Log.Level.ofName? (Text.upper "DEBUG") = some .debug := by decide +kernel
  have hinfo : Log.Level.ofName? (Text.upper "INFO") = some .info := by decide +kernel
  have hscopes : Log.cleanScopes [] = [] := rfl
  cases verbose with
  | false => exact ⟨[⟨.info, none⟩], by simp [readHandlers, Log.configure, hinfo, hscopes]⟩
  | true => exact ⟨[⟨.debug, none⟩], by simp [readHandlers, Log.configure, hdebug, hscopes]⟩

namespace Call

/-- The form of the output and the constraint that a call asks for. -/
def Judges (c : Call) (format : Format) (constraint : Constraint Float) : Prop :=
  ∃ overrides, c.Reads format overrides ∧ Constraint.default.override overrides = .ok constraint

/-- The cluster of the file that a call names, or its refusal. -/
def load [Limits] (c : Call) (text? : Option String) : Except SnapshotError (Cluster Float) :=
  Cluster.ofFile (FileName.plain c.path) text?

/-- A run prints the report that a call asks for, and nothing else on its output. -/
structure Prints [Limits] (c : Call) (text? : Option String) (o : Outcome) : Prop where
  exit : o.exit = 0
  escaped : o.escaped = none
  output : ∃ format constraint cluster report, c.Judges format constraint ∧
    c.load text? = .ok cluster ∧ cluster.measure constraint = .ok report ∧
    o.output = format.render report

/-- What a call asks for is read, but the file has a value that nests too deep to be written, or the
statistics overflow. -/
inductive Escapes [Limits] (c : Call) (text? : Option String) : Prop
  | tooDeep (format : Format) (constraint : Constraint Float) (e : SnapshotError)
      (hjudges : c.Judges format constraint) (hload : c.load text? = .error e) (h : e.TooDeep)
  | overflow (format : Format) (constraint : Constraint Float) (cluster : Cluster Float)
      (hjudges : c.Judges format constraint) (hload : c.load text? = .ok cluster)
      (h : cluster.Overflows constraint)

variable {c : Call} {text? : Option String} {env : Environment}

theorem Reads.unique {format format' : Format} {overrides overrides' : Constraint.Overrides Float}
    (h : c.Reads format overrides) (h' : c.Reads format' overrides') :
    format = format' ∧ overrides = overrides' := by
  obtain ⟨percentage, threshold⟩ := overrides
  obtain ⟨percentage', threshold'⟩ := overrides'
  cases h.format.symm.trans h'.format
  cases h.percentage.symm.trans h'.percentage
  cases h.threshold.symm.trans h'.threshold
  exact ⟨rfl, rfl⟩

theorem Judges.unique {format format' : Format} {constraint constraint' : Constraint Float}
    (h : c.Judges format constraint) (h' : c.Judges format' constraint') :
    constraint = constraint' := by
  obtain ⟨overrides, hreads, hoverride⟩ := h
  obtain ⟨overrides', hreads', hoverride'⟩ := h'
  obtain ⟨-, rfl⟩ := hreads.unique hreads'
  cases hoverride.symm.trans hoverride'
  rfl

theorem escapes_iff [Limits] {format : Format} {constraint : Constraint Float}
    (hjudges : c.Judges format constraint) :
    c.Escapes text? ↔ (∃ e, c.load text? = .error e ∧ e.TooDeep) ∨
      ∃ cluster, c.load text? = .ok cluster ∧ cluster.Overflows constraint := by
  constructor
  · rintro (⟨_, _, e, -, hload, h⟩ | ⟨_, _, cluster, hjudges', hload, h⟩)
    · exact .inl ⟨e, hload, h⟩
    · obtain rfl := hjudges.unique hjudges'
      exact .inr ⟨cluster, hload, h⟩
  · rintro (⟨e, hload, h⟩ | ⟨cluster, hload, h⟩)
    · exact .tooDeep format constraint e hjudges hload h
    · exact .overflow format constraint cluster hjudges hload h

/-- What is left of a call's preparation once its arguments are sorted. -/
theorem prepare_args [Limits] (env : Environment) (c : Call) :
    ∃ handlers, prepare env c.args =
      (readStatsLine env c.commandArgs >>= fun request =>
        effectiveConstraint {} request.overrides >>= fun constraint =>
          match Cluster.ofFile request.path request.text? with
          | .ok cluster => .ok ⟨handlers, constraint, request.format, request.path, cluster⟩
          | .error refusal => .error (rejection handlers request.path refusal.fault)) := by
  obtain ⟨handlers, hhandlers⟩ := exists_readHandlers c.verbose
  have hargs : c.args.isEmpty = false := by
    rw [args]
    cases c.verbose <;> rfl
  have hcommand : commandArguments env (statsCommand :: c.commandArgs) = .ok c.commandArgs := by
    rw [commandArguments, if_pos rfl]
  refine ⟨handlers, ?_⟩
  unfold prepare
  rw [hargs, c.readProgramLine_args env]
  simp only [Bool.false_eq_true, if_false, ok_bind, hcommand, readSettings, hhandlers]
  rfl

theorem readStatsLine_commandArgs (env : Environment) (c : Call) :
    readStatsLine env c.commandArgs =
      match readRequest env.entry c.arguments with
      | .ok request => .ok request
      | .error fault => .error (.usage env.program .stats fault) := by
  rw [readStatsLine, c.readArguments_commandArgs]
  exact if_pos c.isEmpty_values_help

theorem not_escapes_of_not_judges [Limits] (h : ∀ format constraint, ¬c.Judges format constraint) :
    ¬c.Escapes text? := by
  rintro (⟨format, constraint, e, hjudges, -, -⟩ | ⟨format, constraint, cluster, hjudges, -, -⟩)
  · exact h format constraint hjudges
  · exact h format constraint hjudges

/-- A call whose options are not read, or make no constraint, is refused. -/
theorem run_of_not_judges [Limits] (elapsed : String)
    (hfile : fileText? env.entry c.path = .ok text?)
    (h : ∀ format constraint, ¬c.Judges format constraint) :
    (run env c.args elapsed).Refuses := by
  obtain ⟨handlers, hprepare⟩ := prepare_args env c
  rw [readStatsLine_commandArgs] at hprepare
  rcases c.readRequest_cases hfile with ⟨-, fault, hrequest, hpath⟩ |
    ⟨format, overrides, hreads, hrequest⟩
  · have hrun : run env c.args elapsed = .usage env.program .stats fault := by
      rw [run, hprepare, hrequest]
      rfl
    rw [hrun]
    exact Outcome.refuses_usage hpath
  · rcases effectiveConstraint_cases overrides with ⟨constraint, hoverride, -⟩ |
      ⟨-, message, heffective⟩
    · exact absurd ⟨overrides, hreads, hoverride⟩ (h format constraint)
    · have hrun : run env c.args elapsed = .failure message := by
        rw [run, hprepare, hrequest]
        simp only [ok_bind, heffective]
        rfl
      rw [hrun]
      exact Outcome.refuses_failure message

/-- A run for a call whose options make a constraint ends with the file or with its statistics. -/
theorem run_of_judges [Limits] {format : Format} {constraint : Constraint Float} (elapsed : String)
    (hfile : fileText? env.entry c.path = .ok text?) (h : c.Judges format constraint) :
    ∃ handlers, run env c.args elapsed =
      match c.load text? with
      | .ok cluster => Job.finish ⟨handlers, constraint, format, FileName.plain c.path, cluster⟩
          (cluster.measure constraint) elapsed
      | .error e => rejection handlers (FileName.plain c.path) e.fault := by
  obtain ⟨overrides, hreads, hoverride⟩ := h
  obtain ⟨handlers, hprepare⟩ := prepare_args env c
  rw [readStatsLine_commandArgs] at hprepare
  rcases c.readRequest_cases hfile with ⟨hnot, -⟩ | ⟨format', overrides', hreads', hrequest⟩
  · exact absurd hreads (hnot format overrides)
  obtain ⟨rfl, rfl⟩ := hreads.unique hreads'
  rcases effectiveConstraint_cases overrides with ⟨constraint', hoverride', heffective⟩ | ⟨hnot, -⟩
  · cases hoverride.symm.trans hoverride'
    refine ⟨handlers, ?_⟩
    rw [run, hprepare, hrequest]
    simp only [ok_bind, heffective, load]
    cases Cluster.ofFile (FileName.plain c.path) text? <;> rfl
  · exact absurd hoverride (hnot constraint)

/-- A report is printed, an overflow escapes, and any other error of the statistics is reported. -/
theorem finish_cases (job : Job) (elapsed : String)
    (hn : HasDouble job.cluster.aliveBrokers.length) :
    (job.cluster.Overflows job.constraint ∧
        ∃ fault, (job.finish job.measure elapsed).escaped = some fault ∧
          fault.errorClass = .overflow) ∨
      ¬job.cluster.Overflows job.constraint ∧
        ((job.finish job.measure elapsed).Refuses ∨
          ∃ report, job.measure = .ok report ∧ (job.finish job.measure elapsed).exit = 0 ∧
            (job.finish job.measure elapsed).escaped = none ∧
            (job.finish job.measure elapsed).output = job.format.render report) := by
  rw [← Cluster.overflowing_measure_iff hn]
  cases hmeasure : job.measure with
  | ok report =>
    refine .inr ⟨?_, .inr ⟨report, rfl, rfl, rfl, rfl⟩⟩
    rintro ⟨e, he, -⟩
    cases hmeasure.symm.trans he
  | error e =>
    by_cases hclass : e.errorClass = .overflow
    · refine .inl ⟨⟨e, hmeasure, hclass⟩, e.fault, ?_, hclass⟩
      rw [Job.finish, rejection_eq_escape (.inl hclass)]
      rfl
    · refine .inr ⟨?_, .inl ((refuses_statsError hclass).logged _ _)⟩
      rintro ⟨e', he', hclass'⟩
      cases hmeasure.symm.trans he'
      exact hclass hclass'

/-- A run for a file ends in one of two ways: it prints the report that is asked for, or it fails
with a message. Only where a value nests too deep to be written, or where the statistics overflow,
does a fault escape. -/
theorem run_ends [Limits] (env : Environment) (c : Call) (elapsed : String)
    (hfile : fileText? env.entry c.path = .ok text?) :
    (c.Escapes text? → ∃ fault, (run env c.args elapsed).escaped = some fault ∧
      (fault.errorClass = .tooDeep ∨ fault.errorClass = .overflow)) ∧
    (¬c.Escapes text? →
      c.Prints text? (run env c.args elapsed) ∨ (run env c.args elapsed).Refuses) := by
  by_cases hjudges : ∃ format constraint, c.Judges format constraint
  · obtain ⟨format, constraint, hjudges⟩ := hjudges
    obtain ⟨handlers, hrun⟩ := run_of_judges elapsed hfile hjudges
    rw [escapes_iff hjudges, hrun]
    cases hload : c.load text? with
    | error e =>
      rcases Snapshot.errorClass_ofFile hload with ⟨hdeep, hclass⟩ | ⟨hnot, hclass⟩
      · refine ⟨fun _ => ⟨e.fault, ?_, .inl hclass⟩, fun h => absurd (.inl ⟨e, rfl, hdeep⟩) h⟩
        exact congrArg Outcome.escaped (rejection_eq_escape (.inr hclass))
      · refine ⟨fun h => ?_, fun _ => .inr (refuses_rejection hclass)⟩
        rcases h with ⟨_, ⟨⟩, hdeep⟩ | ⟨_, ⟨⟩, -⟩
        exact absurd hdeep hnot
    | ok cluster =>
      rcases finish_cases ⟨handlers, constraint, format, FileName.plain c.path, cluster⟩ elapsed
          (Snapshot.exists_ofWhole?_aliveBrokers hload) with
        ⟨hoverflow, fault, hescaped, hclass⟩ | ⟨hnot, h⟩
      · refine ⟨fun _ => ⟨fault, hescaped, .inr hclass⟩, fun h => absurd ?_ h⟩
        exact .inr ⟨cluster, rfl, hoverflow⟩
      · refine ⟨fun h' => ?_, fun _ => ?_⟩
        · rcases h' with ⟨_, ⟨⟩, -⟩ | ⟨_, ⟨⟩, hoverflow⟩
          exact absurd hoverflow hnot
        · rcases h with h | ⟨report, hreport, hexit, hescaped, houtput⟩
          · exact .inr h
          · exact .inl ⟨hexit, hescaped, format, constraint, cluster, report, hjudges, hload,
              hreport, houtput⟩
  · have hnot : ∀ format constraint, ¬c.Judges format constraint :=
      fun format constraint h => hjudges ⟨format, constraint, h⟩
    refine ⟨fun h => absurd h (not_escapes_of_not_judges hnot), fun _ => .inr ?_⟩
    exact run_of_not_judges elapsed hfile hnot

/-- A snapshot of one broker. Its load is so large that even its distance to the mean, which is only
what rounding leaves, has no square. -/
def overloadedText : String :=
  "\x7b\"brokers\":[\x7b\"id\":0,\"host\":\"a\",\"capacity\":\x7b\"cpu\":10\x7d,\"replicas\":" ++
    "[\x7b\"topic\":\"t\",\"partition\":0,\"load\":\x7b\"cpu\":3e200\x7d\x7d]\x7d]\x7d"

/-- A call for a file without options. -/
def plainCall : Call := ⟨false, [], "s", []⟩

theorem override_nothing :
    Constraint.default.override ⟨.replicate none, .replicate none⟩ = .ok Constraint.default := by
  have hpercentage : Resource.all.find? (fun r =>
      !Constraint.admitsPercentage (Constraint.default.percentage.get r)) = none := by
    decide +kernel
  have hthreshold : Resource.all.find? (fun r =>
      !Constraint.admitsThreshold (Constraint.default.threshold.get r)) = none := by
    decide +kernel
  show Constraint.make Constraint.default.percentage Constraint.default.threshold = _
  rw [Constraint.make, hpercentage, hthreshold]

/-- Whether the statistics of a snapshot overflow under the constraint that stands by default. -/
def overflowsByDefault [Limits] (text : String) : Bool :=
  match Document.Json.read? Document.Json.strict text with
  | some (.object fields) =>
    match Cluster.ofDocument (.object fields) with
    | .ok cluster =>
      match cluster.measure Constraint.default with
      | .error e => e.errorClass = .overflow
      | .ok _ => false
    | .error _ => false
  | _ => false

theorem load_overloadedText :
    let _ : Limits := Limits.measured
    ∃ cluster, plainCall.load (some overloadedText) = .ok cluster ∧
      cluster.Overflows Constraint.default := by
  intro _
  have h : overflowsByDefault overloadedText = true := by decide +kernel
  unfold overflowsByDefault at h
  split at h
  next fields hfields =>
    split at h
    next cluster hcluster =>
      have hload : plainCall.load (some overloadedText) = .ok cluster := by
        rw [load, Cluster.ofFile, Cluster.ofText, hfields]
        exact hcluster
      refine ⟨cluster, hload, ?_⟩
      rw [← Cluster.overflowing_measure_iff (Snapshot.exists_ofWhole?_aliveBrokers hload)]
      split at h
      next e he => exact ⟨e, he, of_decide_eq_true h⟩
      · cases h
    · cases h
  · cases h

/-- The run for a snapshot that overflows ends with a fault, and the run for a file that holds no
text with a report or with a message. -/
theorem run_ends_plainCall :
    let _ : Limits := Limits.measured
    (fileText? (fun _ => .file overloadedText) plainCall.path = .ok (some overloadedText) ∧
      ∃ fault, (run ⟨"cli", fun _ => .file overloadedText⟩ plainCall.args "").escaped =
        some fault ∧ (fault.errorClass = .tooDeep ∨ fault.errorClass = .overflow)) ∧
    fileText? (fun _ => .binary) plainCall.path = .ok none ∧
      (plainCall.Prints none (run ⟨"cli", fun _ => .binary⟩ plainCall.args "") ∨
        (run ⟨"cli", fun _ => .binary⟩ plainCall.args "").Refuses) := by
  intro _
  have hjudges : plainCall.Judges .table Constraint.default :=
    ⟨⟨.replicate none, .replicate none⟩, ⟨rfl, rfl, rfl⟩, override_nothing⟩
  have hpath : FileName.fault? plainCall.path = none := by cbv
  have hfile (text : String) :
      fileText? (fun _ => .file text) plainCall.path = .ok (some text) := by
    rw [fileText?, hpath]
  have hbinary : fileText? (fun _ => .binary) plainCall.path = .ok none := by
    rw [fileText?, hpath]
  obtain ⟨cluster, hload, hoverflow⟩ := load_overloadedText
  have hescapes : plainCall.Escapes (some overloadedText) :=
    .overflow .table Constraint.default cluster hjudges hload hoverflow
  have hnot : ¬plainCall.Escapes none := by
    rw [escapes_iff hjudges]
    rintro (⟨_, ⟨⟩, h⟩ | ⟨_, ⟨⟩, -⟩)
    exact (SnapshotError.not_tooDeep (e := .malformed) rfl nofun) h
  constructor
  · exact ⟨hfile overloadedText,
      (run_ends ⟨"cli", fun _ => .file overloadedText⟩ plainCall "" (hfile _)).1 hescapes⟩
  · exact ⟨hbinary, (run_ends ⟨"cli", fun _ => .binary⟩ plainCall "" hbinary).2 hnot⟩

end Call

end ClusterBalance.CommandLine
