import ClusterBalance.Proofs.CommandLine.Call
import ClusterBalance.Proofs.Constraint.Values

/-! Runs that get to their measurement. Main statement: a run does so exactly if its command line is
in order and its settings and options make a constraint, by which it measures. -/

namespace ClusterBalance.CommandLine

open Constraint

variable {env : Environment} {entry : String → Entry} {args : List String} {settings : Settings}
  {a : Arguments StatsOption} {k : Constraint Float}

theorem named_eq_ok_iff {β : Type} {name : String} {x : Except ValueFault β} {y : β} :
    named name x = .ok y ↔ x = .ok y := by
  cases x <;> simp [named]

/-- A request is read exactly if each of its parts is: checks of the options add nothing. -/
theorem readRequest_eq_ok_iff {request : StatsRequest} :
    readRequest entry a = .ok request ↔
      readFormat (a.values .output) = .ok request.format ∧
      readPairs (a.values .percentage) = .ok request.overrides.percentage ∧
      readPairs (a.values .threshold) = .ok request.overrides.threshold ∧
      ∃ path, a.operands = [path] ∧ fileText? entry path = .ok request.text? ∧
        request.path = FileName.plain path := by
  constructor
  · intro h
    obtain ⟨_, -, h⟩ := bind_eq_ok_iff.mp h
    obtain ⟨format, hformat, h⟩ := bind_eq_ok_iff.mp h
    obtain ⟨percentage, hpercentage, h⟩ := bind_eq_ok_iff.mp h
    obtain ⟨threshold, hthreshold, h⟩ := bind_eq_ok_iff.mp h
    rw [named_eq_ok_iff] at hformat hpercentage hthreshold
    split at h
    next => cases h
    next path extra hoperands =>
      obtain ⟨text?, htext, h⟩ := bind_eq_ok_iff.mp h
      split at h
      next hextra =>
        cases h
        rw [List.isEmpty_iff.mp hextra] at hoperands
        exact ⟨hformat, hpercentage, hthreshold, path, hoperands, named_eq_ok_iff.mp htext, rfl⟩
      next => cases h
  · rintro ⟨hformat, hpercentage, hthreshold, path, hoperands, htext, hpath⟩
    -- a check fails only where reading the values of its option does, and that succeeds for all
    have hchecks : a.kinds.forM (checkOption a) = .ok ⟨⟩ := by
      rcases forM_cases (checkOption a) a.kinds with h | ⟨option, -, e, he, -⟩
      · exact h
      · cases option <;> simp [checkOption, named, hformat, hpercentage, hthreshold, ok_bind] at he
    obtain ⟨format, ⟨percentage, threshold⟩, path', text?⟩ := request
    simp only [readRequest, hchecks, ok_bind, hformat, hpercentage, hthreshold, hoperands, named]
    simp only [htext, ok_bind, List.isEmpty_nil, if_true, ← hpath]
    rfl

theorem readStatsLine_eq_ok_iff {request : StatsRequest} :
    readStatsLine env args = .ok request ↔ ∃ a, readArguments statsOptions true args = .ok a ∧
      (a.values .help).isEmpty ∧ readRequest env.entry a = .ok request := by
  unfold readStatsLine
  cases readArguments statsOptions true args with
  | error fault => exact iff_of_false nofun fun ⟨_, h, _⟩ => nomatch h
  | ok a =>
    constructor
    · intro h
      dsimp only at h
      split at h
      next hhelp =>
        split at h
        next request' hrequest =>
          cases h
          exact ⟨a, rfl, hhelp, hrequest⟩
        next => cases h
      next => cases h
    · rintro ⟨_, ⟨⟩, hhelp, hrequest⟩
      simp only [hhelp, if_true, hrequest]

variable [Limits]

/-- The constraint that is made of settings and of the values of the options for each part. -/
def Passes (settings : Settings) (options : Part → List String) (k : Constraint Float) : Prop :=
  ∃ percentage threshold, readPairs (options .percentage) = .ok percentage ∧
    readPairs (options .threshold) = .ok threshold ∧
    effectiveConstraint settings ⟨percentage, threshold⟩ = .ok k

theorem effectiveConstraint_eq_ok_iff {overrides : Overrides Float} :
    effectiveConstraint settings overrides = .ok k ↔
      settings.constraint.override overrides = .ok k := by
  unfold effectiveConstraint
  cases settings.constraint.override overrides with
  | ok k' => simp
  | error refusal =>
    refine iff_of_false (fun h => ?_) nofun
    dsimp only at h
    split at h <;> cases h

/-- The values of the options for each part. -/
def optionsOf (a : Arguments StatsOption) : Part → List String
  | .percentage => a.values .percentage
  | .threshold => a.values .threshold

/-- Everything on a command line is in order, apart from the values of the options for the
constraint. It asks for some settings and has some arguments for the command. -/
structure Ready (env : Environment) (args : List String) (settings : Settings)
    (a : Arguments StatsOption) : Prop where
  line : ∃ line commandArgs handlers, args.isEmpty = false ∧
    readProgramLine env args = .ok line ∧ commandArguments env line.rest = .ok commandArgs ∧
    readSettings line.config = .ok settings ∧ readHandlers settings line.verbose = .ok handlers ∧
    readArguments statsOptions true commandArgs = .ok a
  help : (a.values .help).isEmpty
  format : ∃ format, readFormat (a.values .output) = .ok format
  cluster : ∃ path text? cluster, a.operands = [path] ∧ fileText? env.entry path = .ok text? ∧
    Cluster.ofFile (FileName.plain path) text? = .ok cluster

theorem Ready.unique {settings' : Settings} {a' : Arguments StatsOption}
    (h : Ready env args settings a) (h' : Ready env args settings' a') :
    settings = settings' ∧ a = a' := by
  obtain ⟨line, commandArgs, _, -, hline, hcommand, hsettings, -, ha⟩ := h.line
  obtain ⟨line', commandArgs', _, -, hline', hcommand', hsettings', -, ha'⟩ := h'.line
  cases hline.symm.trans hline'
  cases hcommand.symm.trans hcommand'
  cases hsettings.symm.trans hsettings'
  cases ha.symm.trans ha'
  exact ⟨rfl, rfl⟩

theorem exists_ready_of_prepare {job : Job} (h : prepare env args = .ok job) :
    ∃ settings a, Ready env args settings a ∧ Passes settings (optionsOf a) job.constraint := by
  unfold prepare at h
  split at h
  next => cases h
  next hargs =>
    obtain ⟨line, hline, h⟩ := bind_eq_ok_iff.mp h
    obtain ⟨commandArgs, hcommand, h⟩ := bind_eq_ok_iff.mp h
    obtain ⟨settings, hsettings, h⟩ := bind_eq_ok_iff.mp h
    obtain ⟨handlers, hhandlers, h⟩ := bind_eq_ok_iff.mp h
    obtain ⟨request, hrequest, h⟩ := bind_eq_ok_iff.mp h
    obtain ⟨constraint, hconstraint, h⟩ := bind_eq_ok_iff.mp h
    obtain ⟨a, ha, hhelp, hrequest⟩ := readStatsLine_eq_ok_iff.mp hrequest
    obtain ⟨hformat, hpercentage, hthreshold, path, hoperands, htext, hpath⟩ :=
      readRequest_eq_ok_iff.mp hrequest
    split at h
    next cluster hcluster =>
      cases h
      rw [hpath] at hcluster
      refine ⟨settings, a, ?_, _, _, hpercentage, hthreshold, hconstraint⟩
      exact
        { line := ⟨line, commandArgs, handlers, Bool.eq_false_iff.mpr hargs, hline, hcommand,
            hsettings, hhandlers, ha⟩
          help := hhelp
          format := ⟨_, hformat⟩
          cluster := ⟨path, _, cluster, hoperands, htext, hcluster⟩ }
    next => cases h

/-- A command line that is in order gets to its measurement exactly if a constraint is passed on,
and it measures by that. -/
theorem Ready.exists_prepare_iff (h : Ready env args settings a) :
    (∃ job, prepare env args = .ok job ∧ job.constraint = k) ↔
      Passes settings (optionsOf a) k := by
  constructor
  · rintro ⟨job, hjob, rfl⟩
    obtain ⟨settings', a', h', hpasses⟩ := exists_ready_of_prepare hjob
    obtain ⟨rfl, rfl⟩ := h.unique h'
    exact hpasses
  · rintro ⟨percentage, threshold, hpercentage, hthreshold, hk⟩
    obtain ⟨line, commandArgs, handlers, hargs, hline, hcommand, hsettings, hhandlers, ha⟩ := h.line
    obtain ⟨format, hformat⟩ := h.format
    obtain ⟨path, text?, cluster, hoperands, htext, hcluster⟩ := h.cluster
    have hrequest : readStatsLine env commandArgs =
        .ok ⟨format, ⟨percentage, threshold⟩, FileName.plain path, text?⟩ :=
      readStatsLine_eq_ok_iff.mpr ⟨a, ha, h.help, readRequest_eq_ok_iff.mpr
        ⟨hformat, hpercentage, hthreshold, path, hoperands, htext, rfl⟩⟩
    refine ⟨⟨handlers, k, format, FileName.plain path, cluster⟩, ?_, rfl⟩
    simp only [prepare, hargs, Bool.false_eq_true, if_false, hline, hcommand, hsettings, hhandlers,
      hrequest, hk, hcluster, ok_bind]
    rfl

end ClusterBalance.CommandLine
