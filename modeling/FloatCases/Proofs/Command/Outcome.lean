import FloatCases.Command.Directory
import FloatCases.Command.Run
import FloatCases.Proofs.Command.Verbosity
import FloatCases.Proofs.Conversion.Reading
import FloatCases.Proofs.Log.Selection
import FloatCases.Proofs.Log.Settings
import FloatCases.Proofs.Report.Wording

/-!
What a run of the program comes to. Main statement: a request is answered with the whole listing or
with none, whatever is logged, and what is logged is what the setting selects of all that is told.
-/
namespace FloatCases

namespace Command

variable {lg : Logger} {x y : Invocation} {r r' : Request} {env : Text → Option Text}
  {verbose : Bool} {t : Threshold}

/-- Everything that is told in a run about a request. -/
def told (x : Invocation) (r : Request) : List Event :=
  match x.read r.path with
  | none => []
  | some source => events (options x.program r) source

/-- The setting that counts: of the variables that are set to one that can be read, the first. -/
def setting? (lg : Logger) (env : Text → Option Text) : Option Text :=
  logVariables.findSome? fun v => (env v).filter fun s => (lg.filter? s).isSome

/--
The threshold that is asked for: by the option, by the setting that counts, if it is the name of
one, or by having no setting.
-/
def threshold? (lg : Logger) (env : Text → Option Text) (verbose : Bool) : Option Threshold :=
  if verbose then some (some .debug)
  else
    match setting? lg env with
    | none => some (some .warn)
    | some s => Threshold.ofName? s

theorem bind_setting? (lg : Logger) (env : Text → Option Text) :
    (setting? lg env).bind lg.filter? =
      logVariables.findSome? fun v => (env v).bind lg.filter? := by
  unfold setting?
  induction logVariables with
  | nil => rfl
  | cons v vs ih =>
    simp only [List.findSome?_cons]
    cases hs : env v with
    | none => exact ih
    | some s =>
      rw [Option.filter_some, Option.bind_some]
      cases hf : lg.filter? s with
      | none => exact ih
      | some f => exact hf

theorem filter_of_verbose (hl : lg.Lawful) (env : Text → Option Text) :
    filter lg env true = Threshold.filter (some .debug) := by
  rw [filter, if_pos rfl]
  exact hl.filter_of_filter? _ _ (hl.filter?_of_name _ _ rfl)

/-- Where a threshold is asked for, the filter is that of the threshold. -/
theorem filter_of_threshold? (hl : lg.Lawful) (h : threshold? lg env verbose = some t) :
    filter lg env verbose = t.filter := by
  rw [threshold?] at h
  split at h
  · rename_i hv
    obtain rfl := Option.some.inj h
    rw [hv, filter_of_verbose hl]
  · rename_i hv
    rw [filter, if_neg hv, ← bind_setting?]
    cases hs : setting? lg env with
    | none =>
      rw [hs] at h
      obtain rfl := Option.some.inj h
      exact hl.filter_of_filter? _ _ (hl.filter?_of_name _ _ rfl)
    | some s =>
      rw [hs] at h
      rw [Option.bind_some, hl.filter?_of_name s t h, Option.getD_some]

theorem run_of_request (lg : Logger) (h : Action.ofArguments x.args = .convert r) :
    run lg x = match x.read r.path with
      | none => finish 1 [] (some ("Failed to read ".toList ++ r.path))
      | some source =>
        convertFile lg (filter lg x.env r.verbose) (options x.program r) r.path source := by
  rw [run]
  generalize Action.ofArguments x.args = action at h ⊢
  subst h
  rfl

/-- What a run for a request can come to: no text, a fault in the text, or a listing. -/
theorem run_cases (lg : Logger) (h : Action.ofArguments x.args = .convert r) :
    (x.read r.path = none ∧ (run lg x).exit = 1 ∧ (run lg x).stdout = [] ∧
      (run lg x).report = none) ∨
    (∃ source e, x.read r.path = some source ∧
      Conversion.convert (options x.program r) source = .error e ∧ (run lg x).exit = 1 ∧
        (run lg x).stdout = [] ∧ (run lg x).report = some (Report.render true e r.path)) ∨
    ∃ source c, x.read r.path = some source ∧
      Conversion.convert (options x.program r) source = .ok c ∧ (run lg x).exit = 0 ∧
        (run lg x).stdout = c.output ∧ (run lg x).report = none := by
  rw [run_of_request lg h]
  cases hs : x.read r.path with
  | none => exact Or.inl ⟨rfl, rfl, rfl, rfl⟩
  | some source =>
    cases hc : Conversion.convert (options x.program r) source with
    | error e => exact Or.inr (Or.inl ⟨source, e, rfl, hc, by simp [convertFile, hc]⟩)
    | ok c => exact Or.inr (Or.inr ⟨source, c, rfl, hc, by simp [convertFile, hc]⟩)

/-- If there is a listing, it is printed. -/
theorem run_of_convert {source : Text} {c : Conversion}
    (h : Action.ofArguments x.args = .convert r) (hs : x.read r.path = some source)
    (hc : Conversion.convert (options x.program r) source = .ok c) :
    (run lg x).exit = 0 ∧ (run lg x).stdout = c.output := by
  rcases run_cases lg h with ⟨hnone, -⟩ | ⟨source', e, hs', he, -⟩ |
    ⟨source', c', hs', hc', hexit, hout, -⟩
  · rw [hs] at hnone
    cases hnone
  · obtain rfl := Option.some.inj (hs.symm.trans hs')
    rw [hc] at he
    cases he
  · obtain rfl := Option.some.inj (hs.symm.trans hs')
    obtain rfl := Except.ok.inj (hc.symm.trans hc')
    exact ⟨hexit, hout⟩

/-- If there is no listing, the run fails and prints nothing. -/
theorem run_of_not_convert (h : Action.ofArguments x.args = .convert r)
    (hn : ¬ ∃ source c, x.read r.path = some source ∧
      Conversion.convert (options x.program r) source = .ok c) :
    (run lg x).exit = 1 ∧ (run lg x).stdout = [] := by
  rcases run_cases lg h with ⟨-, hexit, hout, -⟩ | ⟨-, -, -, -, hexit, hout, -⟩ |
    ⟨source, c, hs, hc, -⟩
  · exact ⟨hexit, hout⟩
  · exact ⟨hexit, hout⟩
  · exact absurd ⟨source, c, hs, hc⟩ hn

/-- What is reported is a fault in the text. -/
theorem report_run_eq_some_iff (h : Action.ofArguments x.args = .convert r) {report : Text} :
    (run lg x).report = some report ↔ ∃ source e, x.read r.path = some source ∧
      Conversion.convert (options x.program r) source = .error e ∧
        report = Report.render true e r.path := by
  rcases run_cases lg h with ⟨hs, -, -, hr⟩ | ⟨source, e, hs, he, -, -, hr⟩ |
    ⟨source, c, hs, hc, -, -, hr⟩
  · simp [hr, hs]
  · simp [hr, hs, he, eq_comm]
  · simp [hr, hs, hc]

theorem log_run (h : Action.ofArguments x.args = .convert r) :
    (run lg x).log = lg.log (filter lg x.env r.verbose) (told x r) := by
  rw [run_of_request lg h, told]
  cases x.read r.path with
  | none => rfl
  | some source =>
    simp only [convertFile]
    cases Conversion.convert (options x.program r) source <;> rfl

theorem path_congr (hr : r'.quiet = r.quiet) : r'.path = r.path := by
  change r'.quiet.path = r.quiet.path
  rw [hr]

theorem options_congr (hp : y.program = x.program) (hr : r'.quiet = r.quiet) :
    options y.program r' = options x.program r := by
  change options y.program r'.quiet = options x.program r.quiet
  rw [hp, hr]

theorem told_congr (hp : y.program = x.program) (hf : y.read = x.read)
    (hr : r'.quiet = r.quiet) : told y r' = told x r := by
  rw [told, told, hf, path_congr hr, options_congr hp hr]

/-- A run for the same request on the same files differs in the log at most. -/
theorem unlogged_run_congr (lg : Logger) (hp : y.program = x.program) (hf : y.read = x.read)
    (h : Action.ofArguments x.args = .convert r) (h' : Action.ofArguments y.args = .convert r')
    (hr : r'.quiet = r.quiet) : { run lg y with log := [] } = { run lg x with log := [] } := by
  rw [run_of_request lg h, run_of_request lg h', hf, path_congr hr, options_congr hp hr]
  cases x.read r.path with
  | none => rfl
  | some source =>
    simp only [convertFile]
    cases Conversion.convert (options x.program r) source <;> rfl

/-- With the option, all but traces is logged of what any run for the same request tells. -/
theorem log_run_of_verbose (hl : lg.Lawful) (hp : y.program = x.program) (hf : y.read = x.read)
    (h' : Action.ofArguments y.args = .convert r') (hr : r'.quiet = r.quiet)
    (hv : r'.verbose = true) :
    (run lg y).log = lg.log (Threshold.filter (some .debug)) (told x r) := by
  rw [log_run h', told_congr hp hf hr, hv, filter_of_verbose hl]

/-- What is reported of a fault says its reason and names the token. -/
theorem report_run_says (h : Action.ofArguments x.args = .convert r) {report : Text}
    (hreport : (run lg x).report = some report) : report ≠ [] ∧
      ∃ source e, x.read r.path = some source ∧
        Conversion.convert (options x.program r) source = .error e ∧
          e.fault.cause.message <:+: report ∧ Text.quoted e.fault.cause.token <:+: report := by
  obtain ⟨source, e, hs, he, rfl⟩ := (report_run_eq_some_iff h).mp hreport
  obtain ⟨-, hmessage, htoken, -⟩ := Report.render_says true e r.path
  exact ⟨Report.render_ne_nil true e r.path, source, e, hs, he, hmessage, htoken⟩

/--
A run for an argument list that is accepted. If the file can be read and is converted, the run
prints the listing and nothing else; otherwise it prints nothing and fails, with a report just of a
fault in the file. None of this depends on the environment or on whether more is to be logged. The
log is what the filter of the setting selects of all that is told; with the option it is all but
traces, and so the log of any setting is, apart from traces, a selection from it: the entries at or
above a threshold if the setting is one. The option may be put in front of the arguments unless it
is given, and asks for nothing else wherever it is.
-/
theorem run_all_or_nothing (hl : lg.Lawful) (h : Action.ofArguments x.args = .convert r) :
    (∀ source c, x.read r.path = some source →
      Conversion.convert (options x.program r) source = .ok c →
        (run lg x).exit = 0 ∧ (run lg x).stdout = c.output) ∧
    ((¬ ∃ source c, x.read r.path = some source ∧
      Conversion.convert (options x.program r) source = .ok c) →
        (run lg x).exit = 1 ∧ (run lg x).stdout = []) ∧
    (∀ report, (run lg x).report = some report ↔ ∃ source e, x.read r.path = some source ∧
      Conversion.convert (options x.program r) source = .error e ∧
        report = Report.render true e r.path) ∧
    (∀ report, (run lg x).report = some report → report ≠ [] ∧
      ∃ source e, x.read r.path = some source ∧
        Conversion.convert (options x.program r) source = .error e ∧
          e.fault.cause.message <:+: report ∧ Text.quoted e.fault.cause.token <:+: report) ∧
    (run lg x).log = lg.log (filter lg x.env r.verbose) (told x r) ∧
    (∀ y r', y.program = x.program → y.read = x.read →
      Action.ofArguments y.args = .convert r' → r'.quiet = r.quiet →
        (run lg y).exit = (run lg x).exit ∧ (run lg y).stdout = (run lg x).stdout ∧
        (run lg y).report = (run lg x).report ∧
        (r'.verbose = true →
          (run lg y).log = lg.log (Threshold.filter (some .debug)) (told x r) ∧
          ((run lg x).log.filter (Threshold.admitsEntry (some .debug))).Sublist (run lg y).log ∧
          ∀ t, threshold? lg x.env r.verbose = some t →
            (run lg x).log = ((told x r).map lg.entry).filter t.admitsEntry ∧
            (t ≠ some .trace → (run lg x).log = (run lg y).log.filter t.admitsEntry))) ∧
    (∀ v ∈ verboseWords,
      Action.ofArguments (v :: x.args) = if r.verbose then .misuse else .convert r.loud) ∧
    ∀ before after, x.args = before ++ after → ∀ v ∈ verboseWords, ∀ r',
      Action.ofArguments (before ++ v :: after) = .convert r' →
        r.verbose = false ∧ r' = r.loud := by
  refine ⟨fun source c => run_of_convert h, run_of_not_convert h,
    fun report => report_run_eq_some_iff h, fun report => report_run_says h, log_run h,
    fun y r' hp hf h' hr => ?_, fun v hv => Action.ofArguments_verboseWord_cons hv h,
    fun before after ha v hv r' h' => Action.eq_loud_of_insert hv (ha ▸ h) h'⟩
  have hsame := unlogged_run_congr lg hp hf h h' hr
  have hexit : (run lg y).exit = (run lg x).exit := congrArg (·.exit) hsame
  have hout : (run lg y).stdout = (run lg x).stdout := congrArg (·.stdout) hsame
  have hreport : (run lg y).report = (run lg x).report := congrArg (·.report) hsame
  refine ⟨hexit, hout, hreport, fun hv => ?_⟩
  have hall := log_run_of_verbose hl hp hf h' hr hv
  refine ⟨hall, ?_, fun t ht => ?_⟩
  · rw [hall, log_run h]
    exact Logger.log_sublist_debug lg _ _
  · have hlog : (run lg x).log = lg.log t.filter (told x r) := by
      rw [log_run h, filter_of_threshold? hl ht]
    refine ⟨hlog.trans (Logger.log_threshold lg t _), fun hne => ?_⟩
    rw [hlog, hall, Logger.log_threshold_of_debug hne]

/-- A run that logs what its environment asks for, and the same run with the option for the log. -/
theorem run_all_or_nothing_verbose :
    let source := "T(RN, inf, 0x1p+9, 0x0p+0, 0)\nx"
    let files : Directory := [("a.h".toList, source.toUTF8)]
    let env := fun v => if v = "RUST_LOG".toList then some "info".toList else none
    let x : Invocation := ⟨"bin/t".toList, ["a.h".toList, "-fc_longdouble".toList], env, files.read⟩
    let y : Invocation := { x with args := "-v".toList :: x.args, env := fun _ => none }
    let r : Request := ⟨false, false, some .longDouble, "a.h".toList⟩
    let warning := "WARN Unrecognised line 2: x".toList
    let counts := "DEBUG 1 test cases kept, 0 filtered, 1 unrecognised lines".toList
    let done := "INFO Converted 1 test cases as c_longdouble".toList
    Logger.standard.Lawful ∧ Action.ofArguments x.args = .convert r ∧
      x.read r.path = some source.toList ∧ Action.ofArguments y.args = .convert r.loud ∧
      (run .standard x).exit = 0 ∧ (run .standard y).stdout = (run .standard x).stdout ∧
      (run .standard y).log = [warning, counts, done] ∧
      (run .standard x).log = [warning, done] := by
  intro source files env x y r warning counts done
  have h : Action.ofArguments x.args = .convert r := by decide +kernel
  have hs : x.read r.path = some source.toList := by decide +kernel
  have hfault : (Conversion.reading (options x.program r) source.toList).fault = none := by
    decide +kernel
  have hc := Conversion.convert_eq_ok_iff.mpr ⟨hfault, rfl⟩
  have hl := Logger.standard_lawful
  obtain ⟨hok, -, -, -, -, hsame, hfront, -⟩ := run_all_or_nothing hl h
  have hy : Action.ofArguments y.args = .convert r.loud := hfront "-v".toList (by decide)
  obtain ⟨hexit, -⟩ := hok _ _ hs hc
  obtain ⟨-, hout, -, hlog⟩ := hsame y _ rfl rfl hy rfl
  obtain ⟨hall, -, hpart⟩ := hlog rfl
  have htold : Logger.standard.log (Threshold.filter (some .debug)) (told x r) =
      [warning, counts, done] := by decide +kernel
  obtain ⟨-, hx⟩ := hpart (some .info) (by decide +kernel)
  refine ⟨hl, h, hs, hy, hexit, hout, hall.trans htold, (hx (by decide)).trans ?_⟩
  rw [hall, htold]
  decide +kernel

/--
The log of a setting that names a part of the program, or that asks for traces, is no selection by
level from the log with the option.
-/
theorem log_not_by_level :
    let files : Directory := [("a.h".toList, "x\n".toUTF8)]
    let env := fun s v => if v = "FPTAB_LOG".toList then some s else none
    let x := fun s : Text =>
      (⟨"fptab".toList, ["a.h".toList], env s, files.read⟩ : Invocation)
    let y : Invocation := ⟨"fptab".toList, ["a.h".toList, "-v".toList], fun _ => none, files.read⟩
    let format := "DEBUG Inferred float type f32".toList
    let why := "TRACE no test-case match: ".toList ++ Rule.testcase.mismatch ['x']
    let warning := "WARN Unrecognised line 1: x".toList
    let counts := "DEBUG 0 test cases kept, 0 filtered, 1 unrecognised lines".toList
    let done := "INFO Converted 0 test cases as f32".toList
    (run .standard y).log = [format, warning, counts, done] ∧
    (run .standard (x "fptab_core=debug".toList)).log = [format, warning, counts] ∧
    (run .standard (x "trace".toList)).log = [format, why, warning, counts, done] ∧
    ∀ t : Threshold,
      (run .standard (x "fptab_core=debug".toList)).log ≠
        (run .standard y).log.filter t.admitsEntry ∧
      (run .standard (x "trace".toList)).log ≠ (run .standard y).log.filter t.admitsEntry := by
  intro files env x y format why warning counts done
  have hy : (run .standard y).log = [format, warning, counts, done] := by decide +kernel
  have hpart : (run .standard (x "fptab_core=debug".toList)).log = [format, warning, counts] := by
    decide +kernel
  have htrace : (run .standard (x "trace".toList)).log = [format, why, warning, counts, done] := by
    decide +kernel
  refine ⟨hy, hpart, htrace, fun t => ⟨?_, ?_⟩⟩
  · rw [hy, hpart]
    rcases t with _ | _ | _ | _ | _ | _ <;> decide +kernel
  · rw [hy, htrace]
    rcases t with _ | _ | _ | _ | _ | _ <;> decide +kernel

end Command
end FloatCases
