import FilterLang.CommandLine.Run
import FilterLang.Proofs.Json.Printing
import FilterLang.Proofs.Session

/-!
# Replies

Every command first prepares what it needs, and writes nothing meanwhile; then it concludes. What
fails in the preparation is no verdict, and the filter was not evaluated. A conclusion fails only
with a verdict, and has written nothing by then unless it reports the verdict as JSON.

`Action.Ends` says how an action ends, and has a rule for each kind of step. Steps that cannot write
are merged into one before (`Action.lift_bind`).
-/

namespace FilterLang

namespace Action

section Steps

variable {α β : Type} {before : String} {returns : β → String → Prop}
  {fails : CommandError → String → Prop}

/-- How an action ends that finds a text written: what holds of its value and of the text that is
written by then, if it succeeds, and what holds of its error and of that text, if it fails. -/
def Ends (action : Action β) (before : String) (returns : β → String → Prop)
    (fails : CommandError → String → Prop) : Prop :=
  match action.run.run before with
  | (.ok value, after) => returns value after
  | (.error error, after) => fails error after

theorem Ends.bind {action : Action α} {next : α → Action β} {passes : α → String → Prop}
    (first : action.Ends before passes fails)
    (second : ∀ value after, passes value after → (next value).Ends after returns fails) :
    (action >>= next).Ends before returns fails := by
  unfold Ends at first ⊢
  rw [ExceptT.run_bind, StateT.run_bind]
  rcases ended : action.run.run before with ⟨error | value, after⟩
  · rw [ended] at first
    exact first
  · rw [ended] at first
    exact second value after first

/-- A step that cannot write leaves what is written, whether it fails or not. -/
theorem ends_lift {step : Except CommandError β}
    (succeeds : ∀ value, step = .ok value → returns value before)
    (failing : ∀ error, step = .error error → fails error before) :
    Ends (liftM step) before returns fails := by
  cases step with
  | ok value => exact succeeds value rfl
  | error error => exact failing error rfl

theorem ends_throw {error : CommandError} (failing : fails error before) :
    (throw error : Action β).Ends before returns fails := failing

theorem ends_write {text : String} {returns : Unit → String → Prop}
    (written : returns () (before ++ text)) : (write text).Ends before returns fails := written

theorem ends_writeJson {pretty : Bool} {value : Json} {returns : Unit → String → Prop}
    (written : returns () (before ++ (if pretty then value.pretty else value.compact) ++ "\n")) :
    (writeJson pretty value).Ends before returns fails := written

/-- Steps that cannot write are one such step. -/
theorem lift_bind (first : Except CommandError α) (next : α → Except CommandError β) :
    (liftM (first >>= next) : Action β) = liftM first >>= fun value => liftM (next value) := by
  cases first with
  | ok value => rfl
  | error error => rfl

theorem lift_ok (value : β) :
    (liftM (.ok value : Except CommandError β) : Action β) = pure value := rfl

theorem reply_of_ends {action : Action Unit} {returns : String → Prop}
    (ends : action.Ends "" (fun _ => returns) fails) :
    (∀ error, action.reply.error = some error → fails error action.reply.output) ∧
      (action.reply.error = none → returns action.reply.output) := by
  unfold Ends at ends
  unfold reply
  rcases ended : action.run.run "" with ⟨error | value, after⟩
  · rw [ended] at ends
    simpa using ends
  · rw [ended] at ends
    simpa using ends

end Steps

section Lists

variable {α : Type}

/-- An action that never fails. -/
def NeverFails (action : Action α) : Prop :=
  ∀ before, action.Ends before (fun _ _ => True) fun _ _ => False

theorem neverFails_write (text : String) : (write text).NeverFails := fun _ => trivial

theorem neverFails_pure (value : α) : (pure value : Action α).NeverFails := fun _ => trivial

theorem NeverFails.ends {action : Action α} {before : String} {returns : α → String → Prop}
    {fails : CommandError → String → Prop} (never : action.NeverFails)
    (holds : ∀ value after, returns value after) : action.Ends before returns fails := by
  have ends := never before
  unfold Ends at ends ⊢
  rcases ended : action.run.run before with ⟨error | value, after⟩
  · rw [ended] at ends
    cases ends
  · exact holds value after

theorem NeverFails.bind {β : Type} {action : Action α} {next : α → Action β}
    (first : action.NeverFails) (second : ∀ value, (next value).NeverFails) :
    (action >>= next).NeverFails := by
  intro before
  exact (first before).bind fun value after _ => second value after

theorem neverFails_forM {act : α → Action Unit} (each : ∀ item, (act item).NeverFails)
    (items : List α) : (items.forM act).NeverFails := by
  induction items with
  | nil => exact neverFails_pure ()
  | cons item items ih => exact (each item).bind fun _ => ih

end Lists

end Action

namespace Json

/-- An output is a value and the end of its line. -/
def Fills (value : Json) (output : String) : Prop :=
  ∃ text, output = text ++ "\n" ∧ Spells text.toList value

/-- An output is one line, and that line is a value. -/
def FillsLine (value : Json) (output : String) : Prop :=
  ∃ line, output = line ++ "\n" ∧ OneLine line.toList ∧ Spells line.toList value

theorem fillsLine_compact (value : Json) : FillsLine value ("" ++ value.compact ++ "\n") := by
  refine ⟨value.compact, by rw [String.empty_append], ?_, ?_⟩
  · rw [compact, String.toList_ofList]
    exact oneLine_chars value
  · rw [compact, String.toList_ofList]
    exact spells_chars value

theorem fills_written (pretty : Bool) (value : Json) :
    Fills value ("" ++ (if pretty then value.pretty else value.compact) ++ "\n") := by
  refine ⟨_, by rw [String.empty_append], ?_⟩
  cases pretty with
  | true =>
      rw [if_pos rfl, Json.pretty, String.toList_ofList]
      exact spells_prettyChars 0 value
  | false =>
      rw [if_neg Bool.false_ne_true, compact, String.toList_ofList]
      exact spells_chars value

end Json

namespace Command

section Replies

variable (sources : Sources) (path : String)

/-- A command evaluates a filter in a view: the filter that is given or, if it checks it, its normal
form. -/
inductive Evaluates : Command → View → Node → Prop
  | validate {source : FilterSource} {dataset : Option String} {registry : Registry} {view : View}
      {text : String} {filter : Node} (loaded : loadRegistry sources path = .ok registry)
      (resolved : registry.viewOf dataset = .ok view)
      (read : readFilter sources source = .ok text) (parsed : Node.parse? text = some filter) :
      Evaluates (.validate source dataset) view filter
  | check {source : FilterSource} {dataset : Option String} {passes : Option (List String)}
      {json : Bool} {registry : Registry} {selection : List Pass} {view : View} {text : String}
      {filter normal : Node} (loaded : loadRegistry sources path = .ok registry)
      (selected : selectPasses passes = .ok selection)
      (read : readFilter sources source = .ok text) (parsed : Node.parse? text = some filter)
      (resolved : registry.viewOf dataset = .ok view)
      (normalized : filter.normalizeWith selection = .ok normal) :
      Evaluates (.check source dataset passes json) view normal

/-- Whether a command reports a rejection on standard output. -/
def reportsRejection : Command → Bool
  | .check _ _ _ json => json
  | _ => false

/-- How a command fails, and what it has written by then. -/
inductive FailsWith (command : Command) : CommandError → String → Prop
  /-- The filter was evaluated and is not valid. -/
  | rejected {view : View} {filter : Node} {output : String}
      (evaluated : Evaluates sources path command view filter)
      (invalid : (view.validate filter).isValid = false)
      (silent : command.reportsRejection = false → output = "")
      (reports : command.reportsRejection = true →
        (outcomeJson (.rejected view.name (view.validate filter).messages)).FillsLine output) :
      FailsWith command (.rejected (view.validate filter).messages) output
  /-- The filter was not evaluated. -/
  | unevaluated {error : CommandError} (code : error.exitCode = 2)
      (never : ∀ view filter, ¬Evaluates sources path command view filter) :
      FailsWith command error ""

/-- What a command has written when it succeeds. -/
inductive Prints : Command → String → Prop
  | datasets {output : String} : Prints .datasets output
  | normalize {source : FilterSource} {passes : Option (List String)} {pretty : Bool}
      {selection : List Pass} {text output : String} {filter normal : Node}
      (selected : selectPasses passes = .ok selection)
      (read : readFilter sources source = .ok text) (parsed : Node.parse? text = some filter)
      (normalized : filter.normalizeWith selection = .ok normal)
      (printed : normal.toJson.Fills output) :
      Prints (.normalize source passes pretty) output
  | validate {source : FilterSource} {dataset : Option String} {view : View} {filter : Node}
      (evaluated : Evaluates sources path (.validate source dataset) view filter)
      (valid : (view.validate filter).isValid = true) :
      Prints (.validate source dataset) ("filter is valid for dataset '" ++ view.name ++ "'\n")
  | check {source : FilterSource} {dataset : Option String} {passes : Option (List String)}
      {view : View} {filter : Node} {output : String}
      (evaluated : Evaluates sources path (.check source dataset passes false) view filter)
      (valid : (view.validate filter).isValid = true) (printed : filter.toJson.FillsLine output) :
      Prints (.check source dataset passes false) output
  | report {source : FilterSource} {dataset : Option String} {passes : Option (List String)}
      {view : View} {filter : Node} {output : String}
      (evaluated : Evaluates sources path (.check source dataset passes true) view filter)
      (valid : (view.validate filter).isValid = true)
      (printed : (outcomeJson (.accepted view.name filter)).FillsLine output) :
      Prints (.check source dataset passes true) output

end Replies

section Preparation

variable (sources : Sources) (path : String)

/-- What is prepared before a normal form is printed. -/
def prepareNormalize (source : FilterSource) (passes : Option (List String)) :
    Except CommandError Node := do
  let selection ← selectPasses passes
  let text ← readFilter sources source
  let filter ← parseFilter text
  normalForm selection filter

/-- What is prepared before a filter is validated. -/
def prepareValidate (source : FilterSource) (dataset : Option String) :
    Except CommandError (View × Node) := do
  let registry ← loadRegistry sources path
  let view ← resolveView registry dataset
  let text ← readFilter sources source
  let filter ← parseFilter text
  .ok (view, filter)

/-- What is prepared before a filter is checked. -/
def prepareCheck (source : FilterSource) (dataset : Option String)
    (passes : Option (List String)) : Except CommandError (View × Node) := do
  let registry ← loadRegistry sources path
  let selection ← selectPasses passes
  let text ← readFilter sources source
  let filter ← parseFilter text
  let view ← resolveView registry dataset
  let normal ← normalForm selection filter
  .ok (view, normal)

variable {sources : Sources} {path : String} {source : FilterSource} {dataset : Option String}
  {passes : Option (List String)} {pretty json : Bool}

theorem perform_datasets : perform sources path .datasets =
    liftM (loadRegistry sources path) >>= listDatasets := rfl

theorem perform_normalize : perform sources path (.normalize source passes pretty) =
    liftM (prepareNormalize sources source passes) >>= fun normal =>
      Action.writeJson pretty normal.toJson := by
  simp only [perform, runNormalize, prepareNormalize, Action.lift_bind, bind_assoc]

theorem perform_validate : perform sources path (.validate source dataset) =
    liftM (prepareValidate sources path source dataset) >>= fun prepared =>
      concludeValidate prepared.1 prepared.2 := by
  simp only [perform, runValidate, prepareValidate, Action.lift_bind, Action.lift_ok, bind_assoc,
    pure_bind]

theorem checkText_eq (session : Session) (text : String) :
    checkText session dataset text = (do
      let filter ← parseFilter text
      let view ← resolveView session.registry dataset
      let normal ← normalForm session.passes filter
      .ok (Session.judge view normal)) := by
  rw [checkText, Session.check, parseFilter]
  cases Node.parse? text with
  | none => rfl
  | some filter =>
      simp only [Session.checkNode, mapError_bind, mapError_mapError]
      rfl

theorem perform_check : perform sources path (.check source dataset passes json) =
    liftM (prepareCheck sources path source dataset passes) >>= fun prepared =>
      concludeCheck json (Session.judge prepared.1 prepared.2) := by
  simp only [perform, runCheck, prepareCheck, checkText_eq, Action.lift_bind, Action.lift_ok,
    bind_assoc, pure_bind]

theorem parseFilter_eq_ok {text : String} {filter : Node} :
    parseFilter text = .ok filter ↔ Node.parse? text = some filter := by
  rw [parseFilter]
  cases Node.parse? text with
  | none => simp
  | some filter => simp

theorem prepareNormalize_eq_ok {normal : Node} :
    prepareNormalize sources source passes = .ok normal ↔
      ∃ selection, selectPasses passes = .ok selection ∧
        ∃ text, readFilter sources source = .ok text ∧ ∃ filter, Node.parse? text = some filter ∧
          filter.normalizeWith selection = .ok normal := by
  simp only [prepareNormalize, normalForm, bind_eq_ok, mapError_eq_ok, parseFilter_eq_ok]

/-- A validation that is prepared evaluates its filter. -/
theorem prepareValidate_eq_ok {view : View} {filter : Node} :
    prepareValidate sources path source dataset = .ok (view, filter) ↔
      Evaluates sources path (.validate source dataset) view filter := by
  simp only [prepareValidate, resolveView, bind_eq_ok, mapError_eq_ok, parseFilter_eq_ok,
    Except.ok.injEq, Prod.mk.injEq]
  constructor
  · rintro ⟨registry, loaded, _, resolved, text, read, _, parsed, rfl, rfl⟩
    exact .validate loaded resolved read parsed
  · intro evaluated
    cases evaluated with
    | validate loaded resolved read parsed =>
        exact ⟨_, loaded, _, resolved, _, read, _, parsed, rfl, rfl⟩

/-- A check that is prepared evaluates the normal form of its filter. -/
theorem prepareCheck_eq_ok {view : View} {normal : Node} :
    prepareCheck sources path source dataset passes = .ok (view, normal) ↔
      Evaluates sources path (.check source dataset passes json) view normal := by
  simp only [prepareCheck, resolveView, normalForm, bind_eq_ok, mapError_eq_ok, parseFilter_eq_ok,
    Except.ok.injEq, Prod.mk.injEq]
  constructor
  · rintro ⟨registry, loaded, selection, selected, text, read, filter, parsed, _, resolved, _,
      normalized, rfl, rfl⟩
    exact .check loaded selected read parsed resolved normalized
  · intro evaluated
    cases evaluated with
    | check loaded selected read parsed resolved normalized =>
        exact ⟨_, loaded, _, selected, _, read, _, parsed, _, resolved, _, normalized, rfl, rfl⟩

/-- A command evaluates one filter at most, and in one view. -/
theorem Evaluates.unique {command : Command} {view other : View} {filter another : Node}
    (first : Evaluates sources path command view filter)
    (second : Evaluates sources path command other another) : view = other ∧ filter = another := by
  cases command with
  | datasets => cases first
  | normalize => cases first
  | validate =>
      have same := (prepareValidate_eq_ok.mpr first).symm.trans (prepareValidate_eq_ok.mpr second)
      simpa using same
  | check =>
      have same := (prepareCheck_eq_ok.mpr first).symm.trans (prepareCheck_eq_ok.mpr second)
      simpa using same

end Preparation

section Failures

variable {ε α β : Type} {sources : Sources} {path : String} {source : FilterSource}
  {dataset : Option String} {passes : Option (List String)} {pretty json : Bool}

/-- A step that never fails with a verdict. -/
def NoVerdict (step : Except CommandError α) : Prop :=
  ∀ error, step = .error error → error.exitCode = 2

theorem noVerdict_ok (value : α) : NoVerdict (.ok value) := by
  intro error impossible
  cases impossible

theorem NoVerdict.bind {first : Except CommandError α} {next : α → Except CommandError β}
    (one : NoVerdict first) (other : ∀ value, NoVerdict (next value)) :
    NoVerdict (first >>= next) := by
  cases first with
  | ok value => exact other value
  | error error =>
      intro same failed
      cases failed
      exact one error rfl

theorem noVerdict_mapError {f : ε → CommandError} (each : ∀ error, (f error).exitCode = 2)
    (step : Except ε α) : NoVerdict (step.mapError f) := by
  cases step with
  | ok value => exact noVerdict_ok value
  | error error =>
      intro same failed
      cases failed
      exact each error

theorem noVerdict_loadRegistry : NoVerdict (loadRegistry sources path) := by
  refine (noVerdict_mapError (fun _ => rfl) sources.config).bind fun text => ?_
  cases Config.parse? text with
  | none =>
      intro error failed
      cases failed
      rfl
  | some config => exact noVerdict_mapError (fun _ => rfl) config.compile

theorem noVerdict_readFilter : NoVerdict (readFilter sources source) := by
  cases source with
  | argument text => exact noVerdict_ok text
  | file path => exact noVerdict_mapError (fun _ => rfl) sources.file
  | input => exact noVerdict_mapError (fun _ => rfl) sources.input

theorem noVerdict_parseFilter (text : String) : NoVerdict (parseFilter text) := by
  rw [parseFilter]
  cases Node.parse? text with
  | none =>
      intro error failed
      cases failed
      rfl
  | some filter => exact noVerdict_ok filter

theorem noVerdict_selectPasses : NoVerdict (selectPasses passes) := by
  cases passes with
  | none => exact noVerdict_ok Pass.all
  | some names => exact noVerdict_mapError (fun _ => rfl) (Pass.ofNames names)

theorem noVerdict_resolveView (registry : Registry) : NoVerdict (resolveView registry dataset) :=
  noVerdict_mapError (fun _ => rfl) (registry.viewOf dataset)

theorem noVerdict_normalForm (selection : List Pass) (filter : Node) :
    NoVerdict (normalForm selection filter) :=
  noVerdict_mapError (fun _ => rfl) (filter.normalizeWith selection)

theorem noVerdict_prepareNormalize : NoVerdict (prepareNormalize sources source passes) :=
  noVerdict_selectPasses.bind fun selection => noVerdict_readFilter.bind fun text =>
    (noVerdict_parseFilter text).bind fun filter => noVerdict_normalForm selection filter

theorem noVerdict_prepareValidate : NoVerdict (prepareValidate sources path source dataset) :=
  noVerdict_loadRegistry.bind fun registry => (noVerdict_resolveView registry).bind fun _ =>
    noVerdict_readFilter.bind fun text => (noVerdict_parseFilter text).bind fun _ => noVerdict_ok _

theorem noVerdict_prepareCheck : NoVerdict (prepareCheck sources path source dataset passes) :=
  noVerdict_loadRegistry.bind fun registry => noVerdict_selectPasses.bind fun selection =>
    noVerdict_readFilter.bind fun text => (noVerdict_parseFilter text).bind fun filter =>
      (noVerdict_resolveView registry).bind fun _ =>
        (noVerdict_normalForm selection filter).bind fun _ => noVerdict_ok _

end Failures

section Conclusions

variable {sources : Sources} {path : String} {source : FilterSource} {dataset : Option String}
  {passes : Option (List String)} {json : Bool} {view : View} {filter : Node}

theorem neverFails_listDataset (registry : Registry) (name : String) :
    (listDataset registry name).NeverFails := by
  unfold listDataset
  refine (Action.neverFails_write name).bind fun _ => ?_
  extract_lets finish mark
  have finishes : ∀ result, (finish result).NeverFails := fun _ => Action.neverFails_write "\n"
  have marks : ∀ result, (mark result).NeverFails := by
    intro result
    simp only [mark]
    split
    · exact (Action.neverFails_write " (default)").bind finishes
    · exact finishes ()
  split
  · split
    · exact marks ()
    · exact (Action.neverFails_write _).bind marks
  · exact marks ()

theorem ends_concludeValidate
    (evaluated : Evaluates sources path (.validate source dataset) view filter) :
    (concludeValidate view filter).Ends ""
      (fun _ => Prints sources path (.validate source dataset))
      (FailsWith sources path (.validate source dataset)) := by
  rw [concludeValidate]
  cases valid : (view.validate filter).isValid with
  | true =>
      rw [if_pos rfl]
      refine Action.ends_write ?_
      rw [String.empty_append]
      exact .validate evaluated valid
  | false =>
      rw [if_neg Bool.false_ne_true]
      refine Action.ends_throw (.rejected evaluated valid (fun _ => rfl) ?_)
      intro impossible
      cases impossible

theorem ends_concludeCheck
    (evaluated : Evaluates sources path (.check source dataset passes json) view filter) :
    (concludeCheck json (Session.judge view filter)).Ends ""
      (fun _ => Prints sources path (.check source dataset passes json))
      (FailsWith sources path (.check source dataset passes json)) := by
  rw [Session.judge]
  cases valid : (view.validate filter).isValid with
  | true =>
      rw [if_pos rfl]
      cases json with
      | true => exact Action.ends_writeJson (.report evaluated valid (Json.fillsLine_compact _))
      | false => exact Action.ends_writeJson (.check evaluated valid (Json.fillsLine_compact _))
  | false =>
      rw [if_neg Bool.false_ne_true]
      cases json with
      | true =>
          let report := outcomeJson (.rejected view.name (view.validate filter).messages)
          have written : (Action.writeJson false report).Ends ""
              (fun _ => report.FillsLine)
              (FailsWith sources path (.check source dataset passes true)) :=
            Action.ends_writeJson (Json.fillsLine_compact report)
          refine written.bind fun _ _ printed => Action.ends_throw ?_
          refine .rejected evaluated valid ?_ fun _ => printed
          intro impossible
          cases impossible
      | false =>
          refine Action.ends_throw (.rejected evaluated valid (fun _ => rfl) ?_)
          intro impossible
          cases impossible

/-- A command that fails while it is prepared has written nothing. -/
theorem ends_prepared {α : Type} {command : Command} {step : Except CommandError α}
    {conclude : α → Action Unit} (noVerdict : NoVerdict step)
    (needed : ∀ view filter, Evaluates sources path command view filter →
      ∃ prepared, step = .ok prepared)
    (concludes : ∀ prepared, step = .ok prepared → (conclude prepared).Ends ""
      (fun _ => Prints sources path command) (FailsWith sources path command)) :
    (liftM step >>= conclude).Ends "" (fun _ => Prints sources path command)
      (FailsWith sources path command) := by
  have prepares : Action.Ends (liftM step) ""
      (fun prepared output => step = .ok prepared ∧ output = "")
      (FailsWith sources path command) := by
    refine Action.ends_lift (fun prepared succeeded => ⟨succeeded, rfl⟩) fun error failed => ?_
    refine .unevaluated (noVerdict error failed) ?_
    intro view filter evaluated
    rcases needed view filter evaluated with ⟨prepared, succeeded⟩
    cases failed.symm.trans succeeded
  refine prepares.bind ?_
  rintro prepared _ ⟨succeeded, rfl⟩
  exact concludes prepared succeeded

/-- Every command ends as it should: what it has written when it succeeds, and how it fails. -/
theorem ends_perform (sources : Sources) (path : String) (command : Command) :
    (command.perform sources path).Ends "" (fun _ => Prints sources path command)
      (FailsWith sources path command) := by
  cases command with
  | datasets =>
      rw [perform_datasets]
      refine ends_prepared noVerdict_loadRegistry (fun _ _ impossible => by cases impossible) ?_
      intro registry _
      exact (Action.neverFails_forM (neverFails_listDataset registry) registry.names).ends
        fun _ _ => .datasets
  | normalize source passes pretty =>
      rw [perform_normalize]
      refine ends_prepared noVerdict_prepareNormalize (fun _ _ impossible => by cases impossible) ?_
      intro normal prepared
      rcases prepareNormalize_eq_ok.mp prepared with
        ⟨selection, selected, text, read, filter, parsed, normalized⟩
      exact Action.ends_writeJson
        (.normalize selected read parsed normalized (Json.fills_written pretty _))
  | validate source dataset =>
      rw [perform_validate]
      refine ends_prepared noVerdict_prepareValidate
        (fun _ _ evaluated => ⟨_, prepareValidate_eq_ok.mpr evaluated⟩) ?_
      intro _ prepared
      exact ends_concludeValidate (prepareValidate_eq_ok.mp prepared)
  | check source dataset passes json =>
      rw [perform_check]
      refine ends_prepared noVerdict_prepareCheck
        (fun _ _ evaluated => ⟨_, prepareCheck_eq_ok.mpr evaluated⟩) ?_
      intro _ prepared
      exact ends_concludeCheck (prepareCheck_eq_ok.mp prepared)

end Conclusions

section ExitCodes

theorem messages_ne_nil {report : Report} (invalid : report.isValid = false) :
    report.messages ≠ [] := by
  intro none
  rw [Report.messages, List.map_eq_nil_iff] at none
  simp [Report.isValid, none] at invalid

variable {sources : Sources} {path output : String} {command : Command} {error : CommandError}

theorem FailsWith.exitCode_eq_one_iff (fails : FailsWith sources path command error output) :
    error.exitCode = 1 ↔ ∃ view filter,
      Evaluates sources path command view filter ∧ (view.validate filter).isValid = false := by
  cases fails with
  | rejected evaluated invalid _ _ => exact ⟨fun _ => ⟨_, _, evaluated, invalid⟩, fun _ => rfl⟩
  | unevaluated code never =>
      constructor
      · intro one
        omega
      · rintro ⟨view, filter, evaluated, _⟩
        exact absurd evaluated (never view filter)

/-- A command that succeeds finds what it evaluates valid. -/
theorem Prints.isValid (prints : Prints sources path command output) {view : View} {filter : Node}
    (evaluated : Evaluates sources path command view filter) :
    (view.validate filter).isValid = true := by
  cases prints with
  | datasets => cases evaluated
  | normalize => cases evaluated
  | validate other valid | check other valid | report other valid =>
      rcases evaluated.unique other with ⟨rfl, rfl⟩
      exact valid

/-- The exit code is 1 exactly if the filter is evaluated and is not valid. -/
theorem exitCode_eq_one_iff (sources : Sources) (path : String) (command : Command) :
    (command.run sources path).exitCode = 1 ↔ ∃ view filter,
      Evaluates sources path command view filter ∧ (view.validate filter).isValid = false := by
  rcases Action.reply_of_ends (ends_perform sources path command) with ⟨failing, succeeding⟩
  rw [Reply.exitCode, Command.run]
  cases failed : (command.perform sources path).reply.error with
  | none => simpa using fun view filter => (succeeding failed).isValid
  | some error => exact (failing error failed).exitCode_eq_one_iff

/-- When a command fails, its exit code is 1 if the filter was evaluated and is not valid, and then
the reasons come with the failure, or else it is 2. Nothing is written by then, except that a check
that reports as JSON writes one line with the dataset and the reasons. When a command succeeds that
normalizes or checks, it has written one JSON value and the end of its line; without the report, the
value of a check is the accepted filter. -/
theorem exitCode_and_output (sources : Sources) (path : String) (command : Command) :
    (∀ error, (command.run sources path).error = some error →
      (error.exitCode = 1 ↔ ∃ view filter,
        Evaluates sources path command view filter ∧ (view.validate filter).isValid = false) ∧
      (error.exitCode = 1 ↔ ∃ errors, errors ≠ [] ∧ error = .rejected errors) ∧
      (error.exitCode ≠ 1 → error.exitCode = 2) ∧
      (¬(command.reportsRejection = true ∧ error.exitCode = 1) →
        (command.run sources path).output = "") ∧
      (command.reportsRejection = true ∧ error.exitCode = 1 → ∃ view filter errors,
        Evaluates sources path command view filter ∧ (view.validate filter).messages = errors ∧
          error = .rejected errors ∧
          (Json.object [("dataset", .string view.name), ("accepted", .bool false),
            ("errors", .array (errors.map .string))]).FillsLine
            (command.run sources path).output)) ∧
    ((command.run sources path).error = none →
      Prints sources path command (command.run sources path).output) := by
  rcases Action.reply_of_ends (ends_perform sources path command) with ⟨failing, succeeding⟩
  refine ⟨?_, succeeding⟩
  intro error failed
  have fails := failing error failed
  rw [← Command.run] at fails
  generalize (command.run sources path).output = output at fails
  refine ⟨fails.exitCode_eq_one_iff, ?_⟩
  cases fails with
  | rejected evaluated invalid silent reports =>
      have reasons := messages_ne_nil invalid
      refine ⟨⟨fun _ => ⟨_, reasons, rfl⟩, fun _ => rfl⟩, fun other => absurd rfl other, ?_, ?_⟩
      · intro unreported
        apply silent
        simpa [CommandError.exitCode] using unreported
      · rintro ⟨reported, _⟩
        exact ⟨_, _, _, evaluated, rfl, rfl, reports reported⟩
  | unevaluated code _ =>
      have notOne : error.exitCode ≠ 1 := by omega
      refine ⟨⟨fun one => absurd one notOne, ?_⟩, fun _ => code, fun _ => rfl,
        fun ⟨_, one⟩ => absurd one notOne⟩
      rintro ⟨errors, _, rfl⟩
      rfl

/-- A configuration with one dataset, which has one field. -/
def carSources : Sources where
  config := .ok "[datasets.car.fields]\nyear = \x7b type = \"int\" \x7d\n"
  file := .error "no file"
  input := .error "no input"

/-- A check of a field that is not there, which reports as JSON. -/
def unknownMake : Command := .check (.argument "\x7b\"make\": 1\x7d") none none true

theorem exitCode_and_output_unknownMake :
    ∃ error, (unknownMake.run carSources "sieve.toml").error = some error ∧ error.exitCode = 1 ∧
      ∃ view filter errors, Evaluates carSources "sieve.toml" unknownMake view filter ∧
        (view.validate filter).messages = errors ∧ error = .rejected errors ∧
        (Json.object [("dataset", .string view.name), ("accepted", .bool false),
          ("errors", .array (errors.map .string))]).FillsLine
          (unknownMake.run carSources "sieve.toml").output := by
  have rejected : (unknownMake.run carSources "sieve.toml").exitCode = 1 := by decide +kernel
  rw [Reply.exitCode] at rejected
  cases failed : (unknownMake.run carSources "sieve.toml").error with
  | none => simp [failed] at rejected
  | some error =>
      rw [failed] at rejected
      rcases (exitCode_and_output carSources "sieve.toml" unknownMake).1 error failed with
        ⟨_, _, _, _, reports⟩
      exact ⟨error, rfl, rejected, reports ⟨rfl, rejected⟩⟩

end ExitCodes

end Command

end FilterLang
