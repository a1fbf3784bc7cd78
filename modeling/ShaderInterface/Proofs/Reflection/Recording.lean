import ShaderInterface.Hint.Reader
import ShaderInterface.Proofs.Analysis.Recording
import ShaderInterface.Proofs.Reflection.Report
import ShaderInterface.Reflection.Gl

/-!
# What reflection records

A context may record entries of its own, so that the log of a reflection is that of the context and
that of reflection itself, interleaved. The two are told apart by a second run, in which the context
writes its entries into its state (`Context.journaled`): `Apart` compares the two runs step by step,
and gives what a report records itself (`Context.apart_report`). An interface is then made of the
report, with a warning for each comment that is no hint and no error but that with which it fails.
Nothing is recorded of a sum that does not fit.

Together with what the analysis records, every failure is told of once (`failures_recorded_once`).
-/

namespace ShaderInterface.Reflection

open Glsl

variable {parse : Hint.Parser} {overflow : Overflow} {σ α β Shader Program : Type}

/-! ## Entries of the context -/

/-- The step with its entries written into the state and not into the log. -/
def journaled (x : Step σ α) : Step (σ × List Log.Entry) α := fun (s, journal) =>
  { value := ((x.run s).value.1, (x.run s).value.2, journal ++ (x.run s).entries) }

/-- The context that writes its entries into its state. -/
def Context.journaled (context : Context σ Shader Program) :
    Context (σ × List Log.Entry) Shader Program where
  compile stage text := Reflection.journaled (context.compile stage text)
  link v f := Reflection.journaled (context.link v f)
  activeUniforms program := Reflection.journaled (context.activeUniforms program)
  activeAttributes program := Reflection.journaled (context.activeAttributes program)
  deleteShader shader := Reflection.journaled (context.deleteShader shader)
  deleteProgram program := Reflection.journaled (context.deleteProgram program)

/-- The entries that the context itself records while it reports on a pair of texts. -/
def Context.own (context : Context σ Shader Program) (vertex fragment : String) (s : σ) :
    List Log.Entry :=
  ((context.journaled.report vertex fragment).run (s, [])).value.2.2

/-- The step records no errors. -/
def Step.Quiet (x : Step σ α) : Prop := ∀ s, Log.errors (x.run s).entries = []

/-- The context records no errors itself. -/
structure Context.Quiet (context : Context σ Shader Program) : Prop where
  compile : ∀ stage text, Step.Quiet (context.compile stage text)
  link : ∀ v f, Step.Quiet (context.link v f)
  activeUniforms : ∀ program, Step.Quiet (context.activeUniforms program)
  activeAttributes : ∀ program, Step.Quiet (context.activeAttributes program)
  deleteShader : ∀ shader, Step.Quiet (context.deleteShader shader)
  deleteProgram : ∀ program, Step.Quiet (context.deleteProgram program)

/-! ## Two runs -/

/-- The step `y` does what `x` does with the entries of the context in its journal. What else `x`
records is related by `R` to the value that it gives; where the context is quiet, its journal holds
no errors. -/
def Apart (quiet : Prop) (x : Step σ α) (y : Step (σ × List Log.Entry) α)
    (R : α → List Log.Entry → Prop) : Prop :=
  ∀ s journal, ∃ own said,
    (y.run (s, journal)).value = ((x.run s).value.1, (x.run s).value.2, journal ++ own) ∧
    (quiet → Log.errors own = []) ∧ R (x.run s).value.1 said ∧
    Interleaves own said (x.run s).entries

namespace Apart

variable {quiet : Prop} {x : Step σ α} {y : Step (σ × List Log.Entry) α}
  {R : α → List Log.Entry → Prop} {S : β → List Log.Entry → Prop}

theorem pure {a : α} (h : R a []) : Apart quiet (Pure.pure a : Step σ α) (Pure.pure a) R :=
  fun s journal => ⟨[], [], by rw [List.append_nil]; rfl, fun _ => rfl, h, .nil⟩

theorem liftM {x : Logged α} (h : R x.value x.entries) :
    Apart quiet (MonadLiftT.monadLift x : Step σ α) (MonadLiftT.monadLift x) R := by
  intro s journal
  refine ⟨[], x.entries, by rw [List.append_nil]; rfl, fun _ => rfl, h, ?_⟩
  change Interleaves [] x.entries (x.entries ++ [])
  rw [List.append_nil]
  exact .nil_left _

/-- What the context does is journaled. -/
theorem journaled (h : quiet → Step.Quiet x) (hR : ∀ a, R a []) :
    Apart quiet x (Reflection.journaled x) R :=
  fun s _ => ⟨(x.run s).entries, [], rfl, fun q => h q s, hR _, .nil_right _⟩

theorem mono {R' : α → List Log.Entry → Prop} (h : Apart quiet x y R)
    (imp : ∀ a said, R a said → R' a said) : Apart quiet x y R' := fun s journal =>
  let ⟨own, said, value, errors, related, interleaves⟩ := h s journal
  ⟨own, said, value, errors, imp _ _ related, interleaves⟩

theorem bind {f : α → Step σ β} {g : α → Step (σ × List Log.Entry) β} (h : Apart quiet x y R)
    (next : ∀ a said, R a said → Apart quiet (f a) (g a) fun b said' => S b (said ++ said')) :
    Apart quiet (x >>= f) (y >>= g) S := by
  intro s journal
  obtain ⟨own, said, value, errors, related, interleaves⟩ := h s journal
  obtain ⟨own', said', value', errors', related', interleaves'⟩ :=
    next _ said related (x.run s).value.2 (journal ++ own)
  refine ⟨own ++ own', said ++ said', ?_, ?_, related', interleaves.append interleaves'⟩
  · rw [value_run_step_bind, value, value', List.append_assoc]
    rfl
  · intro q
    rw [Log.errors_append, errors q, errors' q, List.append_nil]

end Apart

/-! ## Reports -/

/-- The entry for an error. -/
def errorEntry (e : Error) : Log.Entry :=
  { severity := .error, source, message := e.message, located := true }

/-- The errors that the failures of a program stand for. -/
def failedWith (f : Failures) : List Error :=
  (f.vertex.map (.compile .vertex)).toList ++ (f.fragment.map (.compile .fragment)).toList ++
    (f.link.map .link).toList

/-- The errors of a report that is not given. -/
def reportErrors : Except Failures Report → List Error
  | .ok _ => []
  | .error failures => failedWith failures

/-- The errors of an interface: those of its failures, or that with which reflection fails. -/
def reflectionErrors : Except Stop ProgramInterface → List Error
  | .ok p => failedWith p.failures
  | .error (.failure e) => [e]
  | .error .overflow => []

theorem errors_map_errorEntry (es : List Error) :
    Log.errors (es.map errorEntry) = es.map Error.message := by
  induction es with
  | nil => rfl
  | cons e es ih => exact congrArg (e.message :: ·) ih

theorem warnings_map_errorEntry (es : List Error) :
    Log.messages .warn (es.map errorEntry) = [] := by
  simp [Log.messages, errorEntry]

variable {context : Context σ Shader Program}

theorem Context.apart_compileRecorded (context : Context σ Shader Program) (stage : Stage)
    (text : String) :
    Apart context.Quiet (context.compileRecorded stage text)
      (context.journaled.compileRecorded stage text) fun result said =>
        said = ((failure? result).map (Error.compile stage)).toList.map errorEntry := by
  refine Apart.bind (R := fun _ said => said = [])
    (.journaled (fun quiet => quiet.compile stage text) fun _ => rfl) ?_
  rintro (log | shader) _ rfl
  · exact Apart.bind (R := fun _ said => said = [errorEntry (.compile stage log)]) (.liftM rfl)
      fun _ _ h => .pure (by rw [h]; rfl)
  · exact .pure rfl

theorem Context.apart_deleteCompiled (context : Context σ Shader Program)
    (result : Except String Shader) :
    Apart context.Quiet (context.deleteCompiled result) (context.journaled.deleteCompiled result)
      fun _ said => said = [] := by
  cases result with
  | ok shader => exact .journaled (fun quiet => quiet.deleteShader shader) fun _ => rfl
  | error log => exact .pure rfl

/-- Where a stage does not compile, what is left is deleted and nothing more recorded. -/
theorem Context.apart_failed (context : Context σ Shader Program) (v f : Except String Shader)
    (failures : Failures) :
    Apart context.Quiet
      (do
        context.deleteCompiled v
        context.deleteCompiled f
        return (.error failures : Except Failures Report))
      (do
        context.journaled.deleteCompiled v
        context.journaled.deleteCompiled f
        return .error failures)
      fun result said => result = .error failures ∧ said = [] := by
  refine (context.apart_deleteCompiled v).bind ?_
  rintro _ _ rfl
  refine (context.apart_deleteCompiled f).bind ?_
  rintro _ _ rfl
  exact .pure ⟨rfl, rfl⟩

/-- **A report records what fails**, each failure once, and else nothing. -/
theorem Context.apart_report (context : Context σ Shader Program) (vertex fragment : String) :
    Apart context.Quiet (context.report vertex fragment) (context.journaled.report vertex fragment)
      fun result said => said = (reportErrors result).map errorEntry := by
  refine (context.apart_compileRecorded .vertex vertex).bind ?_
  rintro v _ rfl
  refine (context.apart_compileRecorded .fragment fragment).bind ?_
  rintro f _ rfl
  cases v <;> cases f
  · refine (context.apart_failed _ _ _).mono ?_
    rintro _ _ ⟨rfl, rfl⟩
    rfl
  · refine (context.apart_failed _ _ _).mono ?_
    rintro _ _ ⟨rfl, rfl⟩
    rfl
  · refine (context.apart_failed _ _ _).mono ?_
    rintro _ _ ⟨rfl, rfl⟩
    rfl
  · next v f =>
    -- Both stages compile, and only linking may fail.
    have silent {γ : Type} {x : Step σ γ} (h : context.Quiet → Step.Quiet x) :
        Apart context.Quiet x (Reflection.journaled x) fun _ said => said = [] :=
      .journaled h fun _ => rfl
    refine (silent fun quiet => quiet.link v f).bind ?_
    rintro linked _ rfl
    refine (silent fun quiet => quiet.deleteShader v).bind ?_
    rintro _ _ rfl
    refine (silent fun quiet => quiet.deleteShader f).bind ?_
    rintro _ _ rfl
    cases linked with
    | error log =>
      refine Apart.bind (R := fun _ said => said = [errorEntry (.link log)]) (.liftM rfl) ?_
      rintro _ _ rfl
      exact .pure rfl
    | ok program =>
      refine (silent fun quiet => quiet.activeUniforms program).bind ?_
      rintro uniforms _ rfl
      refine (silent fun quiet => quiet.activeAttributes program).bind ?_
      rintro attributes _ rfl
      refine (silent fun quiet => quiet.deleteProgram program).bind ?_
      rintro _ _ rfl
      exact .pure rfl

/-! ## Interfaces -/

/-- The warning for a declaration whose comment is no hint. -/
def hintWarning? (parse : Hint.Parser) (d : Declaration) : Option String :=
  match Hint.ofTrailing parse d.trailing.toList with
  | .ok _ => none
  | .error flaw => some ((Error.invalidHint d.name flaw.message).message ++ ", using an empty spec")

/-- The warnings for the comments in a text behind declarations of uniforms in the report. -/
def Report.hintWarnings (report : Report) (parse : Hint.Parser) (text : String) : List String :=
  (Declaration.scan (Comment.blank text.toList) text.toList .uniform fun name =>
    name ∈ report.uniforms.map ActiveVariable.declaredName).filterMap (hintWarning? parse)

theorem errors_hint (d : Declaration) : Log.errors (Declared.hint parse d).entries = [] := by
  unfold Declared.hint
  split <;> rfl

theorem warnings_hint (d : Declaration) :
    Log.messages .warn (Declared.hint parse d).entries = (hintWarning? parse d).toList := by
  unfold Declared.hint hintWarning?
  cases Hint.ofTrailing parse d.trailing.toList <;> rfl

theorem errors_ofText (text : String) (active : List String) :
    Log.errors (Declared.ofText parse text active).entries = [] := by
  rw [Declared.ofText, Logged.entries_bind, Logged.entries_bind, Logged.entries_pure,
    List.append_nil, Logged.entries_mapM, Log.errors_append, Log.errors_eq_messages,
    Declaration.messages_scanned (by decide), List.nil_append, Log.errors_eq_messages,
    Log.messages_flatMap, List.flatMap_eq_nil_iff]
  exact fun d _ => errors_hint d

theorem warnings_ofText (report : Report) (text : String) :
    Log.messages .warn
      (Declared.ofText parse text (report.uniforms.map ActiveVariable.declaredName)).entries =
      report.hintWarnings parse text := by
  rw [Declared.ofText, Logged.entries_bind, Logged.entries_bind, Logged.entries_pure,
    List.append_nil, Logged.entries_mapM, Log.messages_append,
    Declaration.messages_scanned (by decide), List.nil_append, Log.messages_flatMap,
    Report.hintWarnings, List.filterMap_eq_flatMap_toList]
  exact congrArg (List.flatMap · _) (funext warnings_hint)

theorem recordsFailure_typed (v : ActiveVariable) : (typed v).RecordsFailure :=
  (Diagnosed.RecordsFailure.ofOption _ _ _).bind fun _ => .pure _

theorem recordsNone_typed (v : ActiveVariable) : RecordsNone .warn (typed v) := by
  unfold typed baseType
  cases BaseType.ofTag? v.tag <;> rfl

/-- Building the stages of a report tells of its failure. -/
theorem recordsFailure_build (report : Report) (vertex fragment : String) :
    (build parse report vertex fragment).RecordsFailure :=
  (Diagnosed.RecordsFailure.lift (errors_ofText _ _)).bind fun _ =>
    (Diagnosed.RecordsFailure.lift (errors_ofText _ _)).bind fun _ =>
      (Diagnosed.RecordsFailure.mapM recordsFailure_typed _).bind fun _ =>
        (Diagnosed.RecordsFailure.mapM recordsFailure_typed _).bind fun _ => .pure _

/-- Of both texts each comment that is no hint is warned of, also where the report then fails. -/
theorem warnings_build (report : Report) (vertex fragment : String) :
    Log.messages .warn (build parse report vertex fragment).entries =
      report.hintWarnings parse vertex ++ report.hintWarnings parse fragment := by
  refine (messages_run_liftM_bind .warn _ _).trans (congrArg₂ _ (warnings_ofText _ _) ?_)
  refine (messages_run_liftM_bind .warn _ _).trans ?_
  refine (congrArg₂ _ (warnings_ofText _ _) ?_).trans (List.append_nil _)
  exact (RecordsNone.mapM recordsNone_typed _).bind fun _ =>
    (RecordsNone.mapM recordsNone_typed _).bind fun _ => .pure _

/-- Beside what building its stages records, a report records a debug entry at most. -/
theorem messages_ofReport {severity : Log.Severity} (other : severity ≠ .debug) (report : Report)
    (vertex fragment : String) :
    Log.messages severity (ofReport parse overflow report vertex fragment).entries =
      Log.messages severity (build parse report vertex fragment).entries := by
  rw [ofReport, Logged.entries_bind, Log.messages_append]
  refine (congrArg _ ?_).trans (List.append_nil _)
  cases (build parse report vertex fragment).attempt.value with
  | error e => rfl
  | ok merged =>
    dsimp only
    cases counted? overflow report merged with
    | none => rfl
    | some p => simp [Log.messages, Logged.debug, Logged.record, other.symm]

/-- The interface that a report makes tells of its failure. -/
theorem errors_ofReport (report : Report) (vertex fragment : String) :
    Log.errors (ofReport parse overflow report vertex fragment).entries =
      (reflectionErrors (ofReport parse overflow report vertex fragment).value).map
        Error.message := by
  have recorded : Log.errors (build parse report vertex fragment).entries = _ :=
    recordsFailure_build report vertex fragment
  rw [Log.errors_eq_messages, messages_ofReport (by decide), ← Log.errors_eq_messages, recorded]
  cases built : (build parse report vertex fragment).outcome with
  | error e =>
    rw [value_ofReport_eq_failure_iff.mpr built]
    rfl
  | ok merged =>
    cases made : (ofReport parse overflow report vertex fragment).value with
    | ok p =>
      rw [reflectionErrors, failures_ofReport made]
      rfl
    | error stop =>
      cases stop with
      | failure e => cases built.symm.trans (value_ofReport_eq_failure_iff.mp made)
      | overflow => rfl

/-! ## Reflection -/

/-- The warnings of reflection: none where there is no report. -/
def reportWarnings (parse : Hint.Parser) (vertex fragment : String) :
    Except Failures Report → List String
  | .ok report => report.hintWarnings parse vertex ++ report.hintWarnings parse fragment
  | .error _ => []

/-- Reflection fails with a type that is not known, and with nothing else. -/
theorem eq_unknownTag_of_reflect {vertex fragment : String} {s : σ} {e : Error}
    (h : ((reflect parse overflow context vertex fragment).run s).value.1 = .error (.failure e)) :
    ∃ name tag, e = .unknownTag name tag := by
  rw [value_reflect] at h
  cases hr : ((context.report vertex fragment).run s).value.1 with
  | error failures =>
    rw [hr] at h
    cases h
  | ok report =>
    rw [hr] at h
    have failed := value_ofReport_eq_failure_iff.mp h
    cases first : report.firstUnknown? with
    | some v =>
      cases failed.symm.trans (outcome_build_of_firstUnknown? first)
      exact ⟨v.name, v.tag, rfl⟩
    | none =>
      obtain ⟨us, as, built⟩ := exists_build parse vertex fragment first
      cases failed.symm.trans built

theorem entries_reflect (context : Context σ Shader Program) (vertex fragment : String) (s : σ) :
    ((reflect parse overflow context vertex fragment).run s).entries =
      ((context.report vertex fragment).run s).entries ++
        match ((context.report vertex fragment).run s).value.1 with
        | .ok report => (ofReport parse overflow report vertex fragment).entries
        | .error _ => [] := by
  rw [reflect, StateT.run_bind, Logged.entries_bind]
  rcases ((context.report vertex fragment).run s).value with ⟨failures | report, s'⟩
  · rfl
  · exact congrArg _ (List.append_nil (ofReport parse overflow report vertex fragment).entries)

/-- What reflection records itself, where the context gives the report: the errors of the interface
and the warnings for hints. -/
theorem exists_said_reflect (parse : Hint.Parser) (overflow : Overflow)
    (context : Context σ Shader Program) (vertex fragment : String) (s : σ) :
    ∃ said, Interleaves (context.own vertex fragment s) said
        ((reflect parse overflow context vertex fragment).run s).entries ∧
      Log.errors said = (reflectionErrors
        ((reflect parse overflow context vertex fragment).run s).value.1).map Error.message ∧
      Log.messages .warn said =
        reportWarnings parse vertex fragment ((context.report vertex fragment).run s).value.1 ∧
      (context.Quiet → Log.errors (context.own vertex fragment s) = []) := by
  obtain ⟨own, said, value, quiet, rfl, interleaves⟩ := context.apart_report vertex fragment s []
  have journal : context.own vertex fragment s = own := by
    rw [Context.own, value, List.nil_append]
  rw [journal, value_reflect, entries_reflect]
  refine ⟨_, interleaves.append_right _, ?_, ?_, quiet⟩
  · cases ((context.report vertex fragment).run s).value.1 with
    | error failures =>
      dsimp only [reportErrors]
      rw [List.append_nil]
      exact errors_map_errorEntry _
    | ok report =>
      dsimp only [reportErrors]
      rw [List.map_nil, List.nil_append]
      exact errors_ofReport report vertex fragment
  · cases ((context.report vertex fragment).run s).value.1 with
    | error failures =>
      dsimp only [reportErrors]
      rw [List.append_nil]
      exact warnings_map_errorEntry _
    | ok report =>
      exact (messages_ofReport (by decide) report vertex fragment).trans
        (warnings_build report vertex fragment)

/-! ## Quiet contexts -/

theorem Step.Quiet.bind {x : Step σ α} {f : α → Step σ β} (h : Step.Quiet x)
    (next : ∀ a, Step.Quiet (f a)) : Step.Quiet (x >>= f) := by
  intro s
  rw [StateT.run_bind, Logged.entries_bind, Log.errors_append, h s, List.nil_append]
  exact next _ _

theorem Step.Quiet.mapM {f : α → Step σ β} (h : ∀ a, Step.Quiet (f a)) (as : List α) :
    Step.Quiet (as.mapM f) := by
  induction as with
  | nil => exact fun _ => rfl
  | cons a as ih =>
    rw [List.mapM_cons]
    exact (h a).bind fun _ => ih.bind fun _ _ => rfl

theorem Gl.quiet_call (c : Gl.Call) : Step.Quiet (Gl.call c) := fun _ => rfl

theorem Gl.quiet_create (c : Nat → Gl.Call) : Step.Quiet (Gl.create c) := fun _ => rfl

theorem Gl.quiet_listActive (count : Gl.Call) (query : Nat → Gl.Call)
    (answers : List (Option Gl.Listed)) : Step.Quiet (Gl.listActive count query answers) :=
  (quiet_call _).bind fun _ =>
    (Step.Quiet.mapM (fun _ => (quiet_call _).bind fun _ _ => rfl) _).bind fun _ _ => rfl

/-- The context over GL records nothing but traces. -/
theorem Gl.quiet_context (script : Gl.Script) : (Gl.context script).Quiet where
  compile stage text := by
    refine (quiet_create _).bind fun shader => (quiet_call _).bind fun _ =>
      (quiet_call _).bind fun _ => (quiet_call _).bind fun _ => ?_
    dsimp only
    split
    · exact fun _ => rfl
    · exact fun _ => rfl
  link v f := by
    refine (quiet_create _).bind fun program => (quiet_call _).bind fun _ =>
      (quiet_call _).bind fun _ => (quiet_call _).bind fun _ => (quiet_call _).bind fun _ =>
        (quiet_call _).bind fun _ => (quiet_call _).bind fun _ => ?_
    split
    · exact fun _ => rfl
    · exact fun _ => rfl
  activeUniforms _ := quiet_listActive _ _ _
  activeAttributes _ := quiet_listActive _ _ _
  deleteShader _ _ := rfl
  deleteProgram _ _ := rfl

/-- A scripted context records nothing. -/
theorem Scripted.quiet_context (script : Scripted.Script) : (Scripted.context script).Quiet where
  compile _ _ _ := rfl
  link _ _ _ := rfl
  activeUniforms _ _ := rfl
  activeAttributes _ _ := rfl
  deleteShader _ _ := rfl
  deleteProgram _ _ := rfl

end ShaderInterface.Reflection

namespace ShaderInterface

open Reflection

/-- **Every failure is recorded once, and nothing else is recorded as an error.** The tolerant
analysis records the failure of each stage that fails, vertex before fragment, and the strict
analysis that with which it fails. Reflection records, beside what the context records itself, the
failures of the interface that it gives, or the type that is not known with which it fails: these
are all the errors where the context records none. A comment that is no hint is warned of there,
and of no error. -/
theorem failures_recorded_once {σ Shader Program : Type} (parse : Hint.Parser)
    (overflow : Overflow) (config : Analysis.Config) (context : Context σ Shader Program)
    (vertex fragment : String) (s : σ) :
    Log.errors (Analysis.tolerantProgram parse config vertex fragment).entries =
      failureTexts (Analysis.stage parse config .vertex vertex).outcome ++
        failureTexts (Analysis.stage parse config .fragment fragment).outcome ∧
    Log.errors (Analysis.program parse config vertex fragment).entries =
      failureTexts (Analysis.program parse config vertex fragment).outcome ∧
    (let reflected := (reflect parse overflow context vertex fragment).run s
     let reported := (context.report vertex fragment).run s
     let own := context.own vertex fragment s
     Interleaves (Log.errors own) ((reflectionErrors reflected.value.1).map Error.message)
       (Log.errors reflected.entries) ∧
     (context.Quiet → Log.errors reflected.entries =
       (reflectionErrors reflected.value.1).map Error.message) ∧
     (∀ e, reflected.value.1 = .error (.failure e) → ∃ name tag, e = .unknownTag name tag) ∧
     Interleaves (Log.messages .warn own) (reportWarnings parse vertex fragment reported.value.1)
       (Log.messages .warn reflected.entries)) := by
  refine ⟨Analysis.errors_tolerantProgram _ _ _ _, Analysis.recordsFailure_program _ _ _ _, ?_⟩
  obtain ⟨said, interleaves, errors, warnings, quiet⟩ :=
    exists_said_reflect parse overflow context vertex fragment s
  have apart := interleaves.messages .error
  have warned := interleaves.messages .warn
  rw [← Log.errors_eq_messages, ← Log.errors_eq_messages, ← Log.errors_eq_messages, errors] at apart
  rw [warnings] at warned
  refine ⟨apart, fun h => ?_, fun e => eq_unknownTag_of_reflect, warned⟩
  rw [quiet h] at apart
  exact apart.eq_of_nil_left

/-- A report with a type that is not known. -/
def unknownReport : Report where
  uniforms := [⟨"uA", 0, 1⟩]
  attributes := []

/-- A text whose only comment is a value and no hint. -/
def numberText : String := "uniform float uA; // 3"

theorem failures_recorded_once_unknown :
    let run := (reflect Hint.terse .stops (Scripted.context { report := unknownReport })
      numberText "").run []
    (∃ name tag, run.value.1 = .error (.failure (.unknownTag name tag))) ∧
      Log.errors run.entries = ["Unknown type tag 0x0000 reported for 'uA'"] ∧
      Log.messages .warn run.entries =
        ["Invalid UI spec for 'uA': UI spec must be an object, found a number, " ++
          "using an empty spec"] := by
  obtain ⟨-, -, -, errors, tagged, warnings⟩ :=
    failures_recorded_once Hint.terse .stops {} (Scripted.context { report := unknownReport })
      numberText "" []
  have reported := (Scripted.accepts unknownReport numberText "" []).value_report
  have failed : ((reflect Hint.terse .stops (Scripted.context { report := unknownReport })
      numberText "").run []).value.1 = .error (.failure (.unknownTag "uA" 0)) := by
    rw [value_reflect, reported]
    exact value_ofReport_of_firstUnknown? (v := ⟨"uA", 0, 1⟩) (by decide +kernel)
  refine ⟨?_, ?_, ?_⟩
  · obtain ⟨name, tag, h⟩ := tagged _ failed
    exact ⟨name, tag, failed.trans (congrArg (Except.error ∘ Stop.failure) h)⟩
  · rw [errors (Scripted.quiet_context _), failed]
    decide
  · rw [reported] at warnings
    rw [Interleaves.eq_of_nil_left warnings]
    decide +kernel

end ShaderInterface
