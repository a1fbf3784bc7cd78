import ShaderInterface.Analysis
import ShaderInterface.Proofs.Recording

/-!
# What the analysis records

Every part of the analysis of a stage tells of its failure once, and of nothing else as an error
(`recordsFailure_stage`). The resolution of macros records no errors itself, as its failure is told
of by the table that is asked for (`recordsFailure_ofDefinitions`); the errors in the definition of
a struct are told of where the struct is expanded, and not before (`recordsFailure_expand`).
-/

namespace ShaderInterface

/-! ## Macros -/

namespace Macro.Table

theorem recordsNoError_pass (number : Nat) (ds : List Definition) (table : Table) :
    RecordsNone .error (pass number ds table) := by
  induction ds generalizing table with
  | nil => exact .pure _
  | cons d ds ih =>
    unfold pass
    split
    · exact (RecordsNone.lift rfl).bind fun _ => ih _
    · exact (RecordsNone.lift rfl).bind fun _ => (ih _).bind fun _ => .pure _
    · exact .throw _

theorem recordsNoError_run (limit remaining : Nat) (ds : List Definition) (table : Table) :
    RecordsNone .error (run limit remaining ds table) := by
  induction remaining generalizing ds table with
  | zero =>
    cases ds with
    | nil => exact (RecordsNone.lift rfl).bind fun _ => .pure _
    | cons d ds => exact .throw _
  | succ remaining ih =>
    cases ds with
    | nil => exact (RecordsNone.lift rfl).bind fun _ => .pure _
    | cons d ds =>
      refine (recordsNoError_pass _ _ _).bind fun out => ?_
      dsimp only
      split
      · exact (RecordsNone.throw _).bind fun _ => ih _ _
      · exact ih _ _

/-- A table that is asked for tells of its failure. -/
theorem recordsFailure_ofDefinitions (definitions : List Definition) (limit : Nat) :
    (ofDefinitions definitions limit).RecordsFailure := by
  have silent : Log.errors (resolve definitions limit).run.entries = [] :=
    recordsNoError_run limit limit (effective definitions) {}
  rw [Diagnosed.RecordsFailure, Diagnosed.entries, Diagnosed.outcome, ofDefinitions, ExceptT.run_mk,
    Logged.entries_bind, Logged.value_bind, Log.errors_append, silent, List.nil_append]
  cases (resolve definitions limit).run.value with
  | ok table => rfl
  | error failure => exact Diagnosed.RecordsFailure.fail source failure.toError

end Macro.Table

/-! ## Declarations -/

namespace Declaration

/-- Nothing but traces is recorded of the declarations that are found. -/
theorem messages_scanned {severity : Log.Severity} (h : severity ≠ .trace)
    (s written : List Char) (keyword : Keyword) (keep : String → Bool) :
    Log.messages severity (scanned s written keyword keep).entries = [] := by
  have entries : (scanned s written keyword keep).entries =
      (scan s written keyword keep).map entry := List.append_nil _
  rw [entries, Log.messages_eq_nil_iff]
  intro e he
  obtain ⟨d, -, rfl⟩ := List.mem_map.mp he
  exact h.symm

end Declaration

/-! ## Structs -/

namespace Struct

/-- An expansion tells of its failure: of a type that is not known, of what is wrong with the body
of the struct, or of a field whose type is not supported. -/
theorem recordsFailure_expand (table : Table) (type name : String) (count : Nat)
    (stage : Glsl.Stage) : (expand table type name count stage).RecordsFailure := by
  unfold expand
  split
  · exact .pure _
  · refine (Diagnosed.RecordsFailure.ofOption _ _ _).bind fun definition => ?_
    have fields : ∀ f : Field, (f.typed name).RecordsFailure := fun f =>
      (Diagnosed.RecordsFailure.ofOption _ _ _).bind fun _ => .pure _
    have rest := (Diagnosed.RecordsFailure.mapM fields definition.fields).bind fun fields =>
      (Diagnosed.RecordsFailure.lift (x := Logged.trace source (type ++ " " ++ name ++
        " expanded to " ++ toString (fieldEntries definition.type name fields count
          stage).length ++ " entries")) rfl).bind fun _ =>
        .pure (fieldEntries definition.type name fields count stage)
    cases definition.errors with
    | nil => exact rest
    | cons e es => exact (Diagnosed.RecordsFailure.fail source e).bind fun _ => rest

end Struct

/-! ## Stages -/

namespace Analysis

open Diagnosed

theorem recordsFailure_arrayLength (scope : Scope) (d : Declaration) :
    (arrayLength scope d).RecordsFailure := by
  unfold arrayLength
  split
  · exact .pure _
  · exact .ofOption _ _ _

theorem recordsFailure_hint (scope : Scope) (d : Declaration) :
    (hint scope d).RecordsFailure := by
  unfold hint
  split
  · exact .pure _
  · exact .fail _ _

theorem recordsFailure_uniformReading (scope : Scope) (d : Declaration) :
    (uniformReading scope d).RecordsFailure := by
  unfold uniformReading
  split
  · exact (RecordsFailure.lift rfl).bind fun _ => .pure _
  · exact (recordsFailure_arrayLength scope d).bind fun _ =>
      (Struct.recordsFailure_expand _ _ _ _ _).bind fun _ =>
        (recordsFailure_hint scope d).bind fun _ => .pure _

theorem recordsFailure_attributeReading (scope : Scope) (d : Declaration) :
    (attributeReading scope d).RecordsFailure :=
  (RecordsFailure.ofOption _ _ _).bind fun _ =>
    (recordsFailure_arrayLength scope d).bind fun _ => .pure _

theorem recordsFailure_prepare (parse : Hint.Parser) (config : Config) (which : Glsl.Stage)
    (text : List Char) : (prepare parse config which text).RecordsFailure :=
  (Macro.Table.recordsFailure_ofDefinitions _ _).bind fun _ => .pure _

/-- **The analysis of a stage tells of its failure once.** -/
theorem recordsFailure_stage (parse : Hint.Parser) (config : Config) (which : Glsl.Stage)
    (text : String) : (stage parse config which text).RecordsFailure := by
  refine (recordsFailure_prepare parse config which text.toList).bind fun out => ?_
  have scanned : ∀ keyword, RecordsFailure
      (liftM (Declaration.scanned out.1 text.toList keyword) : Diagnosed (List Declaration)) :=
    fun keyword => .lift (Declaration.messages_scanned (by decide) _ _ _ _)
  exact (scanned .uniform).bind fun _ =>
    (RecordsFailure.mapM (recordsFailure_uniformReading out.2) _).bind fun _ =>
      (scanned .attribute).bind fun _ =>
        (RecordsFailure.mapM (recordsFailure_attributeReading out.2) _).bind fun _ =>
          (RecordsFailure.lift rfl).bind fun _ => .pure _

/-- The strict analysis tells of the failure with which it ends. -/
theorem recordsFailure_program (parse : Hint.Parser) (config : Config) (vertex fragment : String) :
    (program parse config vertex fragment).RecordsFailure :=
  (recordsFailure_stage parse config .vertex vertex).bind fun _ =>
    (recordsFailure_stage parse config .fragment fragment).bind fun _ => .pure _

/-- The tolerant analysis records what the stages record. -/
theorem entries_tolerantProgram (parse : Hint.Parser) (config : Config) (vertex fragment : String) :
    (tolerantProgram parse config vertex fragment).entries =
      (stage parse config .vertex vertex).entries ++
        (stage parse config .fragment fragment).entries := by
  unfold tolerantProgram
  -- Whatever the stages give, merging it records nothing.
  refine Logged.entries_bind_bind fun v f => ?_
  cases v <;> cases f <;> rfl

/-- The tolerant analysis tells of the failure of the vertex stage and then of that of the fragment
stage. -/
theorem errors_tolerantProgram (parse : Hint.Parser) (config : Config) (vertex fragment : String) :
    Log.errors (tolerantProgram parse config vertex fragment).entries =
      failureTexts (stage parse config .vertex vertex).outcome ++
        failureTexts (stage parse config .fragment fragment).outcome := by
  rw [entries_tolerantProgram, Log.errors_append]
  exact congrArg₂ _ (recordsFailure_stage parse config .vertex vertex)
    (recordsFailure_stage parse config .fragment fragment)

end Analysis

end ShaderInterface
