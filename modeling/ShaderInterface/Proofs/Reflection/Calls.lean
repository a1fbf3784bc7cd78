import ShaderInterface.Proofs.Reflection.Report
import ShaderInterface.Reflection.Gl

/-!
# The calls of a report over GL

Which calls GL gets is decided by the statuses that it answers. `Makes x n calls m a` says that the
step `x` makes the calls and gives `a`, where `n` objects were created before it and `m` after it.
What a sequence of steps makes is put together by `Makes.bind`, so that every part of a report has
its list of calls: compiling a stage (`makes_compile`), linking (`makes_link`), asking for the
active variables (`makes_listActive`), the whole report (`makes_report`), and reflection, which
makes no calls of its own (`makes_reflect`).
-/

namespace ShaderInterface.Reflection.Gl

open Glsl

variable {α β : Type} {n m k : Nat} {a : α} {b : β} {calls calls' : List Call} {status : Status}

/-! ## Steps -/

/-- Where `n` objects are created so far, the step makes the calls, gives `a`, and leaves `m`
objects created. -/
def Makes (x : Step State α) (n : Nat) (calls : List Call) (m : Nat) (a : α) : Prop :=
  ∀ st : State, st.created = n →
    (x.run st).value = (a, { created := m, calls := st.calls ++ calls })

theorem Makes.bind {x : Step State α} {f : α → Step State β} (h : Makes x n calls m a)
    (h' : Makes (f a) m calls' k b) : Makes (x >>= f) n (calls ++ calls') k b := by
  intro st hn
  rw [value_run_step_bind, h st hn, h' _ rfl, List.append_assoc]

theorem makes_pure (a : α) (n : Nat) : Makes (pure a) n [] n a := by
  rintro st rfl
  rw [List.append_nil]
  rfl

theorem makes_liftM (x : Logged α) (n : Nat) : Makes (liftM x) n [] n x.value := by
  rintro st rfl
  rw [List.append_nil]
  rfl

theorem makes_call (c : Call) (n : Nat) : Makes (call c) n [c] n () := by
  rintro st rfl
  rfl

theorem makes_create (c : Nat → Call) (n : Nat) :
    Makes (create c) n [c (n + 1)] (n + 1) (n + 1) := by
  rintro st rfl
  rfl

/-- Steps that make one call each make the calls of the list. -/
theorem makes_mapM {f : α → Step State β} {c : α → Call} {g : α → β}
    (h : ∀ a, Makes (f a) n [c a] n (g a)) (l : List α) :
    Makes (l.mapM f) n (l.map c) n (l.map g) := by
  induction l with
  | nil => exact makes_pure _ _
  | cons a l ih =>
    rw [List.mapM_cons, List.map_cons, List.map_cons, ← List.append_nil (l.map c)]
    exact (h a).bind (ih.bind (makes_pure _ n))

/-! ## Shaders and programs -/

/-- The object that is to be compiled or linked, or the text of the failure. -/
def Status.result (status : Status) (what : String) (object : Nat) : Except String Nat :=
  if status.succeeded then .ok object else .error (failureText status.log what)

theorem Status.result_of_succeeded (h : status.succeeded) (what : String) (object : Nat) :
    status.result what object = .ok object := if_pos h

theorem Status.result_of_not_succeeded (h : ¬ status.succeeded) (what : String) (object : Nat) :
    status.result what object = .error (failureText status.log what) := if_neg h

/-- The calls that compile a stage into the shader of the given number. -/
def compileCalls (script : Script) (stage : Stage) (text : String) (shader : Nat) : List Call :=
  [.createShader stage shader, .shaderSource shader text.utf8ByteSize, .compileShader shader,
    .getShaderStatus shader] ++
    if (script.shader stage).succeeded then [] else [.getShaderLog shader, .deleteShader shader]

/-- The calls that link two shaders into the program of the given number. -/
def linkCalls (script : Script) (vertex fragment program : Nat) : List Call :=
  [.createProgram program, .attachShader program vertex, .attachShader program fragment,
    .linkProgram program, .detachShader program vertex, .detachShader program fragment,
    .getProgramStatus program] ++
    if script.link.succeeded then [] else [.getProgramLog program, .deleteProgram program]

/-- The calls that ask for the number of active variables and for each of them. -/
def queryCalls (count : Call) (query : Nat → Call) (answers : List (Option Listed)) : List Call :=
  count :: answers.zipIdx.map fun answer => query answer.2

/-- The active variables that GL lists. -/
def listedActive (answers : List (Option Listed)) : List ActiveVariable :=
  (answers.filterMap id).map Listed.toActive

/-- The calls that delete a shader, if it is compiled. -/
def deleteCalls (status : Status) (shader : Nat) : List Call :=
  if status.succeeded then [.deleteShader shader] else []

theorem makes_compile (script : Script) (stage : Stage) (text : String) (n : Nat) :
    Makes (compile script stage text) n (compileCalls script stage text (n + 1)) (n + 1)
      ((script.shader stage).result "Compilation" (n + 1)) := by
  refine (makes_create _ n).bind ((makes_call _ _).bind ((makes_call _ _).bind
    ((makes_call _ _).bind ?_)))
  by_cases h : (script.shader stage).succeeded
  · dsimp only
    rw [if_pos h, if_pos h, Status.result_of_succeeded h]
    exact (makes_liftM _ _).bind (makes_pure _ _)
  · dsimp only
    rw [if_neg h, if_neg h, Status.result_of_not_succeeded h]
    exact (makes_call _ _).bind ((makes_call _ _).bind (makes_pure _ _))

theorem makes_compileRecorded (script : Script) (stage : Stage) (text : String) (n : Nat) :
    Makes ((context script).compileRecorded stage text) n
      (compileCalls script stage text (n + 1)) (n + 1)
      ((script.shader stage).result "Compilation" (n + 1)) := fun st hn =>
  (Context.value_compileRecorded _ _ _ _).trans (makes_compile script stage text n st hn)

theorem makes_link (script : Script) (vertex fragment n : Nat) :
    Makes (link script vertex fragment) n (linkCalls script vertex fragment (n + 1)) (n + 1)
      (script.link.result "Link" (n + 1)) := by
  refine (makes_create _ n).bind ((makes_call _ _).bind ((makes_call _ _).bind
    ((makes_call _ _).bind ((makes_call _ _).bind ((makes_call _ _).bind
      ((makes_call _ _).bind ?_))))))
  by_cases h : script.link.succeeded
  · rw [if_pos h, if_pos h, Status.result_of_succeeded h]
    exact (makes_liftM _ _).bind (makes_pure _ _)
  · rw [if_neg h, if_neg h, Status.result_of_not_succeeded h]
    exact (makes_call _ _).bind ((makes_call _ _).bind (makes_pure _ _))

/-- Every active variable is asked for once, by its index. -/
theorem makes_listActive (count : Call) (query : Nat → Call) (answers : List (Option Listed))
    (n : Nat) :
    Makes (listActive count query answers) n (queryCalls count query answers) n
      (listedActive answers) := by
  have asked (answer : Option Listed × Nat) :
      Makes (do call (query answer.2); return answer.1) n [query answer.2] n answer.1 :=
    (makes_call (query answer.2) n).bind (makes_pure answer.1 n)
  have queried := makes_mapM asked answers.zipIdx
  rw [show answers.zipIdx.map (fun answer => answer.1) = answers from List.zipIdx_map_fst 0 answers]
    at queried
  rw [queryCalls, ← List.append_nil (answers.zipIdx.map _)]
  exact (makes_call count n).bind (queried.bind (makes_pure _ n))

theorem makes_deleteCompiled (script : Script) (status : Status) (shader n : Nat) :
    Makes ((context script).deleteCompiled (status.result "Compilation" shader)) n
      (deleteCalls status shader) n () := by
  unfold deleteCalls
  by_cases h : status.succeeded
  · rw [if_pos h, Status.result_of_succeeded h]
    exact makes_call _ _
  · rw [if_neg h, Status.result_of_not_succeeded h]
    exact makes_pure _ _

/-! ## Reports -/

/-- The calls that ask for all active variables of a program. -/
def activeCalls (script : Script) (program : Nat) : List Call :=
  queryCalls (.getUniformCount program) (.getUniform program) script.uniforms ++
    queryCalls (.getAttributeCount program) (.getAttribute program) script.attributes

/-- The calls with two shaders that are compiled: they are linked, and then the shaders and the
program are deleted, a program that is linked after its variables are asked for. -/
def programCalls (script : Script) (vertex fragment program : Nat) : List Call :=
  linkCalls script vertex fragment program ++ [.deleteShader vertex, .deleteShader fragment] ++
    if script.link.succeeded then activeCalls script program ++ [.deleteProgram program] else []

/-- The calls of a report, where `n` objects are created before it. -/
def reportCalls (script : Script) (vertex fragment : String) (n : Nat) : List Call :=
  compileCalls script .vertex vertex (n + 1) ++ compileCalls script .fragment fragment (n + 2) ++
    if script.vertex.succeeded ∧ script.fragment.succeeded then
      programCalls script (n + 1) (n + 2) (n + 3)
    else deleteCalls script.vertex (n + 1) ++ deleteCalls script.fragment (n + 2)

/-- A stage that does not compile takes the shader of the other with it. -/
theorem makes_failure (script : Script) (vertex fragment n : Nat) (failures : Failures) :
    Makes (do
        (context script).deleteCompiled (script.vertex.result "Compilation" vertex)
        (context script).deleteCompiled (script.fragment.result "Compilation" fragment)
        return (.error failures : Except Failures Report))
      n (deleteCalls script.vertex vertex ++ deleteCalls script.fragment fragment) n
      (.error failures) := by
  rw [← List.append_nil (deleteCalls script.fragment fragment)]
  exact (makes_deleteCompiled script script.vertex vertex n).bind
    ((makes_deleteCompiled script script.fragment fragment n).bind (makes_pure _ n))

/-- The text of what failed, if it did. -/
def Status.failure? (status : Status) (what : String) : Option String :=
  if status.succeeded then none else some (failureText status.log what)

/-- The active variables that GL reports, or what failed. -/
def Script.outcome (script : Script) : Except Failures Report :=
  if script.vertex.succeeded ∧ script.fragment.succeeded then
    if script.link.succeeded then
      .ok { uniforms := listedActive script.uniforms
            attributes := listedActive script.attributes }
    else .error { link := some (failureText script.link.log "Link") }
  else
    .error { vertex := script.vertex.failure? "Compilation"
             fragment := script.fragment.failure? "Compilation" }

/-- **The calls of a report**, whatever GL answers, and what the report is. -/
theorem makes_report (script : Script) (vertex fragment : String) (n : Nat) :
    ∃ m, Makes ((context script).report vertex fragment) n (reportCalls script vertex fragment n) m
      script.outcome := by
  have v := makes_compileRecorded script .vertex vertex n
  have f := makes_compileRecorded script .fragment fragment (n + 1)
  have linked := makes_link script (n + 1) (n + 2) (n + 2)
  have failed := makes_failure script (n + 1) (n + 2) (n + 2)
  unfold Script.shader at v f
  rw [reportCalls, List.append_assoc, Script.outcome, Status.failure?, Status.failure?]
  by_cases hv : script.vertex.succeeded <;> by_cases hf : script.fragment.succeeded
  · rw [Status.result_of_succeeded hv] at v
    rw [Status.result_of_succeeded hf] at f
    rw [if_pos ⟨hv, hf⟩, if_pos ⟨hv, hf⟩, programCalls, List.append_assoc]
    by_cases hl : script.link.succeeded
    · rw [Status.result_of_succeeded hl] at linked
      rw [if_pos hl, if_pos hl, activeCalls, List.append_assoc]
      exact ⟨_, v.bind (f.bind (linked.bind ((makes_call _ _).bind ((makes_call _ _).bind
        ((makes_listActive _ _ _ _).bind ((makes_listActive _ _ _ _).bind
          ((makes_call _ _).bind (makes_pure _ _))))))))⟩
    · rw [Status.result_of_not_succeeded hl] at linked
      rw [if_neg hl, if_neg hl]
      exact ⟨_, v.bind (f.bind (linked.bind ((makes_call _ _).bind ((makes_call _ _).bind
        ((makes_liftM _ _).bind (makes_pure _ _))))))⟩
  · rw [Status.result_of_succeeded hv] at v failed
    rw [Status.result_of_not_succeeded hf] at f failed
    rw [if_neg fun h => hf h.2, if_neg fun h => hf h.2, if_pos hv, if_neg hf]
    exact ⟨_, v.bind (f.bind (failed _))⟩
  · rw [Status.result_of_not_succeeded hv] at v failed
    rw [Status.result_of_succeeded hf] at f failed
    rw [if_neg fun h => hv h.1, if_neg fun h => hv h.1, if_neg hv, if_pos hf]
    exact ⟨_, v.bind (f.bind (failed _))⟩
  · rw [Status.result_of_not_succeeded hv] at v failed
    rw [Status.result_of_not_succeeded hf] at f failed
    rw [if_neg fun h => hv h.1, if_neg fun h => hv h.1, if_neg hv, if_neg hf]
    exact ⟨_, v.bind (f.bind (failed _))⟩

/-- Reflection makes the calls of its report, also where a type is not known. -/
theorem makes_reflect (parse : Hint.Parser) (overflow : Overflow) (script : Script)
    (vertex fragment : String) (n : Nat) :
    ∃ m result, Makes (reflect parse overflow (context script) vertex fragment) n
      (reportCalls script vertex fragment n) m result := by
  obtain ⟨m, h⟩ := makes_report script vertex fragment n
  rw [← List.append_nil (reportCalls script vertex fragment n)]
  cases hr : script.outcome with
  | ok report =>
    rw [hr] at h
    exact ⟨m, _, h.bind (makes_liftM (ofReport parse overflow report vertex fragment) m)⟩
  | error failures =>
    rw [hr] at h
    exact ⟨m, _, h.bind (makes_pure _ m)⟩

end ShaderInterface.Reflection.Gl
