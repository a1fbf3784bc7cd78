import Mathlib.Data.List.Nodup
import Mathlib.Data.List.Perm.Basic
import ShaderInterface.Proofs.Reflection.Calls

/-!
# Lifetimes of GL objects

Whatever GL answers, the calls of a reflection delete every shader and program that they create,
once, and speak of none that is not there (`calls_reflect_disciplined`).

`Objects.Step` says what a call may do to the objects at hand: create a new one, delete one that is
attached to nothing, attach a pair for the first time, detach a pair that is attached, or work on
objects that are there or ask about them. A run of such calls that leaves nothing behind keeps the
discipline of lifetimes (`Objects.Run.disciplined`). Compiling and linking are such runs, each with
what it leaves behind (`Objects.run_compileCalls`, `Objects.run_linkCalls`), and a report puts them
together (`Objects.run_reportCalls`).
-/

namespace ShaderInterface.Reflection.Gl

open Glsl

/-! ## Calls and objects -/

/-- A shader or a program, by its number. -/
inductive Object where
  | shader (number : Nat)
  | program (number : Nat)
  deriving DecidableEq

namespace Call

/-- The object that a call creates. -/
def created? : Call → Option Object
  | createShader _ shader => some (.shader shader)
  | createProgram program => some (.program program)
  | _ => none

/-- The object that a call deletes. -/
def deleted? : Call → Option Object
  | deleteShader shader => some (.shader shader)
  | deleteProgram program => some (.program program)
  | _ => none

/-- The objects that a call needs. -/
def needs : Call → List Object
  | createShader _ _ | createProgram _ => []
  | shaderSource shader _ | compileShader shader | getShaderStatus shader | getShaderLog shader
  | deleteShader shader => [.shader shader]
  | attachShader program shader | detachShader program shader =>
    [.program program, .shader shader]
  | linkProgram program | getProgramStatus program | getProgramLog program
  | getUniformCount program | getUniform program _ | getAttributeCount program
  | getAttribute program _ | deleteProgram program => [.program program]

/-- The call changes neither which objects there are nor what is attached. -/
def isWork : Call → Bool
  | createShader _ _ | createProgram _ | deleteShader _ | deleteProgram _
  | attachShader _ _ | detachShader _ _ => false
  | _ => true

/-- The call deletes neither the program nor the shader. -/
def spares (program shader : Nat) (c : Call) : Bool :=
  c.deleted? ≠ some (.program program) ∧ c.deleted? ≠ some (.shader shader)

variable {c : Call} {o : Object}

theorem deleted?_eq_none_of_created? (h : c.created? = some o) : c.deleted? = none := by
  cases c <;> simp_all [created?, deleted?]

theorem created?_eq_none_of_deleted? (h : c.deleted? = some o) : c.created? = none := by
  cases c <;> simp_all [created?, deleted?]

theorem eq_none_of_isWork (h : c.isWork) : c.created? = none ∧ c.deleted? = none := by
  cases c <;> simp_all [isWork, created?, deleted?]

theorem spares_of_deleted?_eq_none (h : c.deleted? = none) (program shader : Nat) :
    c.spares program shader := by
  simp [spares, h]

end Call

/-- The calls create every object once and delete all of them once. A call needs only objects that
are created before it and not deleted before it, and of a shader and a program that are attached
exactly one call detaches the two before either is deleted. -/
structure Disciplined (calls : List Call) : Prop where
  createdOnce : (calls.filterMap Call.created?).Nodup
  deletedOnce : (calls.filterMap Call.deleted?).Perm (calls.filterMap Call.created?)
  alive : ∀ before c after, calls = before ++ c :: after → ∀ o ∈ c.needs,
    o ∈ before.filterMap Call.created? ∧ o ∉ before.filterMap Call.deleted?
  detached : ∀ before program shader after,
    calls = before ++ .attachShader program shader :: after →
      (after.takeWhile (Call.spares program shader)).count (.detachShader program shader) = 1

/-! ## Runs of calls -/

/-- The objects at one point of a run of calls. -/
structure Objects where
  /-- The objects that were created. -/
  created : List Object := []
  /-- The objects that were not deleted since. -/
  live : List Object := []
  /-- The pairs of a program and a shader that were attached. -/
  joined : List (Nat × Nat) := []
  /-- The pairs that were not detached since. -/
  attached : List (Nat × Nat) := []

namespace Objects

/-- What a call may do to the objects at hand. -/
inductive Step : Objects → Call → Objects → Prop where
  | create {s : Objects} {c : Call} {o : Object} (creates : c.created? = some o)
      (fresh : o ∉ s.created) :
      Step s c { s with created := s.created ++ [o], live := o :: s.live }
  | delete {s : Objects} {c : Call} {o : Object} (deletes : c.deleted? = some o)
      (live : o ∈ s.live)
      (free : ∀ pair ∈ s.attached, Object.program pair.1 ≠ o ∧ Object.shader pair.2 ≠ o) :
      Step s c { s with live := s.live.erase o }
  | attach {s : Objects} {p q : Nat} (live : ∀ o ∈ (Call.attachShader p q).needs, o ∈ s.live)
      (fresh : (p, q) ∉ s.joined) :
      Step s (.attachShader p q)
        { s with joined := (p, q) :: s.joined, attached := (p, q) :: s.attached }
  | detach {s : Objects} {p q : Nat} (live : ∀ o ∈ (Call.detachShader p q).needs, o ∈ s.live)
      (attached : (p, q) ∈ s.attached) :
      Step s (.detachShader p q) { s with attached := s.attached.erase (p, q) }
  | work {s : Objects} {c : Call} (live : ∀ o ∈ c.needs, o ∈ s.live) (keeps : c.isWork) :
      Step s c s

/-- A run of calls. -/
inductive Run : Objects → List Call → Objects → Prop where
  | nil {s : Objects} : Run s [] s
  | cons {s t u : Objects} {c : Call} {calls : List Call} (step : Step s c t)
      (run : Run t calls u) : Run s (c :: calls) u

variable {s t u : Objects} {c : Call} {before calls calls' : List Call} {p q : Nat}

theorem Run.append (h : Run s calls t) (h' : Run t calls' u) : Run s (calls ++ calls') u := by
  induction h with
  | nil => exact h'
  | cons step _ ih => exact .cons step (ih h')

theorem Run.exists_of_append (h : Run s (calls ++ calls') u) :
    ∃ t, Run s calls t ∧ Run t calls' u := by
  induction calls generalizing s with
  | nil => exact ⟨s, .nil, h⟩
  | cons c calls ih =>
    cases h with
    | cons step run =>
      obtain ⟨t, ht, hu⟩ := ih run
      exact ⟨t, .cons step ht, hu⟩

/-- A call needs only objects that are there. -/
theorem Step.mem_live (h : Step s c t) : ∀ o ∈ c.needs, o ∈ s.live := by
  cases h with
  | create creates fresh => cases c <;> simp_all [Call.created?, Call.needs]
  | delete deletes live free => cases c <;> simp_all [Call.deleted?, Call.needs]
  | attach live fresh => exact live
  | detach live attached => exact live
  | work live keeps => exact live

/-- The objects are those that the calls so far have left. -/
structure Accounts (s : Objects) (before : List Call) : Prop where
  created : s.created = before.filterMap Call.created?
  createdOnce : s.created.Nodup
  deleted : (before.filterMap Call.deleted? ++ s.live).Perm s.created
  attachedOnce : s.attached.Nodup
  joined : s.attached ⊆ s.joined

theorem accounts_nil : Accounts {} [] := ⟨rfl, by simp, by simp, by simp, by simp⟩

/-- An object is there when it was created and not deleted. -/
theorem Accounts.mem_of_live (h : Accounts s before) {o : Object} (ho : o ∈ s.live) :
    o ∈ before.filterMap Call.created? ∧ o ∉ before.filterMap Call.deleted? := by
  have once := h.deleted.nodup_iff.mpr h.createdOnce
  refine ⟨?_, fun gone => (List.nodup_append.mp once).2.2 o gone o ho rfl⟩
  rw [← h.created]
  exact h.deleted.mem_iff.mp (List.mem_append_right _ ho)

theorem filterMap_concat (f : Call → Option Object) (before : List Call) (c : Call) :
    (before ++ [c]).filterMap f = before.filterMap f ++ (f c).toList := by
  rw [List.filterMap_append]
  cases hc : f c with
  | none => rw [List.filterMap_cons_none hc]; rfl
  | some o => rw [List.filterMap_cons_some hc]; rfl

/-- A call that neither creates nor deletes changes nothing in the accounts. -/
theorem Accounts.idle (h : Accounts s before) (creates : c.created? = none)
    (deletes : c.deleted? = none) : Accounts s (before ++ [c]) where
  created := by rw [filterMap_concat, creates, Option.toList_none, List.append_nil, h.created]
  createdOnce := h.createdOnce
  deleted := by rw [filterMap_concat, deletes, Option.toList_none, List.append_nil]; exact h.deleted
  attachedOnce := h.attachedOnce
  joined := h.joined

/-- **A call keeps the accounts.** -/
theorem Accounts.step (h : Accounts s before) (hc : Step s c t) : Accounts t (before ++ [c]) := by
  cases hc with
  | @create c o creates fresh =>
    have kept := Call.deleted?_eq_none_of_created? creates
    refine ⟨?_, ?_, ?_, h.attachedOnce, h.joined⟩
    · rw [filterMap_concat, creates, h.created, Option.toList_some]
    · exact h.createdOnce.append (List.nodup_singleton o) (by simpa using fresh)
    · rw [filterMap_concat, kept, Option.toList_none, List.append_nil]
      exact List.perm_middle.trans
        ((h.deleted.cons o).trans (List.perm_append_singleton o _).symm)
  | @delete c o deletes live free =>
    have kept := Call.created?_eq_none_of_deleted? deletes
    refine ⟨?_, h.createdOnce, ?_, h.attachedOnce, h.joined⟩
    · rw [filterMap_concat, kept, Option.toList_none, List.append_nil, h.created]
    · rw [filterMap_concat, deletes, Option.toList_some, List.append_assoc,
        List.singleton_append]
      exact ((List.perm_cons_erase live).symm.append_left _).trans h.deleted
  | @attach p q live fresh =>
    have idle : Accounts s (before ++ [.attachShader p q]) := h.idle rfl rfl
    refine ⟨idle.created, idle.createdOnce, idle.deleted, ?_, List.cons_subset_cons _ h.joined⟩
    exact List.nodup_cons.mpr ⟨fun attached => fresh (h.joined attached), h.attachedOnce⟩
  | @detach p q live attached =>
    have idle : Accounts s (before ++ [.detachShader p q]) := h.idle rfl rfl
    exact ⟨idle.created, idle.createdOnce, idle.deleted, h.attachedOnce.erase _,
      fun pair hp => h.joined (List.mem_of_mem_erase hp)⟩
  | work live keeps =>
    obtain ⟨creates, deletes⟩ := Call.eq_none_of_isWork keeps
    exact h.idle creates deletes

/-- A run of calls keeps the accounts. -/
theorem Accounts.run (h : Accounts s before) (hr : Run s calls t) :
    Accounts t (before ++ calls) := by
  induction hr generalizing before with
  | nil => rwa [List.append_nil]
  | cons step _ ih =>
    rw [List.append_cons]
    exact ih (h.step step)

/-! ## Pairs -/

/-- As long as a pair is attached, a call deletes neither of the two, and only the call that
detaches the pair ends it. -/
theorem Step.of_attached (h : Step s c t) (once : s.attached.Nodup)
    (attached : (p, q) ∈ s.attached) :
    c.spares p q ∧
      (c = .detachShader p q ∧ (p, q) ∉ t.attached ∧ t.joined = s.joined ∨
        c ≠ .detachShader p q ∧ (p, q) ∈ t.attached) := by
  cases h with
  | create creates fresh =>
    have kept := Call.deleted?_eq_none_of_created? creates
    refine ⟨Call.spares_of_deleted?_eq_none kept p q, .inr ⟨fun eq => ?_, attached⟩⟩
    simp [eq, Call.created?] at creates
  | delete deletes live free =>
    have apart := free _ attached
    refine ⟨?_, .inr ⟨fun eq => ?_, attached⟩⟩
    · simp [Call.spares, deletes, apart.1.symm, apart.2.symm]
    · simp [eq, Call.deleted?] at deletes
  | attach live fresh => exact ⟨rfl, .inr ⟨nofun, List.mem_cons_of_mem _ attached⟩⟩
  | @detach p' q' live here =>
    refine ⟨rfl, ?_⟩
    by_cases eq : (p, q) = (p', q')
    · cases eq
      exact .inl ⟨rfl, once.not_mem_erase, rfl⟩
    · exact .inr ⟨fun same => by cases same; exact eq rfl, (List.mem_erase_of_ne eq).mpr attached⟩
  | work live keeps =>
    have kept := (Call.eq_none_of_isWork keeps).2
    refine ⟨Call.spares_of_deleted?_eq_none kept p q, .inr ⟨fun eq => ?_, attached⟩⟩
    simp [eq, Call.isWork] at keeps

/-- A pair that was detached is not detached again. -/
theorem Run.not_mem_detach (h : Run s calls t) (joined : (p, q) ∈ s.joined)
    (free : (p, q) ∉ s.attached) : Call.detachShader p q ∉ calls := by
  induction h with
  | nil => exact List.not_mem_nil
  | @cons s t u c calls step _ ih =>
    rw [List.mem_cons, not_or]
    cases step with
    | create creates fresh =>
      exact ⟨fun eq => by simp [← eq, Call.created?] at creates, ih joined free⟩
    | delete deletes live _ =>
      exact ⟨fun eq => by simp [← eq, Call.deleted?] at deletes, ih joined free⟩
    | @attach p' q' live fresh =>
      have ne : (p, q) ≠ (p', q') := fun eq => fresh (eq ▸ joined)
      exact ⟨nofun, ih (List.mem_cons_of_mem _ joined) (List.not_mem_cons_of_ne_of_not_mem ne free)⟩
    | detach live attached =>
      refine ⟨?_, ih joined fun ha => free (List.mem_of_mem_erase ha)⟩
      rintro ⟨⟩
      exact free attached
    | work live keeps => exact ⟨fun eq => by simp [← eq, Call.isWork] at keeps, ih joined free⟩

/-- A pair that is attached is detached once before either of the two is deleted, where a run
leaves nothing attached. -/
theorem Run.count_detach (h : Run s calls t) (released : t.attached = [])
    (accounts : Accounts s before) (attached : (p, q) ∈ s.attached) :
    (calls.takeWhile (Call.spares p q)).count (.detachShader p q) = 1 := by
  induction h generalizing before with
  | nil => simp [released] at attached
  | @cons s t u c calls step run ih =>
    obtain ⟨spares, cases⟩ := step.of_attached accounts.attachedOnce attached
    rw [List.takeWhile_cons_of_pos spares]
    rcases cases with ⟨rfl, free, same⟩ | ⟨ne, still⟩
    · have none := run.not_mem_detach (same ▸ accounts.joined attached) free
      rw [List.count_cons_self,
        List.count_eq_zero.mpr fun h => none ((List.takeWhile_sublist _).mem h)]
    · rw [List.count_cons_of_ne ne, ih released (accounts.step step) still]

/-- **A run that leaves nothing behind keeps the discipline of lifetimes.** -/
theorem Run.disciplined (h : Run {} calls t) (live : t.live = []) (attached : t.attached = []) :
    Disciplined calls := by
  have accounts : Accounts t calls := accounts_nil.run h
  refine ⟨accounts.created ▸ accounts.createdOnce, ?_, ?_, ?_⟩
  · have deleted := accounts.deleted
    rwa [live, List.append_nil, accounts.created] at deleted
  · rintro before c after rfl o ho
    obtain ⟨s, hs, hr⟩ := h.exists_of_append
    cases hr with
    | cons step _ => exact (accounts_nil.run hs).mem_of_live (step.mem_live o ho)
  · rintro before p q after rfl
    obtain ⟨s, hs, hr⟩ := h.exists_of_append
    cases hr with
    | cons step run =>
      have next := (accounts_nil.run hs).step step
      refine run.count_detach attached next ?_
      cases step with
      | create creates _ => simp [Call.created?] at creates
      | delete deletes _ _ => simp [Call.deleted?] at deletes
      | attach live fresh => exact List.mem_cons_self
      | work live keeps => simp [Call.isWork] at keeps

/-! ## The runs of a report -/

variable {created live : List Object} {joined : List (Nat × Nat)} {o : Object}
  {vertex fragment shader program : Nat}

/-- Calls that only work on objects that are there, or ask about them, leave all as it is. -/
theorem run_work (work : ∀ c ∈ calls, c.isWork ∧ ∀ o ∈ c.needs, o ∈ s.live) :
    Run s calls s := by
  induction calls with
  | nil => exact .nil
  | cons c calls ih =>
    obtain ⟨first, rest⟩ := List.forall_mem_cons.mp work
    exact .cons (.work first.2 first.1) (ih rest)

/-- Where nothing is attached, an object that is there may be deleted. -/
theorem run_delete (deletes : c.deleted? = some o) (there : o ∈ live) :
    Run ⟨created, live, joined, []⟩ [c] ⟨created, live.erase o, joined, []⟩ :=
  .cons (.delete deletes there (by simp)) .nil

/-- Deleting the object that came last leaves what was there before it. -/
theorem run_delete_last (deletes : c.deleted? = some o) :
    Run ⟨created, o :: live, joined, []⟩ [c] ⟨created, live, joined, []⟩ := by
  have deleted : Run ⟨created, o :: live, joined, []⟩ [c] _ :=
    run_delete deletes List.mem_cons_self
  rwa [List.erase_cons_head] at deleted

/-- Compiling a stage leaves its shader, or nothing where it fails. -/
theorem run_compileCalls (script : Script) (stage : Stage) (text : String)
    (fresh : .shader shader ∉ created) :
    Run ⟨created, live, joined, []⟩ (compileCalls script stage text shader)
      ⟨created ++ [.shader shader],
        if (script.shader stage).succeeded then .shader shader :: live else live, joined, []⟩ := by
  have compiled : Run ⟨created, live, joined, []⟩
      [.createShader stage shader, .shaderSource shader text.utf8ByteSize, .compileShader shader,
        .getShaderStatus shader]
      ⟨created ++ [.shader shader], .shader shader :: live, joined, []⟩ :=
    .cons (.create rfl fresh) (run_work (by simp [Call.needs, Call.isWork]))
  refine compiled.append ?_
  split
  · exact .nil
  · exact .cons (.work (by simp [Call.needs]) rfl) (run_delete_last rfl)

/-- Two shaders that are attached to a program and then detached again leave nothing attached. -/
theorem run_attach_detach (hp : .program program ∈ live) (hv : .shader vertex ∈ live)
    (hf : .shader fragment ∈ live) (ne : vertex ≠ fragment) :
    Run ⟨created, live, [], []⟩
      [.attachShader program vertex, .attachShader program fragment, .linkProgram program,
        .detachShader program vertex, .detachShader program fragment, .getProgramStatus program]
      ⟨created, live, [(program, fragment), (program, vertex)], []⟩ := by
  have erased : [(program, fragment), (program, vertex)].erase (program, vertex) =
      [(program, fragment)] := by simp [ne.symm]
  have first : Step
      ⟨created, live, [(program, fragment), (program, vertex)],
        [(program, fragment), (program, vertex)]⟩
      (.detachShader program vertex) _ := .detach (by simp [Call.needs, hp, hv]) (by simp)
  have second : Step
      ⟨created, live, [(program, fragment), (program, vertex)], [(program, fragment)]⟩
      (.detachShader program fragment) _ := .detach (by simp [Call.needs, hp, hf]) (by simp)
  rw [erased] at first
  rw [List.erase_cons_head] at second
  exact .cons (.attach (by simp [Call.needs, hp, hv]) (by simp))
    (.cons (.attach (by simp [Call.needs, hp, hf]) (by simp [ne.symm]))
      (.cons (.work (by simp [Call.needs, hp]) rfl) (.cons first (.cons second
        (run_work (by simp [Call.needs, Call.isWork, hp]))))))

/-- Linking leaves the program, with nothing attached to it, or nothing where it fails. -/
theorem run_linkCalls (script : Script) (fresh : .program program ∉ created)
    (hv : .shader vertex ∈ live) (hf : .shader fragment ∈ live) (ne : vertex ≠ fragment) :
    Run ⟨created, live, [], []⟩ (linkCalls script vertex fragment program)
      ⟨created ++ [.program program],
        if script.link.succeeded then .program program :: live else live,
        [(program, fragment), (program, vertex)], []⟩ := by
  have linked : Run ⟨created ++ [.program program], .program program :: live, [], []⟩ _ _ :=
    run_attach_detach List.mem_cons_self (List.mem_cons_of_mem _ hv) (List.mem_cons_of_mem _ hf) ne
  refine Run.append (.cons (.create rfl fresh) linked) ?_
  split
  · exact .nil
  · exact .cons (.work (by simp [Call.needs]) rfl) (run_delete_last rfl)

/-- Two shaders are deleted in the order in which they came. -/
theorem run_delete_both (top : List Object) (hv : .shader vertex ∉ top)
    (hf : .shader fragment ∉ top) (ne : vertex ≠ fragment) :
    Run ⟨created, top ++ [.shader fragment, .shader vertex], joined, []⟩
      [.deleteShader vertex, .deleteShader fragment] ⟨created, top, joined, []⟩ := by
  have first : Run ⟨created, top ++ [.shader fragment, .shader vertex], joined, []⟩
    [.deleteShader vertex] _ := run_delete rfl (by simp)
  have second : Run ⟨created, top ++ [.shader fragment], joined, []⟩
    [.deleteShader fragment] _ := run_delete rfl (by simp)
  rw [List.erase_append_right _ hv, List.erase_cons_tail (by simpa using ne.symm),
    List.erase_cons_head] at first
  rw [List.erase_append_right _ hf, List.erase_cons_head, List.append_nil] at second
  exact first.append second

theorem run_queryCalls {count : Call} {query : Nat → Call}
    (counts : count.isWork ∧ ∀ o ∈ count.needs, o ∈ s.live)
    (queries : ∀ index, (query index).isWork ∧ ∀ o ∈ (query index).needs, o ∈ s.live)
    (answers : List (Option Listed)) : Run s (queryCalls count query answers) s := by
  refine run_work fun c hc => ?_
  rcases List.mem_cons.mp hc with rfl | hc
  · exact counts
  · obtain ⟨answer, -, rfl⟩ := List.mem_map.mp hc
    exact queries answer.2

/-- The active variables of a program that is there may be asked for. -/
theorem run_activeCalls (script : Script) (hp : .program program ∈ s.live) :
    Run s (activeCalls script program) s := by
  have alive : ∀ o ∈ [Object.program program], o ∈ s.live := List.forall_mem_singleton.mpr hp
  unfold activeCalls
  refine Run.append (t := s) (run_queryCalls ?_ ?_ _) (run_queryCalls ?_ ?_ _)
  · exact ⟨rfl, alive⟩
  · exact fun _ => ⟨rfl, alive⟩
  · exact ⟨rfl, alive⟩
  · exact fun _ => ⟨rfl, alive⟩

/-- Two shaders that are compiled, and the program that is linked of them, are all deleted. -/
theorem run_programCalls (script : Script) (fresh : .program program ∉ created)
    (ne : vertex ≠ fragment) :
    Run ⟨created, [.shader fragment, .shader vertex], [], []⟩
      (programCalls script vertex fragment program)
      ⟨created ++ [.program program], [], [(program, fragment), (program, vertex)], []⟩ := by
  have linked : Run ⟨created, [.shader fragment, .shader vertex], [], []⟩ _ _ :=
    run_linkCalls script fresh (by simp) (by simp) ne
  unfold programCalls
  by_cases h : script.link.succeeded
  · rw [if_pos h] at linked ⊢
    refine (linked.append (run_delete_both [.program program] (by simp) (by simp) ne)).append ?_
    exact (run_activeCalls script List.mem_cons_self).append (run_delete_last rfl)
  · rw [if_neg h] at linked ⊢
    rw [List.append_nil]
    exact linked.append (run_delete_both [] (by simp) (by simp) ne)

/-- A shader is deleted where it is compiled. -/
theorem run_deleteCalls (status : Status) (shader : Nat) :
    Run ⟨created, if status.succeeded then .shader shader :: live else live, joined, []⟩
      (deleteCalls status shader) ⟨created, live, joined, []⟩ := by
  unfold deleteCalls
  split
  · exact run_delete_last rfl
  · exact .nil

/-- Of two stages that do not both compile, no shader is left. -/
theorem run_failure {v f : Status} (h : ¬ (v.succeeded ∧ f.succeeded)) :
    Run ⟨created,
        if f.succeeded then .shader fragment :: if v.succeeded then [.shader vertex] else []
        else if v.succeeded then [.shader vertex] else [], joined, []⟩
      (deleteCalls v vertex ++ deleteCalls f fragment) ⟨created, [], joined, []⟩ := by
  by_cases hv : v.succeeded
  · have hf : ¬ f.succeeded := fun hf => h ⟨hv, hf⟩
    have last : Run ⟨created, if f.succeeded then [.shader fragment] else [], joined, []⟩ _
      ⟨created, [], joined, []⟩ := run_deleteCalls f fragment
    rw [if_neg hf] at last ⊢
    exact (run_deleteCalls v vertex).append last
  · have first : Run
      ⟨created,
        if v.succeeded then .shader vertex :: (if f.succeeded then [.shader fragment] else [])
        else if f.succeeded then [.shader fragment] else [], joined, []⟩ _ _ :=
      run_deleteCalls v vertex
    rw [if_neg hv] at first ⊢
    exact first.append (run_deleteCalls f fragment)

/-- **A report leaves nothing behind**, whatever GL answers. -/
theorem run_reportCalls (script : Script) (vertex fragment : String) (n : Nat) :
    ∃ t, Run {} (reportCalls script vertex fragment n) t ∧ t.live = [] ∧ t.attached = [] := by
  have v : Run {} (compileCalls script .vertex vertex (n + 1)) _ :=
    run_compileCalls script .vertex vertex (by simp)
  have f : Run
    ⟨[.shader (n + 1)], if script.vertex.succeeded then [.shader (n + 1)] else [], [], []⟩
    (compileCalls script .fragment fragment (n + 2)) _ :=
    run_compileCalls script .fragment fragment (by simp)
  have compiled := v.append f
  unfold reportCalls
  by_cases h : script.vertex.succeeded ∧ script.fragment.succeeded
  · have program : Run
      ⟨[.shader (n + 1), .shader (n + 2)], [.shader (n + 2), .shader (n + 1)], [], []⟩
      (programCalls script (n + 1) (n + 2) (n + 3)) _ :=
      run_programCalls script (by simp) (by simp)
    rw [Script.shader, if_pos h.2, if_pos h.1] at compiled
    rw [if_pos h]
    exact ⟨_, compiled.append program, rfl, rfl⟩
  · rw [if_neg h]
    exact ⟨_, compiled.append (run_failure h), rfl, rfl⟩

end Objects

/-! ## Linking -/

/-- The calls link one program, once, and to that program both shaders are attached then: one that
was created for the vertex stage and one that was created for the fragment stage. -/
def LinksBoth (calls : List Call) : Prop :=
  ∃ before program after vertex fragment,
    calls = before ++ .linkProgram program :: after ∧
    (∀ other, .linkProgram other ∉ before ∧ .linkProgram other ∉ after) ∧
    .createShader .vertex vertex ∈ before ∧ .createShader .fragment fragment ∈ before ∧
    .attachShader program vertex ∈ before ∧ .attachShader program fragment ∈ before ∧
    .detachShader program vertex ∉ before ∧ .detachShader program fragment ∉ before

/-- The calls create a shader for the stage, give it a text of so many bytes, and compile it. -/
def Compiles (stage : Stage) (bytes : Nat) (calls : List Call) : Prop :=
  ∃ shader, [.createShader stage shader, .shaderSource shader bytes, .compileShader shader] <:+:
    calls

theorem compiles_compileCalls (script : Script) (stage : Stage) (text : String) (shader : Nat) :
    Compiles stage text.utf8ByteSize (compileCalls script stage text shader) :=
  ⟨shader, (List.prefix_append _ _).isInfix⟩

theorem linkProgram_not_mem_compileCalls (script : Script) (stage : Stage) (text : String)
    (shader program : Nat) : .linkProgram program ∉ compileCalls script stage text shader := by
  unfold compileCalls
  split <;> simp

theorem detachShader_not_mem_compileCalls (script : Script) (stage : Stage) (text : String)
    (shader program other : Nat) :
    .detachShader program other ∉ compileCalls script stage text shader := by
  unfold compileCalls
  split <;> simp

theorem linkProgram_not_mem_deleteCalls (status : Status) (shader program : Nat) :
    .linkProgram program ∉ deleteCalls status shader := by
  unfold deleteCalls
  split <;> simp

theorem linksBoth_reportCalls (script : Script) (vertex fragment : String) (n : Nat)
    (h : script.vertex.succeeded ∧ script.fragment.succeeded) :
    LinksBoth (reportCalls script vertex fragment n) := by
  have created : ∀ stage text shader,
      .createShader stage shader ∈ compileCalls script stage text shader := by
    simp [compileCalls]
  have cut : reportCalls script vertex fragment n =
      (compileCalls script .vertex vertex (n + 1) ++
        compileCalls script .fragment fragment (n + 2) ++
        [.createProgram (n + 3), .attachShader (n + 3) (n + 1), .attachShader (n + 3) (n + 2)]) ++
      .linkProgram (n + 3) ::
        ([.detachShader (n + 3) (n + 1), .detachShader (n + 3) (n + 2),
            .getProgramStatus (n + 3)] ++
          (if script.link.succeeded then []
            else [.getProgramLog (n + 3), .deleteProgram (n + 3)]) ++
          [.deleteShader (n + 1), .deleteShader (n + 2)] ++
          if script.link.succeeded then activeCalls script (n + 3) ++ [.deleteProgram (n + 3)]
          else []) := by
    rw [reportCalls, if_pos h, programCalls, linkCalls]
    simp only [List.append_assoc, List.cons_append, List.nil_append]
  refine ⟨_, _, _, n + 1, n + 2, cut, fun other => ⟨?_, ?_⟩, ?_⟩
  · simp [linkProgram_not_mem_compileCalls]
  · by_cases hl : script.link.succeeded <;> simp [hl, activeCalls, queryCalls]
  · simp [created, detachShader_not_mem_compileCalls]

theorem linkProgram_not_mem_reportCalls (script : Script) (vertex fragment : String) (n : Nat)
    (h : ¬ (script.vertex.succeeded ∧ script.fragment.succeeded)) (program : Nat) :
    .linkProgram program ∉ reportCalls script vertex fragment n := by
  rw [reportCalls, if_neg h]
  simp [linkProgram_not_mem_compileCalls, linkProgram_not_mem_deleteCalls]

theorem compiles_reportCalls (script : Script) (vertex fragment : String) (n : Nat) :
    Compiles .vertex vertex.utf8ByteSize (reportCalls script vertex fragment n) ∧
      Compiles .fragment fragment.utf8ByteSize (reportCalls script vertex fragment n) := by
  obtain ⟨v, hv⟩ := compiles_compileCalls script .vertex vertex (n + 1)
  obtain ⟨f, hf⟩ := compiles_compileCalls script .fragment fragment (n + 2)
  rw [reportCalls, List.append_assoc]
  exact ⟨⟨v, hv.trans (List.prefix_append _ _).isInfix⟩,
    f, hf.trans ((List.prefix_append _ _).isInfix.trans (List.suffix_append _ _).isInfix)⟩

/-- **No GL object is left behind or used when it is not there**, whatever GL answers: the calls of
a reflection, those that only ask included, keep the discipline of lifetimes. Both stages are
compiled in any case; a program is linked exactly when both have compiled, once and with both
shaders attached. -/
theorem calls_reflect_disciplined (parse : Hint.Parser) (overflow : Overflow) (script : Script)
    (vertex fragment : String) (st : State) :
    ∃ calls, ((reflect parse overflow (context script) vertex fragment).run st).value.2.calls =
        st.calls ++ calls ∧
      Disciplined calls ∧
      Compiles .vertex vertex.utf8ByteSize calls ∧
      Compiles .fragment fragment.utf8ByteSize calls ∧
      ((∃ program, .linkProgram program ∈ calls) ↔
        script.vertex.status = 1 ∧ script.fragment.status = 1) ∧
      (script.vertex.status = 1 ∧ script.fragment.status = 1 → LinksBoth calls) := by
  obtain ⟨m, result, made⟩ :=
    makes_reflect parse overflow script vertex fragment st.created
  obtain ⟨t, run, live, attached⟩ := Objects.run_reportCalls script vertex fragment st.created
  obtain ⟨compilesVertex, compilesFragment⟩ :=
    compiles_reportCalls script vertex fragment st.created
  have succeeded : ∀ status : Status, status.succeeded = true ↔ status.status = 1 := fun status =>
    decide_eq_true_iff
  have linksBoth := linksBoth_reportCalls script vertex fragment st.created
  have unlinked := linkProgram_not_mem_reportCalls script vertex fragment st.created
  rw [succeeded, succeeded] at linksBoth unlinked
  refine ⟨_, by rw [made st rfl], run.disciplined live attached, compilesVertex, compilesFragment,
    ⟨?_, fun h => ?_⟩, linksBoth⟩
  · rintro ⟨program, hp⟩
    by_contra h
    exact unlinked h program hp
  · obtain ⟨before, program, after, _, _, eq, -⟩ := linksBoth h
    exact ⟨program, eq ▸ List.mem_append_right _ List.mem_cons_self⟩

end ShaderInterface.Reflection.Gl
