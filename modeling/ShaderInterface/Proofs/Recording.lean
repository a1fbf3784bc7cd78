import ShaderInterface.Proofs.Outcome

/-!
# What computations record

A computation may record nothing of a severity, whether it fails or not (`RecordsNone`). It records
its failure (`Diagnosed.RecordsFailure`) when the errors that it records are the text of the error
with which it fails, and there are none where it gives a value. Sequencing keeps both, so that every
computation put together from parts that tell of their failure once does so too.

Two logs that are written at the same time are taken apart by `Interleaves`.
-/

namespace ShaderInterface

variable {ε α β : Type}

/-! ## Messages by severity -/

namespace Log

/-- The messages of the entries of a severity, in order. -/
def messages (severity : Severity) (entries : List Entry) : List String :=
  (entries.filter (·.severity = severity)).map (·.message)

theorem errors_eq_messages (entries : List Entry) : errors entries = messages .error entries := rfl

theorem messages_append (severity : Severity) (xs ys : List Entry) :
    messages severity (xs ++ ys) = messages severity xs ++ messages severity ys := by
  simp [messages]

theorem messages_flatMap (severity : Severity) (as : List α) (f : α → List Entry) :
    messages severity (as.flatMap f) = as.flatMap fun a => messages severity (f a) := by
  induction as with
  | nil => rfl
  | cons a as ih => rw [List.flatMap_cons, messages_append, ih, List.flatMap_cons]

theorem messages_eq_nil_iff {severity : Severity} {entries : List Entry} :
    messages severity entries = [] ↔ ∀ e ∈ entries, e.severity ≠ severity := by
  simp [messages]

end Log

/-! ## Computations that record nothing of a severity -/

/-- The computation records nothing of the severity, whether it fails or not. -/
def RecordsNone (severity : Log.Severity) (x : ExceptT ε Logged α) : Prop :=
  Log.messages severity x.run.entries = []

theorem entries_run_bind (x : ExceptT ε Logged α) (f : α → ExceptT ε Logged β) :
    (x >>= f).run.entries = x.run.entries ++ match x.run.value with
      | .ok a => (f a).run.entries
      | .error _ => [] := by
  rw [ExceptT.run_bind, Logged.entries_bind]
  cases x.run.value <;> rfl

theorem entries_run_liftM (x : Logged α) :
    (liftM x : ExceptT ε Logged α).run.entries = x.entries :=
  List.append_nil x.entries

theorem messages_run_liftM_bind (severity : Log.Severity) (x : Logged α)
    (f : α → ExceptT ε Logged β) :
    Log.messages severity (liftM x >>= f).run.entries =
      Log.messages severity x.entries ++ Log.messages severity (f x.value).run.entries := by
  rw [entries_run_bind, Log.messages_append, entries_run_liftM]
  rfl

namespace RecordsNone

variable {severity : Log.Severity}

theorem pure (a : α) : RecordsNone severity (Pure.pure a : ExceptT ε Logged α) := rfl

theorem throw (e : ε) : RecordsNone severity (throw e : ExceptT ε Logged α) := rfl

theorem lift {x : Logged α} (h : Log.messages severity x.entries = []) :
    RecordsNone severity (liftM x : ExceptT ε Logged α) := by
  rwa [RecordsNone, entries_run_liftM]

theorem bind {x : ExceptT ε Logged α} {f : α → ExceptT ε Logged β} (h : RecordsNone severity x)
    (next : ∀ a, RecordsNone severity (f a)) : RecordsNone severity (x >>= f) := by
  rw [RecordsNone, entries_run_bind, Log.messages_append, show Log.messages severity _ = [] from h]
  cases x.run.value with
  | ok a => exact next a
  | error e => rfl

theorem mapM {f : α → ExceptT ε Logged β} (h : ∀ a, RecordsNone severity (f a)) (as : List α) :
    RecordsNone severity (as.mapM f) := by
  induction as with
  | nil => exact pure []
  | cons a as ih =>
    rw [List.mapM_cons]
    exact (h a).bind fun b => ih.bind fun bs => pure (b :: bs)

end RecordsNone

/-! ## Computations that record their failure -/

/-- The text of the error with which a computation fails. -/
def failureTexts : Except Error α → List String
  | .ok _ => []
  | .error e => [e.message]

namespace Diagnosed

/-- The errors that the computation records are the text of its failure, once. -/
def RecordsFailure (x : Diagnosed α) : Prop := Log.errors x.entries = failureTexts x.outcome

namespace RecordsFailure

theorem pure (a : α) : RecordsFailure (Pure.pure a) := rfl

theorem fail (source : String) (e : Error) :
    RecordsFailure (Diagnosed.fail source e : Diagnosed α) := rfl

theorem ofOption (source : String) (e : Error) (o : Option α) :
    RecordsFailure (Diagnosed.ofOption source e o) := by
  cases o with
  | none => exact fail source e
  | some a => exact pure a

theorem lift {x : Logged α} (h : Log.errors x.entries = []) :
    RecordsFailure (liftM x : Diagnosed α) := RecordsNone.lift h

theorem bind {x : Diagnosed α} {f : α → Diagnosed β} (h : RecordsFailure x)
    (next : ∀ a, RecordsFailure (f a)) : RecordsFailure (x >>= f) := by
  have first : Log.errors x.run.entries = failureTexts x.run.value := h
  rw [RecordsFailure, entries, outcome, entries_run_bind, value_run_bind, Log.errors_append, first]
  cases x.run.value with
  | ok a => exact next a
  | error e => rfl

theorem mapM {f : α → Diagnosed β} (h : ∀ a, RecordsFailure (f a)) (as : List α) :
    RecordsFailure (as.mapM f) := by
  induction as with
  | nil => exact pure []
  | cons a as ih =>
    rw [List.mapM_cons]
    exact (h a).bind fun b => ih.bind fun bs => pure (b :: bs)

end RecordsFailure

end Diagnosed

theorem Logged.entries_mapM (f : α → Logged β) (as : List α) :
    (as.mapM f).entries = as.flatMap fun a => (f a).entries := by
  induction as with
  | nil => rfl
  | cons a as ih =>
    rw [List.mapM_cons, Logged.entries_bind, Logged.entries_bind, ih, Logged.entries_pure,
      List.append_nil, List.flatMap_cons]

/-- What goes on from two computations without recording anything leaves their entries. -/
theorem Logged.entries_bind_bind {γ : Type} {x : Logged α} {y : Logged β} {f : α → β → Logged γ}
    (silent : ∀ a b, (f a b).entries = []) :
    (do let a ← x; let b ← y; f a b).entries = x.entries ++ y.entries := by
  rw [Logged.entries_bind, Logged.entries_bind, silent, List.append_nil]

/-! ## Two logs in one -/

/-- `Interleaves xs ys zs`: the list `zs` is made of `xs` and `ys`, each in its order. -/
inductive Interleaves : List α → List α → List α → Prop where
  | nil : Interleaves [] [] []
  | left {x : α} {xs ys zs : List α} (h : Interleaves xs ys zs) : Interleaves (x :: xs) ys (x :: zs)
  | right {y : α} {xs ys zs : List α} (h : Interleaves xs ys zs) :
      Interleaves xs (y :: ys) (y :: zs)

namespace Interleaves

theorem nil_left (ys : List α) : Interleaves [] ys ys := by
  induction ys with
  | nil => exact nil
  | cons y ys ih => exact right ih

theorem nil_right (xs : List α) : Interleaves xs [] xs := by
  induction xs with
  | nil => exact nil
  | cons x xs ih => exact left ih

theorem eq_of_nil_left {ys zs : List α} (h : Interleaves [] ys zs) : zs = ys := by
  generalize none : [] = xs at h
  induction h with
  | nil => rfl
  | left => cases none
  | right _ ih => rw [ih none]

theorem append {xs ys zs xs' ys' zs' : List α} (h : Interleaves xs ys zs)
    (h' : Interleaves xs' ys' zs') : Interleaves (xs ++ xs') (ys ++ ys') (zs ++ zs') := by
  induction h with
  | nil => exact h'
  | left _ ih => exact left ih
  | right _ ih => exact right ih

theorem append_right {xs ys zs : List α} (h : Interleaves xs ys zs) (ws : List α) :
    Interleaves xs (ys ++ ws) (zs ++ ws) := by
  rw [← List.append_nil xs]
  exact h.append (nil_left ws)

/-- Interleaved logs are interleaved at each severity. -/
theorem messages {xs ys zs : List Log.Entry} (h : Interleaves xs ys zs) (severity : Log.Severity) :
    Interleaves (Log.messages severity xs) (Log.messages severity ys)
      (Log.messages severity zs) := by
  induction h with
  | nil => exact nil
  | @left e _ _ _ _ ih =>
    by_cases h : e.severity = severity
    · simpa [Log.messages, h] using left ih
    · simpa [Log.messages, h] using ih
  | @right e _ _ _ _ ih =>
    by_cases h : e.severity = severity
    · simpa [Log.messages, h] using right ih
    · simpa [Log.messages, h] using ih

end Interleaves

end ShaderInterface
