/-!
# Log entries and computations that record them

A computation of type `Logged α` gives a value together with the entries it recorded, oldest
first. Sequencing appends the entries, so what a computation records is a function of its input
like its value, and can be spoken about in the same way.
-/

namespace ShaderInterface

namespace Log

/-- How much an entry matters, least first. -/
inductive Severity where
  | trace
  | debug
  | info
  | warn
  | error
  deriving DecidableEq, Repr, Ord

/-- All severities, least first. -/
def Severity.all : List Severity := [.trace, .debug, .info, .warn, .error]

/-- The label of a severity in a line of output, five characters wide. -/
def Severity.label : Severity → String
  | .trace => "TRACE"
  | .debug => "DEBUG"
  | .info => "INFO "
  | .warn => "WARN "
  | .error => "ERROR"

/-- An entry of the log. -/
structure Entry where
  severity : Severity
  /-- The part of the library that speaks. -/
  source : String
  message : String
  /-- The entry says at which place of the program it was made. -/
  located : Bool := false
  deriving DecidableEq, Repr

/-- The entry matters at least as much as the threshold. -/
def Entry.reaches (threshold : Severity) (entry : Entry) : Bool :=
  compare threshold entry.severity != .gt

/-- The entries that matter at least as much as the threshold. -/
def atLeast (threshold : Severity) (entries : List Entry) : List Entry :=
  entries.filter (·.reaches threshold)

/-- The messages of the entries of severity `error`. -/
def errors (entries : List Entry) : List String :=
  (entries.filter (·.severity = .error)).map (·.message)

theorem errors_append (xs ys : List Entry) : errors (xs ++ ys) = errors xs ++ errors ys := by
  simp [errors]

end Log

/-- A value and the log entries recorded on the way to it, oldest first. -/
structure Logged (α : Type) where
  value : α
  entries : List Log.Entry := []

namespace Logged

variable {α β : Type}

instance : Monad Logged where
  pure value := { value }
  bind x f :=
    let y := f x.value
    { value := y.value, entries := x.entries ++ y.entries }

/-- Record one entry. -/
def record (entry : Log.Entry) : Logged Unit := { value := (), entries := [entry] }

/-- Record several entries. -/
def recordAll (entries : List Log.Entry) : Logged Unit := { value := (), entries }

/-- Record an entry of severity `trace`. -/
def trace (source message : String) : Logged Unit := record { severity := .trace, source, message }

/-- Record an entry of severity `debug`. -/
def debug (source message : String) : Logged Unit := record { severity := .debug, source, message }

/-- Record an entry of severity `warn`. -/
def warn (source message : String) : Logged Unit := record { severity := .warn, source, message }

/-- Record an entry of severity `error`, which says where it was made. -/
def error (source message : String) : Logged Unit :=
  record { severity := .error, source, message, located := true }

@[ext]
theorem ext {x y : Logged α} (hv : x.value = y.value) (he : x.entries = y.entries) : x = y := by
  cases x; cases y; simp_all

@[simp] theorem value_pure (a : α) : (pure a : Logged α).value = a := rfl

@[simp] theorem entries_pure (a : α) : (pure a : Logged α).entries = [] := rfl

@[simp] theorem value_bind (x : Logged α) (f : α → Logged β) :
    (x >>= f).value = (f x.value).value := rfl

@[simp] theorem entries_bind (x : Logged α) (f : α → Logged β) :
    (x >>= f).entries = x.entries ++ (f x.value).entries := rfl

@[simp] theorem value_map (f : α → β) (x : Logged α) : (f <$> x).value = f x.value := rfl

@[simp] theorem entries_map (f : α → β) (x : Logged α) : (f <$> x).entries = x.entries := by
  change x.entries ++ [] = x.entries
  simp

instance : LawfulMonad Logged :=
  LawfulMonad.mk' _ (fun _ => Logged.ext rfl (by simp)) (fun _ _ => Logged.ext rfl (by simp))
    (fun _ _ _ => Logged.ext rfl (by simp))

end Logged

end ShaderInterface
