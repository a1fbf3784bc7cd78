import ShaderInterface.Log

/-!
# Sinks

Where log entries go. One sink at a time receives them: the console, a list that captures them, or
nothing. The list that was captured last can be looked at after another sink has taken its place.
-/

namespace ShaderInterface.Log

/-- What receives log entries. -/
inductive Sink where
  | console
  | capture
  | discard
  deriving DecidableEq, Repr

/-- The sink in place, and the entries in the list that was put in place last. -/
structure Logger where
  sink : Sink := .console
  captured : List Entry := []
  deriving DecidableEq, Repr

namespace Logger

/-- Put a sink in place. A list is empty when it is put in place. -/
def install (l : Logger) (sink : Sink) : Logger where
  sink := sink
  captured := if sink = .capture then [] else l.captured

/-- The logger with entries received. -/
def receive (l : Logger) (entries : List Entry) : Logger :=
  if l.sink = .capture then { l with captured := l.captured ++ entries } else l

/-- The number of lines that the entries take on the console. -/
def consoleLines (l : Logger) (entries : List Entry) : Nat :=
  if l.sink = .console then
    (entries.map fun e => 1 + e.source.toList.count '\n' + e.message.toList.count '\n').foldr
      (· + ·) 0
  else 0

end Logger

end ShaderInterface.Log
