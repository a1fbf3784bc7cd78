/-!
# Shader stages

The two stages of a program, and the sets of stages in which a variable is declared.
-/

namespace ShaderInterface.Glsl

/-- A shader stage. -/
inductive Stage where
  | vertex
  | fragment
  deriving DecidableEq, Repr

/-- The name of a stage. -/
def Stage.name : Stage → String
  | .vertex => "Vertex"
  | .fragment => "Fragment"

/-- A set of stages. -/
structure StageSet where
  vertex : Bool := false
  fragment : Bool := false
  deriving DecidableEq, Repr

namespace StageSet

/-- The set of no stage. -/
def empty : StageSet := {}

/-- The set of one stage. -/
def single : Stage → StageSet
  | .vertex => { vertex := true }
  | .fragment => { fragment := true }

/-- The stages of either set. -/
def union (a b : StageSet) : StageSet :=
  { vertex := a.vertex || b.vertex, fragment := a.fragment || b.fragment }

instance : Union StageSet := ⟨union⟩

/-- The set holds the stage. -/
def contains (s : StageSet) : Stage → Bool
  | .vertex => s.vertex
  | .fragment => s.fragment

/-- The set of the stages in a list. -/
def ofList (stages : List Stage) : StageSet :=
  stages.foldl (fun s stage => s ∪ single stage) empty

/-- The set as a number: one for the vertex stage, two for the fragment stage. -/
def bits (s : StageSet) : Nat := s.vertex.toNat + 2 * s.fragment.toNat

@[simp]
theorem contains_union (a b : StageSet) (stage : Stage) :
    (a ∪ b).contains stage = (a.contains stage || b.contains stage) := by
  cases stage <;> rfl

@[simp]
theorem contains_single (a b : Stage) : (single a).contains b = decide (a = b) := by
  cases a <;> cases b <;> rfl

theorem ext_contains {a b : StageSet} (h : ∀ stage, a.contains stage = b.contains stage) :
    a = b := by
  cases a; cases b
  have hv := h .vertex
  have hf := h .fragment
  simp_all [contains]

theorem contains_ofList (stages : List Stage) (stage : Stage) :
    (ofList stages).contains stage = decide (stage ∈ stages) := by
  have fold : ∀ (s : StageSet),
      (stages.foldl (fun s stage => s ∪ single stage) s).contains stage =
        (s.contains stage || decide (stage ∈ stages)) := by
    induction stages with
    | nil => simp
    | cons first rest ih => intro s; simp [ih, eq_comm, Bool.or_assoc]
  rw [ofList, fold]
  cases stage <;> simp [empty, contains]

end StageSet

end ShaderInterface.Glsl
