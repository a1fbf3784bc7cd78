import ShaderInterface.Proofs.Analysis.Redeclaration

/-!
# What comments can change

Texts that are the same without their comments declare the same variables. The text as it was
written is only looked at for what trails a declaration (`forall₂_scan`), and what trails it decides
on nothing but its hint (`follows_uniformReading`). So the comments of a stage can add and take away
hints, or spoil one, and the interface stays otherwise what it is (`stage_of_blank_eq`).
-/

namespace ShaderInterface

open Text

/-- The first declaration is the second, but for the text that trails it. -/
def Declaration.Retrails (d d' : Declaration) : Prop := ∃ text, d = { d' with trailing := text }

namespace Declaration

variable {s written written' : List Char} {keyword : Keyword}

theorem forall₂_ofStatement (st : Statement) (lines lines' : List (List Char)) :
    List.Forall₂ Retrails (ofStatement keyword s lines st) (ofStatement keyword s lines' st) := by
  refine List.rel_map (R := Eq) ?_ (List.forall₂_refl _)
  rintro declarator _ rfl
  exact ⟨_, rfl⟩

/-- The text as it was written decides on nothing but what trails the declarations. -/
theorem forall₂_scan (s written written' : List Char) (keyword : Keyword) (keep : String → Bool) :
    List.Forall₂ Retrails (scan s written keyword keep) (scan s written' keyword keep) := by
  refine List.rel_filter ?_ (List.rel_flatMap (R := Eq) (List.forall₂_refl _) ?_)
  · rintro d d' ⟨text, rfl⟩
    exact Iff.rfl
  · rintro st _ rfl
    exact forall₂_ofStatement st _ _

end Declaration

/-- The comment behind a declaration is no hint. -/
def Error.IsInvalidHint (e : Error) : Prop := ∃ name reason, e = .invalidHint name reason

/-- Two interfaces of one stage have the same variables: the same uniforms and attributes under the
same names in the same order. The texts of the stage and the hints may differ. -/
structure StageInterface.SameVariables (i i' : StageInterface) : Prop where
  stage : i.stage = i'.stage
  uniforms : i.uniforms = i'.uniforms
  attributes : i.attributes = i'.attributes

namespace Analysis

open Glsl

variable {parse : Hint.Parser} {config : Config} {which : Stage} {text text' : String}
  {scope : Scope}

/-- Two readings say the same of the variable, but for its hint. -/
def UniformReading.Rehints (r r' : UniformReading) : Prop :=
  r.name = r'.name ∧ r.entries = r'.entries

theorem follows_hint (scope : Scope) (d d' : Declaration) :
    Follows Error.IsInvalidHint (fun _ _ => True) (hint scope d) (hint scope d') := by
  intro fields _
  unfold hint
  cases Hint.ofTrailing scope.parse d.trailing.toList with
  | ok found => exact .inl ⟨found, rfl, trivial⟩
  | error flaw => exact .inr ⟨_, rfl, d.name, flaw.message, rfl⟩

/-- What trails a uniform declaration decides on nothing but its hint. -/
theorem follows_uniformReading {d d' : Declaration} (h : d.Retrails d') :
    Follows Error.IsInvalidHint UniformReading.Rehints (uniformReading scope d)
      (uniformReading scope d') := by
  obtain ⟨trailing, rfl⟩ := h
  unfold uniformReading
  split
  · exact .bind (.refl _) fun _ _ _ => .pure ⟨rfl, rfl⟩
  · refine .bind (.refl _) ?_
    rintro length _ rfl
    refine .bind (.refl _) ?_
    rintro entries _ rfl
    exact .bind (follows_hint _ _ _) fun _ _ _ => .pure ⟨rfl, rfl⟩

/-- What trails an attribute declaration decides on nothing. -/
theorem follows_attributeReading {admitted : Error → Prop} {d d' : Declaration}
    (h : d.Retrails d') :
    Follows admitted Eq (attributeReading scope d) (attributeReading scope d') := by
  obtain ⟨trailing, rfl⟩ := h
  exact .refl _

/-! ## The interface of a stage -/

theorem stage_declareUniform (i : StageInterface) (r : UniformReading) :
    (declareUniform i r).stage = i.stage := by
  rw [declareUniform, foldl_insertUniform]
  cases r.hint <;> rfl

/-- Taking in a declaration keeps the variables the same, whatever its hint. -/
theorem sameVariables_declareUniform {i i' : StageInterface} {r r' : UniformReading}
    (h : i.SameVariables i') (hr : r.Rehints r') :
    (declareUniform i r).SameVariables (declareUniform i' r') where
  stage := by rw [stage_declareUniform, stage_declareUniform, h.stage]
  uniforms := by rw [uniforms_declareUniform, uniforms_declareUniform, h.uniforms, hr.1, hr.2]
  attributes := by rw [attributes_declareUniform, attributes_declareUniform, h.attributes]

/-- Readings that differ in their hints make interfaces with the same variables. -/
theorem sameVariables_assemble {rs rs' : List UniformReading}
    (h : List.Forall₂ UniformReading.Rehints rs rs') (which : Stage) (text text' : String)
    (as : List Attribute) :
    (assemble which text rs as).SameVariables (assemble which text' rs' as) := by
  have start : StageInterface.SameVariables { stage := which, source := text }
      { stage := which, source := text' } := ⟨rfl, rfl, rfl⟩
  have uniforms := List.rel_foldl (R := UniformReading.Rehints)
    (fun _ _ h _ _ hr => sameVariables_declareUniform h hr) start h
  rw [assemble, assemble, foldl_insertAttribute, foldl_insertAttribute]
  exact ⟨uniforms.stage, uniforms.uniforms, by rw [uniforms.attributes]⟩

/-- What declarations are looked for in, and what they are read with, depends on the text without
its comments. -/
theorem prepare_of_blank_eq {s s' : List Char} (same : Comment.blank s = Comment.blank s') :
    prepare parse config which s = prepare parse config which s' := by
  rw [prepare, prepare, same]

theorem follows_scanned {admitted : Error → Prop} (s written written' : List Char)
    (keyword : Keyword) :
    Follows admitted (List.Forall₂ Declaration.Retrails)
      (liftM (Declaration.scanned s written keyword) : Diagnosed _)
      (liftM (Declaration.scanned s written' keyword) : Diagnosed _) := by
  intro ds hds
  cases hds
  exact .inl ⟨_, rfl, Declaration.forall₂_scan s written written' keyword fun _ => true⟩

/-- A stage follows one that is the same without its comments, unless a comment of it is no hint. -/
theorem follows_stage (same : Comment.blank text.toList = Comment.blank text'.toList) :
    Follows Error.IsInvalidHint StageInterface.SameVariables (stage parse config which text)
      (stage parse config which text') := by
  unfold stage
  rw [prepare_of_blank_eq same]
  refine .bind (.refl _) ?_
  rintro ⟨scanned, scope⟩ _ rfl
  refine .bind (follows_scanned _ _ _ _) fun ds ds' hds => ?_
  refine .bind (.mapM (hds.imp fun d d' => follows_uniformReading)) fun rs rs' hrs => ?_
  refine .bind (follows_scanned _ _ _ _) fun ds ds' hds => ?_
  refine .bind (.mapM (hds.imp fun d d' => follows_attributeReading)) fun as as' has => ?_
  rw [List.forall₂_eq_eq_eq] at has
  subst has
  exact .bind (R := fun _ _ => True) (fun _ _ => .inl ⟨_, rfl, trivial⟩) fun _ _ _ =>
    .pure (sameVariables_assemble hrs which text text' as)

/-- **Comments decide on hints and on nothing else.** Where a stage has an interface, a stage that
is the same without its comments has one with the same variables, unless a comment behind one of its
declarations is no hint. -/
theorem stage_of_blank_eq {i' : StageInterface}
    (same : Comment.blank text.toList = Comment.blank text'.toList)
    (h : (stage parse config which text').outcome = .ok i') :
    (∃ name reason, (stage parse config which text).outcome = .error (.invalidHint name reason)) ∨
      ∃ i, (stage parse config which text).outcome = .ok i ∧ i.SameVariables i' := by
  rcases follows_stage same i' h with ⟨i, hi, hv⟩ | ⟨_, he, name, reason, rfl⟩
  · exact .inr ⟨i, hi, hv⟩
  · exact .inl ⟨name, reason, he⟩

/-- A stage with a comment behind a uniform array and an attribute after it. -/
def commented (comment : String) : String :=
  "#define N 2\nuniform int a[N]; // " ++ comment ++ "\nattribute vec2 b;"

theorem stage_of_blank_eq_commented :
    Comment.blank (commented "{n: 1}").toList = Comment.blank (commented "      ").toList ∧
      ∃ i i', (stage Hint.terse {} .vertex (commented "      ")).outcome = .ok i' ∧
        (stage Hint.terse {} .vertex (commented "{n: 1}")).outcome = .ok i ∧
          i.SameVariables i' := by
  have same : Comment.blank (commented "{n: 1}").toList =
      Comment.blank (commented "      ").toList := by decide +kernel
  obtain ⟨i', hi'⟩ : ∃ i', (stage Hint.terse {} .vertex (commented "      ")).outcome = .ok i' :=
    exists_ok_of_isSome (by decide +kernel)
  have hinted : (stage Hint.terse {} .vertex (commented "{n: 1}")).outcome.toOption.isSome := by
    decide +kernel
  refine ⟨same, ?_⟩
  rcases stage_of_blank_eq same hi' with ⟨name, reason, refused⟩ | ⟨i, hi, hv⟩
  · rw [refused] at hinted
    cases hinted
  · exact ⟨i, i', hi', hi, hv⟩

end Analysis

end ShaderInterface
