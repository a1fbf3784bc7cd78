import ShaderInterface.Proofs.Declaration.Declarators
import ShaderInterface.Proofs.Macro.Spacing
import ShaderInterface.Proofs.Struct.Expansion
import ShaderInterface.Proofs.Struct.Table

/-!
# Printed structs are read back

A printed struct is a definition with blanks between its parts wherever these may be. Its body is
cut at semicolons, squeezed, and cut at commas; since no size holds a character at which it is cut,
each declarator comes out of it squeezed (`pieces_squeeze_list`, `bodyStatements_body`), and makes a
field or an error (`makes_field`). A text of printed structs has those definitions and no others
(`occurrencesFrom_printed`), and of two with one type the later counts (`ofText_printed`).
-/

namespace ShaderInterface.Struct

open Glsl Text Declaration

/-! ## Printed structs -/

/-- A character at which a body, a statement or a list of declarators ends. -/
def isCut (c : Char) : Bool := c == ',' || c == ';' || c == closingBrace

/-- What can stand between the brackets of a field: nothing at which the size or the body is
cut. -/
abbrev SizeText := { s : List Char // ∀ c ∈ s, c ≠ ']' ∧ isCut c = false }

/-- A declarator of a field: a name, and behind blanks possibly a size. -/
structure PrintedField where
  lead : Blanks
  name : Identifier
  gap : Blanks
  size : Option SizeText
  tail : Blanks

/-- A statement in a body, without its semicolon. -/
structure PrintedStatement where
  lead : Blanks
  precision : Option (Precision × Gap)
  type : Identifier
  gap : Gap
  first : PrintedField
  others : List PrintedField
  /-- A type that stands alone is not spelled like a precision. -/
  apart : precision = none → ∀ p : Precision, type.1 ≠ p.word.toList

/-- A struct definition. -/
structure PrintedStruct where
  lead : Blanks
  gap : Gap
  type : Identifier
  opening : Blanks
  statements : List PrintedStatement
  closing : Blanks
  tail : Blanks

namespace PrintedField

/-- The size with its brackets. -/
def brackets (f : PrintedField) : List Char :=
  match f.size with
  | some size => '[' :: (size.1 ++ [']'])
  | none => []

/-- The declarator with the blanks around it. -/
def text (f : PrintedField) : List Char :=
  f.lead.1 ++ (f.name.1 ++ (f.gap.1 ++ f.brackets) ++ f.tail.1)

/-- The size is a positive integer of 32 bits. -/
def Sized (macros : Macro.Table) (f : PrintedField) : Prop :=
  ∀ size ∈ f.size, ∃ n : Nat, macros.eval size.1 = .ok (.int n) ∧ 0 < n ∧ n < 2 ^ 32

end PrintedField

namespace PrintedStatement

/-- The declarators. -/
def fields (st : PrintedStatement) : List PrintedField := st.first :: st.others

/-- The declarators with commas between them. -/
def list (st : PrintedStatement) : List Char :=
  st.first.text ++ st.others.flatMap fun f => ',' :: f.text

/-- The text up to the semicolon. -/
def text (st : PrintedStatement) : List Char :=
  st.lead.1 ++ (Spelling.precisionText st.precision ++ (st.type.1 ++ (st.gap.1 ++ st.list)))

end PrintedStatement

namespace PrintedStruct

/-- The text between the braces. -/
def body (p : PrintedStruct) : List Char :=
  (p.statements.flatMap fun st => st.text ++ [';']) ++ p.closing.1

/-- The text of the definition, with the semicolon behind it. -/
def text (p : PrintedStruct) : List Char :=
  p.lead.1 ++ (word ++ (p.gap.1 ++ (p.type.1 ++ (p.opening.1 ++
    openingBrace :: (p.body ++ closingBrace :: (p.tail.1 ++ [';']))))))

/-- The name of the type. -/
def typeName (p : PrintedStruct) : String := String.ofList p.type.1

/-- The declarators with their types, in order. -/
def declared (p : PrintedStruct) : List (Identifier × PrintedField) :=
  p.statements.flatMap fun st => st.fields.map fun f => (st.type, f)

end PrintedStruct

/-- What a declarator in the body of the struct makes: a field, whose length is the value of its
size, or an error where the size has no value that is a length. -/
inductive Makes (macros : Macro.Table) (type : String) :
    Identifier × PrintedField → Except Error Field → Prop where
  | single {fieldType : Identifier} {f : PrintedField} (h : f.size = none) :
      Makes macros type (fieldType, f)
        (.ok { type := String.ofList fieldType.1, name := String.ofList f.name.1, length := none })
  | array {fieldType : Identifier} {f : PrintedField} {size : SizeText} {n : Nat}
      (h : f.size = some size) (value : macros.eval size.1 = .ok (.int n)) (pos : 0 < n)
      (lt : n < 2 ^ 32) :
      Makes macros type (fieldType, f)
        (.ok { type := String.ofList fieldType.1, name := String.ofList f.name.1,
               length := some n })
  | unsized {fieldType : Identifier} {f : PrintedField} {size : SizeText} (h : f.size = some size)
      (none : ¬ f.Sized macros) :
      Makes macros type (fieldType, f)
        (.error (.invalidArraySize (type ++ "." ++ String.ofList f.name.1)
          (String.ofList (squeeze size.1))))

variable {macros : Macro.Table} {type : String} {s : List Char} {c : Char}

/-! ## Declarators -/

theorem not_isCut_of {p : Char → Bool} (comma : p ',' = false) (semicolon : p ';' = false)
    (closing : p closingBrace = false) (h : p c) : isCut c = false := by
  rw [Bool.eq_false_iff]
  intro cut
  simp only [isCut, Bool.or_eq_true, beq_iff_eq] at cut
  rcases cut with (rfl | rfl) | rfl
  · exact Bool.eq_false_iff.mp comma h
  · exact Bool.eq_false_iff.mp semicolon h
  · exact Bool.eq_false_iff.mp closing h

theorem not_isCut_of_isIdentChar (h : isIdentChar c) : isCut c = false :=
  not_isCut_of (by decide) (by decide) (by decide) h

theorem not_isCut_of_isBlank (h : isBlank c) : isCut c = false :=
  not_isCut_of (by decide) (by decide) (by decide) h

namespace PrintedField

/-- A declarator is nowhere cut. -/
theorem not_isCut_of_mem_text (f : PrintedField) : ∀ c ∈ f.text, isCut c = false := by
  have brackets : ∀ c ∈ f.brackets, isCut c = false := by
    unfold PrintedField.brackets
    cases f.size with
    | none => exact List.forall_mem_nil _
    | some size =>
      refine List.forall_mem_cons.mpr ⟨rfl, List.forall_mem_append.mpr ⟨?_, ?_⟩⟩
      · exact fun c hc => (size.2 c hc).2
      · exact List.forall_mem_singleton.mpr rfl
  intro c hc
  simp only [text, List.mem_append] at hc
  rcases hc with hc | (hc | hc | hc) | hc
  · exact not_isCut_of_isBlank (f.lead.2 c hc)
  · exact not_isCut_of_isIdentChar (isIdentChar_of_mem f.name.2 c hc)
  · exact not_isCut_of_isBlank (f.gap.2 c hc)
  · exact brackets c hc
  · exact not_isCut_of_isBlank (f.tail.2 c hc)

/-- The declarator as it comes out of a squeezed statement. -/
def squeezed (f : PrintedField) : SpelledDeclarator where
  name := f.name
  gap := ⟨collapse f.gap.1, isBlank_of_mem_collapse f.gap.2⟩
  size := f.size.map fun size =>
    { text := ⟨collapse size.1, fun c hc => by
        rcases mem_of_mem_collapseFrom hc with rfl | ⟨blank, mem⟩
        · decide
        · exact ⟨(size.2 c mem).1, fun eq => by simp [eq, isBlank] at blank⟩⟩
      tail := .none }

theorem squeeze_text (f : PrintedField) : squeeze f.text = trim f.squeezed.body := by
  have brackets : collapse f.brackets = f.squeezed.brackets := by
    unfold PrintedField.brackets SpelledDeclarator.brackets squeezed
    cases f.size with
    | none => rfl
    | some size =>
      rw [collapse_cons_of_not_isBlank rfl, collapse_append _ (by rintro c ⟨⟩; rfl)]
      rfl
  have stop : ∀ c ∈ f.brackets.head?, isBlank c = false := by
    unfold PrintedField.brackets
    cases f.size with
    | none => simp
    | some size =>
      rintro c ⟨⟩
      rfl
  rw [text, squeeze_append_of_isBlank f.lead.2, squeeze_append_blanks f.tail.2, squeeze_eq_trim,
    collapse_word_append (not_isBlank_of_isIdentifier f.name.2), collapse_append _ stop, brackets,
    SpelledDeclarator.body, List.append_assoc]
  rfl

end PrintedField

/-- A squeezed declarator makes what the printed one says. -/
theorem makes_field (fieldType : Identifier) (f : PrintedField) :
    Makes macros type (fieldType, f) (field macros type fieldType.1 (squeeze f.text)) := by
  have read : declarator? (squeeze f.text) =
      some (f.name.1, f.size.map fun size => collapse size.1) := by
    rw [f.squeeze_text, declarator?_trim_body, PrintedField.squeezed, Option.map_map]
    rfl
  unfold field
  rw [read]
  cases hs : f.size with
  | none => exact .single hs
  | some size =>
    rw [Option.map_some]
    dsimp only
    split
    · next n found =>
      obtain ⟨v, hv, hn⟩ := Option.bind_eq_some_iff.mp found
      obtain ⟨rfl, pos, lt⟩ := Analysis.positive?_eq_some_iff.mp hn
      exact .array hs (Macro.eval_collapse_eq_ok_int_iff.mp (toOption_eq_some_iff.mp hv)) pos lt
    · next none =>
      rw [← squeeze_eq_trim]
      refine .unsized hs fun sized => ?_
      obtain ⟨n, value, pos, lt⟩ := sized size hs
      have value := Macro.eval_collapse_eq_ok_int_iff.mpr value
      have found : (macros.eval (collapse size.1)).toOption.bind Macro.Literal.positive? =
          some n := Option.bind_eq_some_iff.mpr
        ⟨_, toOption_eq_some_iff.mpr value, Analysis.positive?_eq_some_iff.mpr ⟨rfl, pos, lt⟩⟩
      rw [none] at found
      cases found

/-! ## Statements -/

theorem not_isCut_of_mem_precisionText (precision : Option (Precision × Gap)) :
    ∀ c ∈ Spelling.precisionText precision, isCut c = false := by
  cases precision with
  | none => exact List.forall_mem_nil _
  | some precision =>
    obtain ⟨p, gap⟩ := precision
    refine List.forall_mem_append.mpr ⟨fun c hc => ?_, fun c hc => ?_⟩
    · exact not_isCut_of_isIdentChar (isIdentChar_of_mem (isIdentifier_precision p) c hc)
    · exact not_isCut_of_isBlank (gap.2.2 c hc)

namespace PrintedStatement

/-- A statement is cut at commas only. -/
theorem not_mem_text (st : PrintedStatement) (h : isCut c) (ne : c ≠ ',') : c ∉ st.text := by
  have inPart {part : List Char} (all : ∀ c ∈ part, isCut c = false) : c ∉ part := by
    intro hc
    rw [all c hc] at h
    cases h
  have inFields : c ∉ st.others.flatMap fun f => ',' :: f.text := by
    rw [List.mem_flatMap]
    rintro ⟨f, -, hc⟩
    exact inPart f.not_isCut_of_mem_text (List.mem_of_ne_of_mem ne hc)
  simp only [text, list, List.mem_append, not_or]
  exact ⟨inPart fun c hc => not_isCut_of_isBlank (st.lead.2 c hc),
    inPart (not_isCut_of_mem_precisionText _),
    inPart fun c hc => not_isCut_of_isIdentChar (isIdentChar_of_mem st.type.2 c hc),
    inPart fun c hc => not_isCut_of_isBlank (st.gap.2.2 c hc),
    inPart st.first.not_isCut_of_mem_text, inFields⟩

/-- The list of a squeezed statement is cut into the squeezed declarators. -/
theorem pieces_squeeze_list (st : PrintedStatement) :
    pieces (squeeze st.list) = st.fields.map fun f => squeeze f.text := by
  have commaless (f : PrintedField) : ',' ∉ f.text := by
    intro mem
    cases f.not_isCut_of_mem_text ',' mem
  have list : st.list = st.first.text ++ (st.others.map (·.text)).flatMap (',' :: ·) := by
    rw [PrintedStatement.list, List.flatMap_map]
  rw [pieces, map_trim_split_squeeze rfl, list, split_append_flatMap (commaless _)
    (List.forall_mem_map.mpr fun f _ => commaless f), fields, List.map_cons, List.map_cons,
    List.map_map]
  rfl

theorem squeeze_list_ne_nil (st : PrintedStatement) : squeeze st.list ≠ [] := by
  obtain ⟨c, name, hn⟩ := List.exists_cons_of_ne_nil (ne_nil_of_isIdentifier st.first.name.2)
  have blank : isBlank c = false :=
    not_isBlank_of_isIdentifier st.first.name.2 c (hn ▸ List.mem_cons_self)
  rw [list, PrintedField.text, List.append_assoc, squeeze_append_of_isBlank st.first.lead.2, hn,
    List.cons_append, List.cons_append, List.cons_append, squeeze_cons_of_not_isBlank blank]
  exact List.cons_ne_nil _ _

/-- A squeezed statement is its precision and its type with a space behind each, and the squeezed
list. -/
theorem squeeze_text (st : PrintedStatement) :
    squeeze st.text =
      Spelling.precisionText (st.precision.map fun precision => (precision.1, Gap.space)) ++
        (st.type.1 ++ (Gap.space.1 ++ squeeze st.list)) := by
  have type : squeeze (st.type.1 ++ (st.gap.1 ++ st.list)) =
      st.type.1 ++ (Gap.space.1 ++ squeeze st.list) :=
    squeeze_word_append (ne_nil_of_isIdentifier st.type.2)
      (not_isBlank_of_isIdentifier st.type.2) st.gap.2.1 st.gap.2.2 st.squeeze_list_ne_nil
  rw [text, squeeze_append_of_isBlank st.lead.2]
  cases st.precision with
  | none => exact type
  | some precision =>
    obtain ⟨p, gap⟩ := precision
    have ident := isIdentifier_precision p
    have more : squeeze (st.type.1 ++ (st.gap.1 ++ st.list)) ≠ [] := by
      rw [type]
      exact List.append_ne_nil_of_left_ne_nil (ne_nil_of_isIdentifier st.type.2) _
    rw [Spelling.precisionText, List.append_assoc, squeeze_word_append
      (ne_nil_of_isIdentifier ident) (not_isBlank_of_isIdentifier ident) gap.2.1 gap.2.2 more, type,
      Option.map_some, Spelling.precisionText, List.append_assoc]
    rfl

/-- A squeezed statement is read as its precision, its type and its list. -/
theorem qualified?_squeeze_text (st : PrintedStatement) :
    qualified? nonempty? (squeeze st.text) =
      some (st.precision.map (·.1), st.type.1, squeeze st.list) := by
  have list : nonempty? (squeeze st.list) = some (squeeze st.list) :=
    if_neg (by simpa using st.squeeze_list_ne_nil)
  have typed : typed? nonempty? (st.type.1 ++ (Gap.space.1 ++ squeeze st.list)) =
      some (st.type.1, squeeze st.list) := by
    have type := takeIdentifier_append st.type.2
      (not_isIdentChar_head_gap Gap.space (squeeze st.list))
    have gap := dropBlanks?_append Gap.space (not_isBlank_head_squeeze st.list)
    simp [typed?, type, gap, list]
  rw [squeeze_text]
  cases hp : st.precision with
  | some precision =>
    obtain ⟨p, gap⟩ := precision
    have read := precision?_append p Gap.space
      (not_isBlank_head_identifier st.type.2 (Gap.space.1 ++ squeeze st.list))
    rw [Option.map_some, Spelling.precisionText, List.append_assoc, qualified?]
    simp [read, typed]
  | none =>
    have none : precision? (st.type.1 ++ (Gap.space.1 ++ squeeze st.list)) = none := by
      by_contra some
      obtain ⟨⟨p, rest⟩, read⟩ := Option.ne_none_iff_exists'.mp some
      obtain ⟨⟨gap, hs⟩, -⟩ := exists_gap_of_precision? read
      exact st.apart hp p (identifier_unique st.type.2 (isIdentifier_precision p)
        (not_isIdentChar_head_gap Gap.space _) (not_isIdentChar_head_gap gap rest) hs).1
    rw [Option.map_none, Spelling.precisionText, List.nil_append, qualified?]
    simp [none, typed]

theorem fieldsOfStatement_squeeze_text (st : PrintedStatement) :
    fieldsOfStatement macros type (squeeze st.text) =
      st.fields.map fun f => field macros type st.type.1 (squeeze f.text) := by
  rw [fieldsOfStatement, st.qualified?_squeeze_text]
  dsimp only
  rw [st.pieces_squeeze_list, List.map_map]
  rfl

theorem squeeze_text_ne_nil (st : PrintedStatement) : squeeze st.text ≠ [] := by
  rw [squeeze_text]
  refine List.append_ne_nil_of_right_ne_nil _ ?_
  exact List.append_ne_nil_of_left_ne_nil (ne_nil_of_isIdentifier st.type.2) _

end PrintedStatement

/-! ## Bodies -/

namespace PrintedStruct

/-- The body is cut into its statements, squeezed. -/
theorem bodyStatements_body (p : PrintedStruct) :
    bodyStatements p.body = p.statements.map fun st => squeeze st.text := by
  obtain ⟨_, _, _, _, statements, closing, _⟩ := p
  have last : (split ';' closing.1).map squeeze = [[]] := by
    have none : ';' ∉ closing.1 := fun mem => by cases closing.2 ';' mem
    rw [split_of_not_mem none, List.map_singleton, squeeze_of_isBlank closing.2]
  have all :
      (split ';' ((statements.flatMap fun st => st.text ++ [';']) ++ closing.1)).map squeeze =
        (statements.map fun st => squeeze st.text) ++ [[]] := by
    induction statements with
    | nil => exact last
    | cons st statements ih =>
      have whole : ';' ∉ st.text := st.not_mem_text rfl (by decide)
      rw [List.flatMap_cons, List.append_assoc, List.append_assoc, List.singleton_append,
        split_append_cons, split_of_not_mem whole, List.singleton_append, List.map_cons, ih,
        List.map_cons, List.cons_append]
  have kept : (statements.map fun st => squeeze st.text).filter (fun s => !s.isEmpty) =
      statements.map fun st => squeeze st.text :=
    List.filter_eq_self.mpr <| List.forall_mem_map.mpr fun st _ => by
      simpa using st.squeeze_text_ne_nil
  rw [bodyStatements, body, all, List.filter_append, kept]
  simp

/-- Each declarator in the body makes what it says. -/
theorem exists_results (macros : Macro.Table) (type : String) (p : PrintedStruct) :
    ∃ results, List.Forall₂ (Makes macros type) p.declared results ∧
      Definition.ofBody macros type p.body =
        { type, fields := results.filterMap ok?, errors := results.filterMap error? } := by
  refine ⟨p.declared.map fun (fieldType, f) => field macros type fieldType.1 (squeeze f.text), ?_,
    ?_⟩
  · rw [List.forall₂_map_right_iff, List.forall₂_same]
    exact fun d _ => makes_field d.1 d.2
  · have results : (bodyStatements p.body).flatMap (fieldsOfStatement macros type) =
        p.declared.map fun (fieldType, f) => field macros type fieldType.1 (squeeze f.text) := by
      rw [bodyStatements_body, List.flatMap_map, declared, List.map_flatMap]
      refine List.flatMap_congr fun st _ => ?_
      rw [st.fieldsOfStatement_squeeze_text, List.map_map]
      rfl
    rw [Definition.ofBody, results]

/-- The body ends at the closing brace. -/
theorem closingBrace_not_mem_body (p : PrintedStruct) : closingBrace ∉ p.body := by
  rw [body, List.mem_append, not_or, List.mem_flatMap]
  constructor
  · rintro ⟨st, -, mem⟩
    rcases List.mem_append.mp mem with mem | mem
    · exact st.not_mem_text rfl (by decide) mem
    · simp [closingBrace] at mem
  · intro mem
    have blank := p.closing.2 closingBrace mem
    simp [isBlank, closingBrace] at blank

end PrintedStruct

/-! ## Texts of structs -/

section Occurrences

variable {previous : Option Char} {rest : List Char} {o : Occurrence}

theorem occurrencesFrom_of_none (h : isBoundary previous → occurrence? (c :: s) = none) :
    occurrencesFrom previous (c :: s) = occurrencesFrom (some c) s := by
  have none : (if isBoundary previous then occurrence? (c :: s) else none) = none := by
    split
    · next boundary => exact h boundary
    · rfl
  conv_lhs => unfold occurrencesFrom
  split
  · next found =>
    rw [none] at found
    cases found
  · rfl

theorem occurrencesFrom_of_some (boundary : isBoundary previous) (h : occurrence? s = some o) :
    occurrencesFrom previous s = o :: occurrencesFrom (some closingBrace) o.rest := by
  cases s with
  | nil => exact absurd (occurrence?_length_lt h) (Nat.not_lt_zero _)
  | cons c s =>
    conv_lhs => unfold occurrencesFrom
    split
    · next found =>
      rw [if_pos boundary, h] at found
      cases found
      rfl
    · next found =>
      rw [if_pos boundary, h] at found
      cases found

theorem isBoundary_closingBrace : isBoundary (some closingBrace) := by decide +kernel

theorem isBoundary_semicolon : isBoundary (some ';') := by decide +kernel

/-- Every definition begins with the first letter of its word. -/
theorem occurrence?_of_ne (ne : c ≠ 's') (s : List Char) : occurrence? (c :: s) = none := by
  have none : afterPrefix? word (c :: s) = none := if_neg (Ne.symm ne)
  rw [occurrence?, none]
  rfl

/-- Blanks leave room for a definition behind them. -/
theorem occurrencesFrom_blanks {lead : List Char} (blank : ∀ c ∈ lead, isBlank c)
    (boundary : isBoundary previous) (rest : List Char) :
    ∃ previous', isBoundary previous' ∧
      occurrencesFrom previous (lead ++ rest) = occurrencesFrom previous' rest := by
  induction lead generalizing previous with
  | nil => exact ⟨previous, boundary, rfl⟩
  | cons c lead ih =>
    obtain ⟨first, others⟩ := List.forall_mem_cons.mp blank
    obtain ⟨last, hb, hl⟩ := ih others (isBoundary_of_isBlank first)
    refine ⟨last, hb, (occurrencesFrom_of_none fun _ => occurrence?_of_ne ?_ _).trans hl⟩
    rintro rfl
    exact absurd first (by decide)

namespace PrintedStruct

/-- A definition is read as it is printed. -/
theorem occurrence?_append (p : PrintedStruct) (rest : List Char) :
    occurrence? (word ++ (p.gap.1 ++ (p.type.1 ++ (p.opening.1 ++
        openingBrace :: (p.body ++ closingBrace :: rest))))) =
      some { type := p.type.1, body := p.body, rest } := by
  have gap := dropBlanks?_append p.gap (not_isBlank_head_identifier p.type.2
    (p.opening.1 ++ openingBrace :: (p.body ++ closingBrace :: rest)))
  have behindType : ∀ c ∈ (p.opening.1 ++ openingBrace :: (p.body ++ closingBrace :: rest)).head?,
      isIdentChar c = false :=
    not_isIdentChar_head_blanks p.opening (by rintro c ⟨⟩; rfl)
  have type := takeIdentifier_append p.type.2 behindType
  have opening : (p.opening.1 ++ openingBrace :: (p.body ++ closingBrace :: rest)).dropWhile
      isBlank = openingBrace :: (p.body ++ closingBrace :: rest) :=
    dropWhile_run p.opening.2 (by rintro c ⟨⟩; rfl)
  have inBody : ∀ c ∈ p.body, (c != closingBrace) = true := by
    intro c hc
    rw [bne_iff_ne]
    rintro rfl
    exact p.closingBrace_not_mem_body hc
  have stop : ∀ c ∈ (closingBrace :: rest).head?, (c != closingBrace) = false := by
    rintro c ⟨⟩
    rfl
  rw [occurrence?, afterPrefix?_append]
  simp [gap, type, opening, afterPrefix?, takeWhile_run inBody stop, dropWhile_run inBody stop]

/-- A text of definitions, with blanks behind them. -/
def printed (page : List PrintedStruct) (trailing : Blanks) : List Char :=
  page.flatMap text ++ trailing.1

/-- A text of definitions has these definitions and no others. -/
theorem occurrencesFrom_printed (boundary : isBoundary previous) (page : List PrintedStruct)
    (trailing : Blanks) :
    (occurrencesFrom previous (printed page trailing)).map (fun o => (o.type, o.body)) =
      page.map fun p => (p.type.1, p.body) := by
  induction page generalizing previous with
  | nil =>
    obtain ⟨last, -, hl⟩ := occurrencesFrom_blanks trailing.2 boundary []
    rw [printed, List.flatMap_nil, List.nil_append, ← List.append_nil trailing.1, hl]
    rw [occurrencesFrom]
    rfl
  | cons p page ih =>
    have shape : printed (p :: page) trailing = p.lead.1 ++ (word ++ (p.gap.1 ++ (p.type.1 ++
        (p.opening.1 ++ openingBrace :: (p.body ++ closingBrace ::
          (p.tail.1 ++ ';' :: printed page trailing)))))) := by
      simp [printed, text]
    obtain ⟨front, hf, hlead⟩ := occurrencesFrom_blanks p.lead.2 boundary _
    obtain ⟨_, -, htail⟩ := occurrencesFrom_blanks p.tail.2 isBoundary_closingBrace
      (';' :: printed page trailing)
    rw [shape, hlead, occurrencesFrom_of_some hf (p.occurrence?_append _)]
    dsimp only
    rw [htail, occurrencesFrom_of_none fun _ => occurrence?_of_ne (by decide) _, List.map_cons,
      ih isBoundary_semicolon, List.map_cons]

/-- A struct type stands for its last definition. -/
theorem getElem?_printed (macros : Macro.Table) (page : List PrintedStruct) (trailing : Blanks)
    (type : String) :
    (Table.ofText macros (printed page trailing))[type]? =
      (page.filter fun p => p.typeName = type).getLast?.map
        fun p => Definition.ofBody macros type p.body := by
  have same := occurrencesFrom_printed isBoundary_none page trailing
  have heads := congrArg
    (fun pairs => (pairs.filter fun q => String.ofList q.1 = type).getLast?.map
      fun q : List Char × List Char => Definition.ofBody macros type q.2) same
  simp only [List.filter_map, List.getLast?_map, Option.map_map, Function.comp_def,
    ← getElem?_ofText] at heads
  exact heads

end PrintedStruct

end Occurrences

/-! ## Reading a text of structs -/

/-- A declarator with a size that is a length, or with none, makes a field. -/
theorem Makes.exists_ok {d : Identifier × PrintedField} {result : Except Error Field}
    (h : Makes macros type d result) (sized : d.2.Sized macros) : ∃ f, result = .ok f := by
  cases h with
  | single => exact ⟨_, rfl⟩
  | array => exact ⟨_, rfl⟩
  | unsized _ none => exact absurd sized none

theorem Makes.exists_error {d : Identifier × PrintedField} {result : Except Error Field}
    (h : Makes macros type d result) (unsized : ¬ d.2.Sized macros) : ∃ e, result = .error e := by
  cases h with
  | single hs =>
    refine absurd (fun size mem => ?_) unsized
    rw [hs] at mem
    cases mem
  | array hs value pos lt =>
    refine absurd (fun size mem => ?_) unsized
    rw [hs] at mem
    cases mem
    exact ⟨_, value, pos, lt⟩
  | unsized => exact ⟨_, rfl⟩

theorem forall₂_ok {ds : List (Identifier × PrintedField)} {results : List (Except Error Field)}
    (h : List.Forall₂ (Makes macros type) ds results) (sized : ∀ d ∈ ds, d.2.Sized macros) :
    results.filterMap error? = [] ∧
      List.Forall₂ (fun d f => Makes macros type d (.ok f)) ds (results.filterMap ok?) := by
  induction h with
  | nil => exact ⟨rfl, .nil⟩
  | @cons d result ds results hd _ ih =>
    obtain ⟨first, others⟩ := List.forall_mem_cons.mp sized
    obtain ⟨errors, fields⟩ := ih others
    obtain ⟨f, rfl⟩ := hd.exists_ok first
    exact ⟨errors, .cons hd fields⟩

namespace PrintedStruct

/-- The definition that a printed struct makes: its declarators make fields and errors in their
order, and fields only where every size is a positive integer. -/
structure Parsed (macros : Macro.Table) (p : PrintedStruct) (definition : Definition) : Prop where
  type : definition.type = p.typeName
  made : ∃ results, List.Forall₂ (Makes macros p.typeName) p.declared results ∧
    definition.fields = results.filterMap ok? ∧ definition.errors = results.filterMap error?
  sized : (∀ d ∈ p.declared, d.2.Sized macros) → definition.errors = [] ∧
    List.Forall₂ (fun d f => Makes macros p.typeName d (.ok f)) p.declared definition.fields

theorem parsed_ofBody (macros : Macro.Table) (p : PrintedStruct) :
    Parsed macros p (Definition.ofBody macros p.typeName p.body) := by
  obtain ⟨results, made, eq⟩ := p.exists_results macros p.typeName
  rw [eq]
  exact ⟨rfl, ⟨results, made, rfl, rfl⟩, forall₂_ok made⟩

/-- **Reading structs undoes printing them.** The types of a text of definitions are those of its
definitions, and each stands for its last one: its fields are those of its declarators, in order,
with the values of their sizes as lengths, without errors. A declarator whose size has no value that
is a length makes an error in its place; and then, unless the type is a base type, every expansion
fails with the first error. -/
theorem ofText_printed (macros : Macro.Table) (page : List PrintedStruct) (trailing : Blanks) :
    (∀ type, type ∈ Table.ofText macros (printed page trailing) ↔
      ∃ p ∈ page, p.typeName = type) ∧
    ∀ type p, (page.filter fun p => p.typeName = type).getLast? = some p →
      ∃ definition, (Table.ofText macros (printed page trailing))[type]? = some definition ∧
        Parsed macros p definition ∧
        ((∃ d ∈ p.declared, ¬ d.2.Sized macros) → BaseType.ofToken? type = none →
          ∃ e, definition.errors.head? = some e ∧ ∀ name count stage,
            (expand (Table.ofText macros (printed page trailing)) type name count stage).outcome =
              .error e) := by
  constructor
  · intro type
    rw [Std.ExtTreeMap.mem_iff_isSome_getElem?, getElem?_printed, Option.isSome_map,
      List.getLast?_isSome, ← List.length_pos_iff, List.length_filter_pos_iff]
    simp only [decide_eq_true_eq]
  · intro type p last
    have found := getElem?_printed macros page trailing type
    rw [last, Option.map_some] at found
    obtain ⟨-, named⟩ := List.mem_filter.mp (List.mem_of_getLast? last)
    obtain rfl := of_decide_eq_true named
    have parsed := parsed_ofBody macros p
    refine ⟨_, found, parsed, ?_⟩
    rintro ⟨d, hd, unsized⟩ noBase
    obtain ⟨results, made, -, errors⟩ := parsed.made
    obtain ⟨result, hr, hm⟩ := mem_left_of_forall₂ made hd
    obtain ⟨e, rfl⟩ := hm.exists_error unsized
    have some : e ∈ results.filterMap error? := List.mem_filterMap.mpr ⟨_, hr, rfl⟩
    rw [← errors] at some
    obtain ⟨e, es, first⟩ := List.exists_cons_of_ne_nil (List.ne_nil_of_mem some)
    exact ⟨e, by rw [first]; rfl, fun name count stage =>
      outcome_expand_of_errors noBase found first⟩

/-- A struct with a list over two lines and a size over two lines. -/
def light : PrintedStruct where
  lead := .space
  gap := .space
  type := ⟨"Light".toList, by decide⟩
  opening := .none
  statements :=
    [{ lead := .space
       precision := some (.high, .space)
       type := ⟨"mat3".toList, by decide⟩
       gap := .space
       first := { lead := .none, name := ⟨"u".toList, by decide⟩, gap := .none, size := none,
                  tail := .none }
       others := [{ lead := ⟨['\n', ' '], by simp [isBlank]⟩, name := ⟨"v".toList, by decide⟩,
                    gap := .none, size := none, tail := .space }]
       apart := by simp },
     { lead := .space
       precision := none
       type := ⟨"vec4".toList, by decide⟩
       gap := .space
       first := { lead := .none, name := ⟨"w".toList, by decide⟩, gap := .space,
                  size := some ⟨" N\n* 2".toList, by simp [isCut, closingBrace]⟩, tail := .none }
       others := []
       apart := by rintro - (_ | _ | _) <;> decide }]
  closing := .space
  tail := .space

/-- A struct with a size that is no length. -/
def spot : PrintedStruct where
  lead := .space
  gap := .space
  type := ⟨"Spot".toList, by decide⟩
  opening := .space
  statements :=
    [{ lead := .space
       precision := none
       type := ⟨"vec4".toList, by decide⟩
       gap := .space
       first := { lead := .none, name := ⟨"cone".toList, by decide⟩, gap := .none,
                  size := some ⟨"N - 2".toList, by simp [isCut, closingBrace]⟩, tail := .none }
       others := []
       apart := by rintro - (_ | _ | _) <;> decide }]
  closing := .space
  tail := .none

/-- A type with two definitions, and a type with one. -/
def lights : List PrintedStruct := [{ light with statements := [] }, light, spot]

theorem ofText_printed_lights :
    let macros := ({} : Macro.Table).add "N" (.int 2)
    let table := Table.ofText macros (printed lights .none)
    printed lights .none =
      (" struct Light\x7b \x7d ;" ++
        " struct Light\x7b highp mat3 u,\n v ; vec4 w [ N\n* 2]; \x7d ;" ++
        " struct Spot \x7b vec4 cone[N - 2]; \x7d;").toList ∧
    table["Light"]? = some ⟨"Light", [⟨"mat3", "u", none⟩, ⟨"mat3", "v", none⟩,
      ⟨"vec4", "w", some 4⟩], []⟩ ∧
    ∀ name count stage, (expand table "Spot" name count stage).outcome =
      .error (.invalidArraySize "Spot.cone" "N - 2") := by
  intro macros table
  refine ⟨by decide +kernel, ?_, ?_⟩
  · obtain ⟨⟨type, fields, errors⟩, found, parsed, -⟩ :=
      (ofText_printed macros lights .none).2 "Light" light rfl
    have value : macros.eval " N\n* 2".toList = .ok (.int 4) := by decide +kernel
    have sized : ∀ d ∈ light.declared, d.2.Sized macros := by
      refine List.forall_mem_cons.mpr ⟨?_, List.forall_mem_cons.mpr ⟨?_,
        List.forall_mem_singleton.mpr ?_⟩⟩
      · rintro size ⟨⟩
      · rintro size ⟨⟩
      · rintro size ⟨⟩
        exact ⟨4, value, by decide, by decide⟩
    obtain ⟨noErrors, made⟩ := parsed.sized sized
    obtain rfl : errors = [] := noErrors
    obtain rfl : type = "Light" := parsed.type
    obtain _ | ⟨a, _ | ⟨b, _ | ⟨w, _ | _⟩⟩⟩ := made
    cases a with
    | array h => cases h
    | single =>
    cases b with
    | array h => cases h
    | single =>
    cases w with
    | single h => cases h
    | array h eq =>
      cases h
      cases value.symm.trans eq
      exact found
  · obtain ⟨_, -, parsed, fails⟩ := (ofText_printed macros lights .none).2 "Spot" spot rfl
    have value : macros.eval "N - 2".toList = .ok (.int 0) := by decide +kernel
    have noLength : ∀ n : Nat, macros.eval "N - 2".toList = .ok (.int n) → ¬ 0 < n := by
      intro n eq
      cases value.symm.trans eq
      decide
    obtain ⟨e, first, always⟩ := fails ⟨_, List.mem_cons_self, fun sized => by
      obtain ⟨n, eq, pos, -⟩ := sized _ rfl
      exact noLength n eq pos⟩ (by decide +kernel)
    obtain ⟨_, _ | ⟨cone, _ | _⟩, -, errors⟩ := parsed.made
    cases cone with
    | single h => cases h
    | array h eq pos =>
      cases h
      exact absurd pos (noLength _ eq)
    | unsized h =>
      cases h
      rw [errors] at first
      cases first
      exact always

end PrintedStruct

end ShaderInterface.Struct
