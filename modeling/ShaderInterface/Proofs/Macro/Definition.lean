import ShaderInterface.Macro.Definition
import ShaderInterface.Proofs.Text.Identifier
import ShaderInterface.Proofs.Text.Lines

/-!
# Which lines define a macro

    # define NAME VALUE

A `SpelledDefinition` is a line of this form, down to the spaces and tabs between its parts and the
carriage return that may end it. Such a line makes one definition, every other line none
(`definitionOfLine?_eq_some_iff`), and the definitions in a text are those of its lines, each with
the number of its line (`definitions_append_cons`).
-/

namespace ShaderInterface.Macro

open Text

/-! ## Lines of the form -/

/-- A text of spaces and tabs, possibly empty. -/
abbrev Gaps := { s : List Char // ∀ c ∈ s, isGap c }

/-- A text of one space or tab, or more of them. -/
abbrev Separator := { s : List Char // s ≠ [] ∧ ∀ c ∈ s, isGap c }

/-- What can stand behind the name: a part of a line that has no carriage return and something else
than blanks. -/
abbrev ValueText := { s : List Char // '\n' ∉ s ∧ '\r' ∉ s ∧ ∃ c ∈ s, isBlank c = false }

/-- A line that defines a macro. -/
structure SpelledDefinition where
  indent : Gaps
  signGap : Gaps
  wordGap : Separator
  name : { s : List Char // isIdentifier s }
  nameGap : Separator
  /-- The value, possibly with blanks around it. -/
  value : ValueText
  /-- Whether a carriage return ends the line. -/
  returned : Bool

/-- The end of a line, with a carriage return or without. -/
def lineEnd (returned : Bool) : List Char := if returned then ['\r'] else []

namespace SpelledDefinition

/-- The line. -/
def text (d : SpelledDefinition) : List Char :=
  d.indent.1 ++ ['#'] ++ d.signGap.1 ++ "define".toList ++ d.wordGap.1 ++ d.name.1 ++ d.nameGap.1 ++
    d.value.1 ++ lineEnd d.returned

/-- What the line defines when it is the only one of a text. -/
def definition (d : SpelledDefinition) : Definition where
  name := String.ofList d.name.1
  value := String.ofList (trim d.value.1)
  line := 1

end SpelledDefinition

/-! ## Gaps -/

variable {s rest line name value : List Char}

theorem isBlank_of_isGap {c : Char} (h : isGap c) : isBlank c := by
  rcases (Bool.or_eq_true _ _).mp h with space | tab
  · rw [beq_iff_eq.mp space]
    rfl
  · rw [beq_iff_eq.mp tab]
    rfl

theorem not_isGap_of_not_isBlank {c : Char} (h : isBlank c = false) : isGap c = false := by
  rw [Bool.eq_false_iff]
  intro gap
  rw [isBlank_of_isGap gap] at h
  cases h

/-- A text begins with the gaps that are dropped from it. -/
theorem exists_gaps (s : List Char) : ∃ gaps : Gaps, s = gaps.1 ++ s.dropWhile isGap :=
  ⟨⟨s.takeWhile isGap, fun _ hc => List.mem_takeWhile_imp hc⟩,
    List.takeWhile_append_dropWhile.symm⟩

/-- Behind a separator all further gaps are dropped too. -/
theorem dropGaps?_append (separator : Separator) (rest : List Char) :
    dropGaps? (separator.1 ++ rest) = some (rest.dropWhile isGap) := by
  obtain ⟨_ | ⟨c, gaps⟩, nonempty, all⟩ := separator
  · exact absurd rfl nonempty
  · obtain ⟨first, others⟩ := List.forall_mem_cons.mp all
    exact (if_pos first).trans (congrArg some (List.dropWhile_append_of_pos others))

theorem exists_separator_of_dropGaps? (h : dropGaps? s = some rest) :
    ∃ separator : Separator, s = separator.1 ++ rest := by
  cases s with
  | nil => cases h
  | cons c s =>
    obtain ⟨first, h⟩ := Option.ite_none_right_eq_some.mp h
    cases h
    obtain ⟨gaps, eq⟩ := exists_gaps s
    refine ⟨⟨c :: gaps.1, List.cons_ne_nil _ _, ?_⟩, congrArg (c :: ·) eq⟩
    exact List.forall_mem_cons.mpr ⟨first, gaps.2⟩

/-! ## Values -/

theorem dropReturn_append (h : '\r' ∉ s) (returned : Bool) :
    dropReturn (s ++ lineEnd returned) = s := by
  cases returned with
  | true => simp [dropReturn, lineEnd]
  | false =>
    have last : s.getLast? ≠ some '\r' := fun last => h (List.mem_of_getLast? last)
    simp [dropReturn, lineEnd, last]

theorem exists_eq_dropReturn_append (s : List Char) :
    ∃ returned, s = dropReturn s ++ lineEnd returned := by
  by_cases last : s.getLast? = some '\r'
  · refine ⟨true, ?_⟩
    rw [dropReturn, if_pos last, lineEnd, if_pos rfl]
    exact (List.dropLast_append_getLast? '\r' last).symm
  · exact ⟨false, by simp [dropReturn, last, lineEnd]⟩

/-- A value is what is left of a text that has no carriage return but the one that may end it, when
it is trimmed, if anything is left. -/
theorem valueText?_eq_some_iff :
    valueText? s = some value ↔
      ∃ (text : List Char) (returned : Bool), s = text ++ lineEnd returned ∧ '\r' ∉ text ∧
        (∃ c ∈ text, isBlank c = false) ∧ value = trim text := by
  have nonempty : ∀ text : List Char,
      (trim text).isEmpty = false ↔ ∃ c ∈ text, isBlank c = false := fun text => by
    rw [List.isEmpty_eq_false_iff, ne_eq, trim_eq_nil_iff]
    simp
  constructor
  · intro h
    obtain ⟨noReturn, h⟩ := Option.ite_none_left_eq_some.mp h
    obtain ⟨something, h⟩ := Option.ite_none_left_eq_some.mp h
    obtain ⟨returned, eq⟩ := exists_eq_dropReturn_append s
    have blank := (nonempty (dropReturn s)).mp (by simpa using something)
    exact ⟨dropReturn s, returned, eq, noReturn, blank, (Option.some.inj h).symm⟩
  · rintro ⟨text, returned, rfl, noReturn, something, rfl⟩
    have kept := (nonempty text).mpr something
    simp [valueText?, dropReturn_append noReturn, noReturn, kept]

/-- Gaps in front of a value make no difference to it. -/
theorem valueText?_dropWhile (value : ValueText) (returned : Bool) :
    valueText? ((value.1 ++ lineEnd returned).dropWhile isGap) = some (trim value.1) := by
  obtain ⟨value, -, noReturn, c, hc, letter⟩ := value
  obtain ⟨lead, eq⟩ := exists_gaps value
  have stop := stop_dropWhile isGap value
  generalize value.dropWhile isGap = tail at eq stop
  subst eq
  have inTail : c ∈ tail := (List.mem_append.mp hc).resolve_left fun inLead => by
    rw [isBlank_of_isGap (lead.2 c inLead)] at letter
    cases letter
  have behind : (lead.1 ++ tail ++ lineEnd returned).dropWhile isGap =
      tail ++ lineEnd returned := by
    rw [List.append_assoc]
    refine dropWhile_run lead.2 fun d hd => stop d ?_
    rwa [List.head?_append_of_ne_nil _ (List.ne_nil_of_mem inTail)] at hd
  refine valueText?_eq_some_iff.mpr ⟨tail, returned, behind, ?_, ⟨c, inTail, letter⟩, ?_⟩
  · exact fun mem => noReturn (List.mem_append_right _ mem)
  · exact trim_append_of_isBlank (fun d hd => isBlank_of_isGap (lead.2 d hd)) tail

/-! ## Reading a line -/

/-- What is spelled is read. -/
theorem definitionOfLine?_text (d : SpelledDefinition) :
    definitionOfLine? d.text = some (d.name.1, trim d.value.1) := by
  obtain ⟨indent, signGap, wordGap, name, nameGap, value, returned⟩ := d
  have sign : ∀ rest : List Char, (indent.1 ++ '#' :: rest).dropWhile isGap = '#' :: rest :=
    fun rest => dropWhile_run indent.2 (by rintro _ ⟨⟩; rfl)
  have word : ∀ rest : List Char,
      (signGap.1 ++ ("define".toList ++ rest)).dropWhile isGap = "define".toList ++ rest :=
    fun rest => dropWhile_run signGap.2 (by rintro _ ⟨⟩; rfl)
  have start : ∀ rest : List Char, (name.1 ++ rest).dropWhile isGap = name.1 ++ rest :=
    fun rest => dropWhile_run (List.forall_mem_nil _) fun c hc =>
      not_isGap_of_not_isBlank (not_isBlank_head_identifier name.2 rest c hc)
  have stop : ∀ rest : List Char, ∀ c ∈ (nameGap.1 ++ rest).head?, isIdentChar c = false := by
    obtain ⟨_ | ⟨b, gaps⟩, nonempty, all⟩ := nameGap
    · exact absurd rfl nonempty
    · rintro rest c ⟨⟩
      exact not_isIdentChar_of_isBlank (isBlank_of_isGap (all b List.mem_cons_self))
  simp only [definitionOfLine?, SpelledDefinition.text, List.append_assoc, List.cons_append,
    List.nil_append, sign, word, afterPrefix?, afterPrefix?_append, dropGaps?_append, start,
    takeIdentifier_append name.2 (stop _), valueText?_dropWhile, Option.bind_eq_bind,
    Option.bind_some, if_true]

/-- What is read is spelled. -/
theorem exists_spelled_of_definitionOfLine? (oneLine : '\n' ∉ line)
    (h : definitionOfLine? line = some (name, value)) :
    ∃ d : SpelledDefinition, d.text = line ∧ d.name.1 = name ∧ trim d.value.1 = value := by
  simp only [definitionOfLine?, Option.bind_eq_bind, Option.bind_eq_some_iff, Option.some.injEq,
    Prod.mk.injEq] at h
  obtain ⟨s₁, h₁, s₂, h₂, s₃, h₃, ⟨name', s₄⟩, h₄, s₅, h₅, value', h₆, rfl, rfl⟩ := h
  obtain ⟨indent, eq₀⟩ := exists_gaps line
  obtain ⟨signGap, eq₁⟩ := exists_gaps s₁
  obtain ⟨wordGap, eq₂⟩ := exists_separator_of_dropGaps? h₃
  obtain ⟨ident, eq₃, -⟩ := takeIdentifier_eq_some h₄
  obtain ⟨nameGap, (eq₄ : s₄ = _)⟩ := exists_separator_of_dropGaps? h₅
  obtain ⟨text, returned, eq₅, noReturn, something, rfl⟩ := valueText?_eq_some_iff.mp h₆
  rw [afterPrefix?_eq_some_iff.mp h₁, eq₁, afterPrefix?_eq_some_iff.mp h₂, eq₂, eq₃, eq₄, eq₅]
    at eq₀
  have noFeed : '\n' ∉ text := fun mem => oneLine (by simp [eq₀, mem])
  exact ⟨⟨indent, signGap, wordGap, ⟨name', ident⟩, nameGap, ⟨text, noFeed, noReturn, something⟩,
    returned⟩, by simp [eq₀, SpelledDefinition.text], rfl, rfl⟩

/-- **A line defines a macro exactly when it is of the form**, and then what is spelled. -/
theorem definitionOfLine?_eq_some_iff (oneLine : '\n' ∉ line) :
    definitionOfLine? line = some (name, value) ↔
      ∃ d : SpelledDefinition, d.text = line ∧ d.name.1 = name ∧ trim d.value.1 = value := by
  constructor
  · exact exists_spelled_of_definitionOfLine? oneLine
  · rintro ⟨d, rfl, rfl, rfl⟩
    exact definitionOfLine?_text d

theorem newline_not_mem_text (d : SpelledDefinition) : '\n' ∉ d.text := by
  have gaps : ∀ {s : List Char}, (∀ c ∈ s, isGap c) → '\n' ∉ s := fun all mem =>
    absurd (all '\n' mem) (by decide)
  have ident : '\n' ∉ d.name.1 := fun mem =>
    absurd (isIdentChar_of_mem d.name.2 '\n' mem) (by decide)
  have ending : '\n' ∉ lineEnd d.returned := by cases d.returned <;> decide
  simp [SpelledDefinition.text, gaps d.indent.2, gaps d.signGap.2, gaps d.wordGap.2.2, ident,
    gaps d.nameGap.2.2, d.value.2.1, ending]

/-! ## Reading a text -/

/-- The definition with a line number that is greater by the given number of lines. -/
def Definition.moved (lines : Nat) (d : Definition) : Definition :=
  { d with line := d.line + lines }

theorem ofLine?_add (line : List Char) (index k : Nat) :
    Definition.ofLine? line (k + index) = (Definition.ofLine? line index).map (·.moved k) := by
  unfold Definition.ofLine?
  cases definitionOfLine? line with
  | none => rfl
  | some out =>
    have number : k + index + 1 = index + 1 + k := by omega
    simp [Definition.moved, number]

/-- The definitions of lines that are numbered from another line on are moved by so many lines. -/
theorem filterMap_zipIdx_ofLine? (lines : List (List Char)) (k : Nat) :
    (lines.zipIdx k).filterMap (fun line => Definition.ofLine? line.1 line.2) =
      (lines.zipIdx.filterMap fun line => Definition.ofLine? line.1 line.2).map (·.moved k) := by
  rw [List.zipIdx_eq_map_add, List.filterMap_map, List.map_filterMap]
  exact List.filterMap_congr fun line _ => ofLine?_add line.1 line.2 k

/-- The definitions in a text are those in front of a line feed, then those behind it. -/
theorem definitions_append_cons (a b : List Char) :
    definitions (a ++ '\n' :: b) =
      definitions a ++ (definitions b).map (·.moved (a.count '\n' + 1)) := by
  have behind := filterMap_zipIdx_ofLine? (lines b) (a.count '\n' + 1)
  change _ = (definitions b).map _ at behind
  rw [← behind, definitions, definitions, lines, split_append_cons, List.zipIdx_append,
    List.filterMap_append, Nat.zero_add, length_split]
  rfl

theorem definitions_of_newline_not_mem (oneLine : '\n' ∉ line) :
    definitions line = (Definition.ofLine? line 0).toList := by
  rw [definitions, lines_of_not_mem oneLine]
  cases h : Definition.ofLine? line 0 <;> simp [h]

/-- **Definitions are read line by line.** The definitions in a text are those in front of a line
feed and behind it, these moved by the lines in front. A line of the form makes the definition that
it spells, and a line of another form makes none. -/
theorem definitions_by_line :
    (∀ a b : List Char, definitions (a ++ '\n' :: b) =
      definitions a ++ (definitions b).map (·.moved (1 + a.count '\n'))) ∧
    (∀ d : SpelledDefinition, '\n' ∉ d.text ∧ definitions d.text = [d.definition]) ∧
    ∀ line : List Char, '\n' ∉ line →
      (definitions line = [] ↔ ¬ ∃ d : SpelledDefinition, d.text = line) := by
  refine ⟨fun a b => ?_, fun d => ⟨newline_not_mem_text d, ?_⟩, fun line oneLine => ?_⟩
  · rw [Nat.add_comm, definitions_append_cons]
  · rw [definitions_of_newline_not_mem (newline_not_mem_text d), Definition.ofLine?,
      definitionOfLine?_text]
    rfl
  · rw [definitions_of_newline_not_mem oneLine, Definition.ofLine?, Option.toList_eq_nil_iff,
      Option.map_eq_none_iff, Option.eq_none_iff_forall_ne_some]
    constructor
    · rintro none ⟨d, rfl⟩
      exact none _ (definitionOfLine?_text d)
    · rintro other ⟨name, value⟩ read
      obtain ⟨d, eq, -⟩ := (definitionOfLine?_eq_some_iff oneLine).mp read
      exact other ⟨d, eq⟩

/-- A definition with gaps in all places, with blanks of two kinds around its value, and with a
carriage return at its end. -/
def spaced : SpelledDefinition where
  indent := ⟨[' ', '\t'], List.all_eq_true.mp rfl⟩
  signGap := ⟨[' '], List.all_eq_true.mp rfl⟩
  wordGap := ⟨['\t'], List.cons_ne_nil _ _, List.all_eq_true.mp rfl⟩
  name := ⟨"B2".toList, by decide⟩
  nameGap := ⟨[' '], List.cons_ne_nil _ _, List.all_eq_true.mp rfl⟩
  value := ⟨" \u00a0(A + 1)\u2003".toList, by decide, by decide, '(', by decide, by decide⟩
  returned := true

theorem definitions_by_line_spaced :
    definitions ("#define A 1\r\n#define FLAG".toList ++ '\n' :: spaced.text) =
      [{ name := "A", value := "1", line := 1 }, { name := "B2", value := "(A + 1)", line := 3 }] ∧
    definitions spaced.text = [{ name := "B2", value := "(A + 1)", line := 1 }] ∧
    ¬ ∃ d : SpelledDefinition, d.text = "#define F(x) x".toList := by
  obtain ⟨append, spelled, other⟩ := definitions_by_line
  refine ⟨?_, ?_, ?_⟩
  · exact (append _ spaced.text).trans (by decide +kernel)
  · exact (spelled spaced).2.trans (by decide +kernel)
  · exact (other _ (by decide)).mp (by decide +kernel)

end ShaderInterface.Macro
