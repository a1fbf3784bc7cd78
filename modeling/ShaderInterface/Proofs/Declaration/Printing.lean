import ShaderInterface.Proofs.Declaration.Declarators

/-!
# Printed declarations are scanned back

A printed declaration is a statement with its keyword, in front of it any blanks and behind it a
line feed; where its sizes have neither brackets nor commas nor semicolons, a scan of any number of
them gives those of one keyword and nothing else (`scan_printed`).

What stands between the statements of a keyword is skipped part by part (`Skips`): blanks and marks,
an identifier with which no statement begins, and a size, in which none can begin.
-/

namespace ShaderInterface.Declaration

open Text

/-! ## Skipping a text -/

section Skipping

variable {word s t rest : List Char} {previous : Option Char}

/-- A scan goes on behind the text `s`, where `rest` follows it, and has found nothing in it. -/
def Skips (word s rest : List Char) : Prop :=
  ∀ previous, ∃ previous',
    statementsFrom word previous (s ++ rest) = statementsFrom word previous' rest

theorem Skips.nil : Skips word [] rest := fun previous => ⟨previous, rfl⟩

theorem Skips.append (first : Skips word s (t ++ rest)) (second : Skips word t rest) :
    Skips word (s ++ t) rest := by
  intro previous
  obtain ⟨middle, hm⟩ := first previous
  obtain ⟨last, hl⟩ := second middle
  exact ⟨last, by rw [List.append_assoc, hm, hl]⟩

theorem skips_cons {c : Char} (none : statement? word (c :: (s ++ rest)) = none)
    (later : Skips word s rest) : Skips word (c :: s) rest := by
  intro previous
  obtain ⟨last, hl⟩ := later (some c)
  exact ⟨last, by rw [List.cons_append, statementsFrom_of_none fun _ => none, hl]⟩

/-- Every statement begins with an identifier. -/
theorem statement?_of_not_isIdentStart (ident : isIdentifier word) {c : Char}
    (h : isIdentStart c = false) (s : List Char) : statement? word (c :: s) = none := by
  refine statement?_eq_none_iff.mpr fun w rest hs => ?_
  cases word with
  | nil => cases ident
  | cons d word =>
    obtain rfl : c = d := (List.cons.inj hs).1
    rw [isIdentifier, h] at ident
    cases ident

theorem statement?_of_isBlank (ident : isIdentifier word) {c : Char} (h : isBlank c)
    (s : List Char) : statement? word (c :: s) = none :=
  statement?_of_not_isIdentStart ident
    (not_isIdentStart_of_not_isIdentChar (not_isIdentChar_of_isBlank h)) s

theorem skips_blanks (ident : isIdentifier word) (blank : ∀ c ∈ s, isBlank c) :
    Skips word s rest := by
  induction s with
  | nil => exact .nil
  | cons c s ih =>
    obtain ⟨first, others⟩ := List.forall_mem_cons.mp blank
    exact skips_cons (statement?_of_isBlank ident first _) (ih others)

/-- Blanks leave room for a statement behind them. -/
theorem statementsFrom_blanks (ident : isIdentifier word) (blank : ∀ c ∈ s, isBlank c)
    (boundary : isBoundary previous) (rest : List Char) :
    ∃ previous', isBoundary previous' ∧
      statementsFrom word previous (s ++ rest) = statementsFrom word previous' rest := by
  induction s generalizing previous with
  | nil => exact ⟨previous, boundary, rfl⟩
  | cons c s ih =>
    obtain ⟨first, others⟩ := List.forall_mem_cons.mp blank
    obtain ⟨last, hb, hl⟩ := ih others (isBoundary_of_isBlank first)
    refine ⟨last, hb, (statementsFrom_of_none fun _ => ?_).trans hl⟩
    exact statement?_of_isBlank ident first _

/-- No statement begins behind a character of an identifier. -/
theorem statementsFrom_identChars (word rest : List Char) (h : ∀ c ∈ s, isIdentChar c) {b : Char}
    (hb : isIdentChar b) :
    ∃ previous', statementsFrom word (some b) (s ++ rest) = statementsFrom word previous' rest := by
  induction s generalizing b with
  | nil => exact ⟨some b, rfl⟩
  | cons c s ih =>
    obtain ⟨first, others⟩ := List.forall_mem_cons.mp h
    obtain ⟨last, hl⟩ := ih others first
    refine ⟨last, ?_⟩
    rw [List.cons_append, statementsFrom_of_none, hl]
    intro boundary
    rw [isBoundary_some, isWordChar_of_isIdentChar hb] at boundary
    cases boundary

/-- An identifier is skipped as a whole where no statement begins with it. -/
theorem skips_identifier {name : List Char} (ident : isIdentifier name)
    (none : statement? word (name ++ rest) = none) : Skips word name rest := by
  intro previous
  cases name with
  | nil => cases ident
  | cons c name =>
    obtain ⟨first, others⟩ := List.forall_mem_cons.mp (isIdentChar_of_mem ident)
    obtain ⟨last, hl⟩ := statementsFrom_identChars word rest others first
    exact ⟨last, (statementsFrom_of_none fun _ => none).trans hl⟩

/-! ### Parts of statements -/

/-- Behind the word of a statement come identifiers and blanks up to a mark. -/
theorem exists_run_of_text (ident : isIdentifier word) (w : Spelling) (rest : List Char) :
    ∃ run c s, word ++ (w.text ++ rest) = run ++ c :: s ∧ isMark c ∧
      ∀ d ∈ run, isIdentChar d ∨ isBlank d := by
  obtain ⟨c, s, hs, mark⟩ := isMark_behind_gap w.first (separated_listText w.others rest)
  have precision : ∀ d ∈ Spelling.precisionText w.precision, isIdentChar d ∨ isBlank d := by
    cases w.precision with
    | none => simp [Spelling.precisionText]
    | some precision =>
      obtain ⟨p, gap⟩ := precision
      refine List.forall_mem_append.mpr ⟨fun d hd => .inl ?_, ?_⟩
      · exact isIdentChar_of_mem (isIdentifier_precision p) d hd
      · exact fun d hd => .inr (gap.2.2 d hd)
  refine ⟨word ++ w.gap.1 ++ Spelling.precisionText w.precision ++ w.type.1 ++ w.typeGap.1 ++
    w.first.name.1 ++ w.first.gap.1, c, s, ?_, mark, ?_⟩
  · rw [w.text_append, Spelling.listTail, ← hs, SpelledDeclarator.body]
    simp
  · intro d hd
    simp only [List.mem_append] at hd
    rcases hd with (((((hd | hd) | hd) | hd) | hd) | hd) | hd
    · exact .inl (isIdentChar_of_mem ident d hd)
    · exact .inr (w.gap.2.2 d hd)
    · exact precision d hd
    · exact .inl (isIdentChar_of_mem w.type.2 d hd)
    · exact .inr (w.typeGap.2.2 d hd)
    · exact .inl (isIdentChar_of_mem w.first.name.2 d hd)
    · exact .inr (w.first.gap.2 d hd)

/-- No statement begins in a size without marks, for it would go on behind the closing bracket. -/
theorem statement?_in_size (ident : isIdentifier word) (plain : ∀ c ∈ s, isMark c = false)
    (rest : List Char) : statement? word (s ++ ']' :: rest) = none := by
  refine statement?_eq_none_iff.mpr fun w behind hs => ?_
  obtain ⟨run, c, t, ht, mark, inRun⟩ := exists_run_of_text ident w behind
  rw [ht] at hs
  rcases List.append_eq_append_iff.mp hs with ⟨more, hrun, hmore⟩ | ⟨more, hsize, hmore⟩
  · -- the closing bracket comes first, but it is in no run
    cases more with
    | nil =>
      cases hmore
      cases mark
    | cons d more =>
      obtain rfl : ']' = d := (List.cons.inj hmore).1
      have bracket := inRun ']' (by simp [hrun])
      simp [isIdentChar, isBlank] at bracket
  · -- the mark comes first, but the size has none
    cases more with
    | nil =>
      cases hmore
      cases mark
    | cons d more =>
      obtain rfl : c = d := (List.cons.inj hmore).1
      rw [plain c (by simp [hsize])] at mark
      cases mark

/-- A size without marks is skipped. -/
theorem skips_size (ident : isIdentifier word) (plain : ∀ c ∈ s, isMark c = false)
    (rest : List Char) : Skips word s (']' :: rest) := by
  induction s with
  | nil => exact .nil
  | cons c s ih =>
    exact skips_cons (statement?_in_size ident plain rest) (ih (List.forall_mem_cons.mp plain).2)

/-- A name with a mark behind it is no beginning of two identifiers with a gap between them. -/
theorem marked_ne {name : Identifier} {gap : Blanks} {c : Char} (mark : isMark c)
    {first second : List Char} (ident : isIdentifier first) (between : Gap)
    (ident' : isIdentifier second) :
    name.1 ++ (gap.1 ++ c :: s) ≠ first ++ (between.1 ++ (second ++ rest)) := by
  intro same
  obtain ⟨-, behind⟩ := identifier_unique name.2 ident (not_isIdentChar_behind_name gap mark)
    (not_isIdentChar_head_gap between _) same
  have blanks := congrArg (List.dropWhile isBlank) behind
  rw [dropWhile_run gap.2 (by rintro d ⟨⟩; exact not_isBlank_of_isMark mark),
    dropWhile_run between.2.2 (not_isBlank_head_identifier ident' rest)] at blanks
  cases second with
  | nil => cases ident'
  | cons d second =>
    obtain rfl : c = d := (List.cons.inj blanks).1
    have char := isIdentChar_of_mem ident' c List.mem_cons_self
    rw [not_isIdentChar_of_isMark mark] at char
    cases char

/-- Behind the word of a statement come two identifiers, those of a precision and a type or those of
a type and a name. -/
theorem exists_two_identifiers (w : Spelling) (rest : List Char) :
    ∃ (first second : Identifier) (between : Gap) (t : List Char),
      w.text ++ rest = w.gap.1 ++ (first.1 ++ (between.1 ++ (second.1 ++ t))) := by
  rw [w.text_append]
  cases w.precision with
  | none =>
    refine ⟨w.type, w.first.name, w.typeGap, w.first.gap.1 ++ (w.first.brackets ++ (w.first.tail ++
      (Spelling.listText w.others ++ ';' :: rest))), ?_⟩
    simp [Spelling.precisionText, Spelling.listTail, SpelledDeclarator.body]
  | some precision =>
    obtain ⟨p, between⟩ := precision
    refine ⟨⟨p.word.toList, isIdentifier_precision p⟩, w.type, between,
      w.typeGap.1 ++ w.listTail rest, ?_⟩
    simp [Spelling.precisionText]

/-- No statement begins with another identifier than its word. -/
theorem statement?_of_ne {name : List Char} (ident : isIdentifier word) (ident' : isIdentifier name)
    (ne : name ≠ word) (stop : ∀ c ∈ rest.head?, isIdentChar c = false) :
    statement? word (name ++ rest) = none := by
  refine statement?_eq_none_iff.mpr fun w behind hs => ne ?_
  obtain ⟨first, second, between, t, ht⟩ := exists_two_identifiers w behind
  rw [ht] at hs
  exact (identifier_unique ident' ident stop (not_isIdentChar_head_gap _ _) hs).1

/-- No statement begins with the name of a declarator. -/
theorem statement?_body (ident : isIdentifier word) (d : SpelledDeclarator) (h : Separated rest) :
    statement? word (d.body ++ (d.tail ++ rest)) = none := by
  refine statement?_eq_none_iff.mpr fun w behind hs => ?_
  obtain ⟨first, second, between, t, ht⟩ := exists_two_identifiers w behind
  obtain ⟨c, s, hc, mark⟩ := isMark_behind_gap d h
  rw [ht, SpelledDeclarator.body, List.append_assoc, List.append_assoc, hc] at hs
  exact marked_ne mark ident w.gap first.2 hs

/-- No statement begins with the type of a statement. -/
theorem statement?_type (ident : isIdentifier word) (w : Spelling) (rest : List Char) :
    statement? word (w.type.1 ++ (w.typeGap.1 ++ w.listTail rest)) = none := by
  refine statement?_eq_none_iff.mpr fun v behind hs => ?_
  obtain ⟨first, second, between, t, ht⟩ := exists_two_identifiers v behind
  obtain ⟨c, s, hc, mark⟩ := isMark_behind_gap w.first (separated_listText w.others rest)
  rw [ht] at hs
  obtain ⟨-, hs⟩ := identifier_unique w.type.2 ident (not_isIdentChar_head_gap _ _)
    (not_isIdentChar_head_gap _ _) hs
  have list := congrArg (List.dropWhile isBlank) hs
  rw [Spelling.listTail, dropWhile_run w.typeGap.2.2 (not_isBlank_head_body w.first _),
    dropWhile_run v.gap.2.2 (not_isBlank_head_identifier first.2 _),
    SpelledDeclarator.body, List.append_assoc, List.append_assoc, hc] at list
  exact marked_ne mark first.2 between second.2 list

/-! ### Statements of another keyword -/

/-- No size of the declarator has a mark. -/
def SpelledDeclarator.Plain (d : SpelledDeclarator) : Prop :=
  ∀ size ∈ d.size, ∀ c ∈ size.text.1, isMark c = false

theorem skips_declarator (ident : isIdentifier word) {d : SpelledDeclarator} (plain : d.Plain)
    (h : Separated rest) : Skips word (d.body ++ d.tail) rest := by
  have name : Skips word d.name.1 (d.gap.1 ++ (d.brackets ++ (d.tail ++ rest))) := by
    refine skips_identifier d.name.2 ?_
    simpa [SpelledDeclarator.body] using statement?_body ident d h
  have brackets : Skips word (d.brackets ++ d.tail) rest := by
    obtain ⟨name, gap, size⟩ := d
    cases size with
    | none => exact .nil
    | some size =>
      have closing : Skips word (']' :: size.tail.1) rest :=
        skips_cons (statement?_of_not_isIdentStart ident rfl _) (skips_blanks ident size.tail.2)
      have inside : Skips word size.text.1 (']' :: size.tail.1 ++ rest) :=
        skips_size ident (plain size rfl) _
      have opening := skips_cons (c := '[') (statement?_of_not_isIdentStart ident rfl _)
        (inside.append closing)
      simpa [SpelledDeclarator.brackets, SpelledDeclarator.tail] using opening
  have gap : Skips word d.gap.1 (d.brackets ++ d.tail ++ rest) := skips_blanks ident d.gap.2
  rw [SpelledDeclarator.body, List.append_assoc, List.append_assoc]
  refine .append ?_ (gap.append brackets)
  simpa using name

theorem skips_listText (ident : isIdentifier word) {others : List (Blanks × SpelledDeclarator)}
    (plain : ∀ other ∈ others, other.2.Plain) (rest : List Char) :
    Skips word (Spelling.listText others) (';' :: rest) := by
  induction others with
  | nil => exact .nil
  | cons other others ih =>
    obtain ⟨lead, d⟩ := other
    obtain ⟨first, plain⟩ := List.forall_mem_cons.mp plain
    have later : Skips word (d.body ++ d.tail ++ Spelling.listText others) (';' :: rest) :=
      (skips_declarator ident first (separated_listText others rest)).append (ih plain)
    have blanks : Skips word lead.1
        (d.body ++ d.tail ++ Spelling.listText others ++ ';' :: rest) := skips_blanks ident lead.2
    have comma := skips_cons (c := ',') (statement?_of_not_isIdentStart ident rfl _)
      (blanks.append later)
    simpa [Spelling.listText] using comma

/-- No size of the statement has a mark. -/
def Spelling.Plain (w : Spelling) : Prop := ∀ d ∈ w.declarators, d.Plain

theorem word_precision_ne (p : Precision) (keyword : Keyword) :
    p.word.toList ≠ keyword.word.toList := by
  cases p <;> cases keyword <;> decide

theorem word_ne {keyword other : Keyword} (ne : other ≠ keyword) :
    other.word.toList ≠ keyword.word.toList := by
  cases other <;> cases keyword <;> first | exact absurd rfl ne | decide

theorem skips_precisionText (keyword : Keyword) (precision : Option (Precision × Gap))
    (rest : List Char) : Skips keyword.word.toList (Spelling.precisionText precision) rest := by
  have ident := isIdentifier_keyword keyword
  cases precision with
  | none => exact .nil
  | some precision =>
    obtain ⟨p, gap⟩ := precision
    refine .append (skips_identifier (isIdentifier_precision p) ?_) (skips_blanks ident gap.2.2)
    exact statement?_of_ne ident (isIdentifier_precision p) (word_precision_ne p keyword)
      (not_isIdentChar_head_gap gap rest)

/-- A statement of another keyword is skipped. -/
theorem skips_statement {keyword other : Keyword} (ne : other ≠ keyword) {w : Spelling}
    (plain : w.Plain) (rest : List Char) :
    Skips keyword.word.toList (other.word.toList ++ w.text) rest := by
  have ident := isIdentifier_keyword keyword
  obtain ⟨first, others⟩ := List.forall_mem_cons.mp plain
  have semicolon : Skips keyword.word.toList [';'] rest :=
    skips_cons (statement?_of_not_isIdentStart ident rfl _) .nil
  have list : Skips keyword.word.toList (w.first.body ++ w.first.tail ++
      (Spelling.listText w.others ++ [';'])) rest := by
    refine .append ?_ (.append ?_ semicolon)
    · rw [List.append_assoc]
      exact skips_declarator ident first (separated_listText w.others rest)
    · exact skips_listText ident (fun other h => others _ (List.mem_map_of_mem h)) rest
  have type : Skips keyword.word.toList (w.type.1 ++ (w.typeGap.1 ++ (w.first.body ++
      w.first.tail ++ (Spelling.listText w.others ++ [';'])))) rest := by
    refine .append (skips_identifier w.type.2 ?_) (.append (skips_blanks ident w.typeGap.2.2) list)
    simpa [Spelling.listTail] using statement?_type ident w rest
  have word : Skips keyword.word.toList other.word.toList (w.text ++ rest) := by
    refine skips_identifier (isIdentifier_keyword other) ?_
    refine statement?_of_ne ident (isIdentifier_keyword other) (word_ne ne) ?_
    rw [w.text_append]
    exact not_isIdentChar_head_gap w.gap _
  have text : w.text = w.gap.1 ++ (Spelling.precisionText w.precision ++ (w.type.1 ++
      (w.typeGap.1 ++ (w.first.body ++ w.first.tail ++
        (Spelling.listText w.others ++ [';']))))) := by simp [Spelling.text]
  refine word.append ?_
  rw [text]
  exact .append (skips_blanks ident w.gap.2.2) (.append (skips_precisionText keyword _ _) type)

end Skipping

/-! ## Pages -/

/-- A printed declaration: blanks, a keyword and a statement. -/
structure Printed where
  lead : Blanks
  keyword : Keyword
  spelling : Spelling
  /-- No size has a bracket, a comma or a semicolon. -/
  plain : spelling.Plain

namespace Printed

/-- The text up to the semicolon. -/
def statementText (p : Printed) : List Char :=
  p.lead.1 ++ (p.keyword.word.toList ++ p.spelling.text)

/-- The text of a page, with a line feed behind each declaration. -/
def text (page : List Printed) : List Char := page.flatMap fun p => p.statementText ++ ['\n']

/-- What a printed declaration declares, but for what trails it, with its semicolon on the given
line. -/
def declared (p : Printed) (line : Nat) : List Declaration :=
  p.spelling.declarators.map fun d =>
    { keyword := p.keyword
      precision := p.spelling.precision.map (·.1)
      type := String.ofList p.spelling.type.1
      name := String.ofList d.name.1
      size := d.size.map fun size => String.ofList (trim size.text.1)
      trailing := ""
      line }

/-- What a page declares with one keyword, in order, with `before` line feeds in front of it. -/
def declarations (keyword : Keyword) (before : Nat) : List Printed → List Declaration
  | [] => []
  | p :: page =>
    let line := before + p.statementText.count '\n' + 1
    let later := declarations keyword line page
    if p.keyword = keyword then p.declared line ++ later else later

/-- The statements of one keyword on a page. -/
def statementsOf (keyword : Keyword) : List Printed → List Statement
  | [] => []
  | p :: page =>
    let later := statementsOf keyword page
    if p.keyword = keyword then p.spelling.statement ('\n' :: text page) :: later else later

variable {keyword : Keyword} {page : List Printed}

theorem text_cons (p : Printed) (page : List Printed) :
    text (p :: page) = p.statementText ++ '\n' :: text page := by
  simp [text]

/-- The statements that are read on a page are those of the keyword. -/
theorem statementsFrom_text {previous : Option Char} (boundary : isBoundary previous) :
    statementsFrom keyword.word.toList previous (text page) = statementsOf keyword page := by
  have ident := isIdentifier_keyword keyword
  induction page generalizing previous with
  | nil => rw [text, List.flatMap_nil, statementsFrom, statementsOf]
  | cons p page ih =>
    have later : ∀ previous, statementsFrom keyword.word.toList previous ('\n' :: text page) =
        statementsOf keyword page := fun previous =>
      (statementsFrom_of_none fun _ => statement?_of_not_isIdentStart ident rfl _).trans
        (ih (isBoundary_of_isBlank rfl))
    rw [text_cons, statementText, statementsOf]
    split
    · next own =>
      obtain ⟨behind, hb, hs⟩ := statementsFrom_blanks ident p.lead.2 boundary
        (p.keyword.word.toList ++ p.spelling.text ++ '\n' :: text page)
      have found : statement? keyword.word.toList
          (p.keyword.word.toList ++ p.spelling.text ++ '\n' :: text page) =
            some (p.spelling.statement ('\n' :: text page)) := by
        rw [own, List.append_assoc]
        exact statement?_eq_some_iff.mpr ⟨p.spelling, rfl, rfl⟩
      rw [List.append_assoc, hs, statementsFrom_of_some hb found]
      exact congrArg _ (later _)
    · next other =>
      have skipped : Skips keyword.word.toList
          (p.lead.1 ++ (p.keyword.word.toList ++ p.spelling.text)) ('\n' :: text page) :=
        .append (skips_blanks ident p.lead.2) (skips_statement other p.plain _)
      obtain ⟨behind, hs⟩ := skipped previous
      exact hs.trans (later behind)

end Printed

/-- A declaration without what trails it. -/
def untrailed (d : Declaration) : Declaration := { d with trailing := "" }

theorem linesBefore_append (s rest : List Char) : linesBefore (s ++ rest) rest = s.count '\n' := by
  rw [linesBefore, List.count_append, Nat.add_sub_cancel]

theorem commaless_of_plain {w : Spelling} (plain : w.Plain) : w.Commaless := by
  intro d hd size hs comma
  cases plain d hd size hs ',' comma

namespace Printed

theorem untrailed_ofStatement (p : Printed) (before rest : List Char) (lines : List (List Char)) :
    (ofStatement p.keyword (before ++ (p.statementText ++ rest)) lines
        (p.spelling.statement rest)).map untrailed =
      p.declared (before.count '\n' + p.statementText.count '\n' + 1) := by
  have named : (p.spelling.statement rest).named =
      p.spelling.declarators.map fun d => (d.name.1, d.size.map fun size => size.text.1) :=
    filterMap_declarator? (commaless_of_plain p.plain)
  have line : linesBefore (before ++ (p.statementText ++ rest)) (p.spelling.statement rest).rest =
      before.count '\n' + p.statementText.count '\n' := by
    rw [← List.append_assoc, ← List.count_append]
    exact linesBefore_append _ _
  rw [ofStatement, named, line, List.map_map, List.map_map, declared]
  refine List.map_congr_left fun d _ => ?_
  simp [untrailed, Spelling.statement, Function.comp_def]

theorem untrailed_statementsOf (keyword : Keyword) (page : List Printed) (before : List Char)
    (lines : List (List Char)) :
    ((statementsOf keyword page).flatMap
        (ofStatement keyword (before ++ text page) lines)).map untrailed =
      declarations keyword (before.count '\n') page := by
  induction page generalizing before with
  | nil => rfl
  | cons p page ih =>
    have later := ih (before ++ (p.statementText ++ ['\n']))
    have count : (before ++ (p.statementText ++ ['\n'])).count '\n' =
        before.count '\n' + p.statementText.count '\n' + 1 := by
      simp [List.count_append, Nat.add_assoc]
    have shape : before ++ (p.statementText ++ ['\n']) ++ text page =
        before ++ text (p :: page) := by simp [text_cons]
    rw [count, shape] at later
    rw [statementsOf, declarations]
    split
    · next own =>
      rw [List.flatMap_cons, List.map_append, later, text_cons, ← own, untrailed_ofStatement]
    · exact later

/-- **Scanning undoes printing.** A scan of a page gives the declarations of the keyword that are
printed on it, in order, each with its precision, type, name and size and the line of its semicolon;
and where a choice of names is given, it gives those that are chosen. -/
theorem scan_printed (page : List Printed) (written : List Char) (keyword : Keyword) :
    (scan (text page) written keyword).map untrailed = declarations keyword 0 page ∧
    ∀ keep : String → Bool, (scan (text page) written keyword keep).map untrailed =
      (declarations keyword 0 page).filter fun d => keep d.name := by
  have chosen : ∀ keep : String → Bool, (scan (text page) written keyword keep).map untrailed =
      (declarations keyword 0 page).filter fun d => keep d.name := by
    intro keep
    have all := untrailed_statementsOf keyword page [] (lines written)
    rw [List.nil_append, List.count_nil] at all
    rw [scan, statements, statementsFrom_text isBoundary_none, ← all, List.filter_map]
    rfl
  refine ⟨?_, chosen⟩
  rw [chosen, List.filter_true]

/-- Two uniforms over several lines, one of them an array, and an attribute. -/
def uniformsAndAttribute : List Printed :=
  [{ lead := .none
     keyword := .uniform
     spelling :=
       { gap := .space
         precision := some (.high, .space)
         type := ⟨"vec3".toList, by decide⟩
         typeGap := ⟨['\n'], by simp [isBlank]⟩
         first :=
           { name := ⟨"a".toList, by decide⟩
             gap := .space
             size := some { text := ⟨" N*(2) ".toList, by simp⟩, tail := .none } }
         others :=
           [(⟨['\n'], by simp [isBlank]⟩,
             { name := ⟨"b".toList, by decide⟩, gap := .none, size := none })] }
     plain := by simp [Spelling.Plain, SpelledDeclarator.Plain, Spelling.declarators, isMark] },
   { lead := .space
     keyword := .attribute
     spelling :=
       { gap := .space
         precision := none
         type := ⟨"vec2".toList, by decide⟩
         typeGap := .space
         first := { name := ⟨"c".toList, by decide⟩, gap := .none, size := none }
         others := [] }
     plain := by simp [Spelling.Plain, SpelledDeclarator.Plain, Spelling.declarators] }]

theorem scan_printed_uniformsAndAttribute :
    text uniformsAndAttribute =
      "uniform highp vec3\na [ N*(2) ],\nb;\n attribute vec2 c;\n".toList ∧
    (scan (text uniformsAndAttribute) [] .uniform).map untrailed =
      [{ keyword := .uniform, precision := some .high, type := "vec3", name := "a",
         size := some "N*(2)", trailing := "", line := 3 },
       { keyword := .uniform, precision := some .high, type := "vec3", name := "b",
         size := none, trailing := "", line := 3 }] ∧
    (scan (text uniformsAndAttribute) [] .attribute fun name => name = "c").map untrailed =
      [{ keyword := .attribute, precision := none, type := "vec2", name := "c",
         size := none, trailing := "", line := 4 }] := by
  refine ⟨by decide +kernel, ?_, ?_⟩
  · exact (scan_printed uniformsAndAttribute [] .uniform).1.trans (by decide +kernel)
  · exact ((scan_printed uniformsAndAttribute [] .attribute).2 _).trans (by decide +kernel)

end Printed

end ShaderInterface.Declaration
