import Mathlib.Data.List.TakeWhile
import ShaderInterface.Declaration.Scan
import ShaderInterface.Proofs.Text.Identifier

/-!
# The grammar of declarations

    keyword [lowp | mediump | highp] type name [ '[' size ']' ] { , name [ '[' size ']' ] } ;

A `Spelling` is a statement of this form behind its keyword, down to the blanks between its parts.
Each reader reads what is spelled (`declaratorText?_append`, `declaratorList?_append`,
`typed?_append`, `qualified?_append`), and what it reads is spelled; so a statement is read exactly
where one is spelled (`statement?_eq_some_iff`). The optional precision leaves no choice: where the
type has the name of a precision, only one identifier is left before the first mark, and none can be
the type (`precision?_type`).
-/

namespace ShaderInterface.Declaration

open Text

/-! ## Spellings -/

/-- A text of blanks, possibly empty. -/
abbrev Blanks := { s : List Char // ∀ c ∈ s, isBlank c }

/-- A text of one blank or more. -/
abbrev Gap := { s : List Char // s ≠ [] ∧ ∀ c ∈ s, isBlank c }

/-- No blank. -/
def Blanks.none : Blanks := ⟨[], List.forall_mem_nil _⟩

/-- A space where there may be none. -/
def Blanks.space : Blanks := ⟨[' '], List.forall_mem_singleton.mpr rfl⟩

/-- A space where there has to be a blank. -/
def Gap.space : Gap := ⟨[' '], List.cons_ne_nil _ _, List.forall_mem_singleton.mpr rfl⟩

/-- An identifier. -/
abbrev Identifier := { s : List Char // isIdentifier s }

/-- What can stand between brackets: neither the closing one nor a line feed. -/
abbrev BracketText := { s : List Char // ∀ c ∈ s, c ≠ ']' ∧ c ≠ '\n' }

/-- A size between brackets, and the blanks behind them. -/
structure SpelledSize where
  text : BracketText
  tail : Blanks

/-- A declarator: a name, and behind blanks possibly a size. -/
structure SpelledDeclarator where
  name : Identifier
  gap : Blanks
  size : Option SpelledSize

/-- A statement behind its keyword. -/
structure Spelling where
  gap : Gap
  precision : Option (Precision × Gap)
  type : Identifier
  typeGap : Gap
  first : SpelledDeclarator
  /-- The declarators behind a comma, each with the blanks between the two. -/
  others : List (Blanks × SpelledDeclarator)

namespace SpelledDeclarator

/-- The size with its brackets. -/
def brackets (d : SpelledDeclarator) : List Char :=
  match d.size with
  | some size => '[' :: size.text.1 ++ [']']
  | none => []

/-- The blanks behind the size. -/
def tail (d : SpelledDeclarator) : List Char :=
  match d.size with
  | some size => size.tail.1
  | none => []

/-- The name and the size with the blanks between them. -/
def body (d : SpelledDeclarator) : List Char := d.name.1 ++ d.gap.1 ++ d.brackets

/-- What a declarator declares: a name, and the size without the blanks around it. -/
def declared (d : SpelledDeclarator) : List Char × Option (List Char) :=
  (d.name.1, d.size.map fun size => trim size.text.1)

end SpelledDeclarator

namespace Spelling

/-- Further declarators, each with the comma in front of it. -/
def listText (others : List (Blanks × SpelledDeclarator)) : List Char :=
  others.flatMap fun (lead, d) => ',' :: lead.1 ++ d.body ++ d.tail

/-- The precision with the blanks behind it. -/
def precisionText : Option (Precision × Gap) → List Char
  | some (p, gap) => p.word.toList ++ gap.1
  | none => []

/-- The declarators. -/
def declarators (w : Spelling) : List SpelledDeclarator := w.first :: w.others.map (·.2)

/-- The text of a statement behind its keyword, up to its semicolon. -/
def text (w : Spelling) : List Char :=
  w.gap.1 ++ precisionText w.precision ++ w.type.1 ++ w.typeGap.1 ++ w.first.body ++ w.first.tail ++
    listText w.others ++ [';']

/-- The statement that is spelled in front of the text `rest`. -/
def statement (w : Spelling) (rest : List Char) : Statement where
  precision := w.precision.map (·.1)
  type := w.type.1
  declarators := w.declarators.map (·.body)
  rest := rest

end Spelling

theorem isIdentifier_precision (p : Precision) : isIdentifier p.word.toList := by
  cases p <;> decide

theorem isIdentifier_keyword (keyword : Keyword) : isIdentifier keyword.word.toList := by
  cases keyword <;> decide

/-! ## Reading what is spelled -/

section Reading

variable {s rest : List Char}

theorem dropBlanks?_append (gap : Gap) (stop : ∀ c ∈ rest.head?, isBlank c = false) :
    dropBlanks? (gap.1 ++ rest) = some rest := by
  obtain ⟨gap, nonempty, blank⟩ := gap
  cases gap with
  | nil => exact absurd rfl nonempty
  | cons c gap =>
    obtain ⟨first, others⟩ := List.forall_mem_cons.mp blank
    exact (if_pos first).trans (congrArg some (dropWhile_run others stop))

/-- A text begins with the blanks that are dropped from it. -/
theorem exists_blanks (s : List Char) : ∃ lead : Blanks, s = lead.1 ++ s.dropWhile isBlank :=
  ⟨⟨s.takeWhile isBlank, fun _ hc => List.mem_takeWhile_imp hc⟩,
    List.takeWhile_append_dropWhile.symm⟩

/-- Blanks are dropped one at least, and all there are. -/
theorem exists_gap_of_dropBlanks? (h : dropBlanks? s = some rest) :
    (∃ gap : Gap, s = gap.1 ++ rest) ∧ ∀ c ∈ rest.head?, isBlank c = false := by
  cases s with
  | nil => cases h
  | cons c s =>
    simp only [dropBlanks?, Option.ite_none_right_eq_some, Option.some.injEq] at h
    obtain ⟨first, rfl⟩ := h
    refine ⟨⟨⟨c :: s.takeWhile isBlank, by simp, ?_⟩, by simp⟩, stop_dropWhile isBlank s⟩
    exact List.forall_mem_cons.mpr ⟨first, fun d hd => List.mem_takeWhile_imp hd⟩

theorem bracketed?_append (text : BracketText) (rest : List Char) :
    bracketed? ('[' :: text.1 ++ ']' :: rest) = some ('[' :: text.1 ++ [']'], rest) := by
  have inside : ∀ c ∈ text.1, (c != ']' && c != '\n') = true := fun c hc => by
    simpa using text.2 c hc
  have stop : ∀ c ∈ (']' :: rest).head?, (c != ']' && c != '\n') = false := by
    rintro c ⟨⟩
    rfl
  rw [List.cons_append, bracketed?, takeWhile_run inside stop, dropWhile_run inside stop]
  rfl

/-- What is read in brackets can stand between them. -/
theorem exists_text_of_bracketed? {size : List Char} (h : bracketed? s = some (size, rest)) :
    ∃ text : BracketText, size = '[' :: text.1 ++ [']'] ∧ s = size ++ rest := by
  unfold bracketed? at h
  split at h
  · next s =>
    simp only at h
    split at h
    · next rest' hr =>
      cases h
      have inside : ∀ c ∈ s.takeWhile fun c => c != ']' && c != '\n', c ≠ ']' ∧ c ≠ '\n' :=
        fun c hc => by simpa using List.mem_takeWhile_imp hc
      refine ⟨⟨_, inside⟩, rfl, ?_⟩
      conv_lhs => rw [← List.takeWhile_append_dropWhile (p := fun c => c != ']' && c != '\n')
        (l := s), hr]
      simp
    · cases h
  · cases h

/-- A bracket, a comma or a semicolon, the characters at which a name and the blanks behind it
end. -/
def isMark (c : Char) : Bool := c == '[' || c == ',' || c == ';'

theorem not_isBlank_of_isMark {c : Char} (h : isMark c) : isBlank c = false := by
  simp only [isMark, Bool.or_eq_true, beq_iff_eq] at h
  rcases h with (rfl | rfl) | rfl <;> rfl

theorem not_isIdentChar_of_isMark {c : Char} (h : isMark c) : isIdentChar c = false := by
  simp only [isMark, Bool.or_eq_true, beq_iff_eq] at h
  rcases h with (rfl | rfl) | rfl <;> rfl

/-- A comma or a semicolon comes first. -/
def Separated (s : List Char) : Prop := ∃ rest, s = ',' :: rest ∨ s = ';' :: rest

/-- Behind a name and blanks stands a mark. -/
theorem isMark_behind_gap (d : SpelledDeclarator) (h : Separated rest) :
    ∃ c s, d.brackets ++ (d.tail ++ rest) = c :: s ∧ isMark c := by
  obtain ⟨name, gap, size⟩ := d
  cases size with
  | some size => exact ⟨'[', _, rfl, rfl⟩
  | none =>
    obtain ⟨s, rfl | rfl⟩ := h
    · exact ⟨',', s, rfl, rfl⟩
    · exact ⟨';', s, rfl, rfl⟩

/-- Blanks keep a name apart from what is behind them. -/
theorem not_isIdentChar_head_blanks (gap : Blanks)
    (stop : ∀ c ∈ rest.head?, isIdentChar c = false) :
    ∀ c ∈ (gap.1 ++ rest).head?, isIdentChar c = false := by
  obtain ⟨gap, blank⟩ := gap
  cases gap with
  | nil => exact stop
  | cons b gap =>
    rintro c ⟨⟩
    exact not_isIdentChar_of_isBlank (blank b List.mem_cons_self)

theorem not_isIdentChar_behind_name (gap : Blanks) {c : Char} (h : isMark c) :
    ∀ d ∈ (gap.1 ++ c :: rest).head?, isIdentChar d = false := by
  refine not_isIdentChar_head_blanks gap ?_
  rintro d ⟨⟩
  exact not_isIdentChar_of_isMark h

/-- The name of a declarator is read up to the blanks and the mark behind it. -/
theorem takeIdentifier_body (d : SpelledDeclarator) (h : Separated rest) :
    ∃ c s, isMark c ∧ d.brackets ++ (d.tail ++ rest) = c :: s ∧
      takeIdentifier (d.body ++ (d.tail ++ rest)) = some (d.name.1, d.gap.1 ++ c :: s) := by
  obtain ⟨c, s, hs, mark⟩ := isMark_behind_gap d h
  refine ⟨c, s, mark, hs, ?_⟩
  rw [SpelledDeclarator.body, List.append_assoc, List.append_assoc, hs]
  exact takeIdentifier_append d.name.2 (not_isIdentChar_behind_name d.gap mark)

/-- A declarator is read with its size where it has one, and without where it has none. -/
theorem bracketed?_brackets (d : SpelledDeclarator) (h : Separated rest) :
    bracketed? (d.brackets ++ (d.tail ++ rest)) =
      d.size.map fun _ => (d.brackets, d.tail ++ rest) := by
  obtain ⟨name, gap, size⟩ := d
  cases size with
  | some size =>
    have shape : '[' :: size.text.1 ++ [']'] ++ (size.tail.1 ++ rest) =
        '[' :: size.text.1 ++ ']' :: (size.tail.1 ++ rest) := by simp
    exact (congrArg bracketed? shape).trans (bracketed?_append size.text _)
  | none => obtain ⟨s, rfl | rfl⟩ := h <;> rfl

theorem declaratorText?_append (d : SpelledDeclarator) (h : Separated rest) :
    declaratorText? (d.body ++ (d.tail ++ rest)) = some (d.body, d.tail ++ rest) := by
  obtain ⟨c, s, mark, hs, name⟩ := takeIdentifier_body d h
  have stop : ∀ b ∈ (c :: s).head?, isBlank b = false := by
    rintro b ⟨⟩
    exact not_isBlank_of_isMark mark
  rw [declaratorText?, name, Option.bind_eq_bind, Option.bind_some]
  dsimp only
  rw [takeWhile_run d.gap.2 stop, dropWhile_run d.gap.2 stop, ← hs, bracketed?_brackets d h]
  obtain ⟨name, gap, size⟩ := d
  cases size with
  | some size => rfl
  | none => simp [SpelledDeclarator.body, SpelledDeclarator.brackets, SpelledDeclarator.tail]

/-- What is read as a declarator is one, and behind it stand its last blanks. -/
theorem exists_declarator_of_declaratorText? {text : List Char}
    (h : declaratorText? s = some (text, rest)) :
    ∃ d : SpelledDeclarator, text = d.body ∧ rest = d.tail ++ rest.dropWhile isBlank ∧
      s = d.body ++ rest := by
  simp only [declaratorText?, Option.bind_eq_bind, Option.bind_eq_some_iff] at h
  obtain ⟨⟨name, s₁⟩, h₁, h⟩ := h
  obtain ⟨ident, rfl, -⟩ := takeIdentifier_eq_some h₁
  dsimp only at h
  have gap : ∀ c ∈ s₁.takeWhile isBlank, isBlank c := fun c hc => List.mem_takeWhile_imp hc
  have cut : s₁.takeWhile isBlank ++ s₁.dropWhile isBlank = s₁ :=
    List.takeWhile_append_dropWhile
  split at h
  · next size rest' hb =>
    cases h
    obtain ⟨text, rfl, hs⟩ := exists_text_of_bracketed? hb
    have tail : ∀ c ∈ rest.takeWhile isBlank, isBlank c := fun c hc => List.mem_takeWhile_imp hc
    refine ⟨⟨⟨name, ident⟩, ⟨_, gap⟩, some ⟨text, ⟨_, tail⟩⟩⟩, rfl, ?_, ?_⟩
    · exact List.takeWhile_append_dropWhile.symm
    · rw [SpelledDeclarator.body, SpelledDeclarator.brackets, List.append_assoc, ← hs,
        List.append_assoc, cut]
  · cases h
    have idle : (s₁.dropWhile isBlank).dropWhile isBlank = s₁.dropWhile isBlank :=
      dropWhile_run (List.forall_mem_nil _) (stop_dropWhile isBlank s₁)
    refine ⟨⟨⟨name, ident⟩, ⟨_, gap⟩, none⟩, ?_, idle.symm, ?_⟩
    · simp [SpelledDeclarator.body, SpelledDeclarator.brackets]
    · simp [SpelledDeclarator.body, SpelledDeclarator.brackets]

/-! ## Lists of declarators -/

theorem declaratorList?_semicolon {text s' : List Char} (h : declaratorText? s = some (text, s'))
    (behind : s'.dropWhile isBlank = ';' :: rest) : declaratorList? s = some ([text], rest) := by
  unfold declaratorList?
  split
  · next none =>
    rw [none] at h
    cases h
  · next read =>
    cases h.symm.trans read
    split <;> simp_all

theorem declaratorList?_comma {text s' more : List Char} (h : declaratorText? s = some (text, s'))
    (behind : s'.dropWhile isBlank = ',' :: more) :
    declaratorList? s =
      (declaratorList? (more.dropWhile isBlank)).map
        fun (texts, rest) => (text :: texts, rest) := by
  conv_lhs => unfold declaratorList?
  split
  · next none =>
    rw [none] at h
    cases h
  · next read =>
    cases h.symm.trans read
    split <;> simp_all

theorem separated_listText (others : List (Blanks × SpelledDeclarator)) (rest : List Char) :
    Separated (Spelling.listText others ++ ';' :: rest) := by
  cases others with
  | nil => exact ⟨rest, .inr rfl⟩
  | cons other others => exact ⟨_, .inl rfl⟩

/-- What comes behind the blanks of a declarator. -/
theorem dropWhile_tail (d : SpelledDeclarator) (h : Separated rest) :
    (d.tail ++ rest).dropWhile isBlank = rest := by
  have blank : ∀ c ∈ d.tail, isBlank c := by
    obtain ⟨name, gap, size⟩ := d
    cases size with
    | some size => exact size.tail.2
    | none => exact fun c hc => by cases hc
  refine dropWhile_run blank fun c hc => ?_
  obtain ⟨s, rfl | rfl⟩ := h <;> cases hc <;> rfl

theorem not_isBlank_head_body (d : SpelledDeclarator) (rest : List Char) :
    ∀ c ∈ (d.body ++ rest).head?, isBlank c = false := by
  rw [SpelledDeclarator.body, List.append_assoc, List.append_assoc]
  exact not_isBlank_head_identifier d.name.2 _

/-- A list of declarators is read as it is spelled. -/
theorem declaratorList?_append (d : SpelledDeclarator)
    (others : List (Blanks × SpelledDeclarator)) (rest : List Char) :
    declaratorList? (d.body ++ (d.tail ++ (Spelling.listText others ++ ';' :: rest))) =
      some (d.body :: others.map (·.2.body), rest) := by
  induction others generalizing d with
  | nil =>
    have separated := separated_listText [] rest
    exact declaratorList?_semicolon (declaratorText?_append d separated)
      (dropWhile_tail d separated)
  | cons other others ih =>
    obtain ⟨lead, e⟩ := other
    have separated := separated_listText ((lead, e) :: others) rest
    have comma : Spelling.listText ((lead, e) :: others) ++ ';' :: rest =
        ',' :: (lead.1 ++ (e.body ++ (e.tail ++ (Spelling.listText others ++ ';' :: rest)))) := by
      simp [Spelling.listText]
    rw [declaratorList?_comma (declaratorText?_append d separated)
      ((dropWhile_tail d separated).trans comma),
      dropWhile_run lead.2 (not_isBlank_head_body e _), ih e]
    rfl

/-- What is read as a list of declarators is spelled as one. -/
theorem exists_declarators_of_declaratorList? {texts : List (List Char)}
    (h : declaratorList? s = some (texts, rest)) :
    ∃ (d : SpelledDeclarator) (others : List (Blanks × SpelledDeclarator)),
      texts = d.body :: others.map (·.2.body) ∧
      s = d.body ++ (d.tail ++ (Spelling.listText others ++ ';' :: rest)) := by
  fun_induction declaratorList? s generalizing texts with
  | case1 => cases h
  | case2 s text s' ht rest' hs =>
    cases h
    obtain ⟨d, rfl, hs', rfl⟩ := exists_declarator_of_declaratorText? ht
    refine ⟨d, [], rfl, ?_⟩
    rw [hs', hs]
    rfl
  | case3 s text s' ht more hs _ ih =>
    obtain ⟨⟨texts, rest'⟩, hr, heq⟩ := Option.map_eq_some_iff.mp h
    cases heq
    obtain ⟨d, rfl, hs', rfl⟩ := exists_declarator_of_declaratorText? ht
    obtain ⟨e, others, rfl, he⟩ := ih hr
    obtain ⟨lead, hm⟩ := exists_blanks more
    refine ⟨d, (lead, e) :: others, rfl, ?_⟩
    rw [hs', hs, hm, he]
    simp [Spelling.listText]
  | case4 => cases h

/-! ## Statements -/

theorem not_isIdentChar_head_gap (gap : Gap) (rest : List Char) :
    ∀ c ∈ (gap.1 ++ rest).head?, isIdentChar c = false := by
  obtain ⟨gap, nonempty, blank⟩ := gap
  cases gap with
  | nil => exact absurd rfl nonempty
  | cons b gap =>
    rintro c ⟨⟩
    exact not_isIdentChar_of_isBlank (blank b List.mem_cons_self)

theorem precision?_append (p : Precision) (gap : Gap)
    (stop : ∀ c ∈ rest.head?, isBlank c = false) :
    precision? (p.word.toList ++ (gap.1 ++ rest)) = some (p, rest) := by
  have own : afterPrefix? p.word.toList (p.word.toList ++ (gap.1 ++ rest)) = some (gap.1 ++ rest) :=
    afterPrefix?_append _ _
  have blanks := dropBlanks?_append gap stop
  cases p with
  | low => simp [precision?, Precision.all, own, blanks]
  | medium =>
    have low : afterPrefix? Precision.low.word.toList
        (Precision.medium.word.toList ++ (gap.1 ++ rest)) = none := rfl
    simp [precision?, Precision.all, low, own, blanks]
  | high =>
    have low : afterPrefix? Precision.low.word.toList
        (Precision.high.word.toList ++ (gap.1 ++ rest)) = none := rfl
    have medium : afterPrefix? Precision.medium.word.toList
        (Precision.high.word.toList ++ (gap.1 ++ rest)) = none := rfl
    simp [precision?, Precision.all, low, medium, own, blanks]

theorem exists_gap_of_precision? {p : Precision} (h : precision? s = some (p, rest)) :
    (∃ gap : Gap, s = p.word.toList ++ (gap.1 ++ rest)) ∧ ∀ c ∈ rest.head?, isBlank c = false := by
  obtain ⟨q, -, hq⟩ := List.exists_of_findSome?_eq_some h
  simp only [Option.bind_eq_bind, Option.bind_eq_some_iff, Option.some.injEq,
    Prod.mk.injEq] at hq
  obtain ⟨s₁, h₁, s₂, h₂, rfl, rfl⟩ := hq
  obtain ⟨⟨gap, rfl⟩, stop⟩ := exists_gap_of_dropBlanks? h₂
  exact ⟨⟨gap, afterPrefix?_eq_some_iff.mp h₁⟩, stop⟩

/-- The list of declarators that is spelled in front of the text `rest`. -/
def Spelling.listTail (w : Spelling) (rest : List Char) : List Char :=
  w.first.body ++ (w.first.tail ++ (listText w.others ++ ';' :: rest))

theorem typed?_append (w : Spelling) (rest : List Char) :
    typed? declaratorList? (w.type.1 ++ (w.typeGap.1 ++ w.listTail rest)) =
      some (w.type.1, w.declarators.map (·.body), rest) := by
  have type := takeIdentifier_append w.type.2
    (not_isIdentChar_head_gap w.typeGap (w.listTail rest))
  have gap : dropBlanks? (w.typeGap.1 ++ w.listTail rest) = some (w.listTail rest) :=
    dropBlanks?_append w.typeGap (not_isBlank_head_body w.first _)
  have list : declaratorList? (w.listTail rest) = some (w.declarators.map (·.body), rest) := by
    rw [Spelling.listTail, declaratorList?_append, Spelling.declarators, List.map_cons,
      List.map_map]
    rfl
  simp [typed?, type, gap, list]

/-- No list of declarators begins at a mark. -/
theorem declaratorList?_of_isMark {c : Char} (h : isMark c) (s : List Char) :
    declaratorList? (c :: s) = none := by
  have start : isIdentStart c = false :=
    not_isIdentStart_of_not_isIdentChar (not_isIdentChar_of_isMark h)
  have none : declaratorText? (c :: s) = none := by
    simp [declaratorText?, takeIdentifier, start]
  unfold declaratorList?
  split
  · rfl
  · next read =>
    rw [none] at read
    cases read

/-- Behind a name and blanks stands no further name, so the name is not read as a type. -/
theorem typed?_body (d : SpelledDeclarator) (h : Separated rest) :
    typed? declaratorList? (d.body ++ (d.tail ++ rest)) = none := by
  obtain ⟨c, s, mark, -, name⟩ := takeIdentifier_body d h
  have stop : ∀ b ∈ (c :: s).head?, isBlank b = false := by
    rintro b ⟨⟩
    exact not_isBlank_of_isMark mark
  have list := declaratorList?_of_isMark mark s
  by_cases empty : d.gap.1 = []
  · have gap : dropBlanks? (d.gap.1 ++ c :: s) = none := by
      rw [empty]
      exact if_neg (by simp [not_isBlank_of_isMark mark])
    simp [typed?, name, gap]
  · have gap := dropBlanks?_append ⟨d.gap.1, empty, d.gap.2⟩ stop
    simp [typed?, name, gap, list]

/-- A statement without a precision is not read as one with a precision, not even where its type
has the name of one. -/
theorem precision?_type (w : Spelling) {p : Precision}
    (h : precision? (w.type.1 ++ (w.typeGap.1 ++ w.listTail rest)) = some (p, s)) :
    s = w.listTail rest := by
  obtain ⟨⟨gap, hs⟩, stop⟩ := exists_gap_of_precision? h
  obtain ⟨-, behind⟩ := identifier_unique w.type.2 (isIdentifier_precision p)
    (not_isIdentChar_head_gap w.typeGap _) (not_isIdentChar_head_gap gap s) hs
  have drop := dropBlanks?_append w.typeGap (not_isBlank_head_body w.first
    (w.first.tail ++ (Spelling.listText w.others ++ ';' :: rest)))
  rw [← Spelling.listTail, behind, dropBlanks?_append gap stop] at drop
  exact Option.some_inj.mp drop

theorem qualified?_append (w : Spelling) (rest : List Char) :
    qualified? declaratorList?
        (Spelling.precisionText w.precision ++ (w.type.1 ++ (w.typeGap.1 ++ w.listTail rest))) =
      some (w.precision.map (·.1), w.type.1, w.declarators.map (·.body), rest) := by
  have typed := typed?_append w rest
  cases hp : w.precision with
  | some precision =>
    obtain ⟨p, gap⟩ := precision
    have read := precision?_append p gap
      (not_isBlank_head_identifier w.type.2 (w.typeGap.1 ++ w.listTail rest))
    rw [Spelling.precisionText, List.append_assoc, qualified?]
    simp [read, typed]
  | none =>
    rw [Spelling.precisionText, List.nil_append, qualified?]
    cases read : precision? (w.type.1 ++ (w.typeGap.1 ++ w.listTail rest)) with
    | none => simp [typed]
    | some found =>
      obtain ⟨p, s⟩ := found
      obtain rfl := precision?_type w read
      have none : typed? declaratorList? (w.listTail rest) = none :=
        typed?_body w.first (separated_listText w.others rest)
      simp [typed, none]

/-- What is read as a type with declarators is spelled so, whatever stands in front of it. -/
theorem exists_spelling_of_typed? {type : List Char} {texts : List (List Char)}
    (h : typed? declaratorList? s = some (type, texts, rest)) (gap : Gap)
    (precision : Option (Precision × Gap)) :
    ∃ w : Spelling, w.gap = gap ∧ w.precision = precision ∧ w.type.1 = type ∧
      w.declarators.map (·.body) = texts ∧
      s = w.type.1 ++ (w.typeGap.1 ++ w.listTail rest) := by
  simp only [typed?, Option.bind_eq_bind, Option.bind_eq_some_iff, Option.some.injEq,
    Prod.mk.injEq] at h
  obtain ⟨⟨name, s₁⟩, h₁, s₂, h₂, ⟨ts, r⟩, h₃, rfl, rfl, rfl⟩ := h
  obtain ⟨ident, rfl, -⟩ := takeIdentifier_eq_some h₁
  obtain ⟨⟨typeGap, hs₁⟩, -⟩ := exists_gap_of_dropBlanks? h₂
  obtain ⟨d, others, rfl, hs₂⟩ := exists_declarators_of_declaratorList? h₃
  refine ⟨⟨gap, precision, ⟨name, ident⟩, typeGap, d, others⟩, rfl, rfl, rfl, ?_, ?_⟩
  · rw [Spelling.declarators, List.map_cons, List.map_map]
    rfl
  · exact congrArg (name ++ ·) (hs₁.trans (congrArg (typeGap.1 ++ ·) hs₂))

theorem exists_spelling_of_qualified? {p : Option Precision} {type : List Char}
    {texts : List (List Char)} (h : qualified? declaratorList? s = some (p, type, texts, rest))
    (gap : Gap) :
    ∃ w : Spelling, w.gap = gap ∧ w.precision.map (·.1) = p ∧ w.type.1 = type ∧
      w.declarators.map (·.body) = texts ∧
      s = Spelling.precisionText w.precision ++ (w.type.1 ++ (w.typeGap.1 ++ w.listTail rest)) := by
  simp only [qualified?, Option.orElse_eq_orElse, Option.orElse_eq_or, Option.or_eq_some_iff,
    Option.bind_eq_bind, Option.bind_eq_some_iff, Option.map_eq_some_iff, Option.some.injEq,
    Prod.mk.injEq] at h
  rcases h with ⟨⟨q, s₁⟩, h₁, ⟨t, ts, r⟩, h₂, rfl, rfl, rfl, rfl⟩ |
    ⟨-, ⟨t, ts, r⟩, h₂, rfl, rfl, rfl, rfl⟩
  · obtain ⟨⟨behind, hs⟩, -⟩ := exists_gap_of_precision? h₁
    obtain ⟨w, hg, hp, ht, hd, rfl⟩ := exists_spelling_of_typed? h₂ gap (some (q, behind))
    refine ⟨w, hg, by rw [hp]; rfl, ht, hd, ?_⟩
    rw [hs, hp, Spelling.precisionText, List.append_assoc]
  · obtain ⟨w, hg, hp, ht, hd, rfl⟩ := exists_spelling_of_typed? h₂ gap none
    refine ⟨w, hg, by rw [hp]; rfl, ht, hd, ?_⟩
    rw [hp, Spelling.precisionText, List.nil_append]

/-- The text of a statement, part by part. -/
theorem Spelling.text_append (w : Spelling) (rest : List Char) :
    w.text ++ rest = w.gap.1 ++ (precisionText w.precision ++
      (w.type.1 ++ (w.typeGap.1 ++ w.listTail rest))) := by
  simp [text, listTail]

/-- Behind the blanks after the keyword stands a precision or a type. -/
theorem not_isBlank_head_qualifier (w : Spelling) (rest : List Char) :
    ∀ c ∈ (Spelling.precisionText w.precision ++ (w.type.1 ++ rest)).head?, isBlank c = false := by
  cases w.precision with
  | none => exact not_isBlank_head_identifier w.type.2 rest
  | some precision =>
    obtain ⟨p, gap⟩ := precision
    rw [Spelling.precisionText, List.append_assoc]
    exact not_isBlank_head_identifier (isIdentifier_precision p) _

/-- **A statement is read exactly where one is spelled.** -/
theorem statement?_eq_some_iff {word : List Char} {st : Statement} :
    statement? word s = some st ↔
      ∃ w : Spelling, s = word ++ (w.text ++ st.rest) ∧ st = w.statement st.rest := by
  constructor
  · intro h
    simp only [statement?, Option.bind_eq_bind, Option.bind_eq_some_iff, Option.some.injEq] at h
    obtain ⟨s₁, h₁, s₂, h₂, ⟨p, type, texts, rest⟩, h₃, rfl⟩ := h
    obtain ⟨⟨gap, rfl⟩, -⟩ := exists_gap_of_dropBlanks? h₂
    obtain ⟨w, rfl, rfl, rfl, rfl, rfl⟩ := exists_spelling_of_qualified? h₃ gap
    refine ⟨w, ?_, rfl⟩
    rw [w.text_append]
    exact afterPrefix?_eq_some_iff.mp h₁
  · rintro ⟨w, rfl, hst⟩
    have gap := dropBlanks?_append w.gap
      (not_isBlank_head_qualifier w (w.typeGap.1 ++ w.listTail st.rest))
    rw [w.text_append, statement?, afterPrefix?_append]
    simp only [Option.bind_eq_bind, Option.bind_some, gap, qualified?_append]
    exact congrArg some hst.symm

end Reading

end ShaderInterface.Declaration
