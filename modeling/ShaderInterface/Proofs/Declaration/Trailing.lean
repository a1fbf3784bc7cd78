import ShaderInterface.Proofs.Comment
import ShaderInterface.Proofs.Declaration.Position
import ShaderInterface.Proofs.Interface.Naming
import ShaderInterface.Proofs.Text.Identifier
import ShaderInterface.Proofs.Text.Lines

/-!
# Which text trails a declaration

The text behind the semicolon that ends a statement is `restOfLine` at that semicolon. The text
that a declaration is given is not always this one: it is looked for on the line as it was
written, behind the first place at which the declared name stands alone, be that in a comment or in
another statement. It is the text behind the own semicolon exactly when the search reaches that
semicolon first (`trailing_scan`).
-/

namespace ShaderInterface.Declaration

open Comment Text

variable {name before rest : List Char}

/-! ## The search on a line -/

/-- The part of a line in which the search for a semicolon goes on: what follows the first place at
which the name stands alone, or the whole line. -/
def searched (name line : List Char) : List Char :=
  match findToken name line with
  | some (_, after) => after
  | none => line

/-- The text behind the first semicolon that the search for the name comes to. -/
theorem trailingText_eq (name line : List Char) :
    trailingText name line = behindSemicolon (searched name (dropReturns line)) := rfl

theorem searched_suffix (name line : List Char) : searched name line <:+ line := by
  unfold searched
  split
  · next found after h => exact ⟨found ++ name, (eq_append_of_findToken h).symm⟩
  · exact List.suffix_rfl

theorem dropReturns_append_cons {c : Char} (h : c ≠ '\r') (before rest : List Char) :
    dropReturns (before ++ c :: rest) = before ++ c :: dropReturns rest := by
  simp [dropReturns, List.dropWhile_append, h]

theorem trim_dropReturns (s : List Char) : trim (dropReturns s) = trim s := by
  have ends : s = dropReturns s ++ s.rtakeWhile (· == '\r') :=
    (List.rdropWhile_append_rtakeWhile (p := (· == '\r')) (l := s)).symm
  have returns : ∀ c ∈ s.rtakeWhile (· == '\r'), isBlank c := fun c hc => by
    have : c = '\r' := by simpa using List.mem_rtakeWhile_imp hc
    subst this
    decide
  conv_rhs => rw [ends, trim_append_of_blank _ returns]

/-- A search that comes to no semicolon is one for a name that stands behind the last of them. -/
theorem exists_isIdentChar_of_not_mem_searched (ident : isIdentifier name)
    (h : ';' ∉ searched name (before ++ ';' :: rest)) : ∃ c ∈ rest, isIdentChar c := by
  cases hf : findToken name (before ++ ';' :: rest) with
  | none => simp [searched, hf] at h
  | some found =>
    obtain ⟨front, after⟩ := found
    have noSemicolon : ';' ∉ name ++ after := by
      simp only [searched, hf] at h
      have inName : ';' ∉ name := fun hc => absurd (isIdentChar_of_mem ident ';' hc) (by decide)
      simp [inName, h]
    have whole : name ++ after <:+ before ++ ';' :: rest :=
      ⟨front, by simpa using (eq_append_of_findToken hf).symm⟩
    have behind : name ++ after <:+ rest := by
      rcases List.suffix_or_suffix_of_suffix whole (List.suffix_append before _) with hs | hs
      · rcases List.suffix_cons_iff.mp hs with heq | hs
        · simp [heq] at noSemicolon
        · exact hs
      · exact absurd (hs.subset List.mem_cons_self) noSemicolon
    cases name with
    | nil => simp [isIdentifier] at ident
    | cons c name =>
      exact ⟨c, behind.subset (by simp), isIdentChar_of_mem ident c List.mem_cons_self⟩

theorem behindSemicolon_append {gap : List Char} (h : ';' ∉ gap) (s : List Char) :
    behindSemicolon (gap ++ s) = behindSemicolon s := by
  have skip : ∀ c ∈ gap, (c != ';') = true := fun c hc => by
    simpa using ne_of_mem_of_not_mem hc h
  rw [behindSemicolon, List.dropWhile_append_of_pos skip, behindSemicolon]

theorem behindSemicolon_append_cons {gap : List Char} (h : ';' ∉ gap) (rest : List Char) :
    behindSemicolon (gap ++ ';' :: rest) = trim rest := by
  rw [behindSemicolon_append h]
  rfl

theorem behindSemicolon_of_not_mem {s : List Char} (h : ';' ∉ s) : behindSemicolon s = [] := by
  rw [← List.append_nil s, behindSemicolon_append h]
  rfl

/-- The text behind a semicolon of a line trails a name exactly when the search for the name comes
to this semicolon first. -/
theorem trailingText_eq_trim_iff (ident : isIdentifier name) :
    trailingText name (before ++ ';' :: rest) = trim rest ↔
      ∃ gap, ';' ∉ gap ∧
        searched name (dropReturns (before ++ ';' :: rest)) = gap ++ ';' :: dropReturns rest := by
  rw [trailingText_eq, dropReturns_append_cons (by decide), ← trim_dropReturns rest]
  generalize dropReturns rest = rest
  constructor
  · intro h
    by_cases hm : ';' ∈ searched name (before ++ ';' :: rest)
    · obtain ⟨gap, found, hs, hgap⟩ := List.eq_append_cons_of_mem hm
      rw [hs, behindSemicolon_append_cons hgap] at h
      -- trimming keeps the semicolons, and their number tells the ends of the line apart
      have count : found.count ';' = rest.count ';' := by
        rw [← count_trim (by decide) found, h, count_trim (by decide)]
      have end₁ : ';' :: found <:+ before ++ ';' :: rest := by
        have := searched_suffix name (before ++ ';' :: rest)
        rw [hs] at this
        exact (List.suffix_append gap _).trans this
      have end₂ : ';' :: rest <:+ before ++ ';' :: rest := List.suffix_append before _
      rw [eq_of_suffix_of_count_eq end₁ end₂ count] at hs
      exact ⟨gap, hgap, hs⟩
    · rw [behindSemicolon_of_not_mem hm, eq_comm, trim_eq_nil_iff] at h
      obtain ⟨c, hc, hi⟩ := exists_isIdentChar_of_not_mem_searched ident hm
      have := not_isBlank_of_isIdentChar hi
      simp [h c hc] at this
  · rintro ⟨gap, hgap, hs⟩
    rw [hs, behindSemicolon_append_cons hgap]

/-! ## The semicolon of a statement -/

/-- The line that holds the given place of a text. -/
def lineAt (s : List Char) (place : Nat) : List Char :=
  (s.take place).rtakeWhile (· != '\n') ++ (s.drop place).takeWhile (· != '\n')

/-- What stands on its line behind the given place of a text. -/
def restOfLine (s : List Char) (place : Nat) : List Char :=
  (s.drop (place + 1)).takeWhile (· != '\n')

theorem lineAt_append_cons {c : Char} (h : c ≠ '\n') (a b : List Char) :
    lineAt (a ++ c :: b) a.length =
      a.rtakeWhile (· != '\n') ++ c :: b.takeWhile (· != '\n') := by
  simp [lineAt, h]

theorem restOfLine_append_cons (c : Char) (a b : List Char) :
    restOfLine (a ++ c :: b) a.length = b.takeWhile (· != '\n') := by
  simp [restOfLine, List.drop_length_add_append]

/-- The search for the name on the line that holds the semicolon comes to this semicolon first. -/
def Reaches (name s : List Char) (semicolon : Nat) : Prop :=
  ∃ gap, ';' ∉ gap ∧
    searched name (dropReturns (lineAt s semicolon)) =
      gap ++ ';' :: dropReturns (restOfLine s semicolon)

theorem trailing_eq_trim_restOfLine_iff {s : List Char} {keyword : Keyword} {st : Statement}
    (hst : st ∈ statements keyword.word.toList (blank s)) {d : Declaration}
    (hd : d ∈ ofStatement keyword (blank s) (lines s) st) :
    let semicolon := st.semicolon (blank s)
    (blank s)[semicolon]? = some ';' ∧ s[semicolon]? = some ';' ∧
      (d.trailing.toList = trim (restOfLine s semicolon) ↔
        Reaches d.name.toList s semicolon) := by
  obtain ⟨before, hs, semicolon, index⟩ := exists_eq_append_of_mem_statements hst
  obtain ⟨a, b, rfl, length, newlines⟩ := exists_eq_append_of_blank_eq (by decide) hs
  obtain ⟨⟨name, size⟩, hn, rfl⟩ := List.mem_map.mp hd
  obtain ⟨text, -, hn⟩ := List.mem_filterMap.mp hn
  have line : (lines (a ++ ';' :: b))[linesBefore (blank (a ++ ';' :: b)) st.rest]? =
      some (lineAt (a ++ ';' :: b) a.length) := by
    rw [index, ← newlines, lines, getElem?_split_append, List.takeWhile_cons_of_pos (by decide),
      lineAt_append_cons (by decide)]
  have place : st.semicolon (blank (a ++ ';' :: b)) = a.length := semicolon.trans length.symm
  simp only [place, line, Option.map_some, Option.getD_some, String.toList_ofList]
  refine ⟨?_, ?_, ?_⟩
  · rw [hs, length]
    simp
  · simp
  · rw [Reaches, restOfLine_append_cons, lineAt_append_cons (by decide)]
    exact trailingText_eq_trim_iff (isIdentifier_of_declarator? hn)

/-- Declarations of one statement have the same trailing text where the searches for their names
come to its semicolon first. -/
theorem trailing_eq_of_reaches {s : List Char} {keyword : Keyword} {st : Statement}
    (hst : st ∈ statements keyword.word.toList (blank s)) {d d' : Declaration}
    (hd : d ∈ ofStatement keyword (blank s) (lines s) st)
    (hd' : d' ∈ ofStatement keyword (blank s) (lines s) st)
    (h : Reaches d.name.toList s (st.semicolon (blank s)))
    (h' : Reaches d'.name.toList s (st.semicolon (blank s))) : d.trailing = d'.trailing := by
  obtain ⟨-, -, own⟩ := trailing_eq_trim_restOfLine_iff hst hd
  obtain ⟨-, -, own'⟩ := trailing_eq_trim_restOfLine_iff hst hd'
  exact String.toList_injective ((own.mpr h).trans (own'.mpr h').symm)

/-- **A declaration is trailed by the text behind its own semicolon exactly when the search for its
name comes to that semicolon first.** Every declaration that is found belongs to a statement, and
the semicolon that ends the statement stands at one place of the blanked and of the written text.
The declarations of one statement for which this holds have the same trailing text. -/
theorem trailing_scan (s : List Char) (keyword : Keyword) (keep : String → Bool) :
    (∀ d ∈ scan (blank s) s keyword keep,
      ∃ st ∈ statements keyword.word.toList (blank s),
        d ∈ ofStatement keyword (blank s) (lines s) st) ∧
    ∀ st ∈ statements keyword.word.toList (blank s),
      ∀ d ∈ ofStatement keyword (blank s) (lines s) st,
        let semicolon := st.semicolon (blank s)
        (blank s)[semicolon]? = some ';' ∧ s[semicolon]? = some ';' ∧
          (d.trailing.toList = trim (restOfLine s semicolon) ↔
            Reaches d.name.toList s semicolon) ∧
          ∀ d' ∈ ofStatement keyword (blank s) (lines s) st,
            Reaches d.name.toList s semicolon → Reaches d'.name.toList s semicolon →
              d.trailing = d'.trailing := by
  refine ⟨fun d hd => ?_, fun st hst d hd => ?_⟩
  · exact List.mem_flatMap.mp (List.mem_filter.mp hd).1
  · obtain ⟨blanked, written, own⟩ := trailing_eq_trim_restOfLine_iff hst hd
    exact ⟨blanked, written, own, fun d' hd' => trailing_eq_of_reaches hst hd hd'⟩

/-- A text in which the declared name and a semicolon stand in a comment in front of the
declaration. -/
def misleading : List Char := "/* uA; */ uniform float uA; // {min: 0}".toList

/-- The statement of `misleading`. -/
def misled : Statement where
  precision := none
  type := "float".toList
  declarators := ["uA".toList]
  rest := List.replicate 12 ' '

/-- The declaration of `misleading`. -/
def misledDeclaration : Declaration where
  keyword := .uniform
  precision := none
  type := "float"
  name := "uA"
  size := none
  trailing := "*/ uniform float uA; // {min: 0}"
  line := 1

theorem statements_misleading :
    statements Keyword.uniform.word.toList (blank misleading) = [misled] := by decide +kernel

theorem ofStatement_misled :
    ofStatement .uniform (blank misleading) (lines misleading) misled = [misledDeclaration] := by
  decide +kernel

theorem restOfLine_misleading :
    trim (restOfLine misleading (misled.semicolon (blank misleading))) =
      "// {min: 0}".toList := by decide +kernel

theorem trailing_scan_misleading :
    misled ∈ statements Keyword.uniform.word.toList (blank misleading) ∧
      misledDeclaration ∈ ofStatement .uniform (blank misleading) (lines misleading) misled ∧
      ¬ Reaches "uA".toList misleading (misled.semicolon (blank misleading)) := by
  have statement : misled ∈ statements Keyword.uniform.word.toList (blank misleading) := by
    simp [statements_misleading]
  have declaration : misledDeclaration ∈
      ofStatement .uniform (blank misleading) (lines misleading) misled := by
    simp [ofStatement_misled]
  obtain ⟨-, -, reaches, -⟩ :=
    (trailing_scan misleading .uniform fun _ => true).2 misled statement _ declaration
  refine ⟨statement, declaration, fun h => ?_⟩
  have := reaches.mpr h
  rw [restOfLine_misleading] at this
  exact absurd this (by decide)

/-- The text behind the semicolon of a statement does not trail its declarations in every text. -/
theorem not_forall_trailing_eq :
    ¬ ∀ (s : List Char) (keyword : Keyword), ∀ d ∈ scan (blank s) s keyword,
      ∃ st ∈ statements keyword.word.toList (blank s),
        d ∈ ofStatement keyword (blank s) (lines s) st ∧
          d.trailing.toList = trim (restOfLine s (st.semicolon (blank s))) := by
  intro h
  have found : misledDeclaration ∈ scan (blank misleading) misleading .uniform := by
    simp [scan, statements_misleading, ofStatement_misled]
  obtain ⟨st, hst, -, trailing⟩ := h misleading .uniform _ found
  obtain rfl : st = misled := by simpa [statements_misleading] using hst
  rw [restOfLine_misleading] at trailing
  exact absurd trailing (by decide)

end ShaderInterface.Declaration
