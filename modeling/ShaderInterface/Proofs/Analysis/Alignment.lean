import ShaderInterface.Proofs.Comment
import ShaderInterface.Proofs.Declaration.Position
import ShaderInterface.Proofs.Macro.Lines

/-!
# Lines stay where they are

Before declarations are looked for in a text, its comments are blanked and its macros are put in.
Neither moves a line: blanking writes over no line feed, and macros replace each line on its own
(`Macro.Table.lines_substitute`). So the line feeds in front of a declaration are those in front of
it in the text as it was written, and what trails it is looked for on a line of that text
(`lines_aligned`).
-/

namespace ShaderInterface

open Text

namespace Declaration

variable {s written : List Char} {keyword : Keyword} {keep : String → Bool} {d : Declaration}

/-- A declaration is found on one of the lines that the text as it was written has as well, and is
given the text that trails it there. -/
theorem exists_line_of_mem_scan (feeds : s.count '\n' = written.count '\n')
    (h : d ∈ scan s written keyword keep) :
    1 ≤ d.line ∧ d.line ≤ (lines written).length ∧
      ∃ line, (lines written)[d.line - 1]? = some line ∧
        d.trailing.toList = trailingText d.name.toList line := by
  obtain ⟨st, hst, hd⟩ := List.mem_flatMap.mp (List.mem_filter.mp h).1
  obtain ⟨⟨name, size⟩, -, rfl⟩ := List.mem_map.mp hd
  obtain ⟨before, cut, -, index⟩ := exists_eq_append_of_mem_statements hst
  have inside : linesBefore s st.rest < (lines written).length := by
    have front : before.count '\n' ≤ s.count '\n' :=
      (cut ▸ List.sublist_append_left before (';' :: st.rest)).count_le '\n'
    rw [index, lines, length_split]
    omega
  have line := List.getElem?_eq_getElem inside
  refine ⟨Nat.succ_pos _, inside, _, line, ?_⟩
  dsimp only
  rw [line, String.toList_ofList, String.toList_ofList]
  rfl

end Declaration

namespace Analysis

open Comment Declaration

/-- **Blanking comments and putting in macros keep every line where it is.** The macros that a text
defines have values without line feeds, so the text keeps its line feeds and each line is replaced
on its own, a directive by itself. Every declaration in it has the number of a line of the text as
it was written, and is given what trails it on that line. -/
theorem lines_aligned {s : List Char} {limit : Nat} {table : Macro.Table}
    (h : (Macro.Table.ofText (blank s) limit).outcome = .ok table) :
    (∀ name v, table.get? name = some v → '\n' ∉ v.render.toList) ∧
      (table.substitute (blank s)).count '\n' = s.count '\n' ∧
      (∀ k : Nat, (lines (table.substitute (blank s)))[k]? =
        (lines (blank s))[k]?.map table.substitute) ∧
      (∀ (k : Nat) (line : List Char), (lines (blank s))[k]? = some line →
        (trimLeft line).head? = some '#' →
        (lines (table.substitute (blank s)))[k]? = some line) ∧
      ∀ keyword keep, ∀ d ∈ scan (table.substitute (blank s)) s keyword keep,
        1 ≤ d.line ∧ d.line ≤ (lines s).length ∧ ∃ line, (lines s)[d.line - 1]? = some line ∧
          d.trailing.toList = trailingText d.name.toList line := by
  have inLine := Macro.Table.inLine_ofText h
  have replaced : ∀ k : Nat, (lines (table.substitute (blank s)))[k]? =
      (lines (blank s))[k]?.map table.substituteLine := fun k => by
    rw [Macro.Table.lines_substitute inLine, List.getElem?_map]
  have feeds : (table.substitute (blank s)).count '\n' = s.count '\n' := by
    have same := congrArg List.length (Macro.Table.lines_substitute inLine (blank s))
    rw [List.length_map, lines, lines, length_split, length_split] at same
    rw [Nat.succ.inj same, count_newline_of_forall₂ (forall₂_blank s)]
  refine ⟨inLine, feeds, fun k => ?_, fun k line hline directive => ?_, fun keyword keep d hd => ?_⟩
  · rw [replaced]
    refine Option.map_congr fun line hline => ?_
    have member := List.mem_of_getElem? hline
    exact (Macro.Table.substitute_line (not_mem_of_mem_split member)).symm
  · rw [replaced, hline, Option.map_some, Macro.Table.substituteLine, if_pos]
    exact beq_iff_eq.mpr directive
  · exact exists_line_of_mem_scan feeds hd

/-- A text whose first macro is put together from quoted texts and a macro that is defined two lines
below, behind a comment. -/
def chained : List Char :=
  ("#define TITLE 'a\\\\n' + \"//\" + N\n/* 1\n2 */ #define N (1 + 1)\n" ++
    "uniform vec4 u[N]; // TITLE N").toList

theorem lines_aligned_chained :
    ∃ table, (Macro.Table.ofText (blank chained) 64).outcome = .ok table ∧
      (table.get? "TITLE").map (·.render) = some "a\\n//2" ∧
      (∀ name v, table.get? name = some v → '\n' ∉ v.render.toList) ∧
      (table.substitute (blank chained)).count '\n' = 3 ∧
      (lines (table.substitute (blank chained)))[0]? =
        some "#define TITLE 'a\\\\n' + \"//\" + N".toList ∧
      ∀ d ∈ scan (table.substitute (blank chained)) chained .uniform,
        1 ≤ d.line ∧ d.line ≤ 4 ∧ ∃ line, (lines chained)[d.line - 1]? = some line ∧
          d.trailing.toList = trailingText d.name.toList line := by
  have title : (Macro.Table.ofText (blank chained) 64).outcome.toOption.map (fun table =>
      (table.get? "TITLE").map (·.render)) = some (some "a\\n//2") := by decide +kernel
  obtain ⟨table, resolved, title⟩ := Option.map_eq_some_iff.mp title
  have resolved := toOption_eq_some_iff.mp resolved
  obtain ⟨inLine, feeds, -, directives, declared⟩ := lines_aligned resolved
  refine ⟨table, resolved, title, inLine, feeds.trans (by decide), ?_, declared .uniform _⟩
  exact directives 0 _ (by decide +kernel) (by decide)

end Analysis

end ShaderInterface
