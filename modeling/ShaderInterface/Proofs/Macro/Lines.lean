import ShaderInterface.Proofs.Macro.Rendering
import ShaderInterface.Proofs.Macro.Resolution
import ShaderInterface.Proofs.Macro.Spelling
import ShaderInterface.Proofs.Macro.Substitution

/-!
# Macros keep to their lines

A definition stands on one line, so its value text has no line feed. Neither has a token that is
read from it, nor what operations make of such values, nor a value to which definitions resolve
(`inLine_ofText`). So putting macros into a text replaces every line on its own, and no line comes
or goes (`lines_substitute`).
-/

namespace ShaderInterface.Macro

open Text

variable {names : Names} {s rest : List Char} {c : Char} {token : Token} {v : Literal}

/-! ## Values of one line -/

/-- The texts of all assigned values are on one line. -/
def Names.InLine (names : Names) : Prop := ∀ n v, names n = some v → v.InLine

theorem Applies.inLine {op : Op} {a b v : Literal} (h : Applies op a b v) (ha : a.InLine)
    (hb : b.InLine) : v.InLine := by
  have joined : ∀ {s t : String}, '\n' ∉ s.toList → '\n' ∉ t.toList →
      (Literal.str (s ++ t)).InLine := by
    intro s t hs ht
    show '\n' ∉ (s ++ t).toList
    rw [String.toList_append, List.mem_append, not_or]
    exact ⟨hs, ht⟩
  cases h with
  | ints => exact Literal.inLine_int _
  | textLeft | textRight => exact joined ha hb
  | floats | intFloat | floatInt => exact Literal.inLine_float _

theorem Negates.inLine {a v : Literal} (h : Negates a v) : v.InLine := by
  cases h with
  | int => exact Literal.inLine_int _
  | float => exact Literal.inLine_float _

theorem ofChar?_ne_str (c : Char) (value : String) : Token.ofChar? c ≠ some (.str value) := by
  unfold Token.ofChar?
  split
  · nofun
  split
  · nofun
  · cases Op.ofChar? c <;> nofun

/-- A quoted text holds characters of the text that it is read from only. -/
theorem mem_of_readToken_str {value : String} (h : readToken c s = .ok (.str value, rest)) :
    ∀ d ∈ value.toList, d ∈ s := by
  unfold readToken at h
  split at h
  · next start =>
    rcases exists_integerText_of_readNumber start h with ⟨_, _, -, -, -, h⟩ | ⟨_, h⟩ <;> cases h
  split at h
  · split at h
    · next quoted =>
      cases h
      rw [String.toList_ofList]
      exact mem_of_readQuoted quoted
    · cases h
  split at h
  · cases h
  split at h
  · next symbol =>
    cases h
    exact absurd symbol (ofChar?_ne_str c value)
  · cases h

/-- The tokens of a line are values of one line. -/
theorem inLine_of_readToken (h : readToken c s = .ok (token, rest)) (inLine : '\n' ∉ s)
    (hv : token.literal? = some v) : v.InLine := by
  rw [Literal.inLine_iff]
  rintro value rfl feed
  cases token <;> cases hv
  exact inLine (mem_of_readToken_str h '\n' feed)

/-- A line has a value of one line, where the assigned values are. -/
theorem inLine_eval (fit : names.Fit) (hn : names.InLine) (inLine : '\n' ∉ s)
    (h : eval names s = .ok v) : v.InLine := by
  obtain ⟨tokens, read, e, derives, -, value⟩ := eval_eq_ok_iff_worth.mp h
  have literals : ∀ t ∈ tokens, ∀ v, t.literal? = some v → v.InLine :=
    forall_mem_lex (fun c t _ _ ends read _ hv => inLine_of_readToken read
      (fun feed => inLine (ends.subset (List.mem_cons_of_mem c feed))) hv) read
  exact derives.keeps Applies.inLine (fun neg _ => neg.inLine) hn literals
    ((derives.hasValue_iff fit (lex_fits read)).mpr value)

/-! ## Definitions -/

theorem dropGaps?_suffix (h : dropGaps? s = some rest) : rest <:+ s := by
  cases s with
  | nil => cases h
  | cons c s =>
    obtain ⟨-, h⟩ := Option.ite_none_right_eq_some.mp h
    cases h
    exact (List.dropWhile_suffix isGap).trans (List.suffix_cons c s)

theorem dropReturn_sublist (s : List Char) : (dropReturn s).Sublist s := by
  rw [dropReturn]
  split
  · exact List.dropLast_sublist s
  · exact List.Sublist.refl s

theorem valueText?_sublist {value : List Char} (h : valueText? s = some value) :
    value.Sublist s := by
  obtain ⟨-, h⟩ := Option.ite_none_left_eq_some.mp h
  obtain ⟨-, h⟩ := Option.ite_none_left_eq_some.mp h
  cases h
  exact (trim_sublist _).trans (dropReturn_sublist s)

/-- The value of a definition is part of its line. -/
theorem definitionOfLine?_sublist {line name value : List Char}
    (h : definitionOfLine? line = some (name, value)) : value.Sublist line := by
  simp only [definitionOfLine?, Option.bind_eq_bind, Option.bind_eq_some_iff, Option.some.injEq,
    Prod.mk.injEq] at h
  obtain ⟨s₁, h₁, s₂, h₂, s₃, h₃, ⟨name', s₄⟩, h₄, s₅, h₅, value', h₆, -, rfl⟩ := h
  have sign : s₁ <:+ line := (afterPrefix?_suffix h₁).trans (List.dropWhile_suffix isGap)
  have word : s₂ <:+ s₁ := (afterPrefix?_suffix h₂).trans (List.dropWhile_suffix isGap)
  have name : s₅ <:+ s₂ := (dropGaps?_suffix h₅).trans <|
    (takeIdentifier_suffix h₄).trans (dropGaps?_suffix h₃)
  exact (valueText?_sublist h₆).trans ((name.trans (word.trans sign)).sublist)

theorem newline_not_mem_value {d : Definition} (h : d ∈ definitions s) : '\n' ∉ d.value.toList := by
  obtain ⟨⟨line, index⟩, hline, hd⟩ := List.mem_filterMap.mp h
  obtain ⟨⟨name, value⟩, read, rfl⟩ := Option.map_eq_some_iff.mp hd
  have member : line ∈ lines s := (List.mem_zipIdx' hline).2 ▸ List.getElem_mem _
  rw [String.toList_ofList]
  exact fun feed => not_mem_of_mem_split member ((definitionOfLine?_sublist read).subset feed)

namespace Table

variable {table : Table} {all : List Definition} {limit : Nat}

theorem Found.inLine (h : Found all table) (values : ∀ d ∈ all, '\n' ∉ d.value.toList) :
    Names.InLine table.get? :=
  h.keeps fun found ih hd hv => inLine_eval found.fit ih (values _ hd) hv

/-- **The macros that a text defines are values of one line.** -/
theorem inLine_ofText (h : (ofText s limit).outcome = .ok table) : Names.InLine table.get? := by
  have found := (awaits_nil_of_run (outcome_ofText_eq_ok_iff.mp h) (awaits_effective _)).found
  exact found.inLine fun d hd =>
    newline_not_mem_value (name_of_latest? (mem_effective_iff.mp hd)).1

/-! ## Line by line -/

variable {line run : List Char}

theorem newline_not_mem_replaceRun (inLine : Names.InLine table.get?) (h : '\n' ∉ run) :
    '\n' ∉ table.replaceRun run := by
  rw [replaceRun]
  split
  · split
    · next v hv => exact inLine _ v hv
    · exact h
  · exact h

theorem newline_not_mem_substituteLine (inLine : Names.InLine table.get?) (h : '\n' ∉ line) :
    '\n' ∉ table.substituteLine line := by
  rw [substituteLine]
  split
  · exact h
  · rw [List.mem_flatMap]
    rintro ⟨run, hrun, feed⟩
    have part : '\n' ∉ run := fun hc =>
      h (List.flatten_splitBy _ line ▸ List.mem_flatten_of_mem hrun hc)
    exact newline_not_mem_replaceRun inLine part feed

/-- **Putting macros into a text replaces its lines one by one**, where their values are on one
line. -/
theorem lines_substitute (inLine : Names.InLine table.get?) (s : List Char) :
    lines (table.substitute s) = (lines s).map table.substituteLine := by
  have alone : ∀ line ∈ lines s, lines (table.substituteLine line) = [table.substituteLine line] :=
    fun line hline => lines_of_not_mem <|
      newline_not_mem_substituteLine inLine (not_mem_of_mem_split hline)
  rw [substitute_eq_unlines, lines_unlines (by simpa [lines] using split_ne_nil '\n' s),
    List.flatMap_map, List.flatMap_congr alone, ← List.map_eq_flatMap]

/-- A line on its own is replaced as a line of a text. -/
theorem substitute_line (h : '\n' ∉ line) : table.substitute line = table.substituteLine line := by
  rw [substitute_eq_unlines, lines_of_not_mem h, List.map_singleton, unlines_singleton]

end Table

end ShaderInterface.Macro
