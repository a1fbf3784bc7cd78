import Mathlib.Data.List.Infix
import ShaderInterface.Declaration.Scan
import ShaderInterface.Proofs.Text.Identifier

/-!
# Where a statement ends

Each reader leaves an end of the text it reads: what is left of a declaration list, a statement
and a scan follows the semicolon that ends the statement (`semicolon_suffix_of_mem_statements`).
`Statement.semicolon` is the place of that semicolon.
-/

namespace ShaderInterface.Declaration

open Text

variable {s rest : List Char}

theorem dropBlanks?_suffix (h : dropBlanks? s = some rest) : rest <:+ s := by
  cases s with
  | nil => simp [dropBlanks?] at h
  | cons c s =>
    simp only [dropBlanks?, Option.ite_none_right_eq_some, Option.some.injEq] at h
    obtain ⟨-, rfl⟩ := h
    exact (List.dropWhile_suffix isBlank).trans (List.suffix_cons c s)

theorem precision?_suffix {p : Precision} (h : precision? s = some (p, rest)) : rest <:+ s := by
  obtain ⟨q, -, hq⟩ := List.exists_of_findSome?_eq_some h
  simp only [Option.bind_eq_bind, Option.bind_eq_some_iff, Option.some.injEq,
    Prod.mk.injEq] at hq
  obtain ⟨s₁, h₁, s₂, h₂, -, rfl⟩ := hq
  exact (dropBlanks?_suffix h₂).trans (afterPrefix?_suffix h₁)

theorem bracketed?_suffix {size : List Char} (h : bracketed? s = some (size, rest)) :
    rest <:+ s := by
  unfold bracketed? at h
  split at h
  · next s =>
    simp only at h
    split at h
    · next rest' hr =>
      cases h
      have inner : ']' :: rest <:+ s := hr ▸ List.dropWhile_suffix _
      exact (List.suffix_cons ']' rest).trans (inner.trans (List.suffix_cons '[' s))
    · cases h
  · cases h

theorem declaratorText?_suffix {text : List Char} (h : declaratorText? s = some (text, rest)) :
    rest <:+ s := by
  simp only [declaratorText?, Option.bind_eq_bind, Option.bind_eq_some_iff] at h
  obtain ⟨⟨name, s₁⟩, h₁, h⟩ := h
  have blanks : s₁.dropWhile isBlank <:+ s :=
    (List.dropWhile_suffix isBlank).trans (takeIdentifier_suffix h₁)
  dsimp only at h
  split at h
  · next hb =>
    cases h
    exact (bracketed?_suffix hb).trans blanks
  · cases h
    exact blanks

/-- What is left of a list of declarators follows its semicolon. -/
theorem semicolon_suffix_of_declaratorList? {texts : List (List Char)}
    (h : declaratorList? s = some (texts, rest)) : ';' :: rest <:+ s := by
  fun_induction declaratorList? s generalizing texts with
  | case1 => cases h
  | case2 s text s' ht rest' hs =>
    cases h
    exact hs ▸ (List.dropWhile_suffix isBlank).trans (declaratorText?_suffix ht)
  | case3 s text s' ht more hs hlt ih =>
    obtain ⟨⟨ts, r⟩, hr, heq⟩ := Option.map_eq_some_iff.mp h
    cases heq
    have comma : ',' :: more <:+ s :=
      hs ▸ (List.dropWhile_suffix isBlank).trans (declaratorText?_suffix ht)
    exact (ih hr).trans <| (List.dropWhile_suffix isBlank).trans <|
      (List.suffix_cons ',' more).trans comma
  | case4 => cases h

theorem semicolon_suffix_of_typed? {type : List Char} {texts : List (List Char)}
    (h : typed? declaratorList? s = some (type, texts, rest)) : ';' :: rest <:+ s := by
  simp only [typed?, Option.bind_eq_bind, Option.bind_eq_some_iff, Option.some.injEq,
    Prod.mk.injEq] at h
  obtain ⟨⟨name, s₁⟩, h₁, s₂, h₂, ⟨ts, r⟩, h₃, -, -, rfl⟩ := h
  exact (semicolon_suffix_of_declaratorList? h₃).trans <|
    (dropBlanks?_suffix h₂).trans (takeIdentifier_suffix h₁)

theorem semicolon_suffix_of_qualified? {p : Option Precision} {type : List Char}
    {texts : List (List Char)} (h : qualified? declaratorList? s = some (p, type, texts, rest)) :
    ';' :: rest <:+ s := by
  simp only [qualified?, Option.orElse_eq_orElse, Option.orElse_eq_or, Option.or_eq_some_iff,
    Option.bind_eq_bind, Option.bind_eq_some_iff, Option.map_eq_some_iff, Option.some.injEq,
    Prod.mk.injEq] at h
  rcases h with ⟨⟨q, s₁⟩, h₁, ⟨t, ts, r⟩, h₂, -, -, rfl, rfl⟩ | ⟨-, ⟨t, ts, r⟩, h₂, -, -, rfl, rfl⟩
  · exact (semicolon_suffix_of_typed? h₂).trans (precision?_suffix h₁)
  · exact semicolon_suffix_of_typed? h₂

theorem semicolon_suffix_of_statement? {word : List Char} {st : Statement}
    (h : statement? word s = some st) : ';' :: st.rest <:+ s := by
  simp only [statement?, Option.bind_eq_bind, Option.bind_eq_some_iff, Option.some.injEq] at h
  obtain ⟨s₁, h₁, s₂, h₂, ⟨p, type, texts, rest⟩, h₃, rfl⟩ := h
  exact (semicolon_suffix_of_qualified? h₃).trans <|
    (dropBlanks?_suffix h₂).trans (afterPrefix?_suffix h₁)

theorem semicolon_suffix_of_mem_statementsFrom {word : List Char} {previous : Option Char}
    {st : Statement} (h : st ∈ statementsFrom word previous s) : ';' :: st.rest <:+ s := by
  fun_induction statementsFrom word previous s with
  | case1 => cases h
  | case2 previous c s st' hst hle ih =>
    obtain ⟨-, hst⟩ := Option.ite_none_right_eq_some.mp hst
    have first := semicolon_suffix_of_statement? hst
    rcases List.mem_cons.mp h with rfl | h
    · exact first
    · exact (ih h).trans ((List.suffix_cons ';' st'.rest).trans first)
  | case3 previous c s hst ih => exact (ih h).trans (List.suffix_cons c s)

/-- The text behind a statement follows a semicolon of the text that was scanned. -/
theorem semicolon_suffix_of_mem_statements {word : List Char} {st : Statement}
    (h : st ∈ statements word s) : ';' :: st.rest <:+ s :=
  semicolon_suffix_of_mem_statementsFrom h

/-- The place in the text `s` of the semicolon that ends the statement. -/
def Statement.semicolon (st : Statement) (s : List Char) : Nat := s.length - st.rest.length - 1

/-- The text cut at the semicolon of a statement. -/
theorem exists_eq_append_of_mem_statements {word : List Char} {st : Statement}
    (h : st ∈ statements word s) :
    ∃ before, s = before ++ ';' :: st.rest ∧ st.semicolon s = before.length ∧
      linesBefore s st.rest = before.count '\n' := by
  obtain ⟨before, hs⟩ := semicolon_suffix_of_mem_statements h
  refine ⟨before, hs.symm, ?_, ?_⟩
  · rw [Statement.semicolon, ← hs, List.length_append, List.length_cons]
    omega
  · rw [linesBefore, ← hs, List.count_append, List.count_cons_of_ne (by decide),
      Nat.add_sub_cancel]

end ShaderInterface.Declaration
