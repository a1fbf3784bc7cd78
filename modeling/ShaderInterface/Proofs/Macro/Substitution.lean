import Mathlib.Data.List.SplitBy
import ShaderInterface.Macro.Substitution
import ShaderInterface.Proofs.Text.Identifier
import ShaderInterface.Proofs.Text.Lines

/-!
# Substitution, part by part

A text is taken apart where one of two neighbours is a word character and the other is not
(`wordRuns_append`), and read in two wherever no word is cut (`flatMap_wordRuns_append`). So a text
is replaced word by word (`replace_word_append`), and what is no word stays as it is
(`replace_cons`). Where no line is a directive, that is all that substitution does
(`substitute_eq_replace`).
-/

namespace ShaderInterface.Macro.Table

open Text

variable {table : Table} {run a b s : List Char} {c : Char}

/-! ## Runs -/

@[simp] theorem wordRuns_nil : wordRuns [] = [] := rfl

/-- Runs end where word characters meet others. -/
theorem wordRuns_append
    (h : ∀ x ∈ a.getLast?, ∀ y ∈ b.head?, isWordChar x ≠ isWordChar y) :
    wordRuns (a ++ b) = wordRuns a ++ wordRuns b :=
  List.splitBy_append fun x hx y hy => beq_eq_false_iff_ne.mpr (h x hx y hy)

/-- Characters of one kind make one run. -/
theorem wordRuns_run {kind : Bool} (ne : run ≠ []) (same : ∀ c ∈ run, isWordChar c = kind) :
    wordRuns run = [run] := by
  refine List.splitBy_of_isChain ne (List.Pairwise.isChain ?_)
  refine List.pairwise_of_forall_mem_list fun x hx y hy => ?_
  rw [beq_iff_eq, same x hx, same y hy]

/-- A text that begins with no word character begins with what stands in front of its first word. -/
theorem exists_gap_before {y : Char} (hy : y ∈ b.head?) (noWord : isWordChar y = false) :
    ∃ gap back, b = gap ++ back ∧ gap ≠ [] ∧ (∀ c ∈ gap, isWordChar c = false) ∧
      ∀ c ∈ back.head?, isWordChar c := by
  have back : ∀ c ∈ (b.dropWhile (!isWordChar ·)).head?, isWordChar c := fun c hc => by
    simpa using stop_dropWhile (!isWordChar ·) b c hc
  have cut := List.takeWhile_append_dropWhile (p := (!isWordChar ·)) (l := b)
  refine ⟨_, _, cut.symm, fun none => ?_, fun c hc => ?_, back⟩
  · rw [none, List.nil_append] at cut
    rw [cut] at back
    rw [back y hy] at noWord
    cases noWord
  · simpa using List.mem_takeWhile_imp hc

/-- A text that ends with no word character ends with what follows its last word. -/
theorem exists_gap_behind {x : Char} (hx : x ∈ a.getLast?) (noWord : isWordChar x = false) :
    ∃ front gap, a = front ++ gap ∧ gap ≠ [] ∧ (∀ c ∈ gap, isWordChar c = false) ∧
      ∀ c ∈ front.getLast?, isWordChar c := by
  rw [← List.head?_reverse] at hx
  obtain ⟨gap, front, cut, ne, none, word⟩ := exists_gap_before hx noWord
  refine ⟨front.reverse, gap.reverse, ?_, ?_, ?_, ?_⟩
  · rw [← List.reverse_append, ← cut, List.reverse_reverse]
  · simpa using ne
  · simpa using none
  · simpa using word

section Parts

variable {β : Type} {f : List Char → List β}

/-- What stands between words can be cut anywhere, and each part is read on its own. -/
def Cuttable (f : List Char → List β) : Prop :=
  ∀ a b : List Char, (∀ c ∈ a ++ b, isWordChar c = false) → f (a ++ b) = f a ++ f b

/-- What stands between two words is read as one part. -/
theorem flatMap_wordRuns_gap (ne : run ≠ []) (gap : ∀ c ∈ run, isWordChar c = false)
    (front : ∀ x ∈ a.getLast?, isWordChar x) (back : ∀ y ∈ b.head?, isWordChar y) :
    (wordRuns (a ++ (run ++ b))).flatMap f =
      (wordRuns a).flatMap f ++ (f run ++ (wordRuns b).flatMap f) := by
  have before : ∀ x ∈ a.getLast?, ∀ y ∈ (run ++ b).head?, isWordChar x ≠ isWordChar y := by
    intro x hx y hy
    rw [List.head?_append_of_ne_nil run ne] at hy
    rw [front x hx, gap y (List.mem_of_mem_head? hy)]
    decide
  have behind : ∀ x ∈ run.getLast?, ∀ y ∈ b.head?, isWordChar x ≠ isWordChar y := by
    intro x hx y hy
    rw [gap x (List.mem_of_mem_getLast? hx), back y hy]
    decide
  rw [wordRuns_append before, wordRuns_append behind, wordRuns_run ne gap, List.flatMap_append,
    List.flatMap_append, List.flatMap_singleton]

/-- **A text is read in two where no word is cut.** -/
theorem flatMap_wordRuns_append (cuttable : Cuttable f)
    (ends : isBoundary a.getLast? ∨ isBoundary b.head?) :
    (wordRuns (a ++ b)).flatMap f = (wordRuns a).flatMap f ++ (wordRuns b).flatMap f := by
  by_cases parts : ∀ x ∈ a.getLast?, ∀ y ∈ b.head?, isWordChar x ≠ isWordChar y
  · rw [wordRuns_append parts, List.flatMap_append]
  -- The cut goes through what stands between the last word of `a` and the first word of `b`.
  push Not at parts
  obtain ⟨x, hx, y, hy, same⟩ := parts
  have noWord : isWordChar y = false := by
    rw [Option.mem_def.mp hx, Option.mem_def.mp hy, isBoundary_some, isBoundary_some, same] at ends
    simpa using ends
  obtain ⟨front, u, rfl, neU, gapU, word⟩ := exists_gap_behind hx (same.trans noWord)
  obtain ⟨v, back, rfl, neV, gapV, word'⟩ := exists_gap_before hy noWord
  have gap : ∀ c ∈ u ++ v, isWordChar c = false := fun c hc =>
    (List.mem_append.mp hc).elim (gapU c) (gapV c)
  have left := flatMap_wordRuns_gap (f := f) (b := []) neU gapU word nofun
  have right := flatMap_wordRuns_gap (f := f) (a := []) neV gapV nofun word'
  have ne : u ++ v ≠ [] := List.append_ne_nil_of_left_ne_nil neU v
  have whole := flatMap_wordRuns_gap (f := f) ne gap word word'
  simp only [List.append_nil, List.nil_append, wordRuns_nil, List.flatMap_nil] at left right
  rw [left, right, List.append_assoc front, ← List.append_assoc u, whole, cuttable u v gap]
  simp only [List.append_assoc]

/-- A character that is in no word is read on its own. -/
theorem flatMap_wordRuns_cons (cuttable : Cuttable f) (noWord : isWordChar c = false)
    (s : List Char) : (wordRuns (c :: s)).flatMap f = f [c] ++ (wordRuns s).flatMap f := by
  have alone : wordRuns [c] = [[c]] := rfl
  have cut := flatMap_wordRuns_append (a := [c]) (b := s) cuttable (.inl (by simpa using noWord))
  rwa [List.singleton_append, alone, List.flatMap_singleton] at cut

end Parts

/-- A text is nothing, or begins with a character that is in no word, or begins with a word. -/
@[elab_as_elim]
theorem wordInduction {motive : List Char → Prop} (nil : motive [])
    (other : ∀ c s, isWordChar c = false → motive s → motive (c :: s))
    (word : ∀ run s, run ≠ [] → (∀ c ∈ run, isWordChar c) → isBoundary s.head? → motive s →
      motive (run ++ s)) (s : List Char) : motive s := by
  induction h : s.length using Nat.strong_induction_on generalizing s with
  | h n ih =>
    subst h
    cases s with
    | nil => exact nil
    | cons c s =>
      cases hc : isWordChar c with
      | false => exact other c s hc (ih _ (Nat.lt_succ_self _) s rfl)
      | true =>
        have cut := List.takeWhile_append_dropWhile (p := isWordChar) (l := s)
        have shorter : (s.dropWhile isWordChar).length < (c :: s).length :=
          Nat.lt_succ_of_le (List.length_dropWhile_le _ _)
        rw [← cut, ← List.cons_append]
        refine word _ _ (List.cons_ne_nil _ _) (List.forall_mem_cons.mpr ⟨hc, fun d hd => ?_⟩) ?_
          (ih _ shorter _ rfl)
        · exact List.mem_takeWhile_imp hd
        · have stop := stop_dropWhile isWordChar s
          cases hs : (s.dropWhile isWordChar).head? with
          | none => rfl
          | some d => rw [isBoundary_some, stop d hs, Bool.not_false]

/-! ## Words -/

/-- A text with its macros replaced, also where a line is a directive. -/
def replace (table : Table) (s : List Char) : List Char := (wordRuns s).flatMap table.replaceRun

/-- What is in no word is no name. -/
theorem not_isIdentifier_of_no_word (none : ∀ c ∈ run, isWordChar c = false) :
    isIdentifier run = false := by
  cases run with
  | nil => rfl
  | cons c run =>
    rw [Bool.eq_false_iff]
    intro ident
    have first := isWordChar_of_isIdentChar (isIdentChar_of_mem ident c List.mem_cons_self)
    rw [none c List.mem_cons_self] at first
    cases first

theorem replaceRun_of_not_isIdentifier (other : isIdentifier run = false) :
    table.replaceRun run = run := by
  rw [replaceRun, other, if_neg Bool.false_ne_true]

theorem cuttable_replaceRun (table : Table) : Cuttable table.replaceRun := by
  have stays : ∀ {u : List Char}, (∀ c ∈ u, isWordChar c = false) → table.replaceRun u = u :=
    fun none => replaceRun_of_not_isIdentifier (not_isIdentifier_of_no_word none)
  intro a b none
  obtain ⟨left, right⟩ := List.forall_mem_append.mp none
  rw [stays none, stays left, stays right]

/-- A text is replaced in two parts where no word is cut. -/
theorem replace_append (ends : isBoundary a.getLast? ∨ isBoundary b.head?) :
    table.replace (a ++ b) = table.replace a ++ table.replace b :=
  flatMap_wordRuns_append (cuttable_replaceRun table) ends

/-- A word is replaced as a whole. -/
theorem replace_word (ne : run ≠ []) (word : ∀ c ∈ run, isWordChar c) :
    table.replace run = table.replaceRun run := by
  rw [replace, wordRuns_run ne word, List.flatMap_singleton]

/-- A word is replaced on its own, whatever follows it. -/
theorem replace_word_append (ne : run ≠ []) (word : ∀ c ∈ run, isWordChar c)
    (ends : isBoundary s.head?) :
    table.replace (run ++ s) = table.replaceRun run ++ table.replace s := by
  rw [replace_append (.inr ends), replace_word ne word]

/-- **A character that is in no word stays**, and parts the text. -/
theorem replace_cons (h : isWordChar c = false) (s : List Char) :
    table.replace (c :: s) = c :: table.replace s := by
  have other : isIdentifier [c] = false := not_isIdentifier_of_no_word (by simpa using h)
  rw [replace, flatMap_wordRuns_cons (cuttable_replaceRun table) h,
    replaceRun_of_not_isIdentifier other]
  rfl

/-- A character that is in no word parts the text. -/
theorem replace_append_cons (h : isWordChar c = false) (a b : List Char) :
    table.replace (a ++ c :: b) = table.replace a ++ c :: table.replace b := by
  rw [replace_append (.inr (by simpa using h)), replace_cons h]

/-- Where a text begins with no word, so does the text with its macros replaced. -/
theorem isBoundary_replace (h : isBoundary s.head?) : isBoundary (table.replace s).head? := by
  cases s with
  | nil => exact h
  | cons c s =>
    have noWord : isWordChar c = false := by simpa using h
    rw [replace_cons noWord]
    exact h

/-! ## Lines -/

theorem replace_unlines (table : Table) (ls : List (List Char)) :
    unlines (ls.map table.replace) = table.replace (unlines ls) := by
  have feed : isWordChar '\n' = false := not_isWordChar_of_isBlank (by decide)
  induction ls with
  | nil => rfl
  | cons l ls ih =>
    cases ls with
    | nil => simp
    | cons l' ls =>
      rw [List.map_cons, List.map_cons, unlines_cons_cons, ← List.map_cons, ih, unlines_cons_cons,
        replace_append_cons feed]

theorem replace_of_isEmpty (none : table.isEmpty) (s : List Char) : table.replace s = s := by
  have kept : ∀ run, table.replaceRun run = run := fun run => by
    have noValue : table.get? (String.ofList run) = Option.none := by
      rw [get?, Std.ExtTreeMap.isEmpty_iff.mp none, Std.ExtTreeMap.getElem?_empty]
    rw [replaceRun, noValue]
    split <;> rfl
  rw [replace, funext kept, List.flatMap_id', wordRuns, List.flatten_splitBy]

theorem substituteLine_of_isEmpty (none : table.isEmpty) (line : List Char) :
    table.substituteLine line = line := by
  rw [substituteLine]
  split
  · rfl
  · exact replace_of_isEmpty none line

/-- The lines of a text are replaced one by one. -/
theorem substitute_eq_unlines (table : Table) (s : List Char) :
    table.substitute s = unlines ((lines s).map table.substituteLine) := by
  rw [substitute]
  split
  · next none => rw [funext (substituteLine_of_isEmpty none), List.map_id', unlines_lines]
  · rfl

/-- No line is a directive in a text without a number sign. -/
theorem isDirective_eq_false (none : '#' ∉ s) : ∀ line ∈ lines s, isDirective line = false := by
  intro line hl
  by_contra directive
  have first : (trimLeft line).head? = some '#' := by simpa [Table.isDirective] using directive
  have mem := (line.dropWhile_sublist isBlank).mem (List.mem_of_mem_head? first)
  exact none (mem_of_mem_split hl mem)

/-- **Substitution replaces word by word** where no line is a directive. -/
theorem substitute_eq_replace (table : Table) (plain : ∀ line ∈ lines s, isDirective line = false) :
    table.substitute s = table.replace s := by
  have line : ∀ line ∈ lines s, table.substituteLine line = table.replace line := fun l hl => by
    rw [substituteLine, plain l hl]
    rfl
  rw [substitute_eq_unlines, List.map_congr_left line, replace_unlines, unlines_lines]

end ShaderInterface.Macro.Table
