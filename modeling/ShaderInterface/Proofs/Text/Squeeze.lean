import ShaderInterface.Proofs.Text.Lines

/-!
# Texts with single spaces

`collapse` puts one space for each run of blanks. What is squeezed is collapsed and trimmed
(`squeeze_eq_trim`), and the two sides of a character that is not blank are collapsed each on its
own (`collapse_append`); so a text can be cut at separators before or after it is squeezed
(`map_trim_split_squeeze`).
-/

namespace ShaderInterface.Text

variable {a b s : List Char} {c sep : Char}

/-! ## Runs of blanks -/

/-- The text with one space for each run of blanks; `behind` says that the text stands behind a
blank, and then its first run is left out. -/
def collapseFrom (behind : Bool) : List Char → List Char
  | [] => []
  | c :: s =>
    if isBlank c then
      if behind then collapseFrom true s else ' ' :: collapseFrom true s
    else c :: collapseFrom false s

/-- The text with one space for each run of blanks. -/
def collapse (s : List Char) : List Char := collapseFrom false s

theorem collapseFrom_of_stop (stop : ∀ c ∈ s.head?, isBlank c = false) (behind : Bool) :
    collapseFrom behind s = collapse s := by
  cases s with
  | nil => rfl
  | cons c s => simp [collapse, collapseFrom, stop c rfl]

/-- Behind a blank the first blanks of a text are left out. -/
theorem collapseFrom_true (s : List Char) :
    collapseFrom true s = collapse (s.dropWhile isBlank) := by
  induction s with
  | nil => rfl
  | cons c s ih =>
    rw [List.dropWhile_cons, collapseFrom]
    split
    · exact ih
    · next blank => rw [collapse, collapseFrom, if_neg blank]

theorem collapseFrom_append (behind : Bool) (a : List Char)
    (stop : ∀ c ∈ b.head?, isBlank c = false) :
    collapseFrom behind (a ++ b) = collapseFrom behind a ++ collapse b := by
  induction a generalizing behind with
  | nil => exact collapseFrom_of_stop stop behind
  | cons c a ih =>
    rw [List.cons_append, collapseFrom, collapseFrom, ih, ih]
    split
    · split <;> rfl
    · rfl

/-- A text is collapsed on both sides of a character that is not blank. -/
theorem collapse_append (a : List Char) (stop : ∀ c ∈ b.head?, isBlank c = false) :
    collapse (a ++ b) = collapse a ++ collapse b := collapseFrom_append false a stop

theorem collapse_cons_of_not_isBlank (h : isBlank c = false) (s : List Char) :
    collapse (c :: s) = c :: collapse s := by
  rw [collapse, collapseFrom, h]
  rfl

/-- A run of characters that are not blank is collapsed to itself, whatever follows. -/
theorem collapse_word_append {w : List Char} (word : ∀ c ∈ w, isBlank c = false) (s : List Char) :
    collapse (w ++ s) = w ++ collapse s := by
  induction w with
  | nil => rfl
  | cons c w ih =>
    obtain ⟨first, others⟩ := List.forall_mem_cons.mp word
    rw [List.cons_append, collapse_cons_of_not_isBlank first, ih others, List.cons_append]

theorem collapseFrom_of_isBlank (h : ∀ c ∈ s, isBlank c) : collapseFrom true s = [] := by
  induction s with
  | nil => rfl
  | cons c s ih =>
    obtain ⟨first, others⟩ := List.forall_mem_cons.mp h
    rw [collapseFrom, if_pos first, if_pos rfl, ih others]

/-- Blanks collapse to a space, or to nothing. -/
theorem isBlank_of_mem_collapse (h : ∀ c ∈ s, isBlank c) : ∀ c ∈ collapse s, isBlank c := by
  cases s with
  | nil => exact List.forall_mem_nil _
  | cons c s =>
    obtain ⟨first, others⟩ := List.forall_mem_cons.mp h
    rw [collapse, collapseFrom, if_pos first, if_neg Bool.false_ne_true,
      collapseFrom_of_isBlank others]
    simpa using (by decide : isBlank ' ')

/-- A collapsed text has the characters of the text, but that its blanks are spaces. -/
theorem mem_of_mem_collapseFrom {behind : Bool} (h : c ∈ collapseFrom behind s) :
    c = ' ' ∨ isBlank c = false ∧ c ∈ s := by
  induction s generalizing behind with
  | nil => cases h
  | cons d s ih =>
    rw [collapseFrom] at h
    have later {behind : Bool} (h : c ∈ collapseFrom behind s) :
        c = ' ' ∨ isBlank c = false ∧ c ∈ d :: s :=
      (ih h).imp_right fun ⟨blank, mem⟩ => ⟨blank, List.mem_cons_of_mem _ mem⟩
    split at h
    · split at h
      · exact later h
      · exact (List.mem_cons.mp h).elim .inl later
    · next blank =>
      rcases List.mem_cons.mp h with rfl | h
      · exact .inr ⟨by simpa using blank, List.mem_cons_self⟩
      · exact later h

/-! ## Squeezed texts -/

theorem trimRight_cons (c : Char) (s : List Char) :
    trimRight (c :: s) = if isBlank c ∧ trimRight s = [] then [] else c :: trimRight s := by
  rw [trimRight, List.reverse_cons, List.dropWhile_append, trimRight]
  cases behind : s.reverse.dropWhile isBlank with
  | nil => cases blank : isBlank c <;> simp [blank]
  | cons d t => simp

theorem intercalate_cons (w : List Char) (ws : List (List Char)) :
    [' '].intercalate (w :: ws) = w ++ ws.flatMap (' ' :: ·) := by
  induction ws generalizing w with
  | nil => simp [List.intercalate]
  | cons v ws ih =>
    have more := ih v
    simp only [List.intercalate, List.intersperse_cons_cons, List.flatten_cons] at more ⊢
    simp [more]

theorem wordAndRest_cons_of_isBlank (h : isBlank c) (s : List Char) :
    wordAndRest (c :: s) = ([], words s) := by
  simp [wordAndRest, words, h]

theorem wordAndRest_cons_of_not_isBlank (h : isBlank c = false) (s : List Char) :
    wordAndRest (c :: s) = (c :: (wordAndRest s).1, (wordAndRest s).2) := by
  simp [wordAndRest, h]

theorem words_cons_of_isBlank (h : isBlank c) (s : List Char) : words (c :: s) = words s := by
  rw [words, wordAndRest_cons_of_isBlank h]
  rfl

theorem squeeze_cons_of_not_isBlank (h : isBlank c = false) (s : List Char) :
    squeeze (c :: s) = c :: ((wordAndRest s).1 ++ (wordAndRest s).2.flatMap (' ' :: ·)) := by
  rw [squeeze, words, wordAndRest_cons_of_not_isBlank h]
  exact intercalate_cons _ _

/-- The text without the blanks at its end, collapsed: its first word, and a space in front of each
further word. -/
theorem trimRight_collapseFrom (s : List Char) :
    trimRight (collapseFrom true s) = squeeze s ∧
      trimRight (collapse s) = (wordAndRest s).1 ++ (wordAndRest s).2.flatMap (' ' :: ·) := by
  induction s with
  | nil => exact ⟨rfl, rfl⟩
  | cons c s ih =>
    obtain ⟨behind, front⟩ := ih
    cases blank : isBlank c with
    | true =>
      rw [collapse, collapseFrom, collapseFrom, if_pos blank, if_pos rfl, if_pos blank,
        if_neg Bool.false_ne_true, trimRight_cons, behind, squeeze, squeeze,
        words_cons_of_isBlank blank, wordAndRest_cons_of_isBlank blank]
      refine ⟨rfl, ?_⟩
      cases found : words s with
      | nil => rfl
      | cons w ws =>
        have ne : w ≠ [] := ne_nil_of_mem_words (found ▸ List.mem_cons_self)
        rw [intercalate_cons]
        simp [ne]
    | false =>
      rw [squeeze_cons_of_not_isBlank blank, collapse_cons_of_not_isBlank blank, collapseFrom,
        blank, if_neg Bool.false_ne_true]
      have cons : trimRight (c :: collapse s) =
          c :: ((wordAndRest s).1 ++ (wordAndRest s).2.flatMap (' ' :: ·)) := by
        rw [trimRight_cons, blank, if_neg (by simp), front]
      refine ⟨cons, cons.trans ?_⟩
      rw [wordAndRest_cons_of_not_isBlank blank]
      rfl

theorem trimLeft_collapse (s : List Char) : trimLeft (collapse s) = collapseFrom true s := by
  have front (s : List Char) : trimLeft (collapseFrom true s) = collapseFrom true s := by
    induction s with
    | nil => rfl
    | cons c s ih =>
      rw [collapseFrom]
      split
      · exact ih
      · next first => exact List.dropWhile_cons_of_neg first
  cases s with
  | nil => rfl
  | cons c s =>
    cases blank : isBlank c with
    | true =>
      rw [collapse, collapseFrom, collapseFrom, if_pos blank, if_pos blank]
      exact front s
    | false =>
      rw [← collapseFrom_of_stop (by rintro d ⟨⟩; exact blank) true]
      exact front (c :: s)

/-- **What is squeezed is collapsed and trimmed.** -/
theorem squeeze_eq_trim (s : List Char) : squeeze s = trim (collapse s) := by
  rw [trim, trimLeft_collapse, (trimRight_collapseFrom s).1]

theorem squeeze_append_of_isBlank {lead : List Char} (h : ∀ c ∈ lead, isBlank c) (s : List Char) :
    squeeze (lead ++ s) = squeeze s := by
  induction lead with
  | nil => rfl
  | cons c lead ih =>
    obtain ⟨first, others⟩ := List.forall_mem_cons.mp h
    rw [List.cons_append, squeeze, words_cons_of_isBlank first]
    exact ih others

theorem squeeze_of_isBlank (h : ∀ c ∈ s, isBlank c) : squeeze s = [] := by
  rw [← List.append_nil s, squeeze_append_of_isBlank h]
  rfl

theorem not_isBlank_head_squeeze (s : List Char) : ∀ c ∈ (squeeze s).head?, isBlank c = false := by
  induction s with
  | nil => simp [squeeze, words, wordAndRest, consWord, List.intercalate]
  | cons d s ih =>
    cases blank : isBlank d with
    | true =>
      rw [squeeze, words_cons_of_isBlank blank]
      exact ih
    | false =>
      rw [squeeze_cons_of_not_isBlank blank]
      rintro c ⟨⟩
      exact blank

theorem wordAndRest_append {w : List Char} (h : ∀ c ∈ w, isBlank c = false) (s : List Char) :
    wordAndRest (w ++ s) = (w ++ (wordAndRest s).1, (wordAndRest s).2) := by
  induction w with
  | nil => rfl
  | cons c w ih =>
    obtain ⟨first, others⟩ := List.forall_mem_cons.mp h
    rw [List.cons_append, wordAndRest_cons_of_not_isBlank first, ih others]
    rfl

/-- Blanks at the end of a text are squeezed to nothing. -/
theorem squeeze_append_blanks {tail : List Char} (h : ∀ c ∈ tail, isBlank c) (s : List Char) :
    squeeze (s ++ tail) = squeeze s := by
  have same : wordAndRest (s ++ tail) = wordAndRest s := by
    induction s with
    | nil =>
      induction tail with
      | nil => rfl
      | cons c tail ih =>
        obtain ⟨first, others⟩ := List.forall_mem_cons.mp h
        have rest : wordAndRest tail = ([], []) := ih others
        rw [List.nil_append, wordAndRest_cons_of_isBlank first, words, rest]
        rfl
    | cons c s ih => rw [List.cons_append, wordAndRest, wordAndRest, ih]
  rw [squeeze, squeeze, words, words, same]

/-- A word with a gap behind it is squeezed to the word and a space, where more follows. -/
theorem squeeze_word_append {w gap : List Char} (ne : w ≠ []) (word : ∀ c ∈ w, isBlank c = false)
    (ne' : gap ≠ []) (blank : ∀ c ∈ gap, isBlank c) (more : squeeze s ≠ []) :
    squeeze (w ++ (gap ++ s)) = w ++ ' ' :: squeeze s := by
  obtain ⟨c, gap, rfl⟩ := List.exists_cons_of_ne_nil ne'
  obtain ⟨first, others⟩ := List.forall_mem_cons.mp blank
  have behind : wordAndRest (c :: gap ++ s) = ([], words (gap ++ s)) :=
    wordAndRest_cons_of_isBlank first (gap ++ s)
  have same : squeeze (gap ++ s) = squeeze s := squeeze_append_of_isBlank others s
  rw [← same] at more ⊢
  rw [squeeze, words, wordAndRest_append word, behind, List.append_nil]
  show [' '].intercalate (consWord w (words (gap ++ s))) = _
  rw [consWord, if_neg (by simpa using ne), intercalate_cons]
  rw [squeeze] at more ⊢
  cases found : words (gap ++ s) with
  | nil =>
    rw [found] at more
    exact absurd rfl more
  | cons v vs => rw [intercalate_cons, List.flatMap_cons, List.cons_append]

/-! ## Cutting at separators -/

theorem ne_of_isBlank (h : isBlank sep = false) (blank : isBlank c) : c ≠ sep := by
  rintro rfl
  rw [h] at blank
  cases blank

theorem firstAndRest_collapseFrom (h : isBlank sep = false) (behind : Bool) (s : List Char) :
    firstAndRest sep (collapseFrom behind s) =
      (collapseFrom behind (firstAndRest sep s).1, (firstAndRest sep s).2.map collapse) := by
  have space : ' ' ≠ sep := ne_of_isBlank h rfl
  induction s generalizing behind with
  | nil => rfl
  | cons c s ih =>
    cases blank : isBlank c with
    | true =>
      have ne : c ≠ sep := ne_of_isBlank h blank
      have ih := ih true
      cases behind <;> simp_all [collapseFrom, firstAndRest]
    | false =>
      have ih := ih false
      by_cases eq : c = sep
      · simp_all [collapseFrom, firstAndRest, collapse]
      · simp_all [collapseFrom, firstAndRest]

/-- A text is cut at separators before or after it is collapsed. -/
theorem split_collapse (h : isBlank sep = false) (s : List Char) :
    split sep (collapse s) = (split sep s).map collapse := by
  rw [split, collapse, firstAndRest_collapseFrom h]
  rfl

/-- Blanks in front of a text make no difference to the pieces, trimmed. -/
theorem map_trim_split_of_front (h : isBlank sep = false) {lead : List Char}
    (blank : ∀ c ∈ lead, isBlank c) (s : List Char) :
    (split sep (lead ++ s)).map trim = (split sep s).map trim := by
  have front : firstAndRest sep (lead ++ s) =
      (lead ++ (firstAndRest sep s).1, (firstAndRest sep s).2) := by
    induction lead with
    | nil => rfl
    | cons c lead ih =>
      obtain ⟨first, others⟩ := List.forall_mem_cons.mp blank
      simp [firstAndRest, ih others, ne_of_isBlank h first]
  rw [split, split, front, List.map_cons, List.map_cons, trim_append_of_isBlank blank]

/-- Blanks behind a text make no difference to the pieces, trimmed. -/
theorem map_trim_split_of_back (h : isBlank sep = false) {tail : List Char}
    (blank : ∀ c ∈ tail, isBlank c) (s : List Char) :
    (split sep (s ++ tail)).map trim = (split sep s).map trim := by
  have none : sep ∉ tail := fun mem => ne_of_isBlank h (blank sep mem) rfl
  -- the blanks go to the last piece, which may be the first
  have back : (∃ t, (∀ c ∈ t, isBlank c) ∧
      (firstAndRest sep (s ++ tail)).1 = (firstAndRest sep s).1 ++ t) ∧
      (firstAndRest sep (s ++ tail)).2.map trim = (firstAndRest sep s).2.map trim := by
    induction s with
    | nil =>
      have single := split_of_not_mem none
      rw [split, List.cons.injEq] at single
      refine ⟨⟨tail, blank, single.1⟩, ?_⟩
      rw [List.nil_append, single.2]
      rfl
    | cons c s ih =>
      obtain ⟨⟨t, ht, first⟩, rest⟩ := ih
      by_cases eq : c = sep
      · refine ⟨⟨[], List.forall_mem_nil _, by simp [firstAndRest, eq]⟩, ?_⟩
        simp [firstAndRest, eq, first, rest, trim_append_of_blank _ ht]
      · exact ⟨⟨t, ht, by simp [firstAndRest, eq, first]⟩, by simp [firstAndRest, eq, rest]⟩
  obtain ⟨⟨t, ht, first⟩, rest⟩ := back
  rw [split, split, List.map_cons, List.map_cons, first, rest, trim_append_of_blank _ ht]

/-- Pieces are trimmed whether or not the whole is. -/
theorem map_trim_split_trim (h : isBlank sep = false) (s : List Char) :
    (split sep (trim s)).map trim = (split sep s).map trim := by
  have front : s = s.takeWhile isBlank ++ trimLeft s := List.takeWhile_append_dropWhile.symm
  have back : trimLeft s = trim s ++ ((trimLeft s).reverse.takeWhile isBlank).reverse := by
    rw [trim, trimRight, ← List.reverse_append, List.takeWhile_append_dropWhile,
      List.reverse_reverse]
  have blank : ∀ c ∈ ((trimLeft s).reverse.takeWhile isBlank).reverse, isBlank c :=
    fun c hc => List.mem_takeWhile_imp (List.mem_reverse.mp hc)
  conv_rhs => rw [front]
  rw [map_trim_split_of_front h (fun c hc => List.mem_takeWhile_imp hc)]
  conv_rhs => rw [back]
  rw [map_trim_split_of_back h blank]

/-- **The pieces of a squeezed text are the pieces of the text, squeezed.** -/
theorem map_trim_split_squeeze (h : isBlank sep = false) (s : List Char) :
    (split sep (squeeze s)).map trim = (split sep s).map squeeze := by
  rw [squeeze_eq_trim, map_trim_split_trim h, split_collapse h, List.map_map]
  exact List.map_congr_left fun piece _ => (squeeze_eq_trim piece).symm

end ShaderInterface.Text
