import Mathlib.Data.List.DropRight
import Mathlib.Data.List.Infix
import ShaderInterface.Text.Blank
import ShaderInterface.Text.Split

/-!
# Lines and ends of a text

A position cuts a text in two. The line that holds it is numbered by the line feeds in front of
it, and consists of the last line of the one part and the first line of the other
(`getElem?_split_append`). Two ends of a text that each follow a separator are the same end when
they hold equally many separators (`eq_of_suffix_of_count_eq`), and trimming takes away no
character that is not blank (`count_trim`). Texts that are put together with line feeds have the
lines that each of them has (`lines_unlines`).
-/

namespace ShaderInterface.Text

variable {sep : Char}

/-! ## The line at a position -/

theorem head?_split (sep : Char) (s : List Char) :
    (split sep s).head? = some (s.takeWhile (· != sep)) := by
  rw [split, List.head?_cons]
  congr 1
  induction s with
  | nil => rfl
  | cons c s ih => by_cases h : c = sep <;> simp [firstAndRest, h, ih]

theorem split_append_cons (sep : Char) (a b : List Char) :
    split sep (a ++ sep :: b) = split sep a ++ split sep b := by
  induction a with
  | nil => simp [split_cons_self, split_nil]
  | cons c a ih =>
    by_cases h : c = sep
    · subst h
      rw [List.cons_append, split_cons_self, split_cons_self, ih, List.cons_append]
    · simp only [split, List.cons_append, List.cons.injEq] at ih
      rw [List.cons_append, split_cons_of_ne h, split_cons_of_ne h, ih.1, ih.2, List.cons_append]
      rfl

/-- The piece at a position, between the separators before and behind it. -/
theorem getElem?_split_append (sep : Char) (a b : List Char) :
    (split sep (a ++ b))[a.count sep]? =
      some (a.rtakeWhile (· != sep) ++ b.takeWhile (· != sep)) := by
  -- the characters in front of the position pass behind it one by one, up to a separator
  induction a using List.reverseRecOn generalizing b with
  | nil => simpa [← List.head?_eq_getElem?] using head?_split sep b
  | append_singleton a c ih =>
    rw [List.append_assoc, List.singleton_append]
    by_cases h : c = sep
    · subst h
      have behind : (a ++ [c]).count c = (split c a).length := by simp [length_split]
      rw [split_append_cons, behind, List.getElem?_append_right le_rfl, Nat.sub_self,
        ← List.head?_eq_getElem?, head?_split, List.rtakeWhile_concat_neg _ _ _ (by simp),
        List.nil_append]
    · have before : (a ++ [c]).count sep = a.count sep := by simp [h]
      rw [before, ih, List.takeWhile_cons_of_pos (by simpa using h),
        List.rtakeWhile_concat_pos _ _ _ (by simpa using h), List.append_assoc,
        List.singleton_append]

/-! ## Ends -/

/-- An end of a text behind a separator is known by the separators in it. -/
theorem eq_of_suffix_of_count_eq {a b s : List Char} (ha : sep :: a <:+ s) (hb : sep :: b <:+ s)
    (h : a.count sep = b.count sep) : a = b := by
  -- were one end a part of the other, its separator would be counted there too
  have part {x y : List Char} (hxy : sep :: x <:+ sep :: y) (hc : x.count sep = y.count sep) :
      x = y := by
    rcases List.suffix_cons_iff.mp hxy with heq | hlt
    · exact (List.cons.inj heq).2
    · have := hlt.sublist.count_le sep
      simp only [List.count_cons_self] at this
      omega
  rcases List.suffix_or_suffix_of_suffix ha hb with hab | hba
  · exact part hab h
  · exact (part hba h.symm).symm

theorem count_dropWhile_of_neg {p : Char → Bool} {c : Char} (h : p c = false) (s : List Char) :
    (s.dropWhile p).count c = s.count c := by
  have none : (s.takeWhile p).count c = 0 :=
    List.count_eq_zero_of_not_mem fun hc => by simp [List.mem_takeWhile_imp hc] at h
  conv_rhs => rw [← List.takeWhile_append_dropWhile (p := p) (l := s)]
  rw [List.count_append, none, Nat.zero_add]

/-- Trimming takes away blanks only. -/
theorem count_trim {c : Char} (h : isBlank c = false) (s : List Char) :
    (trim s).count c = s.count c := by
  rw [trim, trimRight, List.count_reverse, count_dropWhile_of_neg h, List.count_reverse, trimLeft,
    count_dropWhile_of_neg h]

theorem mem_trim_iff {c : Char} (h : isBlank c = false) {s : List Char} : c ∈ trim s ↔ c ∈ s := by
  rw [← List.count_pos_iff, ← List.count_pos_iff, count_trim h]

theorem trim_eq_nil_iff {s : List Char} : trim s = [] ↔ ∀ c ∈ s, isBlank c := by
  constructor
  · intro h c hc
    by_contra hb
    have : (trim s).count c = s.count c := count_trim (by simpa using hb) s
    rw [h, List.count_nil, eq_comm, List.count_eq_zero] at this
    exact this hc
  · intro h
    rw [trim, trimLeft, List.dropWhile_eq_nil_iff.mpr h]
    rfl

/-- Blanks in front of a text make no difference to what trimming leaves. -/
theorem trim_append_of_isBlank {lead : List Char} (h : ∀ c ∈ lead, isBlank c) (s : List Char) :
    trim (lead ++ s) = trim s := by
  rw [trim, trimLeft, List.dropWhile_append_of_pos h]
  rfl

/-- Blanks at the end of a text make no difference to what trimming leaves. -/
theorem trim_append_of_blank (s : List Char) {blanks : List Char} (h : ∀ c ∈ blanks, isBlank c) :
    trim (s ++ blanks) = trim s := by
  have right (a : List Char) : trimRight (a ++ blanks) = trimRight a := by
    rw [trimRight, List.reverse_append, List.dropWhile_append_of_pos (by simpa using h), trimRight]
  rw [trim, trimLeft, List.dropWhile_append]
  split
  · next hs =>
    rw [List.dropWhile_eq_nil_iff.mpr h, trim, trimLeft, List.isEmpty_iff.mp hs]
  · exact right _

/-- Trimming leaves a text alone that has no blank at either end. -/
theorem trim_eq_self {s : List Char} (first : ∀ c ∈ s.head?, isBlank c = false)
    (last : ∀ c ∈ s.getLast?, isBlank c = false) : trim s = s := by
  have left : trimLeft s = s := by
    cases s with
    | nil => rfl
    | cons c s => exact List.dropWhile_cons_of_neg (by simp [first c rfl])
  rw [trim, left]
  cases s using List.reverseRecOn with
  | nil => rfl
  | append_singleton s c => simp [trimRight, last c]

/-! ## Pieces -/

/-- A text without the separator is its only piece. -/
theorem split_of_not_mem {s : List Char} (h : sep ∉ s) : split sep s = [s] := by
  induction s with
  | nil => rfl
  | cons c s ih =>
    obtain ⟨ne, h⟩ := List.ne_and_not_mem_of_not_mem_cons h
    have rest := ih h
    simp only [split, List.cons.injEq] at rest
    rw [split_cons_of_ne (Ne.symm ne), rest.1, rest.2]

/-- Texts without the separator are the pieces of the text that has them with separators between. -/
theorem split_append_flatMap {t : List Char} {ts : List (List Char)} (first : sep ∉ t)
    (others : ∀ u ∈ ts, sep ∉ u) : split sep (t ++ ts.flatMap (sep :: ·)) = t :: ts := by
  induction ts generalizing t with
  | nil => rw [List.flatMap_nil, List.append_nil, split_of_not_mem first]
  | cons u ts ih =>
    obtain ⟨next, others⟩ := List.forall_mem_cons.mp others
    rw [List.flatMap_cons, List.cons_append, split_append_cons, split_of_not_mem first,
      ih next others, List.singleton_append]

/-- The pieces hold nothing that the text does not. -/
theorem mem_of_mem_split {c : Char} {s piece : List Char} (h : piece ∈ split sep s)
    (hc : c ∈ piece) : c ∈ s := by
  induction s generalizing piece with
  | nil => simp_all [split, firstAndRest]
  | cons d s ih => grind [split, firstAndRest]

/-! ## Lines -/

@[simp]
theorem unlines_singleton (l : List Char) : unlines [l] = l := by simp [unlines, List.intercalate]

theorem unlines_cons_cons (l l' : List Char) (ls : List (List Char)) :
    unlines (l :: l' :: ls) = l ++ '\n' :: unlines (l' :: ls) := by
  simp [unlines, List.intercalate]

/-- The lines of texts that are put together are the lines of each text, in order. -/
theorem lines_unlines {texts : List (List Char)} (ne : texts ≠ []) :
    lines (unlines texts) = texts.flatMap lines := by
  induction texts with
  | nil => exact absurd rfl ne
  | cons text texts ih =>
    cases texts with
    | nil => rw [unlines_singleton, List.flatMap_singleton]
    | cons next texts =>
      rw [unlines_cons_cons, lines, split_append_cons, List.flatMap_cons,
        ← ih (List.cons_ne_nil next texts)]
      rfl

/-- A text without a line feed is a line. -/
theorem lines_of_not_mem {s : List Char} (h : '\n' ∉ s) : lines s = [s] := split_of_not_mem h

end ShaderInterface.Text
