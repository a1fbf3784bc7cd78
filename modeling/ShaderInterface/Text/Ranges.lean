/-!
# Ranges of characters

A set of characters as closed ranges of code points. The tables of character classes are such sets.
A table carries that its ranges stand in increasing order and do not overlap, so the search in it
may end at the first range that begins too late (`Ranges.contains_eq_true_iff`).
-/

namespace ShaderInterface.Text

namespace Ranges

/-- Each range is nonempty and lies after the range before it. -/
def Sorted : List (Nat × Nat) → Prop
  | [] => True
  | [range] => range.1 ≤ range.2
  | range :: next :: rest => range.1 ≤ range.2 ∧ range.2 < next.1 ∧ Sorted (next :: rest)

instance decidableSorted : (ranges : List (Nat × Nat)) → Decidable (Sorted ranges)
  | [] => .isTrue trivial
  | [range] => inferInstanceAs (Decidable (range.1 ≤ range.2))
  | range :: next :: rest =>
    have := decidableSorted (next :: rest)
    inferInstanceAs (Decidable (range.1 ≤ range.2 ∧ range.2 < next.1 ∧ Sorted (next :: rest)))

/-- Search ranges in increasing order for one that has `n`, up to the first that begins behind
`n`. -/
def search (n : Nat) : List (Nat × Nat) → Bool
  | [] => false
  | range :: rest => range.1 ≤ n && (n ≤ range.2 || search n rest)

end Ranges

/-- Closed ranges of code points in increasing order. -/
structure Ranges where
  list : List (Nat × Nat)
  sorted : Ranges.Sorted list := by decide +kernel

namespace Ranges

variable {range : Nat × Nat} {ranges : List (Nat × Nat)} {n : Nat}

theorem Sorted.tail (h : Sorted (range :: ranges)) : Sorted ranges := by
  cases ranges with
  | nil => trivial
  | cons next rest => exact h.2.2

/-- The first of the ranges begins first. -/
theorem Sorted.le_of_mem (h : Sorted (range :: ranges)) :
    ∀ other ∈ ranges, range.1 ≤ other.1 := by
  induction ranges generalizing range with
  | nil => nofun
  | cons next rest ih =>
    obtain ⟨nonempty, behind, sorted⟩ := h
    have first : range.1 ≤ next.1 := Nat.le_trans nonempty (Nat.le_of_lt behind)
    intro other ho
    rcases List.mem_cons.mp ho with rfl | ho
    · exact first
    · exact Nat.le_trans first (ih sorted other ho)

theorem search_eq_true_iff (h : Sorted ranges) :
    search n ranges = true ↔ ∃ range ∈ ranges, range.1 ≤ n ∧ n ≤ range.2 := by
  induction ranges with
  | nil => simp [search]
  | cons range rest ih =>
    rw [search, Bool.and_eq_true, Bool.or_eq_true, decide_eq_true_iff, decide_eq_true_iff,
      ih h.tail]
    constructor
    · rintro ⟨lower, upper | ⟨other, ho, inside⟩⟩
      · exact ⟨range, List.mem_cons_self, lower, upper⟩
      · exact ⟨other, List.mem_cons_of_mem _ ho, inside⟩
    · rintro ⟨other, ho, lower, upper⟩
      rcases List.mem_cons.mp ho with rfl | ho
      · exact ⟨lower, .inl upper⟩
      -- what has `n` behind the first range begins behind it
      · exact ⟨Nat.le_trans (h.le_of_mem other ho) lower, .inr ⟨other, ho, lower, upper⟩⟩

/-- `c` lies in one of the ranges. -/
def contains (table : Ranges) (c : Char) : Bool := search c.toNat table.list

/-- The search finds the characters of the table and no others. -/
theorem contains_eq_true_iff {table : Ranges} {c : Char} :
    table.contains c = true ↔ ∃ range ∈ table.list, range.1 ≤ c.toNat ∧ c.toNat ≤ range.2 :=
  search_eq_true_iff table.sorted

end Ranges

end ShaderInterface.Text
