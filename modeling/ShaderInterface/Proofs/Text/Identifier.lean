import Mathlib.Data.List.Basic
import ShaderInterface.Text.Blank
import ShaderInterface.Text.Identifier
import ShaderInterface.Text.Occurrence

/-!
# Identifiers and blanks

No blank is an identifier character (`not_isBlank_of_isIdentChar`) or any other word character
(`not_isWordChar_of_isBlank`). A run of characters of one class ends where another character stands
(`takeWhile_run`, `dropWhile_run`); so an identifier is read back from in front of everything that
does not go on with it (`takeIdentifier_append`).
-/

namespace ShaderInterface.Text

variable {name rest : List Char} {c : Char}

/-! ## Characters -/

theorem ne_nil_of_isIdentifier {s : List Char} (h : isIdentifier s) : s ≠ [] := by
  rintro rfl
  cases h

theorem isIdentChar_of_mem {s : List Char} (h : isIdentifier s) : ∀ c ∈ s, isIdentChar c := by
  cases s with
  | nil => simp
  | cons d s =>
    obtain ⟨start, rest⟩ := (Bool.and_eq_true _ _).mp h
    intro c hc
    rcases List.mem_cons.mp hc with rfl | hc
    · exact isIdentChar_of_isIdentStart start
    · exact List.all_eq_true.mp rest c hc

theorem not_isIdentStart_of_not_isIdentChar (h : isIdentChar c = false) :
    isIdentStart c = false := by
  rw [Bool.eq_false_iff]
  intro start
  rw [isIdentChar_of_isIdentStart start] at h
  cases h

theorem toNat_of_isIdentStart (h : isIdentStart c) :
    65 ≤ c.toNat ∧ c.toNat ≤ 90 ∨ 97 ≤ c.toNat ∧ c.toNat ≤ 122 ∨ c.toNat = 95 := by
  have between : ∀ {low high : UInt32}, c.val ≥ low ∧ c.val ≤ high →
      low.toNat ≤ c.toNat ∧ c.toNat ≤ high.toNat := fun h =>
    ⟨UInt32.le_iff_toNat_le.mp h.1, UInt32.le_iff_toNat_le.mp h.2⟩
  rcases (Bool.or_eq_true _ _).mp h with letter | underscore
  · rcases (Bool.or_eq_true _ _).mp letter with upper | lower
    · exact .inl (between (of_decide_eq_true upper))
    · have both := (Bool.and_eq_true _ _).mp lower
      exact .inr (.inl (between (both.imp of_decide_eq_true of_decide_eq_true)))
  · obtain rfl : c = '_' := beq_iff_eq.mp underscore
    exact .inr (.inr rfl)

theorem isIdentStart_or_isDigit (h : isIdentChar c) : isIdentStart c ∨ c.isDigit := by
  rw [isIdentChar, Char.isAlphanum, Bool.or_right_comm] at h
  exact (Bool.or_eq_true _ _).mp h

/-- No identifier begins with a digit. -/
theorem not_isDigit_of_isIdentStart (h : isIdentStart c) : c.isDigit = false := by
  have code := toNat_of_isIdentStart h
  rw [Bool.eq_false_iff]
  intro digit
  obtain ⟨-, high⟩ : 48 ≤ c.toNat ∧ c.toNat ≤ 57 := Char.isDigit_iff_toNat.mp digit
  omega

theorem not_isBlank_of_isIdentChar {c : Char} (h : isIdentChar c) : isBlank c = false := by
  have code : 48 ≤ c.toNat ∧ c.toNat ≤ 57 ∨ 65 ≤ c.toNat ∧ c.toNat ≤ 90 ∨
      97 ≤ c.toNat ∧ c.toNat ≤ 122 ∨ c.toNat = 95 := by
    rcases isIdentStart_or_isDigit h with start | digit
    · exact .inr (toNat_of_isIdentStart start)
    · exact .inl (Char.isDigit_iff_toNat.mp digit)
  simp only [isBlank, Bool.or_eq_false_iff, Bool.and_eq_false_imp, beq_eq_false_iff_ne,
    decide_eq_true_eq, decide_eq_false_iff_not]
  omega

theorem not_isBlank_of_isIdentifier {s : List Char} (h : isIdentifier s) :
    ∀ c ∈ s, isBlank c = false :=
  fun c hc => not_isBlank_of_isIdentChar (isIdentChar_of_mem h c hc)

theorem not_isIdentChar_of_isBlank (h : isBlank c) : isIdentChar c = false := by
  rw [Bool.eq_false_iff]
  intro ident
  rw [not_isBlank_of_isIdentChar ident] at h
  cases h

/-- The code points of the blanks. -/
def blankCodes : List Nat :=
  [0x20, 0x09, 0x0A, 0x0B, 0x0C, 0x0D, 0x85, 0xA0, 0x1680, 0x2000, 0x2001, 0x2002, 0x2003, 0x2004,
   0x2005, 0x2006, 0x2007, 0x2008, 0x2009, 0x200A, 0x2028, 0x2029, 0x202F, 0x205F, 0x3000]

theorem toNat_mem_blankCodes (h : isBlank c) : c.toNat ∈ blankCodes := by
  simp only [isBlank, Bool.or_eq_true, Bool.and_eq_true, beq_iff_eq, decide_eq_true_eq] at h
  simp only [blankCodes, List.mem_cons, List.not_mem_nil, or_false]
  omega

/-- No blank is part of a word. -/
theorem not_isWordChar_of_isBlank (h : isBlank c) : isWordChar c = false := by
  have none : ∀ n ∈ blankCodes, isWordChar (Char.ofNat n) = false := by decide +kernel
  simpa using none c.toNat (toNat_mem_blankCodes h)

/-- A word can begin behind a blank. -/
theorem isBoundary_of_isBlank (h : isBlank c) : isBoundary (some c) := by
  rw [isBoundary_some, not_isWordChar_of_isBlank h]
  rfl

/-! ## Runs of characters -/

section Runs

variable {p : Char → Bool} {run rest : List Char}

/-- A run ends where the first character of another class stands. -/
theorem dropWhile_run (all : ∀ c ∈ run, p c) (stop : ∀ c ∈ rest.head?, p c = false) :
    (run ++ rest).dropWhile p = rest := by
  rw [List.dropWhile_append_of_pos all]
  cases rest with
  | nil => rfl
  | cons c rest => exact List.dropWhile_cons_of_neg (by simp [stop c rfl])

theorem takeWhile_run (all : ∀ c ∈ run, p c) (stop : ∀ c ∈ rest.head?, p c = false) :
    (run ++ rest).takeWhile p = run := by
  rw [List.takeWhile_append_of_pos all]
  cases rest with
  | nil => simp
  | cons c rest => rw [List.takeWhile_cons_of_neg (by simp [stop c rfl]), List.append_nil]

/-- What is left when a run is dropped does not go on with it. -/
theorem stop_dropWhile (p : Char → Bool) (s : List Char) :
    ∀ c ∈ (s.dropWhile p).head?, p c = false := by
  intro c hc
  have first := List.head?_dropWhile_not p s
  rw [Option.mem_def.mp hc] at first
  simpa using first

end Runs

/-! ## What is left -/

theorem afterPrefix?_suffix {token s : List Char} (h : afterPrefix? token s = some rest) :
    rest <:+ s := ⟨token, (afterPrefix?_eq_some_iff.mp h).symm⟩

theorem takeIdentifier_suffix {s : List Char} (h : takeIdentifier s = some (name, rest)) :
    rest <:+ s := ⟨name, (takeIdentifier_eq_some h).2.1.symm⟩

/-- An identifier is read back from in front of what does not go on with it. -/
theorem takeIdentifier_append (ident : isIdentifier name)
    (stop : ∀ c ∈ rest.head?, isIdentChar c = false) :
    takeIdentifier (name ++ rest) = some (name, rest) := by
  cases name with
  | nil => cases ident
  | cons c name =>
    have chars : ∀ d ∈ name, isIdentChar d := fun d hd =>
      isIdentChar_of_mem ident d (List.mem_cons_of_mem c hd)
    have start : isIdentStart c := ((Bool.and_eq_true _ _).mp ident).1
    rw [List.cons_append, takeIdentifier, if_pos start, takeWhile_run chars stop,
      dropWhile_run chars stop]

/-- No blank stands in front of an identifier that comes first. -/
theorem not_isBlank_head_identifier (ident : isIdentifier name) (rest : List Char) :
    ∀ c ∈ (name ++ rest).head?, isBlank c = false := by
  cases name with
  | nil => cases ident
  | cons d name =>
    rintro c ⟨⟩
    exact not_isBlank_of_isIdentifier ident d List.mem_cons_self

/-- One text does not begin with two identifiers that both end where they end. -/
theorem identifier_unique {name' rest' : List Char} (ident : isIdentifier name)
    (ident' : isIdentifier name') (stop : ∀ c ∈ rest.head?, isIdentChar c = false)
    (stop' : ∀ c ∈ rest'.head?, isIdentChar c = false) (same : name ++ rest = name' ++ rest') :
    name = name' ∧ rest = rest' := by
  have read := takeIdentifier_append ident stop
  rw [same, takeIdentifier_append ident' stop'] at read
  cases read
  exact ⟨rfl, rfl⟩

end ShaderInterface.Text
