import Mathlib.Order.Bounds.Basic
import ShaderInterface.Declaration.Trailing
import ShaderInterface.Proofs.Text.Utf8

/-!
# The search for a name

A name stands alone at an offset of a line when its bytes stand there and no byte of an identifier
touches them (`AloneAt`). The search goes from occurrence to occurrence, each the first behind the
one before it (`Search`). What it passes over is no place for the name: an occurrence that begins
inside another one has a byte of the name in front of it (`not_aloneAt_of_overlap`). So it comes to
the least offset at which the name stands alone, if there is one (`search_findToken`).
-/

namespace ShaderInterface.Declaration

open Text

variable {token line s before after : List Char} {start i j : Nat}

/-! ## Places -/

/-- The bytes of the token stand at the offset. -/
def OccursAt (token line : List Char) (i : Nat) : Prop := bytes token <+: (bytes line).drop i

/-- The token stands at the offset, and neither in front of it nor behind it is a letter, a digit or
an underscore. -/
structure AloneAt (token line : List Char) (i : Nat) : Prop where
  occurs : OccursAt token line i
  front : ∀ b ∈ ((bytes line).take i).getLast?, isIdentByte b = false
  back : ∀ b ∈ ((bytes line).drop (i + (bytes token).length)).head?, isIdentByte b = false

theorem occursAt_append (before token after : List Char) :
    OccursAt token (before ++ token ++ after) (bytes before).length := by
  rw [OccursAt, bytes_append, bytes_append, List.append_assoc, List.drop_left]
  exact List.prefix_append _ _

/-- The last byte of a text is an identifier character exactly when its last character is one. -/
theorem forall_getLast?_bytes :
    (∀ b ∈ (bytes s).getLast?, isIdentByte b = false) ↔ isFree s.getLast? := by
  rcases List.eq_nil_or_concat' s with rfl | ⟨s, c, rfl⟩
  · simp [isFree]
  · obtain ⟨front, b, eq⟩ := List.eq_nil_or_concat' (String.utf8EncodeChar c) |>.resolve_left
      String.utf8EncodeChar_ne_nil
    have same : isIdentByte b = isIdentChar c := isIdentByte_of_mem_encode (by simp [eq])
    simp [eq, same, isFree]

theorem forall_head?_bytes :
    (∀ b ∈ (bytes s).head?, isIdentByte b = false) ↔ isFree s.head? := by
  cases s with
  | nil => simp [isFree]
  | cons c s =>
    obtain ⟨b, more, eq⟩ := List.exists_cons_of_ne_nil (String.utf8EncodeChar_ne_nil (c := c))
    have same : isIdentByte b = isIdentChar c := isIdentByte_of_mem_encode (by simp [eq])
    simp [eq, same, isFree]

/-- An occurrence between two parts of the line stands alone when no character of an identifier
touches it. -/
theorem aloneAt_append_iff :
    AloneAt token (before ++ token ++ after) (bytes before).length ↔
      isFree before.getLast? ∧ isFree after.head? := by
  have cut : bytes (before ++ token ++ after) = bytes before ++ (bytes token ++ bytes after) := by
    simp
  have front : (bytes (before ++ token ++ after)).take (bytes before).length = bytes before := by
    rw [cut, List.take_left]
  have back : (bytes (before ++ token ++ after)).drop
      ((bytes before).length + (bytes token).length) = bytes after := by
    rw [cut, ← List.drop_drop, List.drop_left, List.drop_left]
  rw [← forall_getLast?_bytes, ← forall_head?_bytes]
  constructor
  · rintro ⟨-, hf, hb⟩
    exact ⟨by rwa [front] at hf, by rwa [back] at hb⟩
  · rintro ⟨hf, hb⟩
    exact ⟨occursAt_append before token after, by rwa [front], by rwa [back]⟩

section Overlap

variable (ident : isIdentifier token)
include ident

/-- An occurrence cuts the line between characters. -/
theorem OccursAt.exists_eq_append (h : OccursAt token line i) :
    ∃ before after, line = before ++ token ++ after ∧ (bytes before).length = i := by
  have ascii : ∀ c ∈ token, c.toNat < 128 := fun c hc =>
    toNat_lt_of_isIdentChar (isIdentChar_of_mem ident c hc)
  exact exists_eq_append_of_bytes_prefix ascii (ne_nil_of_isIdentifier ident) h

/-- **An occurrence that begins inside another one does not stand alone.** -/
theorem not_aloneAt_of_overlap (h : OccursAt token line i) (lt : i < j)
    (inside : j < i + (bytes token).length) : ¬ AloneAt token line j := by
  intro alone
  obtain ⟨before, after, rfl, rfl⟩ := h.exists_eq_append ident
  -- the part in front of the second occurrence ends with bytes of the first
  have front : (bytes (before ++ token ++ after)).take j =
      bytes before ++ (bytes token).take (j - (bytes before).length) := by
    rw [List.append_assoc, bytes_append, bytes_append, List.take_append,
      List.take_of_length_le lt.le, List.take_append_of_le_length (by omega)]
  have ne : (bytes token).take (j - (bytes before).length) ≠ [] := by
    rw [← List.length_pos_iff, List.length_take]
    omega
  obtain ⟨b, last⟩ := Option.isSome_iff_exists.mp (List.getLast?_isSome.mpr ne)
  have inToken : b ∈ bytes token := List.mem_of_mem_take (List.mem_of_getLast? last)
  obtain ⟨c, hc, hb⟩ := List.mem_flatMap.mp inToken
  have other : isIdentByte b = false := alone.front b (by
    rw [front, List.getLast?_append, last]
    rfl)
  rw [isIdentByte_of_mem_encode hb, isIdentChar_of_mem ident c hc] at other
  cases other

end Overlap

/-! ## The search from occurrence to occurrence -/

/-- The first occurrence from an offset on. The line is cut at the offset, at the occurrence and
behind it, each time between characters. -/
structure FirstFrom (token line : List Char) (start i : Nat) : Prop where
  least : IsLeast {i | start ≤ i ∧ OccursAt token line i} i
  cutStart : IsBoundaryOffset line start
  cutFront : IsBoundaryOffset line i
  cutBack : IsBoundaryOffset line (i + (bytes token).length)

/-- A search that begins at an offset and comes to an end: where the first occurrence does not stand
alone, it goes on behind the whole of it. -/
inductive Search (token line : List Char) : Nat → Option Nat → Prop where
  | absent {start : Nat} (cutStart : IsBoundaryOffset line start)
      (missing : ∀ i, start ≤ i → ¬ OccursAt token line i) : Search token line start none
  | found {start i : Nat} (first : FirstFrom token line start i) (alone : AloneAt token line i) :
      Search token line start (some i)
  | resumed {start i : Nat} {result : Option Nat} (first : FirstFrom token line start i)
      (touched : ¬ AloneAt token line i)
      (rest : Search token line (i + (bytes token).length) result) :
      Search token line start result

/-- The result is the least number with the property, or none if no number has it. -/
def IsLeastOrNone (p : Nat → Prop) : Option Nat → Prop
  | some i => IsLeast {i | p i} i
  | none => ∀ i, ¬ p i

theorem IsLeastOrNone.eq_some_iff {p : Nat → Prop} {result : Option Nat}
    (h : IsLeastOrNone p result) (i : Nat) : result = some i ↔ IsLeast {i | p i} i := by
  cases result with
  | none => exact ⟨nofun, fun least => absurd least.1 (h i)⟩
  | some j => exact ⟨fun eq => Option.some.inj eq ▸ h, fun least => congrArg some (h.unique least)⟩

theorem IsLeastOrNone.eq_none_iff {p : Nat → Prop} {result : Option Nat}
    (h : IsLeastOrNone p result) : result = none ↔ ∀ i, ¬ p i := by
  cases result with
  | none => exact ⟨fun _ => h, fun _ => rfl⟩
  | some j => exact ⟨nofun, fun none => absurd h.1 (none j)⟩

/-- **What a search passes over is no place for the token.** Its result is the least offset from the
start on at which the token stands alone. -/
theorem Search.isLeastOrNone (ident : isIdentifier token) {result : Option Nat}
    (h : Search token line start result) :
    IsLeastOrNone (fun i => start ≤ i ∧ AloneAt token line i) result := by
  induction h with
  | absent _ missing => exact fun i ⟨le, alone⟩ => missing i le alone.occurs
  | found first alone =>
    refine ⟨⟨first.least.1.1, alone⟩, fun j ⟨le, other⟩ => ?_⟩
    exact first.least.2 ⟨le, other.occurs⟩
  | @resumed start i result first touched rest ih =>
    obtain ⟨⟨le, occurs⟩, lower⟩ := first.least
    have same : ∀ j, start ≤ j ∧ AloneAt token line j ↔
        i + (bytes token).length ≤ j ∧ AloneAt token line j := by
      intro j
      refine ⟨fun ⟨hj, alone⟩ => ⟨?_, alone⟩, fun ⟨hj, alone⟩ => ⟨by omega, alone⟩⟩
      have behind : i ≤ j := lower ⟨hj, alone.occurs⟩
      have ne : i ≠ j := by
        rintro rfl
        exact touched alone
      by_contra inside
      exact not_aloneAt_of_overlap ident occurs (by omega) (by omega) alone
    simpa only [same] using ih

/-! ## The search of the library -/

theorem not_infix_of_splitAt? (h : splitAt? token s = none) : ¬ token <:+: s := by
  induction s with
  | nil =>
    rintro ⟨before, after, eq⟩
    obtain rfl : token = [] := by simp_all
    cases h
  | cons c s ih =>
    rintro ⟨before, after, eq⟩
    unfold splitAt? at h
    split at h
    · cases h
    · next none =>
      cases before with
      | nil =>
        rw [← eq, List.nil_append, afterPrefix?_append] at none
        cases none
      | cons d before =>
        obtain ⟨-, eq⟩ := List.cons.inj eq
        exact ih (Option.map_eq_none_iff.mp h) ⟨before, after, eq⟩

/-- No occurrence comes before the one at which a text is cut. -/
theorem prefix_of_splitAt? (h : splitAt? token s = some (before, after)) {b a : List Char}
    (eq : s = b ++ token ++ a) : before <+: b := by
  induction s generalizing before b with
  | nil =>
    obtain ⟨rest, -, found⟩ := Option.map_eq_some_iff.mp h
    cases found
    exact List.nil_prefix
  | cons c s ih =>
    unfold splitAt? at h
    split at h
    · cases h
      exact List.nil_prefix
    · next none =>
      obtain ⟨⟨before', after'⟩, found, ⟨⟩⟩ := Option.map_eq_some_iff.mp h
      cases b with
      | nil =>
        rw [eq, List.nil_append, afterPrefix?_append] at none
        cases none
      | cons d b =>
        obtain ⟨rfl, eq'⟩ := List.cons.inj eq
        exact List.cons_prefix_cons.mpr ⟨rfl, ih found eq'⟩

/-- Whether the occurrence at which the rest of a line is cut stands alone is decided by the
characters that touch it. -/
theorem aloneAt_iff_of_splitAt? {front : List Char} (h : splitAt? token s = some (before, after)) :
    AloneAt token (front ++ s) (bytes (front ++ before)).length ↔
      isFree (before.getLast?.or front.getLast?) ∧ isFree after.head? := by
  have line : front ++ s = (front ++ before) ++ token ++ after := by
    rw [splitAt?_eq_some h]
    simp
  rw [line, aloneAt_append_iff, List.getLast?_append]

section Offsets

variable (ident : isIdentifier token)
include ident

/-- An occurrence that does not begin in the part of the line that is searched already is one in the
rest. -/
theorem OccursAt.exists_eq_of_le {front : List Char} (h : OccursAt token (front ++ s) i)
    (le : (bytes front).length ≤ i) :
    ∃ before after, s = before ++ token ++ after ∧ (bytes (front ++ before)).length = i := by
  obtain ⟨b, a, eq, rfl⟩ := h.exists_eq_append ident
  have hb : b <+: front ++ s := ⟨token ++ a, by rw [eq, List.append_assoc]⟩
  obtain ⟨before, rfl⟩ := prefix_of_length_bytes_le (List.prefix_append front s) hb le
  refine ⟨before, a, ?_, rfl⟩
  rw [List.append_assoc, List.append_assoc] at eq
  rw [List.append_assoc]
  exact List.append_cancel_left eq

/-- The first occurrence in the rest of the line is the first one from its offset on. -/
theorem firstFrom_of_splitAt? {front : List Char}
    (h : splitAt? token s = some (before, after)) :
    FirstFrom token (front ++ s) (bytes front).length (bytes (front ++ before)).length := by
  have eq := splitAt?_eq_some h
  have line : front ++ s = (front ++ before) ++ token ++ after := by rw [eq]; simp
  constructor
  case least =>
    refine ⟨⟨by simp, line ▸ occursAt_append _ token after⟩, fun i ⟨le, occurs⟩ => ?_⟩
    obtain ⟨b, a, eq', rfl⟩ := occurs.exists_eq_of_le ident le
    obtain ⟨more, rfl⟩ := prefix_of_splitAt? h eq'
    simp
  case cutStart => exact isBoundaryOffset_append front s
  case cutFront =>
    rw [line, List.append_assoc]
    exact isBoundaryOffset_append _ _
  case cutBack =>
    rw [line, ← List.length_append, ← bytes_append]
    exact isBoundaryOffset_append _ after

/-- The search in the rest of a line is the search from its offset on. -/
theorem search_findTokenFrom (front s : List Char) :
    Search token (front ++ s) (bytes front).length
      ((findTokenFrom token front.getLast? s).map fun (before, _) =>
        (bytes (front ++ before)).length) := by
  have ne := ne_nil_of_isIdentifier ident
  generalize hp : front.getLast? = previous
  fun_induction findTokenFrom token previous s generalizing front with
  | case1 previous s none =>
    refine .absent (isBoundaryOffset_append front s) fun i le occurs => ?_
    obtain ⟨b, a, eq, -⟩ := occurs.exists_eq_of_le ident le
    exact not_infix_of_splitAt? none ⟨b, a, eq.symm⟩
  | case2 previous s before after h free =>
    subst hp
    refine .found (firstFrom_of_splitAt? ident h) ((aloneAt_iff_of_splitAt? h).mpr ?_)
    exact (Bool.and_eq_true _ _).mp free
  | case3 previous s before after h touched lt ih =>
    subst hp
    refine .resumed (firstFrom_of_splitAt? ident h) (fun alone => touched ?_) ?_
    · exact (Bool.and_eq_true _ _).mpr ((aloneAt_iff_of_splitAt? h).mp alone)
    · have last : (front ++ before ++ token).getLast? = token.getLast? := by
        rw [List.getLast?_append, List.getLast?_eq_some_getLast ne, Option.some_or]
      have rest := ih (front ++ before ++ token) last
      rw [splitAt?_eq_some h, Option.map_map]
      simpa [List.append_assoc, Nat.add_assoc, Function.comp_def] using rest
  | case4 previous s before after h touched le =>
    have shorter := congrArg List.length (splitAt?_eq_some h)
    have pos := List.length_pos_iff.mpr ne
    simp only [List.length_append] at shorter
    omega

end Offsets

/-- The offset in bytes of the first place on a line at which the token stands alone. -/
def offset? (token line : List Char) : Option Nat :=
  (findToken token line).map fun (before, _) => (bytes before).length

/-- **The search for a name misses nothing.** It comes to an end, going on behind the whole of each
occurrence that does not stand alone, and cuts the line between characters only. It gives the least
offset at which the name stands alone, and nothing exactly where the name stands alone nowhere. -/
theorem search_findToken (ident : isIdentifier token) (line : List Char) :
    Search token line 0 (offset? token line) ∧
    (∀ i, offset? token line = some i ↔ IsLeast {i | AloneAt token line i} i) ∧
    (offset? token line = none ↔ ∀ i, ¬ AloneAt token line i) := by
  have search : Search token line 0 (offset? token line) := search_findTokenFrom ident [] line
  have answer : IsLeastOrNone (AloneAt token line) (offset? token line) := by
    simpa using search.isLeastOrNone ident
  exact ⟨search, answer.eq_some_iff, answer.eq_none_iff⟩

/-- A line on which a name that overlaps itself is touched by identifier characters, and by others
of more than one byte. -/
def touching : List Char := "\u00e9_aa aaa \u00e9aa\u00e9;".toList

theorem search_findToken_touching :
    isIdentifier "aa".toList ∧ Search "aa".toList touching 0 (some 12) ∧
      IsLeast {i | AloneAt "aa".toList touching i} 12 := by
  have ident : isIdentifier "aa".toList := by decide
  have offset : offset? "aa".toList touching = some 12 := by decide +kernel
  obtain ⟨search, least, -⟩ := search_findToken ident touching
  exact ⟨ident, offset ▸ search, (least 12).mp offset⟩

end ShaderInterface.Declaration
