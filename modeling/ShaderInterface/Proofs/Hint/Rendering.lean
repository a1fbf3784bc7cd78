import ShaderInterface.Proofs.Hint.Depth

/-!
# Texts without comments

A value is written in JSON5 as a literal, as items between brackets or as fields between braces,
with white space around every part and possibly a comma behind the last item or field. Of a text
that is written so and has no comment (`Renders`), the count of brackets is the depth of the value,
whatever its strings and keys hold (`nesting_of_renders`).

What a literal stands for is not looked at. The theorem holds of every reading of them (`Literals`),
in particular of the one by which hints are read (`Literals.read`).
-/

namespace ShaderInterface.Hint

variable {mark c : Char} {s t : List Char} {m n : Nat}

/-! ## Literals -/

/-- White space, possibly none. -/
abbrev Spaces := { s : List Char // ∀ c ∈ s, isSpace c }

/-- A character of a number or a word: neither white space nor a quote nor punctuation. -/
def isBare (c : Char) : Bool :=
  !isSpace c && !isQuote c && !isOpening c && !isClosing c && c != ':' && c != ',' && c != '/'

/-- What stands between the quotes of a string. A backslash goes with the character behind it, and
no other character is the closing quote. -/
inductive QuotedText (mark : Char) : List Char → Prop where
  | nil : QuotedText mark []
  | plain {c : Char} {s : List Char} (other : c ≠ mark) (unescaped : c ≠ '\\')
      (rest : QuotedText mark s) : QuotedText mark (c :: s)
  | escape {s : List Char} (c : Char) (rest : QuotedText mark s) : QuotedText mark ('\\' :: c :: s)

/-- A string in quotes of either style, or a number or word. -/
inductive IsLiteral : List Char → Prop where
  | quoted {mark : Char} {s : List Char} (quote : isQuote mark) (inside : QuotedText mark s) :
      IsLiteral (mark :: s ++ [mark])
  | bare {s : List Char} (nonempty : s ≠ []) (all : s.all isBare) : IsLiteral s

/-- A reading of literals: as scalars, and as keys of an object. -/
structure Literals where
  scalar : List Char → Value → Prop
  key : List Char → String → Prop
  isLiteral_of_scalar {s : List Char} {v : Value} : scalar s v → IsLiteral s
  depth_of_scalar {s : List Char} {v : Value} : scalar s v → v.depth = 0
  isLiteral_of_key {s : List Char} {name : String} : key s name → IsLiteral s

/-- The reading of literals in hints. -/
def Literals.read : Literals where
  scalar s v := IsLiteral s ∧ Value.read s = some v ∧ v.depth = 0
  key s name := IsLiteral s ∧ (lex s).map (·.map Token.key?) = some [some name]
  isLiteral_of_scalar h := h.1
  depth_of_scalar h := h.2.2
  isLiteral_of_key h := h.1

/-! ## Texts of values -/

/-- What a part of a text can stand for. -/
inductive Written where
  | value (v : Value)
  | items (vs : List Value)
  | field (key : String) (v : Value)
  | fields (fields : List (String × Value))

/-- The depth of what is written. -/
def Written.depth : Written → Nat
  | value v => v.depth
  | items vs => depthOfItems vs
  | field _ v => v.depth
  | fields fs => depthOfFields fs

/-- What may stand behind the last item or field: nothing, or a comma and white space. -/
def IsTail (s : List Char) : Prop := s = [] ∨ ∃ space : Spaces, s = ',' :: space.1

/-- The text writes down a value, items, a field or fields in JSON5, without comments. The fields of
an object may come in any order. -/
inductive Renders (literals : Literals) : Written → List Char → Prop where
  | literal {v : Value} {s : List Char} (h : literals.scalar s v) : Renders literals (.value v) s
  | array {vs : List Value} {s : List Char} (inside : Renders literals (.items vs) s) :
      Renders literals (.value (.array vs)) ('[' :: s ++ [']'])
  | object {fields written : List (String × Value)} {s : List Char}
      (inside : Renders literals (.fields written) s) (order : written.Perm fields) :
      Renders literals (.value (.object fields)) ('\x7b' :: s ++ ['\x7d'])
  | spaced {v : Value} {s : List Char} (lead tail : Spaces)
      (inside : Renders literals (.value v) s) :
      Renders literals (.value v) (lead.1 ++ s ++ tail.1)
  | noItems (space : Spaces) : Renders literals (.items []) space.1
  | lastItem {v : Value} {s tail : List Char} (item : Renders literals (.value v) s)
      (h : IsTail tail) : Renders literals (.items [v]) (s ++ tail)
  | nextItem {v w : Value} {vs : List Value} {s t : List Char}
      (item : Renders literals (.value v) s) (rest : Renders literals (.items (w :: vs)) t) :
      Renders literals (.items (v :: w :: vs)) (s ++ ',' :: t)
  | field {name : String} {v : Value} {key s : List Char} (lead gap : Spaces)
      (named : literals.key key name) (value : Renders literals (.value v) s) :
      Renders literals (.field name v) (lead.1 ++ key ++ gap.1 ++ ':' :: s)
  | noFields (space : Spaces) : Renders literals (.fields []) space.1
  | lastField {name : String} {v : Value} {s tail : List Char}
      (field : Renders literals (.field name v) s) (h : IsTail tail) :
      Renders literals (.fields [(name, v)]) (s ++ tail)
  | nextField {name : String} {v : Value} {next : String × Value} {others : List (String × Value)}
      {s t : List Char} (field : Renders literals (.field name v) s)
      (rest : Renders literals (.fields (next :: others)) t) :
      Renders literals (.fields ((name, v) :: next :: others)) (s ++ ',' :: t)

/-! ## What the count makes of a text -/

/-- In front of any rest, the text raises the number of open brackets by `n` at most, once by as
many, and leaves it as it was. -/
def Counts (s : List Char) (n : Nat) : Prop :=
  ∀ d rest, nestingFrom .outside d (s ++ rest) = max (d + n) (nestingFrom .outside d rest)

theorem Counts.append (hs : Counts s m) (ht : Counts t n) : Counts (s ++ t) (max m n) := by
  intro d rest
  rw [List.append_assoc, hs, ht]
  omega

theorem counts_of_passes (h : ∀ rest, Passes .outside (s ++ rest) .outside rest) : Counts s 0 := by
  intro d rest
  exact (h rest).nestingFrom_eq d

theorem counts_neutral (h : s.all isNeutral) : Counts s 0 :=
  counts_of_passes (passes_neutral_append h)

theorem counts_spaces (space : Spaces) : Counts space.1 0 :=
  counts_neutral (List.all_eq_true.mpr fun c hc => isNeutral_of_isSpace (space.2 c hc))

theorem nestingFrom_opening (h : isOpening c) (d : Nat) (rest : List Char) :
    nestingFrom .outside d (c :: rest) = max d (nestingFrom .outside (d + 1) rest) := by
  have bracket : c = '[' ∨ c = '\x7b' := by simpa [isOpening] using h
  rcases bracket with rfl | rfl <;> rfl

theorem nestingFrom_closing (h : isClosing c) (d : Nat) (rest : List Char) :
    nestingFrom .outside (d + 1) (c :: rest) = max (d + 1) (nestingFrom .outside d rest) := by
  have bracket : c = ']' ∨ c = '\x7d' := by simpa [isClosing] using h
  rcases bracket with rfl | rfl <;> rfl

/-- What stands between brackets counts one less than with them. -/
theorem Counts.enclosed (h : Counts s n) {first last : Char} (opening : isOpening first)
    (closing : isClosing last) : Counts (first :: s ++ [last]) (n + 1) := by
  intro d rest
  have inside := h (d + 1) (last :: rest)
  have behind := nestingFrom_closing closing d rest
  calc nestingFrom .outside d (first :: s ++ [last] ++ rest)
      = nestingFrom .outside d (first :: (s ++ last :: rest)) := by simp
    _ = max d (nestingFrom .outside (d + 1) (s ++ last :: rest)) := nestingFrom_opening opening d _
    _ = max (d + (n + 1)) (nestingFrom .outside d rest) := by omega

/-! ## Literals are passed -/

/-- The text between quotes ends for the count at the closing quote. -/
theorem QuotedText.passes (h : QuotedText mark s) (quote : isQuote mark) (rest : List Char) :
    Passes (.quoted mark) (s ++ mark :: rest) .outside rest := by
  have step := passes_inside (.quoted mark) (by simp)
  have backslash : mark ≠ '\\' := by
    rintro rfl
    exact absurd quote (by decide)
  induction h with
  | nil =>
    have closes := step mark rest
    rwa [Place.next, if_neg backslash, if_pos rfl] at closes
  | @plain c s other unescaped _ ih =>
    have stays := step c (s ++ mark :: rest)
    rw [Place.next, if_neg unescaped, if_neg other] at stays
    exact stays.trans ih
  | @escape s c _ ih =>
    have escapes := step '\\' (c :: (s ++ mark :: rest))
    rw [Place.next, if_pos rfl] at escapes
    exact (escapes.trans (passes_inside (.escaped mark) (by simp) c _)).trans ih

theorem isNeutral_of_isBare (h : isBare c) : isNeutral c := by
  simp only [isBare, Bool.and_eq_true, Bool.not_eq_true'] at h
  obtain ⟨⟨⟨⟨⟨⟨-, quote⟩, opening⟩, closing⟩, -⟩, -⟩, -⟩ := h
  simp [isNeutral, quote, opening, closing]

/-- No bracket counts in a literal, and the count is outside of quotes behind it. -/
theorem IsLiteral.counts (h : IsLiteral s) : Counts s 0 := by
  cases h with
  | @quoted mark s quote inside =>
    refine counts_of_passes fun rest => ?_
    have opens := passes_quote quote (s ++ mark :: rest)
    have closes := inside.passes quote rest
    simpa using opens.trans closes
  | bare _ all =>
    exact counts_neutral (List.all_eq_true.mpr fun c hc =>
      isNeutral_of_isBare (List.all_eq_true.mp all c hc))

/-! ## The depth of a text -/

variable {literals : Literals} {v : Value}

theorem depthOfFields_perm {fs gs : List (String × Value)} (h : fs.Perm gs) :
    depthOfFields fs = depthOfFields gs := by
  induction h with
  | nil => rfl
  | cons field _ ih => simp only [depthOfFields, ih]
  | swap f g fs => simp only [depthOfFields, Nat.max_left_comm]
  | trans _ _ ih ih' => exact ih.trans ih'

/-- A comma in front of a text changes nothing. -/
theorem Counts.comma (h : Counts s n) : Counts (',' :: s) n := by
  simpa using (counts_neutral (s := [',']) (by decide)).append h

theorem IsTail.counts (h : IsTail s) : Counts s 0 := by
  rcases h with rfl | ⟨space, rfl⟩
  · exact counts_neutral rfl
  · exact (counts_spaces space).comma

/-- **The text of a value counts its depth**, and so do the texts of its parts. -/
theorem Renders.counts {w : Written} (h : Renders literals w s) : Counts s w.depth := by
  induction h with
  | literal h =>
    rw [Written.depth, literals.depth_of_scalar h]
    exact (literals.isLiteral_of_scalar h).counts
  | @array vs s _ ih =>
    have enclosed : Counts ('[' :: s ++ [']']) (depthOfItems vs + 1) := ih.enclosed rfl rfl
    rwa [Nat.add_comm] at enclosed
  | @object fields written s _ order ih =>
    have enclosed : Counts ('\x7b' :: s ++ ['\x7d']) (depthOfFields written + 1) :=
      ih.enclosed rfl rfl
    rwa [depthOfFields_perm order, Nat.add_comm] at enclosed
  | spaced lead tail _ ih =>
    simpa using ((counts_spaces lead).append ih).append (counts_spaces tail)
  | noItems space => exact counts_spaces space
  | lastItem _ tail ih => exact ih.append tail.counts
  | nextItem _ _ item rest => exact item.append rest.comma
  | field lead gap named _ ih =>
    have key := (literals.isLiteral_of_key named).counts
    have front := ((counts_spaces lead).append key).append (counts_spaces gap)
    have colon : Counts [':'] 0 := counts_neutral (by decide)
    simpa [Written.depth] using front.append (colon.append ih)
  | noFields space => exact counts_spaces space
  | lastField _ tail ih => exact ih.append tail.counts
  | nextField _ _ field rest => exact field.append rest.comma

theorem Renders.nesting_eq (h : Renders literals (.value v) s) : nesting s = v.depth := by
  have counts := h.counts 0 []
  simpa [nesting, nestingFrom, Written.depth] using counts

theorem readObject_eq_tooDeep_iff {parse : Parser} :
    readObject parse s = .error .tooDeep ↔ maxDepth < nesting s := by
  unfold readObject
  split
  · next deep => exact iff_of_true rfl deep
  · next within =>
    refine iff_of_false ?_ within
    split <;> nofun

/-- **The count of brackets is exact on texts without comments.** For every reading of literals it
is the depth of the value that is written. So a hint is refused for its depth exactly when its value
is deeper than the limit, whatever the parser makes of it. -/
theorem nesting_of_renders (h : Renders literals (.value v) s) (parse : Parser) :
    nesting s = v.depth ∧
    (readObject parse s = .error .tooDeep ↔ maxDepth < v.depth) ∧
    ∀ trailing, payload? trailing = some s →
      (ofTrailing parse trailing = .error .tooDeep ↔ maxDepth < v.depth) := by
  have guard : readObject parse s = .error .tooDeep ↔ maxDepth < v.depth := by
    rw [readObject_eq_tooDeep_iff, h.nesting_eq]
  refine ⟨h.nesting_eq, guard, fun trailing payload => ?_⟩
  rw [← guard, ofTrailing, payload]
  change (readObject parse s).map some = _ ↔ _
  cases readObject parse s with
  | error flaw => simp [Except.map]
  | ok fields => simp [Except.map]

/-- A string with a brace, a quote and a bracket in it, and a backslash at its end. -/
def misleading : String := "\x7d\"[\\"

/-- The string as it is written. -/
def misleadingText : List Char := "\"\x7d\\\"[\\\\\"".toList

/-- An object with the string in it, and with a bracket in a key. -/
def guarded : Value :=
  .object [("a]", .array [.array [.str misleading]]), ("c", .array [])]

/-- The object with its fields in the other order, white space and commas behind last parts. -/
def guardedText : List Char :=
  "\x7bc: [ ], 'a]' : [[".toList ++ misleadingText ++ " , ]],\x7d".toList

theorem read_misleading : Literals.read.scalar misleadingText (.str misleading) := by
  have inside : QuotedText '"' "\x7d\\\"[\\\\".toList :=
    .plain (by decide) (by decide) (.escape _ (.plain (by decide) (by decide) (.escape _ .nil)))
  have read : (Value.read misleadingText).any
      fun | .str text => text == misleading | _ => false := by decide +kernel
  obtain ⟨v, hv, same⟩ := Option.any_eq_true _ _ |>.mp read
  split at same
  · rw [eq_of_beq same] at hv
    exact ⟨.quoted rfl inside, hv, rfl⟩
  · cases same

theorem renders_guarded : Renders .read (.value guarded) guardedText := by
  let noSpace : Spaces := ⟨[], nofun⟩
  let space : Spaces := ⟨[' '], List.all_eq_true.mp rfl⟩
  have bare : Literals.read.key ['c'] "c" := ⟨.bare nofun (by decide), by decide +kernel⟩
  have quoted : Literals.read.key "'a]'".toList "a]" :=
    ⟨.quoted rfl (.plain (by decide) (by decide) (.plain (by decide) (by decide) .nil)),
      by decide +kernel⟩
  have tail (blank : Spaces) : IsTail (',' :: blank.1) := .inr ⟨blank, rfl⟩
  have first := Renders.field noSpace noSpace bare
    (.spaced space noSpace (.array (.noItems space)))
  have string := Renders.spaced noSpace space (.literal read_misleading)
  have inner := Renders.array (.lastItem string (tail space))
  have outer := Renders.array (.lastItem inner (.inl rfl))
  have last := Renders.field space space quoted (.spaced space noSpace outer)
  exact .object (.nextField first (.lastField last (tail noSpace))) (.swap _ _ [])

theorem nesting_of_renders_guarded :
    nesting guardedText = 3 ∧
      ofTrailing terse ("// ".toList ++ guardedText) ≠ .error .tooDeep := by
  obtain ⟨count, -, guard⟩ := nesting_of_renders renders_guarded terse
  have within : ¬ maxDepth < guarded.depth := by decide
  have payload : payload? ("// ".toList ++ guardedText) = some guardedText := by decide +kernel
  exact ⟨count.trans (by decide), fun refused => within ((guard _ payload).mp refused)⟩

end ShaderInterface.Hint
