import ShaderInterface.Proofs.Macro.Rendering
import ShaderInterface.Proofs.Macro.Resolution
import ShaderInterface.Proofs.Macro.Substitution

/-!
# Macros stand for whole words

A line is the sequence of its maximal runs of word characters and of the texts between them, and
there is one way only to see it so (`parted_iff`). Putting macros into the line replaces the runs
that are names of macros. This is the same as going through the line from left to right and
replacing each identifier that stands between two word boundaries (`rewrites_iff`).

A text mentions the macros that its runs name (`mentioned`). With its macros put in, it mentions
what the values of these mention (`mentioned_replace`); so where values mention no macro, there is
nothing left to put in (`substitute_substitute`).
-/

namespace ShaderInterface.Macro.Table

open Text

variable {table : Table} {name rest run s t : List Char} {runs : List (List Char)} {c : Char}
  {previous : Option Char}

/-! ## The parts of a text -/

/-- The text consists of `runs`: maximal runs of word characters, and what stands between them. -/
structure Parted (s : List Char) (runs : List (List Char)) : Prop where
  flatten : runs.flatten = s
  ne_nil : ∀ run ∈ runs, run ≠ []
  uniform : ∀ run ∈ runs, (∀ c ∈ run, isWordChar c) ∨ ∀ c ∈ run, isWordChar c = false
  maximal : runs.IsChain fun a b => ∀ x ∈ a.getLast?, ∀ y ∈ b.head?, isWordChar x ≠ isWordChar y

theorem parted_wordRuns (s : List Char) : Parted s (wordRuns s) where
  flatten := List.flatten_splitBy _ s
  ne_nil run h := List.ne_nil_of_mem_splitBy h
  uniform run h := by
    have alike : IsTrans Char fun x y => (isWordChar x == isWordChar y) = true :=
      ⟨fun _ _ _ h h' => beq_iff_eq.mpr ((beq_iff_eq.mp h).trans (beq_iff_eq.mp h'))⟩
    have pairs := (List.isChain_of_mem_splitBy h).pairwise
    cases run with
    | nil => exact .inl nofun
    | cons c run =>
      have first : ∀ d ∈ run, isWordChar d = isWordChar c := fun d hd =>
        (beq_iff_eq.mp ((List.pairwise_cons.mp pairs).1 d hd)).symm
      cases hc : isWordChar c with
      | true => exact .inl (List.forall_mem_cons.mpr ⟨hc, fun d hd => (first d hd).trans hc⟩)
      | false => exact .inr (List.forall_mem_cons.mpr ⟨hc, fun d hd => (first d hd).trans hc⟩)
  maximal := by
    refine (List.isChain_getLast_head_splitBy _ s).imp ?_
    rintro a b ⟨ha, hb, differ⟩ x hx y hy
    rw [List.getLast?_eq_some_getLast ha] at hx
    rw [List.head?_eq_some_head hb] at hy
    cases hx
    cases hy
    exact beq_eq_false_iff_ne.mp differ

theorem Parted.wordRuns_eq (h : Parted s runs) : wordRuns s = runs := by
  induction runs generalizing s with
  | nil => rw [← h.flatten]; rfl
  | cons run runs ih =>
    have rest : Parted runs.flatten runs :=
      ⟨rfl, fun r hr => h.ne_nil r (List.mem_cons_of_mem run hr),
        fun r hr => h.uniform r (List.mem_cons_of_mem run hr), h.maximal.tail⟩
    have cut : ∀ x ∈ run.getLast?, ∀ y ∈ runs.flatten.head?, isWordChar x ≠ isWordChar y := by
      cases runs with
      | nil => nofun
      | cons next runs =>
        obtain ⟨y, next, rfl⟩ :=
          List.exists_cons_of_ne_nil (h.ne_nil next (List.mem_cons_of_mem run List.mem_cons_self))
        exact (List.isChain_cons_cons.mp h.maximal).1
    have alone : wordRuns run = [run] := by
      have ne := h.ne_nil run List.mem_cons_self
      rcases h.uniform run List.mem_cons_self with word | none
      · exact wordRuns_run ne word
      · exact wordRuns_run ne none
    rw [← h.flatten, List.flatten_cons, wordRuns_append cut, alone, ih rest, List.singleton_append]

/-- A text has its parts in one way only. -/
theorem parted_iff : Parted s runs ↔ runs = wordRuns s :=
  ⟨fun h => h.wordRuns_eq.symm, fun h => h ▸ parted_wordRuns s⟩

/-! ## From left to right -/

/-- The text put in place of a name. -/
def rendered (table : Table) (name : List Char) : List Char :=
  match table.get? (String.ofList name) with
  | some v => v.render.toList
  | none => name

theorem replaceRun_of_isIdentifier (ident : isIdentifier run) :
    table.replaceRun run = table.rendered run := if_pos ident

/-- The identifier `name` stands between two word boundaries, behind the character `previous` and
in front of `rest`. -/
structure Stands (previous : Option Char) (name rest : List Char) : Prop where
  ident : isIdentifier name
  front : isBoundary previous
  back : isBoundary rest.head?

theorem Stands.word (h : Stands previous name rest) : ∀ c ∈ name, isWordChar c :=
  fun c hc => isWordChar_of_isIdentChar (isIdentChar_of_mem h.ident c hc)

theorem Stands.ne_nil (h : Stands previous name rest) : name ≠ [] := by
  rintro rfl
  cases h.ident

/-- The text `t` is `s` with the identifiers replaced that stand between word boundaries. They are
found from left to right, and each is looked for behind the one in front of it. `previous` is the
character in front of `s`. -/
inductive Rewrites (table : Table) : Option Char → List Char → List Char → Prop where
  | nil {previous : Option Char} : Rewrites table previous [] []
  /-- Where no identifier stands, one may stand behind the first character. -/
  | skip {previous : Option Char} {c : Char} {s t : List Char}
      (none : ∀ name rest, c :: s = name ++ rest → ¬ Stands previous name rest)
      (later : Rewrites table (some c) s t) : Rewrites table previous (c :: s) (c :: t)
  /-- Where an identifier stands, the next may stand behind it. -/
  | take {previous : Option Char} {name rest t : List Char} (found : Stands previous name rest)
      (later : Rewrites table name.getLast? rest t) :
      Rewrites table previous (name ++ rest) (table.rendered name ++ t)

/-- A word ends where it ends, whichever word is looked for. -/
theorem word_unique {run' s' : List Char} (word : ∀ c ∈ run, isWordChar c)
    (word' : ∀ c ∈ run', isWordChar c) (ends : isBoundary s.head?) (ends' : isBoundary s'.head?)
    (same : run ++ s = run' ++ s') : run = run' ∧ s = s' := by
  have stop : ∀ {u : List Char}, isBoundary u.head? → ∀ c ∈ u.head?, isWordChar c = false := by
    intro u h c hc
    rw [Option.mem_def.mp hc] at h
    simpa using h
  have front := congrArg (List.takeWhile isWordChar) same
  rw [takeWhile_run word (stop ends), takeWhile_run word' (stop ends')] at front
  exact ⟨front, List.append_cancel_left (front ▸ same)⟩

/-- Behind the first character of a word no identifier stands before the word ends. -/
theorem Rewrites.inside (hp : isBoundary previous = false) (word : ∀ c ∈ run, isWordChar c)
    (later : ∀ p, Rewrites table p s t) : Rewrites table previous (run ++ s) (run ++ t) := by
  induction run generalizing previous with
  | nil => exact later previous
  | cons c run ih =>
    obtain ⟨first, others⟩ := List.forall_mem_cons.mp word
    refine .skip (fun name rest _ stands => ?_) (ih (by simpa using first) others)
    rw [stands.front] at hp
    cases hp

/-- From left to right the same is replaced as part by part. -/
theorem rewrites_replace (front : isBoundary previous ∨ isBoundary s.head?) :
    Rewrites table previous s (table.replace s) := by
  induction s using wordInduction generalizing previous with
  | nil => exact .nil
  | other c s noWord ih =>
    rw [replace_cons noWord]
    refine .skip (fun name rest same stands => ?_) (ih (.inl (by simpa using noWord)))
    cases name with
    | nil => exact stands.ne_nil rfl
    | cons d name =>
      have first := stands.word d List.mem_cons_self
      rw [← (List.cons.inj same).1, noWord] at first
      cases first
  | word run s ne word ends ih =>
    have later : ∀ p, Rewrites table p s (table.replace s) := fun p => ih (.inr ends)
    rw [replace_word_append ne word ends]
    cases ident : isIdentifier run with
    | true =>
      have front : isBoundary previous := front.resolve_right fun h => by
        obtain ⟨c, run, rfl⟩ := List.exists_cons_of_ne_nil ne
        simp [word c List.mem_cons_self] at h
      rw [replaceRun_of_isIdentifier ident]
      exact .take ⟨ident, front, ends⟩ (later _)
    | false =>
      rw [replaceRun_of_not_isIdentifier ident]
      obtain ⟨c, run, rfl⟩ := List.exists_cons_of_ne_nil ne
      obtain ⟨first, others⟩ := List.forall_mem_cons.mp word
      refine .skip (fun name rest same stands => ?_) (.inside (by simpa using first) others later)
      obtain ⟨rfl, -⟩ := word_unique word stands.word ends stands.back same
      rw [stands.ident] at ident
      cases ident

/-- What is replaced from left to right is determined. -/
theorem Rewrites.unique {t' : List Char} (h : Rewrites table previous s t)
    (h' : Rewrites table previous s t') : t = t' := by
  induction h generalizing t' with
  | nil =>
    generalize hs : ([] : List Char) = s at h'
    cases h' with
    | nil => rfl
    | skip => cases hs
    | take found => exact absurd (List.append_eq_nil_iff.mp hs.symm).1 found.ne_nil
  | @skip previous c s t none later ih =>
    generalize hs : c :: s = u at h'
    cases h' with
    | nil => cases hs
    | skip _ later' =>
      cases hs
      rw [ih later']
    | take found => exact absurd found (none _ _ hs)
  | @take previous name rest t found later ih =>
    generalize hs : name ++ rest = u at h'
    cases h' with
    | nil => exact absurd (List.append_eq_nil_iff.mp hs).1 found.ne_nil
    | skip none => exact absurd found (none _ _ hs.symm)
    | take found' later' =>
      obtain ⟨rfl, rfl⟩ := word_unique found.word found'.word found.back found'.back hs
      rw [ih later']

/-- Going from left to right replaces what going part by part replaces. -/
theorem rewrites_iff : Rewrites table none s t ↔ t = table.replace s := by
  have found : Rewrites table none s (table.replace s) := rewrites_replace (.inl isBoundary_none)
  exact ⟨fun h => h.unique found, fun h => h ▸ found⟩

/-! ## Macros that a text mentions -/

/-- The value of the macro that a run names, if it names one. -/
def named (table : Table) (run : List Char) : List Literal :=
  (table.get? (String.ofList run)).toList

/-- The values of the macros that the runs of a text name. -/
def mentioned (table : Table) (s : List Char) : List Literal := (wordRuns s).flatMap table.named

/-- Macros have identifiers for names. -/
def HasNames (table : Table) : Prop :=
  ∀ name v, table.get? name = some v → isIdentifier name.toList

theorem HasNames.isIdentifier {v : Literal} (h : table.HasNames)
    (hv : table.get? (String.ofList run) = some v) : isIdentifier run := by
  have ident := h _ v hv
  rwa [String.toList_ofList] at ident

/-- What is no identifier names no macro. -/
theorem HasNames.get?_eq_none (h : table.HasNames) (other : Text.isIdentifier run = false) :
    table.get? (String.ofList run) = none := by
  rw [Option.eq_none_iff_forall_ne_some]
  intro v hv
  rw [h.isIdentifier hv] at other
  cases other

theorem HasNames.replaceRun_eq (h : table.HasNames) (run : List Char) :
    table.replaceRun run = table.rendered run := by
  cases ident : Text.isIdentifier run with
  | true => exact replaceRun_of_isIdentifier ident
  | false => rw [rendered, h.get?_eq_none ident, replaceRun_of_not_isIdentifier ident]

theorem mentioned_eq_nil_iff :
    table.mentioned s = [] ↔ ∀ run ∈ wordRuns s, table.get? (String.ofList run) = none := by
  simp only [mentioned, named, List.flatMap_eq_nil_iff, Option.toList_eq_nil_iff]

theorem exists_get?_of_mem_mentioned {v : Literal} (h : v ∈ table.mentioned s) :
    ∃ name, table.get? name = some v := by
  obtain ⟨run, -, hv⟩ := List.mem_flatMap.mp h
  exact ⟨_, Option.mem_toList.mp hv⟩

section Mentioned

variable (names : table.HasNames)
include names

theorem named_of_not_isIdentifier (other : isIdentifier run = false) : table.named run = [] := by
  rw [named, names.get?_eq_none other, Option.toList_none]

theorem cuttable_named : Cuttable table.named := by
  have none : ∀ {u : List Char}, (∀ c ∈ u, isWordChar c = false) → table.named u = [] :=
    fun gap => named_of_not_isIdentifier names (not_isIdentifier_of_no_word gap)
  intro a b gap
  obtain ⟨left, right⟩ := List.forall_mem_append.mp gap
  rw [none gap, none left, none right, List.append_nil]

theorem mentioned_append {a b : List Char} (ends : isBoundary a.getLast? ∨ isBoundary b.head?) :
    table.mentioned (a ++ b) = table.mentioned a ++ table.mentioned b :=
  flatMap_wordRuns_append (cuttable_named names) ends

/-- Where no identifier can begin, no macro is mentioned. -/
theorem mentioned_eq_nil (h : ∀ c ∈ s, isIdentStart c = false) : table.mentioned s = [] := by
  refine mentioned_eq_nil_iff.mpr fun run hrun => names.get?_eq_none ?_
  cases run with
  | nil => rfl
  | cons c run =>
    have member : c ∈ (wordRuns s).flatten := List.mem_flatten_of_mem hrun List.mem_cons_self
    rw [wordRuns, List.flatten_splitBy] at member
    rw [isIdentifier, h c member, Bool.false_and]

theorem mentioned_cons (noWord : isWordChar c = false) (s : List Char) :
    table.mentioned (c :: s) = table.mentioned s := by
  have other : isIdentifier [c] = false := not_isIdentifier_of_no_word (by simpa using noWord)
  rw [mentioned, flatMap_wordRuns_cons (cuttable_named names) noWord,
    named_of_not_isIdentifier names other, List.nil_append, mentioned]

/-- **A text with its macros put in mentions what their values mention.** -/
theorem mentioned_replace (s : List Char) :
    table.mentioned (table.replace s) =
      (table.mentioned s).flatMap fun v => table.mentioned v.render.toList := by
  induction s using wordInduction with
  | nil => rfl
  | other c s noWord ih =>
    rw [replace_cons noWord, mentioned_cons names noWord, mentioned_cons names noWord, ih]
  | word run s ne word ends ih =>
    have alone : table.mentioned run = (table.get? (String.ofList run)).toList := by
      rw [mentioned, wordRuns_run ne word, List.flatMap_singleton, named]
    have first : table.mentioned (table.replaceRun run) =
        (table.mentioned run).flatMap fun v => table.mentioned v.render.toList := by
      rw [names.replaceRun_eq, rendered, alone]
      cases hv : table.get? (String.ofList run) with
      | none => rw [alone, hv, Option.toList_none, List.flatMap_nil]
      | some v => rw [Option.toList_some, List.flatMap_singleton]
    rw [replace_word_append ne word ends, mentioned_append names (.inr (isBoundary_replace ends)),
      mentioned_append names (.inr ends), List.flatMap_append, first, ih]

theorem mentioned_unlines (ls : List (List Char)) :
    table.mentioned (unlines ls) = ls.flatMap table.mentioned := by
  have feed : isWordChar '\n' = false := not_isWordChar_of_isBlank (by decide)
  induction ls with
  | nil => rfl
  | cons l ls ih =>
    cases ls with
    | nil => rw [unlines_singleton, List.flatMap_singleton]
    | cons l' ls =>
      rw [unlines_cons_cons, mentioned_append names (.inr (by simpa using feed)),
        mentioned_cons names feed, ih, List.flatMap_cons (x := l)]

end Mentioned

/-! ## Putting macros in twice -/

/-- Nothing is put into a text that mentions no macro. -/
theorem replace_of_mentioned_eq_nil (h : table.mentioned s = []) : table.replace s = s := by
  have kept : ∀ run ∈ wordRuns s, table.replaceRun run = run := fun run hrun => by
    rw [replaceRun, mentioned_eq_nil_iff.mp h run hrun]
    split <;> rfl
  rw [replace, List.flatMap_congr kept, List.flatMap_id', wordRuns, List.flatten_splitBy]

/-- Nothing is put into a line that mentions no macro, and nothing into a directive. -/
theorem substituteLine_eq_self (h : isDirective s ∨ table.mentioned s = []) :
    table.substituteLine s = s := by
  rw [substituteLine]
  split
  · rfl
  · next plain => exact replace_of_mentioned_eq_nil (h.resolve_left plain)

/-- The values of the macros mention no macro. -/
def Settled (table : Table) : Prop :=
  ∀ name v, table.get? name = some v → table.mentioned v.render.toList = []

/-- The lines that a line becomes are directives, or mention no macro. -/
theorem mentioned_substituteLine (names : table.HasNames) (settled : table.Settled)
    (inLine : '\n' ∉ s) : ∀ l ∈ lines (table.substituteLine s),
      isDirective l ∨ table.mentioned l = [] := by
  rw [substituteLine]
  split
  · next directive =>
    rw [lines_of_not_mem inLine]
    exact fun l hl => .inl (List.mem_singleton.mp hl ▸ directive)
  · have none : table.mentioned (table.replace s) = [] := by
      rw [mentioned_replace names, List.flatMap_eq_nil_iff]
      intro v hv
      obtain ⟨name, hname⟩ := exists_get?_of_mem_mentioned hv
      exact settled name v hname
    rw [← unlines_lines (table.replace s), mentioned_unlines names, List.flatMap_eq_nil_iff] at none
    exact fun l hl => .inr (none l hl)

/-- **Nothing is left to put in** where the values of the macros mention no macro. -/
theorem substitute_substitute (names : table.HasNames) (settled : table.Settled) (s : List Char) :
    table.substitute (table.substitute s) = table.substitute s := by
  have stays : ∀ l ∈ lines (table.substitute s), table.substituteLine l = l := fun l hl => by
    rw [substitute_eq_unlines, lines_unlines (by simpa [lines] using split_ne_nil '\n' s),
      List.mem_flatMap] at hl
    obtain ⟨out, hout, hl⟩ := hl
    obtain ⟨line, hline, rfl⟩ := List.mem_map.mp hout
    have inLine := not_mem_of_mem_split hline
    exact substituteLine_eq_self (mentioned_substituteLine names settled inLine l hl)
  rw [substitute_eq_unlines table (table.substitute s), List.map_congr_left stays, List.map_id',
    unlines_lines]

/-- An integer mentions no macro. -/
theorem mentioned_int (names : table.HasNames) (n : Int) :
    table.mentioned (Literal.int n).render.toList = [] := by
  refine mentioned_eq_nil names fun c hc => ?_
  rw [Literal.render, Number.toList_toString, List.mem_append] at hc
  rw [Bool.eq_false_iff]
  intro start
  rcases hc with sign | digit
  · split at sign
    · cases List.mem_singleton.mp sign
      exact absurd start (by decide)
    · cases sign
  · have := Number.isDigit_of_mem_toDigits digit
    rw [not_isDigit_of_isIdentStart start] at this
    cases this

/-! ## Line by line -/

/-- The text `out` is the line with its macros put in: a directive stays, and in any other line the
parts that are names of macros are replaced, which are the identifiers between word boundaries. -/
structure Replaces (table : Table) (line out : List Char) : Prop where
  directive : (trimLeft line).head? = some '#' → out = line
  parts : (trimLeft line).head? ≠ some '#' →
    ∀ runs, Parted line runs → out = runs.flatMap table.rendered
  leftToRight : (trimLeft line).head? ≠ some '#' →
    ∀ t, Rewrites table none line t ↔ t = out

theorem replaces_substituteLine (names : table.HasNames) (line : List Char) :
    table.Replaces line (table.substituteLine line) := by
  have plain : (trimLeft line).head? ≠ some '#' → table.substituteLine line = table.replace line :=
    fun h => if_neg (by simpa [isDirective] using h)
  constructor
  · exact fun h => if_pos (beq_iff_eq.mpr h)
  · intro h runs parted
    rw [plain h, parted_iff.mp parted, replace, funext names.replaceRun_eq]
  · intro h t
    rw [plain h]
    exact rewrites_iff

/-- **Macros are put in for whole words only**, where they have identifiers for names. Every text
has its parts in one way only. In each line that is no directive the parts that are names of macros
are replaced and all others stay, which is to replace the identifiers between word boundaries from
left to right. What is no identifier stays. Nothing is left to put in where no value contains the
name of a macro, so in particular where all values are integers. -/
theorem substitute_words (names : ∀ name v, table.get? name = some v → isIdentifier name.toList) :
    (∀ s, ∃! runs, Parted s runs) ∧
      (∀ s, ∃ outs, table.substitute s = unlines outs ∧
        List.Forall₂ table.Replaces (lines s) outs) ∧
      (∀ run, isIdentifier run = false → table.rendered run = run) ∧
      ((∀ name v, table.get? name = some v → ∀ runs, Parted v.render.toList runs →
          ∀ run ∈ runs, table.get? (String.ofList run) = none) →
        ∀ s, table.substitute (table.substitute s) = table.substitute s) ∧
      ((∀ name v, table.get? name = some v → ∃ n, v = .int n) →
        ∀ s, table.substitute (table.substitute s) = table.substitute s) := by
  have names : table.HasNames := names
  refine ⟨fun s => ?_, fun s => ?_, fun run other => ?_, fun free => ?_, fun ints => ?_⟩
  · exact ⟨wordRuns s, parted_wordRuns s, fun runs h => parted_iff.mp h⟩
  · refine ⟨(lines s).map table.substituteLine, substitute_eq_unlines table s, ?_⟩
    rw [List.forall₂_map_right_iff, List.forall₂_same]
    exact fun line _ => replaces_substituteLine names line
  · rw [← names.replaceRun_eq, replaceRun_of_not_isIdentifier other]
  · refine substitute_substitute names fun name v hv => ?_
    exact mentioned_eq_nil_iff.mpr (free name v hv _ (parted_wordRuns _))
  · refine substitute_substitute names fun name v hv => ?_
    obtain ⟨n, rfl⟩ := ints name v hv
    exact mentioned_int names n

/-- A macro for an integer. -/
def integerMacro : Table := ({} : Table).add "N" (.int (-3))

/-- Two macros, one of which stands for a text with words. -/
def wordyMacros : Table := integerMacro.add "_T" (.str "(N2 - N_)")

/-- Lines in which names touch digits, letters and underscores, and a directive. -/
def touching : List Char := "3N N3 éN Né _N N-N\n\t#define N _T\nN._T _T_".toList

theorem substitute_words_touching :
    (∃ outs, wordyMacros.substitute touching = unlines outs ∧
        List.Forall₂ wordyMacros.Replaces (lines touching) outs) ∧
      wordyMacros.substitute touching =
        "3N N3 éN Né _N -3--3\n\t#define N _T\n-3.(N2 - N_) _T_".toList ∧
      wordyMacros.substitute (wordyMacros.substitute touching) = wordyMacros.substitute touching ∧
      integerMacro.substitute (integerMacro.substitute touching) =
        integerMacro.substitute touching := by
  have integer : ∀ name v, integerMacro.get? name = some v → name = "N" ∧ v = .int (-3) := by
    intro name v h
    rw [integerMacro, get?_add, get?_empty, Option.ite_none_right_eq_some] at h
    exact ⟨h.1.symm, (Option.some.inj h.2).symm⟩
  have wordy : ∀ name v, wordyMacros.get? name = some v →
      (name = "_T" ∧ v = .str "(N2 - N_)") ∨ (name = "N" ∧ v = .int (-3)) := by
    intro name v h
    rw [wordyMacros, get?_add] at h
    split at h
    · next eq => exact .inl ⟨eq.symm, (Option.some.inj h).symm⟩
    · exact .inr (integer name v h)
  have none : ∀ text ∈ ["(N2 - N_)", "-3"], ∀ run ∈ wordRuns text.toList,
      wordyMacros.get? (String.ofList run) = none := by decide +kernel
  obtain ⟨-, -, -, -, ints⟩ := @substitute_words integerMacro fun name v h => by
    rw [(integer name v h).1]
    decide
  obtain ⟨-, lineByLine, -, free, -⟩ := @substitute_words wordyMacros fun name v h => by
    rcases wordy name v h with ⟨rfl, -⟩ | ⟨rfl, -⟩
    · decide
    · decide
  refine ⟨lineByLine touching, by decide +kernel, free (fun name v h runs parted => ?_) touching,
    ints (fun name v h => ⟨-3, (integer name v h).2⟩) touching⟩
  rw [parted_iff.mp parted]
  rcases wordy name v h with ⟨-, rfl⟩ | ⟨-, rfl⟩
  · exact none "(N2 - N_)" (by decide)
  · exact none "-3" (by decide)

end ShaderInterface.Macro.Table
