import ShaderInterface.Text.Blank
import ShaderInterface.Text.Identifier
import ShaderInterface.Text.Occurrence

/-!
# The text that trails a declaration

The comment of a declaration is looked for on a line of the text as it was written: behind the
first semicolon that follows the first place at which the declared name stands alone. A name stands
alone where neither neighbour is an identifier character (`standsAlone_of_findToken`).
-/

namespace ShaderInterface.Declaration

open Text

/-- No identifier character stands there. -/
def isFree (c : Option Char) : Bool := !c.any isIdentChar

/-- The text before and the text after the first place at which the token stands alone. `previous`
is the character in front of the text. After an occurrence that does not stand alone the search
goes on behind it. -/
def findTokenFrom (token : List Char) (previous : Option Char) (s : List Char) :
    Option (List Char × List Char) :=
  match splitAt? token s with
  | none => none
  | some (before, after) =>
    if isFree (before.getLast?.or previous) && isFree after.head? then some (before, after)
    else if after.length < s.length then
      (findTokenFrom token (token.getLast?) after).map fun (b, a) => (before ++ token ++ b, a)
    else none
termination_by s.length

/-- The text before and the text after the first place at which the token stands alone. -/
def findToken (token s : List Char) : Option (List Char × List Char) := findTokenFrom token none s

/-- The line without the carriage returns at its end. -/
def dropReturns (line : List Char) : List Char := (line.reverse.dropWhile (· == '\r')).reverse

/-- The text behind the first semicolon, without the blanks around it. -/
def behindSemicolon (s : List Char) : List Char := trim ((s.dropWhile (· != ';')).drop 1)

/-- The text that trails the declaration of a name on a line. Where the name does not stand alone
on the line, the first semicolon of the line counts. -/
def trailingText (name line : List Char) : List Char :=
  let line := dropReturns line
  behindSemicolon <| match findToken name line with
    | some (_, after) => after
    | none => line

theorem eq_append_of_findTokenFrom {token s before after : List Char} {previous : Option Char}
    (h : findTokenFrom token previous s = some (before, after)) :
    s = before ++ token ++ after := by
  fun_induction findTokenFrom token previous s generalizing before after with
  | case1 => cases h
  | case2 _ s b a hs _ =>
    cases h
    exact splitAt?_eq_some hs
  | case3 _ s b a hs _ _ ih =>
    obtain ⟨⟨b', a'⟩, hb, heq⟩ := Option.map_eq_some_iff.mp h
    cases heq
    rw [splitAt?_eq_some hs, ih hb]
    simp
  | case4 => cases h

theorem eq_append_of_findToken {token s before after : List Char}
    (h : findToken token s = some (before, after)) : s = before ++ token ++ after :=
  eq_append_of_findTokenFrom h

theorem standsAlone_of_findTokenFrom {token s before after : List Char} {previous : Option Char}
    (nonempty : token ≠ []) (h : findTokenFrom token previous s = some (before, after)) :
    isFree (before.getLast?.or previous) = true ∧ isFree after.head? = true := by
  fun_induction findTokenFrom token previous s generalizing before after with
  | case1 => cases h
  | case2 _ s b a hs free =>
    cases h
    simpa using free
  | case3 _ s b a hs _ _ ih =>
    obtain ⟨⟨b', a'⟩, hb, heq⟩ := Option.map_eq_some_iff.mp h
    cases heq
    refine ⟨?_, (ih hb).2⟩
    have := (ih hb).1
    cases b' with
    | nil => simpa [List.getLast?_append, List.getLast?_eq_some_getLast nonempty] using this
    | cons c b' => simpa [List.getLast?_append, List.getLast?_cons] using this
  | case4 => cases h

theorem standsAlone_of_findToken {token s before after : List Char} (nonempty : token ≠ [])
    (h : findToken token s = some (before, after)) :
    isFree before.getLast? = true ∧ isFree after.head? = true := by
  simpa using standsAlone_of_findTokenFrom nonempty h

end ShaderInterface.Declaration
