import Mathlib.Data.List.Infix
import ShaderInterface.Macro.Token

/-!
# Where tokens come from

Every reader leaves an end of the text that it reads (`readToken_suffix`). So what is true of the
token in front of every end of a text is true of all its tokens (`forall_mem_lex`).
-/

namespace ShaderInterface.Macro

open Number Text

variable {s rest text : List Char} {c : Char} {token : Token}

/-! ## What is left -/

theorem readQuoted_suffix {mark : Char} (h : readQuoted mark s = some (text, rest)) :
    rest <:+ s := by
  fun_induction readQuoted mark s generalizing text with
  | case1 | case2 => cases h
  | case3 c s ih =>
    obtain ⟨⟨t, r⟩, ht, heq⟩ := Option.map_eq_some_iff.mp h
    cases heq
    exact (ih ht).trans ((List.suffix_cons c s).trans (List.suffix_cons '\\' (c :: s)))
  | case4 s =>
    cases h
    exact List.suffix_cons _ _
  | case5 c s _ _ _ ih =>
    obtain ⟨⟨t, r⟩, ht, heq⟩ := Option.map_eq_some_iff.mp h
    cases heq
    exact (ih ht).trans (List.suffix_cons c s)

/-- A quoted text holds nothing that does not stand between the marks. -/
theorem mem_of_readQuoted {mark : Char} (h : readQuoted mark s = some (text, rest)) :
    ∀ d ∈ text, d ∈ s := by
  fun_induction readQuoted mark s generalizing text with
  | case1 | case2 => cases h
  | case3 c s ih =>
    obtain ⟨⟨t, r⟩, ht, heq⟩ := Option.map_eq_some_iff.mp h
    cases heq
    have inside := List.forall_mem_cons.mpr
      ⟨List.mem_cons_self (a := c) (l := s), fun d hd => List.mem_cons_of_mem c (ih ht d hd)⟩
    exact fun d hd => List.mem_cons_of_mem '\\' (inside d hd)
  | case4 s =>
    cases h
    exact List.forall_mem_nil _
  | case5 c s _ _ _ ih =>
    obtain ⟨⟨t, r⟩, ht, heq⟩ := Option.map_eq_some_iff.mp h
    cases heq
    exact List.forall_mem_cons.mpr
      ⟨List.mem_cons_self, fun d hd => List.mem_cons_of_mem c (ih ht d hd)⟩

theorem dropSuffix_suffix (lower upper : Char) (s : List Char) :
    dropSuffix lower upper s <:+ s := by
  cases s with
  | nil => exact List.suffix_rfl
  | cons c s =>
    rw [dropSuffix]
    split
    · exact List.suffix_cons c s
    · exact List.suffix_rfl

theorem readHexadecimal_suffix (h : readHexadecimal s = .ok (token, rest)) : rest <:+ s := by
  simp only [readHexadecimal] at h
  split at h
  · cases h
    exact (dropSuffix_suffix _ _ _).trans (List.dropWhile_suffix _)
  · cases h

theorem readFraction_suffix (s : List Char) : (readFraction s).2 <:+ s := by
  fun_cases readFraction s with
  | case1 s => exact (List.dropWhile_suffix _).trans (List.suffix_cons '.' s)
  | case2 => exact List.suffix_rfl

theorem readSign_suffix (s : List Char) : (readSign s).2 <:+ s := by
  fun_cases readSign s with
  | case1 s => exact List.suffix_cons '-' s
  | case2 s => exact List.suffix_cons '+' s
  | case3 => exact List.suffix_rfl

theorem readExponent_suffix (s : List Char) : (readExponent s).2 <:+ s := by
  fun_cases readExponent s with
  | case1 => exact List.suffix_rfl
  | case2 mark s negative digits heq =>
    have sign : digits <:+ s := by simpa [heq] using readSign_suffix s
    exact (List.dropWhile_suffix _).trans (sign.trans (List.suffix_cons mark s))
  | case3 => exact List.suffix_rfl

theorem readDecimal_suffix (h : readDecimal s = .ok (token, rest)) : rest <:+ s := by
  have number : (readExponent (readFraction (s.dropWhile Char.isDigit)).2).2 <:+ s :=
    (readExponent_suffix _).trans ((readFraction_suffix _).trans (List.dropWhile_suffix _))
  simp only [readDecimal] at h
  split at h
  · cases h
    exact (dropSuffix_suffix _ _ _).trans number
  split at h
  · cases h
    exact number
  split at h
  · cases h
    exact (dropSuffix_suffix _ _ _).trans number
  · cases h

theorem readNumber_suffix (h : readNumber s = .ok (token, rest)) : rest <:+ s := by
  have behindMark : ∀ {x : Char} {t : List Char}, t <:+ '0' :: x :: t := fun {x t} =>
    (List.suffix_cons x t).trans (List.suffix_cons '0' (x :: t))
  unfold readNumber at h
  split at h
  · exact (readHexadecimal_suffix h).trans behindMark
  · exact (readHexadecimal_suffix h).trans behindMark
  · exact readDecimal_suffix h

/-- What is left behind a token is an end of the text. -/
theorem readToken_suffix (h : readToken c s = .ok (token, rest)) : rest <:+ c :: s := by
  unfold readToken at h
  split at h
  · exact readNumber_suffix h
  split at h
  · split at h
    · next quoted =>
      cases h
      exact (readQuoted_suffix quoted).trans (List.suffix_cons c s)
    · cases h
  split at h
  · next name rest' taken =>
    cases h
    exact ⟨name, (takeIdentifier_eq_some taken).2.1.symm⟩
  split at h
  · cases h
    exact List.suffix_cons c s
  · cases h

/-! ## All tokens -/

/-- What is true of the token in front of every end of a text is true of all its tokens. -/
theorem forall_mem_lex {P : Token → Prop} {tokens : List Token}
    (front : ∀ c t token rest, c :: t <:+ s → readToken c t = .ok (token, rest) → P token)
    (h : lex s = .ok tokens) : ∀ token ∈ tokens, P token := by
  fun_induction lex s generalizing tokens with
  | case1 =>
    cases h
    exact List.forall_mem_nil _
  | case2 c s blank ih =>
    exact ih (fun d t token rest ends => front d t token rest (ends.trans (List.suffix_cons c s))) h
  | case3 => cases h
  | case4 c s blank token rest read _ ih =>
    cases hl : lex rest with
    | error e => rw [hl] at h; cases h
    | ok ts =>
      rw [hl] at h
      cases h
      have behind : ∀ token ∈ ts, P token := ih (fun d t token' rest' ends =>
        front d t token' rest' (ends.trans (readToken_suffix read))) hl
      exact List.forall_mem_cons.mpr ⟨front c s token rest List.suffix_rfl read, behind⟩

end ShaderInterface.Macro
