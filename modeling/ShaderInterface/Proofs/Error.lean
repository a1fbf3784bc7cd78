import ShaderInterface.Error

/-!
# The texts of errors

A text put together from parts is not empty where a part is not; so every error has a text
(`Error.message_ne_empty`).
-/

namespace ShaderInterface

theorem append_ne_empty_of_left {s : String} (h : s ≠ "") (t : String) : s ++ t ≠ "" :=
  fun e => h (String.append_eq_empty_iff.mp e).1

theorem append_ne_empty_of_right {s : String} (h : s ≠ "") (t : String) : t ++ s ≠ "" :=
  fun e => h (String.append_eq_empty_iff.mp e).2

/-- Every error has a text. -/
theorem Error.message_ne_empty (e : Error) : e.message ≠ "" := by
  -- each text has words of its own in front of, between or behind the parts it is given
  cases e with
  | link log | backend text => exact append_ne_empty_of_left (by decide) _
  | compile | macroResolution | invalidHint =>
    exact append_ne_empty_of_left (append_ne_empty_of_right (by decide) _) _
  | unknownStruct | invalidArraySize | unsupportedType | unknownTag =>
    exact append_ne_empty_of_right (by decide) _

end ShaderInterface
