/-!
# Occurrences of one text in another

`afterPrefix?` removes a given beginning, `splitAt?` cuts a text at the first occurrence of
another: before, occurrence and after make up the text (`splitAt?_eq_some`).
-/

namespace ShaderInterface.Text

/-- What follows the given beginning, if the text begins so. -/
def afterPrefix? : List Char → List Char → Option (List Char)
  | [], s => some s
  | _ :: _, [] => none
  | p :: ps, c :: s => if p = c then afterPrefix? ps s else none

/-- The text before the first occurrence of `token` and the text after it. -/
def splitAt? (token : List Char) : List Char → Option (List Char × List Char)
  | [] => (afterPrefix? token []).map fun after => ([], after)
  | c :: s =>
    match afterPrefix? token (c :: s) with
    | some after => some ([], after)
    | none => (splitAt? token s).map fun (before, after) => (c :: before, after)

theorem afterPrefix?_eq_some_iff {token s rest : List Char} :
    afterPrefix? token s = some rest ↔ s = token ++ rest := by
  fun_induction afterPrefix? token s <;> simp_all [eq_comm]

@[simp]
theorem afterPrefix?_append (token rest : List Char) :
    afterPrefix? token (token ++ rest) = some rest := afterPrefix?_eq_some_iff.mpr rfl

theorem splitAt?_eq_some {token s before after : List Char}
    (h : splitAt? token s = some (before, after)) : s = before ++ token ++ after := by
  induction s generalizing before with
  | nil =>
    obtain ⟨rest, hr, heq⟩ := Option.map_eq_some_iff.mp h
    cases heq
    simpa using afterPrefix?_eq_some_iff.mp hr
  | cons c s ih =>
    unfold splitAt? at h
    split at h
    · next rest hr =>
      cases h
      simpa using afterPrefix?_eq_some_iff.mp hr
    · obtain ⟨⟨b, a⟩, hb, heq⟩ := Option.map_eq_some_iff.mp h
      cases heq
      simp [ih hb]

end ShaderInterface.Text
