import ShaderInterface.Hint
import ShaderInterface.Hint.Reader
import ShaderInterface.Proofs.Hint.Nesting
import ShaderInterface.Proofs.Outcome

/-!
# The depth of hints

A value is never deeper than the brackets of its tokens (`Value.depth_le_peakFrom`). With a count of
brackets that does not fall behind the reader, the limit on nesting holds for every hint that is
read, and no deeper value is ever read (`depth_le_of_ofTrailing`). A quote in a comment may make the
count fall behind, and then a deeper hint is read (`not_forall_depth_le`).
-/

namespace ShaderInterface.Hint

/-! ## Values -/

/-- A field that comes in raises the depth of the fields to its own at most. -/
theorem depthOfFields_insert_le (key : String) (v : Value) (fields : Fields) :
    depthOfFields (Fields.insert key v fields) ≤ max v.depth (depthOfFields fields) := by
  fun_induction Fields.insert key v fields with
  | case1 => simp [depthOfFields]
  | case2 => simp only [depthOfFields]; omega
  | case3 => simp only [depthOfFields]; omega
  | case4 k w rest _ _ ih => simp only [depthOfFields]; omega

theorem depthOfFields_ofPairs_le (pairs : List (String × Value)) :
    depthOfFields (Fields.ofPairs pairs) ≤ depthOfFields pairs := by
  have fold : ∀ fields : Fields,
      depthOfFields (pairs.foldl (fun fields pair => Fields.insert pair.1 pair.2 fields) fields) ≤
        max (depthOfFields fields) (depthOfFields pairs) := by
    induction pairs with
    | nil => exact fun fields => Nat.le_max_left _ _
    | cons pair pairs ih =>
      intro fields
      have rest := ih (Fields.insert pair.1 pair.2 fields)
      have inserted := depthOfFields_insert_le pair.1 pair.2 fields
      simp only [List.foldl_cons, depthOfFields]
      omega
  exact Nat.le_trans (fold []) (by simp [depthOfFields])

/-! ## The readers -/

/-- What a value is read from opens at least as many brackets at one time as the value is deep, and
closes them. -/
def ValuesRise (fuel : Nat) : Prop :=
  ∀ tokens v rest, readValue fuel tokens = some (v, rest) →
    ∀ d, max (d + v.depth) (peakFrom d rest) ≤ peakFrom d tokens

/-- What items are read from, with the closing bracket. -/
def ItemsRise (fuel : Nat) : Prop :=
  ∀ tokens vs rest, readItems fuel tokens = some (vs, rest) →
    ∀ d, max (d + 1 + depthOfItems vs) (peakFrom d rest) ≤ peakFrom (d + 1) tokens

/-- What fields are read from, with the closing brace. -/
def FieldsRise (fuel : Nat) : Prop :=
  ∀ tokens fields rest, readFields fuel tokens = some (fields, rest) →
    ∀ d, max (d + 1 + depthOfFields fields) (peakFrom d rest) ≤ peakFrom (d + 1) tokens

variable {fuel : Nat}

/-- A scalar is as deep as the value that its token carries, and its token is no bracket. -/
theorem peakFrom_of_scalar? {token : Token} {v : Value} (h : token.scalar? = some v) (d : Nat)
    (tokens : List Token) :
    peakFrom d (token :: tokens) = max (d + v.depth) (peakFrom d tokens) := by
  unfold Token.scalar? at h
  split at h
  · cases h
    simp [peakFrom, Token.level, Token.depth, Value.depth]
  · cases h
    rfl
  · unfold wordValue? at h
    split at h <;> cases h <;> simp [peakFrom, Token.level, Token.depth, Value.depth]
  · cases h

/-- A key is no bracket. -/
theorem peakFrom_of_key? {token : Token} {key : String} (h : token.key? = some key) (d : Nat)
    (tokens : List Token) :
    peakFrom d tokens ≤ peakFrom d (token :: .colon :: tokens) := by
  unfold Token.key? at h
  split at h
  · simp only [peakFrom, Token.level]
    omega
  · simp only [peakFrom, Token.level]
    omega
  · cases h

theorem valuesRise_succ (items : ItemsRise fuel) (fields : FieldsRise fuel) :
    ValuesRise (fuel + 1) := by
  intro tokens v rest h d
  unfold readValue at h
  split at h
  · next fuel' rest' eq =>
    cases eq
    split at h
    · cases h
      simp only [peakFrom, Token.level, Token.depth, Value.depth, depthOfItems, Nat.add_sub_cancel]
      omega
    · obtain ⟨⟨vs, r⟩, hr, heq⟩ := Option.map_eq_some_iff.mp h
      cases heq
      have inner := items _ _ _ hr d
      simp only [peakFrom, Token.level, Token.depth, Value.depth]
      omega
  · next fuel' rest' eq =>
    cases eq
    split at h
    · cases h
      simp only [peakFrom, Token.level, Token.depth, Value.depth, depthOfFields, Nat.add_sub_cancel]
      omega
    · obtain ⟨⟨fs, r⟩, hr, heq⟩ := Option.map_eq_some_iff.mp h
      cases heq
      have inner := fields _ _ _ hr d
      have fewer := depthOfFields_ofPairs_le fs
      simp only [peakFrom, Token.level, Token.depth, Value.depth]
      omega
  · next n token rest' notBracket notBrace eq =>
    obtain ⟨w, hw, heq⟩ := Option.map_eq_some_iff.mp h
    cases heq
    cases eq
    rw [peakFrom_of_scalar? hw]
  · cases h

theorem itemsRise_succ (values : ValuesRise fuel) (items : ItemsRise fuel) :
    ItemsRise (fuel + 1) := by
  intro tokens vs rest h d
  unfold readItems at h
  split at h
  · next v rest' hv =>
    cases h
    have first := values _ _ _ hv (d + 1)
    simp only [peakFrom, Token.level, Token.depth, Nat.add_sub_cancel] at first
    simp only [depthOfItems]
    omega
  · next v rest' hv =>
    cases h
    have first := values _ _ _ hv (d + 1)
    simp only [peakFrom, Token.level, Token.depth, Nat.add_sub_cancel] at first
    simp only [depthOfItems]
    omega
  · next v rest' _ hv =>
    obtain ⟨⟨ws, r⟩, hr, heq⟩ := Option.map_eq_some_iff.mp h
    cases heq
    have first := values _ _ _ hv (d + 1)
    have others := items _ _ _ hr d
    simp only [peakFrom, Token.level, Token.depth] at first
    simp only [depthOfItems]
    omega
  · cases h

theorem fieldsRise_succ (values : ValuesRise fuel) (fields : FieldsRise fuel) :
    FieldsRise (fuel + 1) := by
  intro tokens fs rest h d
  unfold readFields at h
  split at h
  · next fuel' token rest' eq =>
    cases eq
    split at h
    · next key v after hk hv =>
      cases h
      have first := values _ _ _ hv (d + 1)
      have keyed := peakFrom_of_key? hk (d + 1) rest'
      simp only [peakFrom, Token.level, Token.depth, Nat.add_sub_cancel] at first
      simp only [depthOfFields]
      omega
    · next key v after hk hv =>
      cases h
      have first := values _ _ _ hv (d + 1)
      have keyed := peakFrom_of_key? hk (d + 1) rest'
      simp only [peakFrom, Token.level, Token.depth, Nat.add_sub_cancel] at first
      simp only [depthOfFields]
      omega
    · next key v after _ hk hv =>
      obtain ⟨⟨gs, r⟩, hr, heq⟩ := Option.map_eq_some_iff.mp h
      cases heq
      have first := values _ _ _ hv (d + 1)
      have keyed := peakFrom_of_key? hk (d + 1) rest'
      have others := fields _ _ _ hr d
      simp only [peakFrom, Token.level, Token.depth] at first
      simp only [depthOfFields]
      omega
    · cases h
  · cases h

/-- **A reader goes no deeper than the brackets of what it reads.** -/
theorem rise (fuel : Nat) : ValuesRise fuel ∧ ItemsRise fuel ∧ FieldsRise fuel := by
  induction fuel with
  | zero =>
    refine ⟨fun tokens v rest h => ?_, fun tokens vs rest h => ?_, fun tokens fs rest h => ?_⟩
    · unfold readValue at h
      cases h
    · cases h
    · unfold readFields at h
      cases h
  | succ fuel ih =>
    obtain ⟨values, items, fields⟩ := ih
    exact ⟨valuesRise_succ items fields, itemsRise_succ values items,
      fieldsRise_succ values fields⟩

/-- A value is no deeper than the tokens of which it is read. -/
theorem depth_le_peakFrom {tokens : List Token} {v : Value} (h : Value.ofTokens tokens = some v) :
    v.depth ≤ peakFrom 0 tokens := by
  unfold Value.ofTokens at h
  split at h
  · next w hw =>
    cases h
    have rises := (rise _).1 _ _ _ hw 0
    omega
  · cases h

/-- **A value is no deeper than the count of brackets in its text**, if the comments are steady. -/
theorem depth_le_nesting {payload : List Char} {v : Value}
    (steady : ∀ comment ∈ comments payload, Steady comment) (h : Value.read payload = some v) :
    v.depth ≤ nesting payload := by
  obtain ⟨tokens, lexed, value⟩ := Option.bind_eq_some_iff.mp h
  exact Nat.le_trans (depth_le_peakFrom value) (peakFrom_le_nestingFrom lexed steady 0)

/-! ## Hints -/

variable {parse : Parser} {reason : List Char → String} {trailing payload : List Char}

/-- A text is read as an object when its brackets nest within the limit and it is one. -/
theorem readObject_eq_ok_iff {fields : Fields} :
    readObject parse payload = .ok fields ↔
      nesting payload ≤ maxDepth ∧ parse payload = .ok (.object fields) := by
  unfold readObject
  split
  · next deep => exact ⟨nofun, fun h => absurd h.1 (Nat.not_le.mpr deep)⟩
  · next within =>
    rw [and_iff_right (Nat.not_lt.mp within)]
    split
    · next reason malformed => exact ⟨nofun, fun h => by cases malformed.symm.trans h⟩
    · next fields' read => rw [read, Except.ok.injEq, Except.ok.injEq, Value.object.injEq]
    · next v other read =>
      refine ⟨nofun, fun h => ?_⟩
      cases read.symm.trans h
      exact (other fields rfl).elim

theorem ofTrailing_eq_ok_some_iff {fields : Fields} :
    ofTrailing parse trailing = .ok (some fields) ↔
      ∃ payload, payload? trailing = some payload ∧ readObject parse payload = .ok fields := by
  unfold ofTrailing
  cases payload? trailing with
  | none => simp
  | some payload =>
    simp only [Option.some.injEq, exists_eq_left']
    cases readObject parse payload with
    | error flaw => exact ⟨nofun, nofun⟩
    | ok found => simp [Except.map]

/-- **The limit on nesting holds.** Behind a declaration whose comment has only steady comments in
it, every hint that is read nests at most as deep as the limit says; a value that nests deeper is
not read but refused. -/
theorem depth_le_of_ofTrailing
    (steady : ∀ payload, payload? trailing = some payload →
      ∀ comment ∈ comments payload, Steady comment) :
    (∀ fields, ofTrailing (json5 reason) trailing = .ok (some fields) →
      (Value.object fields).depth ≤ maxDepth) ∧
    (∀ payload v, payload? trailing = some payload → Value.read payload = some v →
      maxDepth < v.depth → ofTrailing (json5 reason) trailing = .error .tooDeep) := by
  constructor
  · intro fields h
    obtain ⟨payload, hp, hr⟩ := ofTrailing_eq_ok_some_iff.mp h
    obtain ⟨within, read⟩ := readObject_eq_ok_iff.mp hr
    exact Nat.le_trans (depth_le_nesting (steady payload hp) (json5_eq_ok_iff.mp read)) within
  · intro payload v hp hv deep
    have counted := depth_le_nesting (steady payload hp) hv
    rw [ofTrailing, hp]
    dsimp only
    rw [readObject, if_pos (by omega)]
    rfl

/-- A trailing text with an object whose field has a comment in front of it and is an array of the
given depth. -/
def nested (comment : String) (depth : Nat) : List Char :=
  "// \x7b".toList ++ comment.toList ++ "a: ".toList ++ List.replicate depth '[' ++
    List.replicate depth ']' ++ "\x7d".toList

/-- A comment with a bracket and a quote that are both closed. -/
def closed : String := "/* [1] 'x' */"

theorem steady_closed : Steady closed.toList := fun d => ⟨d, rfl, Nat.le_refl d⟩

theorem steady_nested_closed {depth : Nat}
    (found : (payload? (nested closed depth)).map comments = some [closed.toList]) :
    ∀ payload, payload? (nested closed depth) = some payload →
      ∀ comment ∈ comments payload, Steady comment := by
  intro payload hp comment hc
  rw [hp, Option.map_some, Option.some.injEq] at found
  rw [found, List.mem_singleton] at hc
  exact hc ▸ steady_closed

theorem depth_le_of_ofTrailing_nested :
    (∃ fields, ofTrailing terse (nested closed 63) = .ok (some fields) ∧
      (Value.object fields).depth ≤ maxDepth) ∧
    ofTrailing terse (nested closed 64) = .error .tooDeep := by
  constructor
  · have read : (ofTrailing terse (nested closed 63)).toOption.join.isSome := by decide +kernel
    obtain ⟨fields, joined⟩ := Option.isSome_iff_exists.mp read
    have ok := toOption_eq_some_iff.mp (Option.join_eq_some_iff.mp joined)
    exact ⟨fields, ok, (depth_le_of_ofTrailing (steady_nested_closed (by decide +kernel))).1 _ ok⟩
  · have read : ((payload? (nested closed 64)).bind Value.read).any (maxDepth < ·.depth) := by
      decide +kernel
    obtain ⟨v, hv, deep⟩ := Option.any_eq_true _ _ |>.mp read
    obtain ⟨payload, hp, hv⟩ := Option.bind_eq_some_iff.mp hv
    exact (depth_le_of_ofTrailing (steady_nested_closed (by decide +kernel))).2 payload v hp hv
      (by simpa using deep)

/-- A quote in a comment hides the brackets behind it from the count. -/
theorem not_forall_depth_le :
    ¬ ∀ reason trailing fields, ofTrailing (json5 reason) trailing = .ok (some fields) →
      (Value.object fields).depth ≤ maxDepth := by
  intro bounded
  have read : (ofTrailing terse (nested "/*'*/" 64)).toOption.join.any
      fun fields => maxDepth < (Value.object fields).depth := by decide +kernel
  obtain ⟨fields, joined, deep⟩ := Option.any_eq_true _ _ |>.mp read
  have ok := toOption_eq_some_iff.mp (Option.join_eq_some_iff.mp joined)
  exact absurd (bounded _ _ fields ok) (Nat.not_le.mpr (by simpa using deep))

end ShaderInterface.Hint
