import Mathlib.Data.String.Basic
import ShaderInterface.Proofs.Hint.Depth

/-!
# Objects in order

The fields of an object are kept in increasing order of their keys (`Fields.Ordered`), and so are
those of every object in a value (`Value.Ordered`). Two objects in order with the same value behind
every key are equal (`Fields.Ordered.ext`). Inserting keeps the order, and every value that is read
is in order (`ordered_of_ofTrailing`).
-/

namespace ShaderInterface.Hint

/-! ## Keys -/

namespace Fields

variable {key other : String} {v : Value} {fields : Fields}

theorem get?_cons_self (key : String) (v : Value) (fields : Fields) :
    get? key ((key, v) :: fields) = some v := if_pos rfl

theorem get?_cons_of_ne (ne : other ≠ key) (v : Value) (fields : Fields) :
    get? key ((other, v) :: fields) = get? key fields := if_neg ne

theorem get?_eq_none_iff : get? key fields = none ↔ key ∉ fields.map Prod.fst := by
  induction fields with
  | nil => simp [get?]
  | cons field fields ih =>
    obtain ⟨other, v⟩ := field
    by_cases same : other = key
    · simp [same, get?_cons_self]
    · simp [get?_cons_of_ne same, ih, Ne.symm same]

theorem mem_keys_iff : key ∈ fields.map Prod.fst ↔ (get? key fields).isSome := by
  rw [← Option.ne_none_iff_isSome, ne_eq, get?_eq_none_iff, not_not]

theorem mem_keys_insert :
    other ∈ (insert key v fields).map Prod.fst ↔ key = other ∨ other ∈ fields.map Prod.fst := by
  rw [mem_keys_iff, get?_insert, mem_keys_iff]
  by_cases same : key = other
  · simp [same]
  · simp [same]

end Fields

/-! ## Order -/

mutual

/-- Every object in the value has its keys in increasing order. -/
def Value.Ordered : Value → Prop
  | .array items => OrderedItems items
  | .object fields => Fields.Ordered fields
  | _ => True

/-- The items are in order. -/
def OrderedItems : List Value → Prop
  | [] => True
  | v :: rest => v.Ordered ∧ OrderedItems rest

/-- The keys increase, and the values behind them are in order. -/
def Fields.Ordered : Fields → Prop
  | [] => True
  | (key, v) :: rest =>
    (∀ other ∈ rest.map Prod.fst, key < other) ∧ v.Ordered ∧ Fields.Ordered rest

end

theorem Value.ordered_object_iff {fields : Fields} :
    (Value.object fields).Ordered ↔ fields.Ordered := by
  rw [Value.Ordered]

/-- A scalar is in order. -/
theorem Value.ordered_of_depth_eq_zero {v : Value} (h : v.depth = 0) : v.Ordered := by
  cases v with
  | array items => simp [Value.depth] at h
  | object fields => simp [Value.depth] at h
  | null | bool _ | int _ | float _ | str _ => simp [Value.Ordered]

namespace Fields.Ordered

variable {key : String} {v : Value} {fields gs : Fields}

theorem nil : Fields.Ordered [] := by simp [Fields.Ordered]

theorem cons_iff : Fields.Ordered ((key, v) :: fields) ↔
    (∀ other ∈ fields.map Prod.fst, key < other) ∧ v.Ordered ∧ fields.Ordered := by
  rw [Fields.Ordered]

/-- A key that comes first does not come again. -/
theorem get?_head (h : Fields.Ordered ((key, v) :: fields)) : Fields.get? key fields = none :=
  Fields.get?_eq_none_iff.mpr fun again => lt_irrefl key ((cons_iff.mp h).1 key again)

theorem get? (h : fields.Ordered) (found : Fields.get? key fields = some v) : v.Ordered := by
  induction fields with
  | nil => cases found
  | cons field fields ih =>
    obtain ⟨other, w⟩ := field
    obtain ⟨-, first, rest⟩ := cons_iff.mp h
    by_cases same : other = key
    · rw [same, get?_cons_self] at found
      cases found
      exact first
    · exact ih rest (get?_cons_of_ne same w fields ▸ found)

/-- The first key is the least. -/
theorem head_le {other : String} (h : Fields.Ordered ((key, v) :: fields))
    (member : (Fields.get? other ((key, v) :: fields)).isSome) : key ≤ other := by
  rcases List.mem_cons.mp (mem_keys_iff.mpr member) with rfl | later
  · exact le_rfl
  · exact ((cons_iff.mp h).1 other later).le

/-- **Objects in order with the same value behind every key are equal.** -/
theorem ext (hf : fields.Ordered) (hg : gs.Ordered)
    (same : ∀ key, Fields.get? key fields = Fields.get? key gs) : fields = gs := by
  induction fields generalizing gs with
  | nil =>
    cases gs with
    | nil => rfl
    | cons field gs => exact nomatch (same field.1).trans (get?_cons_self field.1 field.2 gs)
  | cons field fields ih =>
    obtain ⟨key, v⟩ := field
    have found := (same key).symm.trans (get?_cons_self key v fields)
    cases gs with
    | nil => cases found
    | cons field' gs =>
      obtain ⟨key', v'⟩ := field'
      have found' := (same key').trans (get?_cons_self key' v' gs)
      -- each of the two first keys is in the other object, so neither comes before the other
      obtain rfl : key = key' := le_antisymm (hf.head_le (Option.isSome_of_eq_some found'))
        (hg.head_le (Option.isSome_of_eq_some found))
      obtain rfl : v' = v := Option.some.inj ((get?_cons_self key v' gs).symm.trans found)
      rw [ih (cons_iff.mp hf).2.2 (cons_iff.mp hg).2.2 fun other => ?_]
      by_cases eq : key = other
      · rw [← eq, hf.get?_head, hg.get?_head]
      · rw [← get?_cons_of_ne eq v' fields, same other, get?_cons_of_ne eq]

/-- Inserting keeps the order. -/
theorem insert (h : fields.Ordered) (hv : v.Ordered) (key : String) :
    (Fields.insert key v fields).Ordered := by
  fun_induction Fields.insert key v fields with
  | case1 => exact cons_iff.mpr ⟨List.forall_mem_nil _, hv, nil⟩
  | case2 w rest =>
    obtain ⟨least, -, rest⟩ := cons_iff.mp h
    exact cons_iff.mpr ⟨least, hv, rest⟩
  | case3 other w rest ne before =>
    refine cons_iff.mpr ⟨List.forall_mem_cons.mpr ⟨before, fun k hk => ?_⟩, hv, h⟩
    exact before.trans ((cons_iff.mp h).1 k hk)
  | case4 other w rest ne behind ih =>
    obtain ⟨least, hw, rest⟩ := cons_iff.mp h
    refine cons_iff.mpr ⟨fun k hk => ?_, hw, ih rest⟩
    rcases mem_keys_insert.mp hk with rfl | hk
    · exact lt_of_le_of_ne (not_lt.mp behind) ne
    · exact least k hk

theorem ofPairs {pairs : List (String × Value)} (h : ∀ pair ∈ pairs, pair.2.Ordered) :
    (Fields.ofPairs pairs).Ordered :=
  List.foldlRecOn pairs _ nil fun _ ih pair hp => ih.insert (h pair hp) pair.1

end Fields.Ordered

/-! ## What is read is in order -/

/-- Every value that is read from scalar tokens is in order, and so are the tokens left. -/
def ValuesOrdered (fuel : Nat) : Prop :=
  ∀ tokens v rest, readValue fuel tokens = some (v, rest) →
    (∀ t ∈ tokens, t.depth = 0) → v.Ordered ∧ ∀ t ∈ rest, t.depth = 0

/-- Every list of items that is read from scalar tokens is in order. -/
def ItemsOrdered (fuel : Nat) : Prop :=
  ∀ tokens vs rest, readItems fuel tokens = some (vs, rest) →
    (∀ t ∈ tokens, t.depth = 0) → OrderedItems vs ∧ ∀ t ∈ rest, t.depth = 0

/-- Every list of fields that is read from scalar tokens holds values in order; its keys are put in
order later. -/
def FieldsOrdered (fuel : Nat) : Prop :=
  ∀ tokens fields rest, readFields fuel tokens = some (fields, rest) →
    (∀ t ∈ tokens, t.depth = 0) → (∀ field ∈ fields, field.2.Ordered) ∧ ∀ t ∈ rest, t.depth = 0

variable {fuel : Nat}

theorem ordered_of_scalar? {token : Token} {v : Value} (h : token.scalar? = some v)
    (scalar : token.depth = 0) : v.Ordered := by
  unfold Token.scalar? at h
  split at h
  · cases h
    simp [Value.Ordered]
  · cases h
    exact Value.ordered_of_depth_eq_zero scalar
  · unfold wordValue? at h
    split at h <;> cases h <;> simp [Value.Ordered]
  · cases h

theorem valuesOrdered_succ (items : ItemsOrdered fuel) (fields : FieldsOrdered fuel) :
    ValuesOrdered (fuel + 1) := by
  intro tokens v rest h scalars
  unfold readValue at h
  split at h
  · next fuel' rest' eq =>
    cases eq
    have scalars := (List.forall_mem_cons.mp scalars).2
    split at h
    · cases h
      exact ⟨by simp [Value.Ordered, OrderedItems], (List.forall_mem_cons.mp scalars).2⟩
    · obtain ⟨⟨vs, r⟩, hr, heq⟩ := Option.map_eq_some_iff.mp h
      cases heq
      have inner := items _ _ _ hr scalars
      exact ⟨by simpa [Value.Ordered] using inner.1, inner.2⟩
  · next fuel' rest' eq =>
    cases eq
    have scalars := (List.forall_mem_cons.mp scalars).2
    split at h
    · cases h
      exact ⟨Value.ordered_object_iff.mpr .nil, (List.forall_mem_cons.mp scalars).2⟩
    · obtain ⟨⟨fs, r⟩, hr, heq⟩ := Option.map_eq_some_iff.mp h
      cases heq
      have inner := fields _ _ _ hr scalars
      exact ⟨Value.ordered_object_iff.mpr (.ofPairs inner.1), inner.2⟩
  · next n token rest' notBracket notBrace eq =>
    obtain ⟨w, hw, heq⟩ := Option.map_eq_some_iff.mp h
    cases heq
    cases eq
    obtain ⟨first, scalars⟩ := List.forall_mem_cons.mp scalars
    exact ⟨ordered_of_scalar? hw first, scalars⟩
  · cases h

theorem itemsOrdered_succ (values : ValuesOrdered fuel) (items : ItemsOrdered fuel) :
    ItemsOrdered (fuel + 1) := by
  intro tokens vs rest h scalars
  unfold readItems at h
  split at h
  · next v rest' hv =>
    cases h
    obtain ⟨first, scalars⟩ := values _ _ _ hv scalars
    exact ⟨⟨first, trivial⟩, (List.forall_mem_cons.mp scalars).2⟩
  · next v rest' hv =>
    cases h
    obtain ⟨first, scalars⟩ := values _ _ _ hv scalars
    exact ⟨⟨first, trivial⟩, (List.forall_mem_cons.mp (List.forall_mem_cons.mp scalars).2).2⟩
  · next v rest' _ hv =>
    obtain ⟨⟨ws, r⟩, hr, heq⟩ := Option.map_eq_some_iff.mp h
    cases heq
    obtain ⟨first, scalars⟩ := values _ _ _ hv scalars
    obtain ⟨others, scalars⟩ := items _ _ _ hr (List.forall_mem_cons.mp scalars).2
    exact ⟨⟨first, others⟩, scalars⟩
  · cases h

theorem fieldsOrdered_succ (values : ValuesOrdered fuel) (fields : FieldsOrdered fuel) :
    FieldsOrdered (fuel + 1) := by
  intro tokens fs rest h scalars
  unfold readFields at h
  split at h
  · next fuel' token rest' eq =>
    cases eq
    have scalars := (List.forall_mem_cons.mp (List.forall_mem_cons.mp scalars).2).2
    split at h
    · next key v after hk hv =>
      cases h
      obtain ⟨first, scalars⟩ := values _ _ _ hv scalars
      exact ⟨List.forall_mem_singleton.mpr first, (List.forall_mem_cons.mp scalars).2⟩
    · next key v after hk hv =>
      cases h
      obtain ⟨first, scalars⟩ := values _ _ _ hv scalars
      exact ⟨List.forall_mem_singleton.mpr first,
        (List.forall_mem_cons.mp (List.forall_mem_cons.mp scalars).2).2⟩
    · next key v after _ hk hv =>
      obtain ⟨⟨gs, r⟩, hr, heq⟩ := Option.map_eq_some_iff.mp h
      cases heq
      obtain ⟨first, scalars⟩ := values _ _ _ hv scalars
      obtain ⟨others, scalars⟩ := fields _ _ _ hr (List.forall_mem_cons.mp scalars).2
      exact ⟨List.forall_mem_cons.mpr ⟨first, others⟩, scalars⟩
    · cases h
  · cases h

theorem allOrdered (fuel : Nat) : ValuesOrdered fuel ∧ ItemsOrdered fuel ∧ FieldsOrdered fuel := by
  induction fuel with
  | zero =>
    refine ⟨fun tokens v rest h => ?_, fun tokens vs rest h => ?_, fun tokens fs rest h => ?_⟩
    · unfold readValue at h
      cases h
    · cases h
    · unfold readFields at h
      cases h
  | succ fuel ih =>
    obtain ⟨values, items, fields⟩ := ih
    exact ⟨valuesOrdered_succ items fields, itemsOrdered_succ values items,
      fieldsOrdered_succ values fields⟩

theorem depth_eq_zero_of_mem_lex {s : List Char} {tokens : List Token} (h : lex s = some tokens) :
    ∀ t ∈ tokens, t.depth = 0 := by
  fun_induction lex s generalizing tokens with
  | case1 =>
    cases h
    exact List.forall_mem_nil _
  | case2 => cases h
  | case3 c s token rest hs _ ih =>
    obtain ⟨more, hm, rfl⟩ := Option.map_eq_some_iff.mp h
    refine List.forall_mem_append.mpr ⟨fun t ht => ?_, ih hm⟩
    obtain rfl := Option.mem_toList.mp ht
    exact (front_of_step hs).depth_eq_zero

theorem ordered_of_read {payload : List Char} {v : Value} (h : Value.read payload = some v) :
    v.Ordered := by
  obtain ⟨tokens, lexed, value⟩ := Option.bind_eq_some_iff.mp h
  unfold Value.ofTokens at value
  split at value
  · next w hw =>
    cases value
    exact ((allOrdered _).1 _ _ _ hw (depth_eq_zero_of_mem_lex lexed)).1
  · cases value

/-- **A hint that is read is in order.** -/
theorem ordered_of_ofTrailing {reason : List Char → String} {trailing : List Char}
    {fields : Fields} (h : ofTrailing (json5 reason) trailing = .ok (some fields)) :
    fields.Ordered := by
  obtain ⟨payload, -, hr⟩ := ofTrailing_eq_ok_some_iff.mp h
  have read := json5_eq_ok_iff.mp (readObject_eq_ok_iff.mp hr).2
  exact Value.ordered_object_iff.mp (ordered_of_read read)

end ShaderInterface.Hint
