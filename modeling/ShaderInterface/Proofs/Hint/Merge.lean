import ShaderInterface.Hint.Merge
import ShaderInterface.Proofs.Hint.Order

/-!
# Merged hints, path by path

What stands behind a path of keys once an overlay is merged into a base (`merge_by_path`). Down the
path the overlay's objects go into those of the base, up to the first value of the overlay for which
there are not two objects (`Replaces`); from there on only the overlay counts.

Of one key the merged object has the merged value (`get?_merge`); the law of a path follows key by
key, and the laws of whole objects from what an object holds behind each of its keys.
-/

namespace ShaderInterface.Hint

/-! ## Paths -/

/-- The value behind a path of keys. -/
def Value.at? : List String → Value → Option Value
  | [], v => some v
  | key :: path, .object fields => (Fields.get? key fields).bind (Value.at? path)
  | _ :: _, _ => none

/-- Both objects have an object behind the path. -/
def BothObjects (base overlay : Fields) (path : List String) : Prop :=
  (∃ fields, (Value.object base).at? path = some (.object fields)) ∧
    ∃ fields, (Value.object overlay).at? path = some (.object fields)

/-- On the way down the path the overlay has a value where there are not two objects to merge. -/
def Replaces (base overlay : Fields) (path : List String) : Prop :=
  ∃ q, q ≠ [] ∧ q <+: path ∧ ((Value.object overlay).at? q).isSome ∧ ¬ BothObjects base overlay q

variable {base overlay b o : Fields} {key : String} {path : List String} {v : Value}

theorem at?_cons (key : String) (path : List String) (fields : Fields) :
    (Value.object fields).at? (key :: path) = (Fields.get? key fields).bind (Value.at? path) := by
  rw [Value.at?]

theorem at?_cons_of_get? {fields : Fields} (h : Fields.get? key fields = some v)
    (path : List String) : (Value.object fields).at? (key :: path) = v.at? path := by
  rw [at?_cons, h, Option.bind_some]

theorem not_replaces_nil (base overlay : Fields) : ¬ Replaces base overlay [] := by
  rintro ⟨q, ne, hq, -⟩
  exact ne (List.prefix_nil.mp hq)

/-- Where the overlay has nothing under the first key it replaces nothing. -/
theorem not_replaces_of_get?_eq_none (h : Fields.get? key overlay = none) :
    ¬ Replaces base overlay (key :: path) := by
  rintro ⟨q, ne, hq, found, -⟩
  obtain ⟨first, q, rfl⟩ := List.exists_cons_of_ne_nil ne
  obtain ⟨rfl, -⟩ := List.cons_prefix_cons.mp hq
  rw [at?_cons, h] at found
  cases found

/-- Where both have an object under the first key, these decide about the rest of the path. -/
theorem replaces_cons_iff (hb : Fields.get? key base = some (.object b))
    (ho : Fields.get? key overlay = some (.object o)) :
    Replaces base overlay (key :: path) ↔ Replaces b o path := by
  have baseAt := at?_cons_of_get? hb
  have overlayAt := at?_cons_of_get? ho
  constructor
  · rintro ⟨q, ne, hq, found, apart⟩
    obtain ⟨first, q, rfl⟩ := List.exists_cons_of_ne_nil ne
    obtain ⟨rfl, below⟩ := List.cons_prefix_cons.mp hq
    rw [BothObjects, baseAt, overlayAt] at apart
    rw [overlayAt] at found
    refine ⟨q, ?_, below, found, apart⟩
    rintro rfl
    exact apart ⟨⟨b, rfl⟩, o, rfl⟩
  · rintro ⟨q, -, hq, found, apart⟩
    refine ⟨key :: q, List.cons_ne_nil _ _, List.cons_prefix_cons.mpr ⟨rfl, hq⟩, ?_, ?_⟩
    · rwa [overlayAt]
    · rwa [BothObjects, baseAt, overlayAt]

/-! ## One key -/

/-- Only two objects are merged. -/
theorem mergeValue_eq_self {old : Option Value}
    (h : ¬ ((∃ fields, old = some (.object fields)) ∧ ∃ fields, v = .object fields)) :
    mergeValue old v = v := by
  fun_cases mergeValue old v with
  | case1 overlay fields => exact absurd ⟨⟨fields, rfl⟩, overlay, rfl⟩ h
  | case2 | case3 => rfl

theorem mergeValue_object (b o : Fields) :
    mergeValue (some (.object b)) (.object o) = .object (b.merge o) := by
  rw [mergeValue, Fields.merge]

/-- Of one key the merged object has the merged value. -/
theorem get?_merge (h : overlay.Ordered) (base : Fields) (key : String) :
    Fields.get? key (base.merge overlay) =
      ((Fields.get? key overlay).map (mergeValue (Fields.get? key base))).or
        (Fields.get? key base) := by
  induction overlay generalizing base with
  | nil => simp [Fields.get?]
  | cons field overlay ih =>
    obtain ⟨other, v⟩ := field
    have inserted := ih (Fields.Ordered.cons_iff.mp h).2.2
      (Fields.insert other (mergeValue (Fields.get? other base) v) base)
    rw [Fields.merge, mergeFields]
    refine inserted.trans ?_
    by_cases same : other = key
    · subst same
      -- the key does not come again, so what the first field leaves is final
      rw [h.get?_head, Fields.get?_cons_self, Fields.get?_insert, if_pos rfl]
      rfl
    · rw [Fields.get?_cons_of_ne same, Fields.get?_insert, if_neg same]

/-! ## Whole objects -/

theorem depth_le_depthOfFields {field : String × Value} {fields : Fields} (h : field ∈ fields) :
    field.2.depth ≤ depthOfFields fields := by
  induction fields with
  | nil => cases h
  | cons first fields ih =>
    rw [depthOfFields]
    rcases List.mem_cons.mp h with rfl | h
    · exact Nat.le_max_left _ _
    · exact (ih h).trans (Nat.le_max_right _ _)

/-- What holds of an object once it holds of its fields, and of everything else, holds of all
values. -/
theorem Value.objectInduction {P : Value → Prop}
    (other : ∀ v, (∀ fields, v ≠ .object fields) → P v)
    (object : ∀ fields : Fields, (∀ field ∈ fields, P field.2) → P (.object fields)) (v : Value) :
    P v := by
  induction h : v.depth using Nat.strong_induction_on generalizing v with
  | _ depth ih =>
    cases v with
    | object fields =>
      refine object fields fun field hf => ih _ ?_ field.2 rfl
      have := depth_le_depthOfFields hf
      rw [Value.depth] at h
      omega
    | null | bool _ | int _ | float _ | str _ | array _ => exact other _ (by rintro fields ⟨⟩)

theorem mem_of_get? {fields : Fields} (h : Fields.get? key fields = some v) :
    (key, v) ∈ fields := by
  induction fields with
  | nil => cases h
  | cons field fields ih =>
    obtain ⟨other, w⟩ := field
    by_cases same : other = key
    · rw [same, Fields.get?_cons_self] at h
      cases h
      exact same ▸ List.mem_cons_self
    · exact List.mem_cons_of_mem _ (ih (Fields.get?_cons_of_ne same w fields ▸ h))

/-- Merging keeps objects in order. -/
theorem ordered_mergeValue {old : Option Value} (hold : ∀ w ∈ old, w.Ordered) (hv : v.Ordered) :
    (mergeValue old v).Ordered := by
  induction v using Value.objectInduction generalizing old with
  | other v apart => rwa [mergeValue_eq_self fun both => apart _ both.2.choose_spec]
  | object overlay ih =>
    -- the fields are taken in one after the other
    have fold : ∀ {base rest : Fields}, base.Ordered → rest.Ordered → rest ⊆ overlay →
        (base.merge rest).Ordered := by
      intro base rest hb hr part
      induction rest generalizing base with
      | nil => exact hb
      | cons field rest next =>
        obtain ⟨-, hw, hrest⟩ := Fields.Ordered.cons_iff.mp hr
        obtain ⟨first, part⟩ := List.cons_subset.mp part
        refine next (hb.insert ?_ field.1) hrest part
        exact ih field first (fun w hw => hb.get? hw) hw
    by_cases both : ∃ base : Fields, old = some (.object base)
    · obtain ⟨base, rfl⟩ := both
      have hb : base.Ordered := Value.ordered_object_iff.mp (hold _ rfl)
      rw [mergeValue_object, Value.ordered_object_iff]
      exact fold hb (Value.ordered_object_iff.mp hv) (List.Subset.refl overlay)
    · rwa [mergeValue_eq_self fun h => both h.1]

theorem Fields.Ordered.merge (hb : base.Ordered) (ho : overlay.Ordered) :
    (base.merge overlay).Ordered := by
  rw [← Value.ordered_object_iff, ← mergeValue_object]
  refine ordered_mergeValue ?_ (Value.ordered_object_iff.mpr ho)
  rintro w ⟨⟩
  exact Value.ordered_object_iff.mpr hb

/-- A value merged into itself stays as it is. -/
theorem mergeValue_self (hv : v.Ordered) : mergeValue (some v) v = v := by
  induction v using Value.objectInduction with
  | other v apart => exact mergeValue_eq_self fun both => apart _ both.2.choose_spec
  | object fields ih =>
    have ordered := Value.ordered_object_iff.mp hv
    rw [mergeValue_object]
    refine congrArg Value.object ((ordered.merge ordered).ext ordered fun key => ?_)
    rw [get?_merge ordered]
    cases found : Fields.get? key fields with
    | none => rfl
    | some w => exact congrArg some (ih (key, w) (mem_of_get? found) (ordered.get? found))

theorem merge_self (h : base.Ordered) : base.merge base = base := by
  have merged := mergeValue_self (Value.ordered_object_iff.mpr h)
  rw [mergeValue_object] at merged
  exact Value.object.inj merged

/-- A value that has been merged in makes no difference when it is merged in again. -/
theorem mergeValue_mergeValue {old : Option Value} (hold : ∀ w ∈ old, w.Ordered)
    (hv : v.Ordered) : mergeValue (some (mergeValue old v)) v = mergeValue old v := by
  induction v using Value.objectInduction generalizing old with
  | other v apart =>
    have alone (old : Option Value) : mergeValue old v = v :=
      mergeValue_eq_self fun both => apart _ both.2.choose_spec
    rw [alone, alone]
  | object overlay ih =>
    by_cases both : ∃ base : Fields, old = some (.object base)
    · obtain ⟨base, rfl⟩ := both
      have hb : base.Ordered := Value.ordered_object_iff.mp (hold _ rfl)
      have ho := Value.ordered_object_iff.mp hv
      have once := hb.merge ho
      rw [mergeValue_object, mergeValue_object]
      refine congrArg Value.object ((once.merge ho).ext once fun key => ?_)
      rw [get?_merge ho, get?_merge ho]
      cases found : Fields.get? key overlay with
      | none => rfl
      | some w =>
        have below : ∀ u ∈ Fields.get? key base, u.Ordered := fun u hu => hb.get? hu
        exact congrArg some (ih (key, w) (mem_of_get? found) below (ho.get? found))
    · rw [mergeValue_eq_self fun h => both h.1, mergeValue_self hv]

theorem merge_merge (hb : base.Ordered) (ho : overlay.Ordered) :
    (base.merge overlay).merge overlay = base.merge overlay := by
  have ordered : ∀ w ∈ some (Value.object base), w.Ordered := by
    rintro w ⟨⟩
    exact Value.ordered_object_iff.mpr hb
  have merged := mergeValue_mergeValue ordered (Value.ordered_object_iff.mpr ho)
  rw [mergeValue_object, mergeValue_object] at merged
  exact Value.object.inj merged

/-- An object that is merged into the empty one is what comes out. -/
theorem nil_merge (ho : overlay.Ordered) : Fields.merge [] overlay = overlay := by
  refine (Fields.Ordered.nil.merge ho).ext ho fun key => ?_
  rw [get?_merge ho]
  cases found : Fields.get? key overlay with
  | none => rfl
  | some v => exact congrArg some (mergeValue_eq_self nofun)

/-! ## The law of a path -/

/-- What stands behind a path once the overlay is merged into the base. -/
structure MergedAt (base overlay : Fields) (path : List String) : Prop where
  /-- Where the overlay replaces, it alone counts. -/
  replaced : Replaces base overlay path →
    (Value.object (base.merge overlay)).at? path = (Value.object overlay).at? path
  /-- Where it replaces nothing and has nothing, the base counts. -/
  kept : ¬ Replaces base overlay path → (Value.object overlay).at? path = none →
    (Value.object (base.merge overlay)).at? path = (Value.object base).at? path
  /-- Where it replaces nothing but has a value, there are two objects, and one with the keys of
  both comes out. -/
  united : ¬ Replaces base overlay path → ((Value.object overlay).at? path).isSome →
    ∃ b o m : Fields, (Value.object base).at? path = some (.object b) ∧
      (Value.object overlay).at? path = some (.object o) ∧
      (Value.object (base.merge overlay)).at? path = some (.object m) ∧
      ∀ key, key ∈ m.map Prod.fst ↔ key ∈ b.map Prod.fst ∨ key ∈ o.map Prod.fst

theorem mem_keys_merge (ho : overlay.Ordered) :
    key ∈ (base.merge overlay).map Prod.fst ↔
      key ∈ base.map Prod.fst ∨ key ∈ overlay.map Prod.fst := by
  rw [Fields.mem_keys_iff, Fields.mem_keys_iff, Fields.mem_keys_iff, get?_merge ho]
  cases Fields.get? key overlay <;> simp

/-- At the end of the path the two objects are merged as wholes. -/
theorem mergedAt_nil (ho : overlay.Ordered) (base : Fields) : MergedAt base overlay [] where
  replaced h := absurd h (not_replaces_nil base overlay)
  kept _ none := nomatch none
  united _ _ := ⟨base, overlay, _, rfl, rfl, rfl, fun _ => mem_keys_merge ho⟩

/-- A key that the overlay does not have leads into the base. -/
theorem mergedAt_cons_of_none (ho : overlay.Ordered) (base : Fields)
    (found : Fields.get? key overlay = none) : MergedAt base overlay (key :: path) := by
  have keeps : ¬ Replaces base overlay (key :: path) := not_replaces_of_get?_eq_none found
  have absent : (Value.object overlay).at? (key :: path) = none := by
    rw [at?_cons, found, Option.bind_none]
  refine ⟨fun h => absurd h keeps, fun _ _ => ?_, fun _ present => ?_⟩
  · rw [at?_cons, at?_cons, get?_merge ho, found]
    rfl
  · rw [absent] at present
    cases present

/-- A key with an object on both sides leads into these. -/
theorem mergedAt_cons_of_objects (ho : overlay.Ordered)
    (hb : Fields.get? key base = some (.object b))
    (found : Fields.get? key overlay = some (.object o))
    (below : MergedAt b o path) : MergedAt base overlay (key :: path) := by
  have merged : Fields.get? key (base.merge overlay) = some (.object (b.merge o)) := by
    rw [get?_merge ho, hb, found, Option.map_some, mergeValue_object]
    rfl
  constructor <;> rw [replaces_cons_iff hb found, at?_cons_of_get? found, at?_cons_of_get? merged]
  · exact below.replaced
  · rw [at?_cons_of_get? hb]
    exact below.kept
  · rw [at?_cons_of_get? hb]
    exact below.united

/-- A key with a value in the overlay, but not with two objects, is replaced. -/
theorem mergedAt_cons_of_replaced (ho : overlay.Ordered) (base : Fields)
    (found : Fields.get? key overlay = some v)
    (apart : ¬ ((∃ b, Fields.get? key base = some (.object b)) ∧ ∃ o, v = .object o)) :
    MergedAt base overlay (key :: path) := by
  have merged : Fields.get? key (base.merge overlay) = some v := by
    rw [get?_merge ho, found, Option.map_some, mergeValue_eq_self apart]
    rfl
  have single (fields : Fields) : (Value.object fields).at? [key] = Fields.get? key fields := by
    rw [at?_cons]
    cases Fields.get? key fields <;> rfl
  have replaces : Replaces base overlay (key :: path) := by
    refine ⟨[key], List.cons_ne_nil _ _, List.cons_prefix_cons.mpr ⟨rfl, List.nil_prefix⟩, ?_, ?_⟩
    · rw [single, found]
      rfl
    · rw [BothObjects, single, single, found]
      rintro ⟨hb, o, heq⟩
      exact apart ⟨hb, o, Option.some.inj heq⟩
  refine ⟨fun _ => ?_, fun keeps => absurd replaces keeps, fun keeps => absurd replaces keeps⟩
  rw [at?_cons_of_get? found, at?_cons_of_get? merged]

theorem mergedAt (ho : overlay.Ordered) (base : Fields) (path : List String) :
    MergedAt base overlay path := by
  induction path generalizing base overlay with
  | nil => exact mergedAt_nil ho base
  | cons key path ih =>
    cases found : Fields.get? key overlay with
    | none => exact mergedAt_cons_of_none ho base found
    | some v =>
      by_cases both : (∃ b : Fields, Fields.get? key base = some (.object b)) ∧
          ∃ o : Fields, v = .object o
      · obtain ⟨⟨b, hb⟩, o, rfl⟩ := both
        have below := ih (Value.ordered_object_iff.mp (ho.get? found)) b
        exact mergedAt_cons_of_objects ho hb found below
      · exact mergedAt_cons_of_replaced ho base found both

/-- **Objects are merged path by path.** Behind every path stands what the overlay has there, where
it replaces what the base has on the way; else what the base has, where the overlay has nothing; and
else an object with the keys of both. So merging an overlay a second time changes nothing, as does
merging an object into itself or merging in the empty object; and an object merged into the empty
one is what comes out. -/
theorem merge_by_path (hb : base.Ordered) (ho : overlay.Ordered) :
    (∀ path, MergedAt base overlay path) ∧
    (base.merge overlay).merge overlay = base.merge overlay ∧
    base.merge base = base ∧ base.merge [] = base ∧ Fields.merge [] overlay = overlay :=
  ⟨mergedAt ho base, merge_merge hb ho, merge_self hb, Fields.merge_nil base, nil_merge ho⟩

/-- The hint of a slider, with a group of fields. -/
def slider : Fields :=
  [("min", .int 0), ("ui", .object [("kind", .str "slider"), ("step", .int 1)])]

/-- A hint that changes a field of the group to an object and adds a field. -/
def dial : Fields :=
  [("max", .null), ("ui", .object [("kind", .object [("name", .str "dial")])])]

theorem merge_by_path_slider :
    slider.Ordered ∧ dial.Ordered ∧
    (Value.object (slider.merge dial)).at? ["ui", "kind", "name"] = some (.str "dial") ∧
    (Value.object (slider.merge dial)).at? ["ui", "step"] = some (.int 1) ∧
    (∃ m : Fields, (Value.object (slider.merge dial)).at? ["ui"] = some (.object m) ∧
      ∀ key, key ∈ m.map Prod.fst ↔ key ∈ ["kind", "step"] ∨ key ∈ ["kind"]) ∧
    (slider.merge dial).merge dial = slider.merge dial := by
  have hb : slider.Ordered := by
    simp only [slider, Fields.Ordered, Value.Ordered]
    decide
  have ho : dial.Ordered := by
    simp only [dial, Fields.Ordered, Value.Ordered]
    decide
  obtain ⟨law, twice, -⟩ := merge_by_path hb ho
  refine ⟨hb, ho, ?_, ?_, ?_, twice⟩
  · have replaces : Replaces slider dial ["ui", "kind", "name"] :=
      ⟨["ui", "kind"], by decide, by decide, rfl, by rintro ⟨⟨_, ⟨⟩⟩, -⟩⟩
    exact ((law _).replaced replaces).trans rfl
  · have keeps : ¬ Replaces slider dial ["ui", "step"] :=
      (replaces_cons_iff rfl rfl).not.mpr (not_replaces_of_get?_eq_none rfl)
    exact ((law _).kept keeps rfl).trans rfl
  · have keeps : ¬ Replaces slider dial ["ui"] :=
      (replaces_cons_iff rfl rfl).not.mpr (not_replaces_nil _ _)
    obtain ⟨b, o, m, hb, ho, hm, keys⟩ := (law _).united keeps rfl
    cases hb
    cases ho
    exact ⟨m, hm, keys⟩

end ShaderInterface.Hint
