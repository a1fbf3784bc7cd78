import Mathlib.Data.List.Forall2
import ShaderInterface.Error

/-!
# Outcomes of computations that record

What a computation records has no influence on its outcome: outcomes sequence as if nothing were
recorded. Two computations are compared by `Follows`: where the second has a value, the first has a
related one, unless it fails with an error that is admitted. Step by step such comparisons make up
that of two sequences (`Follows.bind`) and of two lists of computations (`Follows.mapM`).
-/

namespace ShaderInterface

variable {ε α β : Type}

@[simp]
theorem value_run_pure (a : α) : (pure a : ExceptT ε Logged α).run.value = .ok a := rfl

theorem value_run_bind (x : ExceptT ε Logged α) (f : α → ExceptT ε Logged β) :
    (x >>= f).run.value = x.run.value >>= fun a => (f a).run.value := by
  rw [ExceptT.run_bind, Logged.value_bind]
  cases x.run.value <;> rfl

/-- A sequence has a value when its first part has one and its second has one on it. -/
theorem value_run_bind_eq_ok_iff {x : ExceptT ε Logged α} {f : α → ExceptT ε Logged β} {b : β} :
    (x >>= f).run.value = .ok b ↔ ∃ a, x.run.value = .ok a ∧ (f a).run.value = .ok b := by
  rw [value_run_bind]
  cases h : x.run.value with
  | error e => exact ⟨fun h => (by cases h), fun ⟨_, h, _⟩ => (by cases h)⟩
  | ok a => exact ⟨fun h => ⟨a, rfl, h⟩, fun ⟨_, h, hb⟩ => (by cases h; exact hb)⟩

/-- A sequence fails when its first part fails, or its second does on what the first gives. -/
theorem value_run_bind_eq_error_iff {x : ExceptT ε Logged α} {f : α → ExceptT ε Logged β} {e : ε} :
    (x >>= f).run.value = .error e ↔
      x.run.value = .error e ∨ ∃ a, x.run.value = .ok a ∧ (f a).run.value = .error e := by
  rw [value_run_bind]
  cases x.run.value with
  | error e' =>
    constructor
    · intro h
      cases h
      exact .inl rfl
    · rintro (h | ⟨_, h, _⟩)
      · cases h
        rfl
      · cases h
  | ok a =>
    constructor
    · exact fun h => .inr ⟨a, rfl, h⟩
    · rintro (h | ⟨_, h, he⟩)
      · cases h
      · cases h
        exact he

theorem toOption_eq_some_iff {x : Except ε α} {a : α} : x.toOption = some a ↔ x = .ok a := by
  cases x <;> simp [Except.toOption]

/-- An option that is read with an error where it has nothing. -/
theorem elim_eq_ok_iff {o : Option α} {e : ε} {a : α} :
    o.elim (.error e) .ok = (.ok a : Except ε α) ↔ o = some a := by
  cases o <;> simp

theorem elim_eq_error_iff {o : Option α} {e : ε} :
    o.elim (.error e) .ok = (.error e : Except ε α) ↔ o = none := by
  cases o <;> simp

theorem exists_ok_of_isSome {x : Except ε α} (h : x.toOption.isSome) : ∃ a, x = .ok a :=
  (Option.isSome_iff_exists.mp h).imp fun _ => toOption_eq_some_iff.mp

theorem outcome_ofOption_eq_ok_iff {source : String} {e : Error} {o : Option α} {a : α} :
    (Diagnosed.ofOption source e o).outcome = .ok a ↔ o = some a := by
  cases o with
  | none => exact ⟨fun h => (by cases h), fun h => (by cases h)⟩
  | some b => exact ⟨fun h => (by cases h; rfl), fun h => (by cases h; rfl)⟩

/-! ## Two computations -/

/-- Where the second computation has a value, the first has a related one or fails with an admitted
error. -/
def Follows (admitted : ε → Prop) (R : α → β → Prop) (x : ExceptT ε Logged α)
    (y : ExceptT ε Logged β) : Prop :=
  ∀ b, y.run.value = .ok b →
    (∃ a, x.run.value = .ok a ∧ R a b) ∨ ∃ e, x.run.value = .error e ∧ admitted e

namespace Follows

variable {α' β' : Type} {admitted : ε → Prop} {R : α → β → Prop} {S : α' → β' → Prop}
  {x : ExceptT ε Logged α} {y : ExceptT ε Logged β}

theorem refl (x : ExceptT ε Logged α) : Follows admitted Eq x x := fun a h => .inl ⟨a, h, rfl⟩

theorem pure {a : α} {b : β} (h : R a b) : Follows admitted R (Pure.pure a) (Pure.pure b) := by
  intro c hc
  cases hc
  exact .inl ⟨a, rfl, h⟩

theorem bind {f : α → ExceptT ε Logged α'} {g : β → ExceptT ε Logged β'}
    (h : Follows admitted R x y) (next : ∀ a b, R a b → Follows admitted S (f a) (g b)) :
    Follows admitted S (x >>= f) (y >>= g) := by
  intro c hc
  obtain ⟨b, hb, hc⟩ := value_run_bind_eq_ok_iff.mp hc
  rcases h b hb with ⟨a, ha, hab⟩ | ⟨e, he, admits⟩
  · rcases next a b hab c hc with ⟨d, hd, hdc⟩ | ⟨e, he, admits⟩
    · exact .inl ⟨d, value_run_bind_eq_ok_iff.mpr ⟨a, ha, hd⟩, hdc⟩
    · exact .inr ⟨e, value_run_bind_eq_error_iff.mpr (.inr ⟨a, ha, he⟩), admits⟩
  · exact .inr ⟨e, value_run_bind_eq_error_iff.mpr (.inl he), admits⟩

theorem mapM {f : α → ExceptT ε Logged α'} {g : β → ExceptT ε Logged β'} {as : List α}
    {bs : List β} (h : List.Forall₂ (fun a b => Follows admitted S (f a) (g b)) as bs) :
    Follows admitted (List.Forall₂ S) (as.mapM f) (bs.mapM g) := by
  induction h with
  | nil => exact pure .nil
  | cons first _ ih =>
    rw [List.mapM_cons, List.mapM_cons]
    exact first.bind fun a b hab => ih.bind fun as bs hs => pure (.cons hab hs)

end Follows

/-! ## Lists -/

/-- A list of computations has values when each has its own. -/
theorem value_run_mapM_eq_ok_iff {f : α → ExceptT ε Logged β} {as : List α} {bs : List β} :
    (as.mapM f).run.value = .ok bs ↔
      List.Forall₂ (fun a b => (f a).run.value = .ok b) as bs := by
  induction as generalizing bs with
  | nil =>
    rw [List.mapM_nil, value_run_pure, List.forall₂_nil_left_iff, Except.ok.injEq]
    exact eq_comm
  | cons a as ih =>
    rw [List.mapM_cons, value_run_bind_eq_ok_iff, List.forall₂_cons_left_iff]
    constructor
    · rintro ⟨b, hb, h⟩
      obtain ⟨bs, hbs, h⟩ := value_run_bind_eq_ok_iff.mp h
      cases h
      exact ⟨b, bs, hb, ih.mp hbs, rfl⟩
    · rintro ⟨b, bs, hb, hbs, rfl⟩
      exact ⟨b, hb, value_run_bind_eq_ok_iff.mpr ⟨bs, ih.mpr hbs, rfl⟩⟩

/-- A list of computations fails as the first of them that fails. -/
theorem value_run_mapM_eq_error {f : α → ExceptT ε Logged β} {before after : List α} {a : α}
    {e : ε} (passed : ∀ b ∈ before, ∃ c, (f b).run.value = .ok c)
    (failed : (f a).run.value = .error e) :
    ((before ++ a :: after).mapM f).run.value = .error e := by
  induction before with
  | nil =>
    rw [List.nil_append, List.mapM_cons]
    exact value_run_bind_eq_error_iff.mpr (.inl failed)
  | cons b before ih =>
    obtain ⟨⟨c, hc⟩, passed⟩ := List.forall_mem_cons.mp passed
    rw [List.cons_append, List.mapM_cons]
    exact value_run_bind_eq_error_iff.mpr
      (.inr ⟨c, hc, value_run_bind_eq_error_iff.mpr (.inl (ih passed))⟩)

theorem Logged.value_mapM (f : α → Logged β) (as : List α) :
    (as.mapM f).value = as.map fun a => (f a).value := by
  induction as with
  | nil => rfl
  | cons a as ih =>
    rw [List.mapM_cons, Logged.value_bind, Logged.value_bind, ih, Logged.value_pure, List.map_cons]

/-- A list has a related list when each of its elements has a related element. -/
theorem exists_forall₂_iff {R : α → β → Prop} {as : List α} :
    (∃ bs, List.Forall₂ R as bs) ↔ ∀ a ∈ as, ∃ b, R a b := by
  induction as with
  | nil => simp
  | cons a as ih =>
    rw [List.forall_mem_cons, ← ih]
    constructor
    · rintro ⟨bs, h⟩
      obtain ⟨b, rest, hb, hrest, rfl⟩ := List.forall₂_cons_left_iff.mp h
      exact ⟨⟨b, hb⟩, rest, hrest⟩
    · rintro ⟨⟨b, hb⟩, bs, h⟩
      exact ⟨b :: bs, .cons hb h⟩

theorem mem_right_of_forall₂ {R : α → β → Prop} {as : List α} {bs : List β}
    (h : List.Forall₂ R as bs) {b : β} (hb : b ∈ bs) : ∃ a ∈ as, R a b := by
  induction h with
  | nil => cases hb
  | @cons a c as bs hac _ ih =>
    rcases List.mem_cons.mp hb with rfl | hb
    · exact ⟨a, List.mem_cons_self, hac⟩
    · obtain ⟨d, hd, hdb⟩ := ih hb
      exact ⟨d, List.mem_cons_of_mem _ hd, hdb⟩

theorem mem_left_of_forall₂ {R : α → β → Prop} {as : List α} {bs : List β}
    (h : List.Forall₂ R as bs) {a : α} (ha : a ∈ as) : ∃ b ∈ bs, R a b :=
  mem_right_of_forall₂ h.flip ha

/-- Related lists are the two sides of a list of related pairs. -/
theorem exists_pairs_of_forall₂ {R : α → β → Prop} {as : List α} {bs : List β}
    (h : List.Forall₂ R as bs) :
    ∃ ps : List (α × β), as = ps.map Prod.fst ∧ bs = ps.map Prod.snd ∧ ∀ p ∈ ps, R p.1 p.2 := by
  induction h with
  | nil => exact ⟨[], rfl, rfl, by simp⟩
  | @cons a b as bs hab _ ih =>
    obtain ⟨ps, rfl, rfl, related⟩ := ih
    exact ⟨(a, b) :: ps, rfl, rfl, List.forall_mem_cons.mpr ⟨hab, related⟩⟩

end ShaderInterface
