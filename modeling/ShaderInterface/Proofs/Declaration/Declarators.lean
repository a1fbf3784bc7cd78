import ShaderInterface.Proofs.Declaration.Matching
import ShaderInterface.Proofs.Outcome
import ShaderInterface.Proofs.Text.Lines

/-!
# What the declarators of a statement declare

The text of a declarator is cut at its commas before the declarators in it are read. Declarators
without a comma between their brackets are read as they are spelled (`filterMap_declarator?`); of
one with a comma nothing that is read has its size. So a statement declares what it spells exactly
when no size in it has a comma (`declared_iff_commaless`), and a scan gives what its statements
declare, one statement after the other (`exists_madeBy_scan`).
-/

namespace ShaderInterface.Declaration

open Text

/-- No size of the statement has a comma. -/
def Spelling.Commaless (w : Spelling) : Prop :=
  ∀ d ∈ w.declarators, ∀ size ∈ d.size, ',' ∉ size.text.1

/-- What a statement declares: the name and the size of each of its declarators, in order. -/
def Spelling.declared (w : Spelling) : List (List Char × Option (List Char)) :=
  w.declarators.map (·.declared)

/-- What is read of a statement: names with sizes, without the blanks around these. -/
def Statement.declared (st : Statement) : List (List Char × Option (List Char)) :=
  st.named.map fun (name, size) => (name, size.map trim)

/-! ## Declarators without a comma -/

theorem trim_identifier {name : List Char} (ident : isIdentifier name) : trim name = name := by
  refine trim_eq_self (by simpa using not_isBlank_head_identifier ident []) fun c hc => ?_
  exact not_isBlank_of_isIdentifier ident c (List.mem_of_getLast? hc)

/-- A declarator that stands alone is read as it is spelled. -/
theorem declarator?_trim_body (d : SpelledDeclarator) :
    declarator? (trim d.body) = some (d.name.1, d.size.map fun size => size.text.1) := by
  obtain ⟨name, gap, size⟩ := d
  cases size with
  | none =>
    have body : trim (name.1 ++ gap.1 ++ []) = name.1 := by
      rw [List.append_nil, trim_append_of_blank _ gap.2, trim_identifier name.2]
    have read : takeIdentifier name.1 = some (name.1, []) := by
      simpa using @takeIdentifier_append name.1 [] name.2 (by simp)
    rw [SpelledDeclarator.body, SpelledDeclarator.brackets, body]
    simp [declarator?, read]
  | some size =>
    have body : trim (name.1 ++ gap.1 ++ ('[' :: size.text.1 ++ [']'])) =
        name.1 ++ (gap.1 ++ '[' :: (size.text.1 ++ [']'])) := by
      rw [List.append_assoc, List.cons_append]
      refine trim_eq_self (not_isBlank_head_identifier name.2 _) fun c hc => ?_
      have shape : name.1 ++ (gap.1 ++ '[' :: (size.text.1 ++ [']'])) =
          name.1 ++ gap.1 ++ '[' :: size.text.1 ++ [']'] := by simp
      rw [shape, List.getLast?_concat] at hc
      cases hc
      rfl
    have read := takeIdentifier_append name.2
      (@not_isIdentChar_behind_name (size.text.1 ++ [']']) gap '[' rfl)
    have behind : (gap.1 ++ '[' :: (size.text.1 ++ [']'])).dropWhile isBlank =
        '[' :: (size.text.1 ++ [']']) := dropWhile_run gap.2 (by rintro c ⟨⟩; rfl)
    have closing : ']' ∉ size.text.1 := fun h => (size.text.2 _ h).1 rfl
    rw [SpelledDeclarator.body, SpelledDeclarator.brackets, body]
    simp [declarator?, read, behind, closing]

/-- The commas of a declarator stand between its brackets. -/
theorem exists_comma_of_mem_body {d : SpelledDeclarator} (h : ',' ∈ d.body) :
    ∃ size ∈ d.size, ',' ∈ size.text.1 := by
  obtain ⟨name, gap, size⟩ := d
  have inName : ',' ∉ name.1 := fun hc => absurd (isIdentChar_of_mem name.2 ',' hc) (by decide)
  have inGap : ',' ∉ gap.1 := fun hc => absurd (gap.2 ',' hc) (by decide)
  cases size with
  | none => simp [SpelledDeclarator.body, SpelledDeclarator.brackets, inName, inGap] at h
  | some size =>
    refine ⟨size, rfl, ?_⟩
    simpa [SpelledDeclarator.body, SpelledDeclarator.brackets, inName, inGap] using h

/-- Declarators without commas are read as they are spelled. -/
theorem filterMap_declarator? {ds : List SpelledDeclarator}
    (commaless : ∀ d ∈ ds, ∀ size ∈ d.size, ',' ∉ size.text.1) :
    ((ds.map (·.body)).flatMap pieces).filterMap declarator? =
      ds.map fun d => (d.name.1, d.size.map fun size => size.text.1) := by
  induction ds with
  | nil => rfl
  | cons d ds ih =>
    obtain ⟨first, others⟩ := List.forall_mem_cons.mp commaless
    have single : pieces d.body = [trim d.body] := by
      have none : ',' ∉ d.body := fun h =>
        let ⟨size, hs, hc⟩ := exists_comma_of_mem_body h
        first size hs hc
      rw [pieces, split_of_not_mem none, List.map_singleton]
    rw [List.map_cons, List.flatMap_cons, single, List.filterMap_append, ih others,
      List.filterMap_cons_some (declarator?_trim_body d), List.filterMap_nil, List.map_cons,
      List.singleton_append]

/-! ## Declarators with a comma -/

/-- The size that is read of a declarator is part of its text. -/
theorem sublist_of_declarator? {s name size : List Char}
    (h : declarator? s = some (name, some size)) : size.Sublist s := by
  obtain ⟨⟨taken, rest⟩, ht, found⟩ := Option.bind_eq_some_iff.mp h
  obtain ⟨-, rfl, -⟩ := takeIdentifier_eq_some ht
  dsimp only at found
  split at found
  · cases found
  · next behind =>
    split at found
    · cases found
      have drop := rest.dropWhile_sublist isBlank
      rw [behind] at drop
      exact (List.dropLast_sublist _).trans <| (List.sublist_cons_self _ _).trans <|
        drop.trans (List.sublist_append_right _ _)
    · cases found
  · cases found

/-- No size that is read has a comma. -/
theorem comma_not_mem_of_mem_named {st : Statement} {name size : List Char}
    (h : (name, some size) ∈ st.named) : ',' ∉ size := by
  obtain ⟨piece, hp, hd⟩ := List.mem_filterMap.mp h
  obtain ⟨text, -, hp⟩ := List.mem_flatMap.mp hp
  obtain ⟨uncut, hu, rfl⟩ := List.mem_map.mp hp
  intro comma
  exact not_mem_of_mem_split hu
    ((trim_sublist uncut).subset ((sublist_of_declarator? hd).subset comma))

/-- **A statement declares what it spells exactly when no size of it has a comma.** -/
theorem declared_iff_commaless (w : Spelling) (rest : List Char) :
    (w.statement rest).declared = w.declared ↔ w.Commaless := by
  constructor
  · intro same d hd size hs comma
    have spelled : (d.name.1, some (trim size.text.1)) ∈ (w.statement rest).declared := by
      rw [same]
      refine List.mem_map.mpr ⟨d, hd, ?_⟩
      rw [SpelledDeclarator.declared, Option.mem_def.mp hs]
      rfl
    obtain ⟨⟨name, read⟩, hn, heq⟩ := List.mem_map.mp spelled
    obtain ⟨text, rfl, ht⟩ := Option.map_eq_some_iff.mp (Prod.mk.inj heq).2
    have notBlank : isBlank ',' = false := rfl
    rw [← mem_trim_iff notBlank, ← ht, mem_trim_iff notBlank] at comma
    exact comma_not_mem_of_mem_named hn comma
  · intro commaless
    have named : (w.statement rest).named =
        w.declarators.map fun d => (d.name.1, d.size.map fun size => size.text.1) :=
      filterMap_declarator? commaless
    rw [Statement.declared, named, List.map_map, Spelling.declared]
    refine List.map_congr_left fun d _ => ?_
    simp [SpelledDeclarator.declared, Function.comp_def]

/-! ## Scanning -/

/-- The name and the size of a declaration. -/
def nameAndSize (d : Declaration) : List Char × Option (List Char) :=
  (d.name.toList, d.size.map String.toList)

/-- The declarations are made by one statement: they have its keyword, its precision and its type,
and they are one for each declarator, in order, with its name and its size, exactly when no size of
the statement has a comma. -/
structure MadeBy (keyword : Keyword) (w : Spelling) (ds : List Declaration) : Prop where
  keyword : ∀ d ∈ ds, d.keyword = keyword
  precision : ∀ d ∈ ds, d.precision = w.precision.map (·.1)
  type : ∀ d ∈ ds, d.type.toList = w.type.1
  declared : ds.map nameAndSize = w.declared ↔ w.Commaless

variable {s : List Char} {keyword : Keyword}

theorem map_nameAndSize_ofStatement (lines : List (List Char)) (st : Statement) :
    (ofStatement keyword s lines st).map nameAndSize = st.declared := by
  rw [ofStatement, List.map_map, Statement.declared]
  refine List.map_congr_left fun declarator _ => ?_
  simp [nameAndSize, Function.comp_def]

theorem madeBy_ofStatement (lines : List (List Char)) (w : Spelling) (rest : List Char) :
    MadeBy keyword w (ofStatement keyword s lines (w.statement rest)) where
  keyword d hd := by
    obtain ⟨_, -, rfl⟩ := List.mem_map.mp hd
    rfl
  precision d hd := by
    obtain ⟨_, -, rfl⟩ := List.mem_map.mp hd
    rfl
  type d hd := by
    obtain ⟨_, -, rfl⟩ := List.mem_map.mp hd
    exact String.toList_ofList
  declared := by rw [map_nameAndSize_ofStatement, declared_iff_commaless]

/-- Without a choice of names, a scan gives the declarations of one statement after the other. -/
theorem exists_madeBy_scan {ws : List Spelling} (h : Spells keyword.word.toList none s ws)
    (written : List Char) :
    ∃ groups : List (List Declaration), scan s written keyword = groups.flatten ∧
      List.Forall₂ (MadeBy keyword) ws groups := by
  refine ⟨(statements keyword.word.toList s).map (ofStatement keyword s (lines written)), ?_, ?_⟩
  · rw [scan, List.filter_true, List.flatMap_def]
  · refine List.forall₂_map_right_iff.mpr ((forall₂_statementsFrom h).imp fun w st hst => ?_)
    rw [hst]
    exact madeBy_ofStatement _ w _

/-- Where no size of a statement has a comma, a scan finds all that it spells. -/
theorem exists_mem_scan {ws : List Spelling} (h : Spells keyword.word.toList none s ws)
    (written : List Char) {w : Spelling} (hw : w ∈ ws) (commaless : w.Commaless)
    {d : SpelledDeclarator} (hd : d ∈ w.declarators) :
    ∃ e ∈ scan s written keyword, e.name = String.ofList d.name.1 := by
  obtain ⟨groups, scanned, made⟩ := exists_madeBy_scan h written
  obtain ⟨ds, hds, byw⟩ := mem_left_of_forall₂ made hw
  have declared : d.declared ∈ ds.map nameAndSize := by
    rw [byw.declared.mpr commaless]
    exact List.mem_map_of_mem hd
  obtain ⟨e, he, same⟩ := List.mem_map.mp declared
  refine ⟨e, ?_, ?_⟩
  · rw [scanned]
    exact List.mem_flatten_of_mem hds he
  · exact String.toList_injective ((Prod.mk.inj same).1.trans String.toList_ofList.symm)

end ShaderInterface.Declaration
