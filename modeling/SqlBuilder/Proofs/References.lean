import SqlBuilder.Proofs.Names
import SqlBuilder.Proofs.Validation

/-!
# Registered references

A text is written without quotes where it refers to a registered column, and a
column reference is written without quotes where it has been checked. The first
goes by what is registered and the second by the characters of the names, and a
registration does not look at these. So the two agree exactly as long as no
column that can be referred to is registered under a name that is not plain.

* `Schemas.isColumnName_iff` — the references of a registry;
* `Step.Refers` — the references that a run of steps registers;
* `Builder.references_iff` — which of them meet the check;
* `Builder.reference_unchecked` — one that does not.
-/

namespace SqlBuilder

/-- The references of a registry: a table with a name, in which there is no period,
and one of its columns. -/
theorem Schemas.isColumnName_iff (s : Schemas) (reference : String) :
    s.isColumnName reference = true ↔
      ∃ table column, reference = table ++ "." ++ column ∧ table ≠ "" ∧ '.' ∉ table.toList ∧
        (s.validator? table column).isSome = true := by
  -- the look-up for a table and a column that were joined
  have hjoined : ∀ {table : String} (column : String), '.' ∉ table.toList →
      (s.isColumnName (table ++ "." ++ column) = true ↔
        table ≠ "" ∧ (s.validator? table column).isSome = true) := by
    intro table column htable
    unfold isColumnName
    rw [Name.splitAtPeriod?_append htable]
    simp [String.ofList_toList]
  constructor
  · intro h
    cases hsplit : Name.splitAtPeriod? reference.toList with
    | none =>
      rw [isColumnName, hsplit] at h
      cases h
    | some parts =>
      obtain ⟨table, column, rfl, htable⟩ := Name.exists_append_of_splitAtPeriod? hsplit
      obtain ⟨hne, hsome⟩ := (hjoined column htable).mp h
      exact ⟨table, column, rfl, hne, htable, hsome⟩
  · rintro ⟨table, column, rfl, hne, htable, hsome⟩
    exact (hjoined column htable).mpr ⟨hne, hsome⟩

/-- The steps register a column that can be referred to: the last registration of
the table has it, and the table has a name without a period. -/
structure Step.Refers (steps : List Step) (table column : String) : Prop where
  nonempty : table ≠ ""
  noPeriod : '.' ∉ table.toList
  registered : ∃ columns, Step.lastColumns? table steps = some columns ∧
    (columns.get? column).isSome = true

/-- What is referred to meets the check if both names are plain. The table has no
period, so that the check splits the text where the look-up does. -/
theorem Step.Refers.isQualified_iff {steps : List Step} {table column : String}
    (h : Step.Refers steps table column) :
    Name.isQualified (table ++ "." ++ column) = true ↔
      Name.isSafe .plain table = true ∧ Name.isSafe .plain column = true := by
  rw [Name.isQualified_append h.noPeriod]
  exact Bool.and_eq_true_iff

namespace Builder

/-- The columns of a run are those of its registrations: a created table brings
none, and nothing else does. -/
theorem isSome_validator?_run (d : Dialect) (clock : LocalClock) (steps : List Step)
    (table column : String) :
    (((ofDialect d clock).run steps).settings.schemas.validator? table column).isSome = true ↔
      ∃ columns, Step.lastColumns? table steps = some columns ∧
        (columns.get? column).isSome = true := by
  rw [validator?_run]
  cases Step.lastColumns? table steps with
  | none => simp [ofDialect, Schemas.validator?, Schemas.empty]
  | some columns => simp

/-- After a run, the texts that refer to a column are those of the columns that the
run registers. -/
theorem isColumnName_run_iff (d : Dialect) (clock : LocalClock) (steps : List Step)
    {reference : String} :
    ((ofDialect d clock).run steps).settings.schemas.isColumnName reference = true ↔
      ∃ table column, reference = table ++ "." ++ column ∧ Step.Refers steps table column := by
  rw [Schemas.isColumnName_iff]
  constructor
  · rintro ⟨table, column, hs, hne, htable, hsome⟩
    exact ⟨table, column, hs, hne, htable, (isSome_validator?_run d clock steps _ _).mp hsome⟩
  · rintro ⟨table, column, hs, hne, htable, hregistered⟩
    have hsome := (isSome_validator?_run d clock steps _ _).mpr hregistered
    exact ⟨table, column, hs, hne, htable, hsome⟩

/-- **Which registered references meet the check of column references.** After any
run, a text refers to a column exactly if it is a table and a column that were
registered. It meets the check, and can be made a column reference, exactly if
both names are plain. So all registered references meet the check exactly if all
columns that can be referred to are registered under plain names. -/
theorem references_iff (d : Dialect) (clock : LocalClock) (steps : List Step) :
    let schemas := ((ofDialect d clock).run steps).settings.schemas
    (∀ s, schemas.isColumnName s = true ↔
      ∃ table column, s = table ++ "." ++ column ∧ Step.Refers steps table column) ∧
    (∀ table column, Step.Refers steps table column →
      (Value.ofReference (table ++ "." ++ column) = .ok (.column (table ++ "." ++ column)) ↔
        Name.isSafe .plain table = true ∧ Name.isSafe .plain column = true)) ∧
    ((∀ s, schemas.isColumnName s = true → Name.isQualified s = true) ↔
      ∀ table column, Step.Refers steps table column →
        Name.isSafe .plain table = true ∧ Name.isSafe .plain column = true) := by
  intro schemas
  refine ⟨fun s => isColumnName_run_iff d clock steps, fun table column h => ?_,
    fun h table column hrefers => ?_, fun h s hs => ?_⟩
  · rw [← h.isQualified_iff]
    unfold Value.ofReference
    split <;> simp [*]
  · have hreferred : schemas.isColumnName (table ++ "." ++ column) = true :=
      (isColumnName_run_iff d clock steps).mpr ⟨table, column, rfl, hrefers⟩
    exact hrefers.isQualified_iff.mp (h _ hreferred)
  · obtain ⟨table, column, rfl, hrefers⟩ := (isColumnName_run_iff d clock steps).mp hs
    exact hrefers.isQualified_iff.mpr (h table column hrefers)

/-- A table and columns that are registered under other names than plain ones, and
a text that is written without quotes for this reason alone. -/
theorem reference_unchecked :
    let columns : List (String × Validator) := [("id", .ok), ("id OR 1=1 --", .ok)]
    let b := (ofDialect .sql92 .universal).run [.register "t" columns, .register "a b" columns]
    let hostile := "t.id OR 1=1 --"
    b.settings.schemas.isColumnName hostile = true ∧ Name.isQualified hostile = false ∧
      Value.ofReference hostile = .error (.unsafeText hostile) ∧
      b.encoder.encode (.text hostile) = .ok hostile ∧
      b.settings.schemas.isColumnName "a b.id" = true ∧ Name.isQualified "a b.id" = false := by
  exact ⟨rfl, rfl, rfl, rfl, rfl, rfl⟩

end Builder

end SqlBuilder
