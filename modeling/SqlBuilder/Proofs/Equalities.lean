import SqlBuilder.Proofs.Groups

/-!
# Spellings of equality

A column is compared with a value in two spellings, with and without the
operator, and with one of several values in two more: by a list, or by a group of
equalities, one for each value. The compiler takes three ways to these texts. An
operator is joined to the key after the fact, and the equalities of a list are
made up from literals that have been encoded before. All the same the texts are
the same, up to the parentheses around a list, and so is what is reported: the
key if it is no column, and otherwise the first value that cannot be encoded.

* `condition_value` — a field with a value as a clause;
* `compile_eq` — a value under the operator;
* `mapM_condition` — a field for each value, and the literals of the values;
* `compile_oneOf`, `compile_oneOf_eq_error_iff` — a list of values, and its faults;
* `equality_spellings` — the result.
-/

namespace SqlBuilder

namespace Encoder

variable {e : Encoder} {key : String}

/-! ## A value -/

/-- The operator of an equality stands between blanks. -/
theorem fieldClause_equality (key literal : String) :
    fieldClause key (.clause ("= " ++ literal)) = key ++ " = " ++ literal := by
  have hblanks : (" = " : String) = " " ++ "= " := rfl
  rw [fieldClause, hblanks]
  simp only [String.append_assoc]

/-- **A value under the operator** becomes what the bare value becomes. -/
theorem compile_eq (e : Encoder) (key : String) (v : Value) :
    e.compile (.field key (.filter (.eq (.value v)))) = e.compile (.field key (.value v)) := by
  rw [compile, compile]
  by_cases hkey : Filter.isFieldKey key = true
  · rw [if_pos hkey, if_pos hkey, compileField, compileField, compile, compileEquality]
    cases e.encode v with
    | error fault => rfl
    | ok literal =>
      show Except.ok (Compiled.clause (fieldClause key (.clause ("= " ++ literal)))) = _
      rw [fieldClause_equality]
      rfl
  · -- the operand of a bad key is not looked at
    rw [if_neg hkey, if_neg hkey]

/-! ## A list of values -/

/-- The fields of a group of equalities, one for each value. -/
def equalities (key : String) (vs : List Value) : List Filter :=
  vs.map fun v => .field key (.value v)

theorem condition_value (hkey : Filter.isFieldKey key = true) (v : Value) :
    e.condition (.field key (.value v)) = do
      let literal ← e.encode v
      return key ++ " = " ++ literal := by
  rw [condition, compile, if_pos hkey, compileField]
  cases e.encode v <;> rfl

/-- The clauses of the equalities are made up from the literals of the values. -/
theorem mapM_condition (hkey : Filter.isFieldKey key = true) (vs : List Value) :
    (equalities key vs).mapM e.condition = do
      let literals ← e.encodeAll vs
      return literals.map (key ++ " = " ++ ·) := by
  unfold encodeAll
  induction vs with
  | nil => rfl
  | cons v vs ih =>
    rw [equalities, List.map_cons, List.mapM_cons, List.mapM_cons, condition_value hkey]
    rw [equalities] at ih
    rw [ih]
    -- the literal of the first value comes before those of the others on both sides
    cases e.encode v with
    | error fault => rfl
    | ok literal => cases vs.mapM e.encode <;> rfl

/-- **A list of values** becomes the group of the equalities between
parentheses. -/
theorem compile_oneOf (e : Encoder) (key : String) {vs : List Value} (hvs : vs ≠ []) :
    e.compile (.field key (.filter (.eq (.list vs)))) = do
      let text ← e.parenthesized (.any (equalities key vs))
      return .clause text := by
  have hne : equalities key vs ≠ [] := by simpa [equalities] using hvs
  have hgroup : e.condition (.any (equalities key vs)) = do
      let clauses ← (equalities key vs).mapM e.condition
      return " OR ".intercalate clauses := condition_group .any hne
  rw [parenthesized, hgroup]
  by_cases hkey : Filter.isFieldKey key = true
  · rw [mapM_condition hkey, compile, if_pos hkey, compileField, compile, compileEquality]
    cases e.encodeAll vs <;> rfl
  · -- the first of the equalities reports the key
    obtain ⟨v, rest, rfl⟩ := List.exists_cons_of_ne_nil hvs
    have hfirst : e.condition (.field key (.value v)) = .error (.notAFilterKey key) := by
      rw [condition, compile, if_neg hkey]
      rfl
    rw [compile, if_neg hkey, equalities, List.map_cons, List.mapM_cons, hfirst]
    rfl

/-- What is wrong with a list of values: the key, or else the first value that
cannot be encoded. -/
theorem compile_oneOf_eq_error_iff {vs : List Value} {fault : Fault} :
    e.compile (.field key (.filter (.eq (.list vs)))) = .error fault ↔
      Filter.isFieldKey key = false ∧ fault = .notAFilterKey key ∨
      Filter.isFieldKey key = true ∧ ∃ before v after, vs = before ++ v :: after ∧
        (∀ w ∈ before, ∃ literal, e.encode w = .ok literal) ∧ e.encode v = .error fault := by
  rw [compile]
  cases hkey : Filter.isFieldKey key with
  | false => simp [eq_comm]
  | true =>
    rw [if_pos rfl, compileField, bind_ok_eq_error_iff, compile, compileEquality,
      bind_ok_eq_error_iff, encodeAll, mapM_eq_error_iff]
    simp

end Encoder

/-- **Equality spellings agree.** With and without the operator, a value becomes
the same clause or has the same fault. A list of values becomes what the group
of the equalities with its values becomes, between one pair of parentheses, and
has the same fault: the key if it is none of a field, and otherwise that of the
first value that cannot be encoded. -/
theorem equality_spellings (e : Encoder) (key : String) (v : Value) {vs : List Value}
    (hvs : vs ≠ []) :
    e.compile (.field key (.filter (.eq (.value v)))) = e.compile (.field key (.value v)) ∧
    e.compile (.field key (.filter (.eq (.list vs)))) = (do
      let group ← e.compile (.any (vs.map fun v => .field key (.value v)))
      let text ← group.intoClause
      return .clause ("(" ++ text ++ ")")) ∧
    ∀ fault, e.compile (.field key (.filter (.eq (.list vs)))) = .error fault ↔
      Filter.isFieldKey key = false ∧ fault = .notAFilterKey key ∨
      Filter.isFieldKey key = true ∧ ∃ before v after, vs = before ++ v :: after ∧
        (∀ w ∈ before, ∃ literal, e.encode w = .ok literal) ∧ e.encode v = .error fault := by
  refine ⟨Encoder.compile_eq e key v, ?_, fun fault => Encoder.compile_oneOf_eq_error_iff⟩
  rw [Encoder.compile_oneOf e key hvs, Encoder.parenthesized, Encoder.condition]
  simp only [Encoder.equalities, bind_assoc, pure_bind]

/-- A list with a text that looks like a condition, and one with two values that
cannot be encoded: the first of them is reported, as it is of the group. -/
theorem equality_spellings_mixed :
    let e : Encoder := { clock := .universal }
    let good : List Value := [.int 1, .text "1 OR id = 2", .null]
    let bad : List Value := [.int 1, .text "@x y", .null, .text "@ z"]
    let group (vs : List Value) : Filter := .any (vs.map fun v => .field "id" (.value v))
    e.compile (.field "id" (.filter (.eq (.list good)))) =
        .ok (.clause "(id = 1 OR id = \"1 OR id = 2\" OR id = NULL)") ∧
      e.compile (group good) =
        .ok (.clause "id = 1 OR id = \"1 OR id = 2\" OR id = NULL") ∧
      e.compile (.field "id" (.filter (.eq (.list bad)))) = .error (.unsafeText "@x y") ∧
      e.compile (group bad) = .error (.unsafeText "@x y") ∧
      e.compile (.field "a b" (.filter (.eq (.list bad)))) =
        .error (.notAFilterKey "a b") := by
  intro e good bad group
  have hgood_ne : good ≠ [] := List.cons_ne_nil _ _
  have hbad_ne : bad ≠ [] := List.cons_ne_nil _ _
  obtain ⟨-, hgood, -⟩ := equality_spellings e "id" .null hgood_ne
  obtain ⟨-, -, hbad⟩ := equality_spellings e "id" .null hbad_ne
  obtain ⟨-, -, hkey⟩ := equality_spellings e "a b" .null hbad_ne
  refine ⟨hgood.trans rfl, rfl, (hbad _).mpr (.inr ⟨rfl, [.int 1], .text "@x y", _, rfl, ?_, rfl⟩),
    rfl, (hkey _).mpr (.inl ⟨rfl, rfl⟩)⟩
  exact List.forall_mem_singleton.mpr ⟨"1", rfl⟩

end SqlBuilder
