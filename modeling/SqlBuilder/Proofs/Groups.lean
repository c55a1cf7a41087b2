import SqlBuilder.Filter.Condition
import SqlBuilder.Proofs.Agreement

/-!
# Groups of one connective

A group stands without parentheses, so a group in a group of the same connective
leaves no trace in the text: its members could as well be members of the outer
group. This module takes the nested groups of a filter apart, at every depth,
and shows that the compiler cannot tell: the clauses are the same, and so is the
first fault.

* `Connective` — both kinds of groups, and `compile_group`, what they become;
* `intercalate_nested` — a joined text among texts that are joined alike;
* `compile_nested`, `compile_single` — a group in a group, a group of one;
* `Filter.flatten` — the members of nested groups in one group;
* `compile_flatten` — flattening is not seen;
* `isFlat_flatten` — nothing is left to flatten;
* `groups_flatten` — the result, with the trees that have one connective only.

A group without members is a fault, which flattening must not lose: such a group
stays where it is.
-/

namespace SqlBuilder

/-- What the members of a group are joined by. -/
inductive Connective where
  | all
  | any
  deriving DecidableEq, Repr

namespace Connective

/-- The group of some filters. -/
def group : Connective → List Filter → Filter
  | .all => .all
  | .any => .any

/-- The text between two members. -/
def separator : Connective → String
  | .all => " AND "
  | .any => " OR "

/-- The members of a filter that is a group of the connective; another filter
has none. -/
def members : Connective → Filter → List Filter
  | .all, .all fs => fs
  | .any, .any fs => fs
  | _, _ => []

@[simp] theorem members_group (c : Connective) (fs : List Filter) :
    c.members (c.group fs) = fs := by
  cases c <;> rfl

theorem group_members {c : Connective} {f : Filter} (h : c.members f ≠ []) :
    c.group (c.members f) = f := by
  cases c <;> cases f <;> first | rfl | exact absurd rfl h

/-- What a filter contributes to a group: its members if it is such a group
itself, and has any, and the filter as it is otherwise. -/
def spread (c : Connective) (f : Filter) : List Filter :=
  if c.members f = [] then [f] else c.members f

end Connective

/-! ## Texts -/

/-- A joined text among others that are joined in the same way. -/
theorem intercalate_nested {separator : String} {vs : List String} (hvs : vs ≠ [])
    (us ws : List String) :
    separator.intercalate (us ++ [separator.intercalate vs] ++ ws)
      = separator.intercalate (us ++ vs ++ ws) := by
  -- a separator stands in front of the texts in the middle where something precedes them
  have hfront : separator.intercalate (us ++ [separator.intercalate vs])
      = separator.intercalate (us ++ vs) := by
    by_cases hus : us = []
    · simp [hus]
    · rw [String.intercalate_append_of_ne_nil hus (List.cons_ne_nil _ _),
        String.intercalate_append_of_ne_nil hus hvs, String.intercalate_singleton]
  by_cases hws : ws = []
  · rw [hws, List.append_nil, List.append_nil, hfront]
  · have hleft : us ++ [separator.intercalate vs] ≠ [] := by simp
    have hright : us ++ vs ≠ [] := by simp [hvs]
    rw [String.intercalate_append_of_ne_nil hleft hws,
      String.intercalate_append_of_ne_nil hright hws, hfront]

namespace Encoder

variable {e : Encoder} {c : Connective} {f g : Filter}

/-! ## What groups become -/

/-- The members of a group are compiled one after the other. -/
theorem compileClauses_eq_mapM (e : Encoder) (fs : List Filter) :
    e.compileClauses fs = fs.mapM e.condition := by
  induction fs with
  | nil => rfl
  | cons f fs ih =>
    rw [compileClauses, List.mapM_cons, ih]
    simp [condition]

/-- A group becomes the clauses of its members with the connective between
them. -/
theorem compile_group (c : Connective) {fs : List Filter} (hfs : fs ≠ []) :
    e.compile (c.group fs) = do
      let clauses ← fs.mapM e.condition
      return .clause (c.separator.intercalate clauses) := by
  have hempty : ¬ fs.isEmpty = true := by simpa using hfs
  cases c with
  | all =>
    show e.compile (.all fs) = _
    rw [compile, if_neg hempty, compileClauses_eq_mapM]
    rfl
  | any =>
    show e.compile (.any fs) = _
    rw [compile, if_neg hempty, compileClauses_eq_mapM]
    rfl

/-- The clause of a group. -/
theorem condition_group (c : Connective) {fs : List Filter} (hfs : fs ≠ []) :
    e.condition (c.group fs) = do
      let clauses ← fs.mapM e.condition
      return c.separator.intercalate clauses := by
  rw [condition, compile_group c hfs, bind_assoc]
  rfl

/-- Members that become the same can change places. -/
theorem compile_group_congr (c : Connective) (h : e.compile f = e.compile g)
    (xs zs : List Filter) :
    e.compile (c.group (xs ++ [f] ++ zs)) = e.compile (c.group (xs ++ [g] ++ zs)) := by
  have hcondition : e.condition f = e.condition g := by rw [condition, condition, h]
  rw [compile_group c (by simp), compile_group c (by simp)]
  simp only [List.mapM_append, List.mapM_cons, hcondition]

/-- **A group in a group of the same connective** becomes what its members become
in its place. -/
theorem compile_nested (c : Connective) (xs : List Filter) {ys : List Filter} (hys : ys ≠ [])
    (zs : List Filter) :
    e.compile (c.group (xs ++ [c.group ys] ++ zs)) = e.compile (c.group (xs ++ ys ++ zs)) := by
  rw [compile_group c (by simp), compile_group c (by simp [hys])]
  simp only [List.mapM_append, List.mapM_cons, List.mapM_nil, condition_group c hys, bind_assoc,
    pure_bind]
  -- both sides compile the same filters in the same order
  refine bind_congr fun us => ?_
  cases hvs : ys.mapM e.condition with
  | error fault => rfl
  | ok vs =>
    have hne : vs ≠ [] := ne_nil_of_forall₂ (forall₂_of_mapM hvs) hys
    refine bind_congr (x := zs.mapM e.condition) fun ws => ?_
    rw [intercalate_nested hne]

/-- **A group of one** becomes the clause of its member. -/
theorem compile_single (c : Connective) (f : Filter) :
    e.compile (c.group [f]) = do
      let clause ← e.condition f
      return .clause clause := by
  rw [compile_group c (List.cons_ne_nil f [])]
  simp

end Encoder

/-! ## Flattening -/

mutual

/-- The filter with the members of nested groups in one group, at every depth.
An equality with a filter is left alone: it is a fault, which shows the filter. -/
def Filter.flatten : Filter → Filter
  | .field key operand => .field key operand.flatten
  | .eq operand => .eq operand
  | .compare op operand => .compare op operand.flatten
  | .all filters => .all (Filter.flattenAll .all filters)
  | .any filters => .any (Filter.flattenAll .any filters)
  | .like pattern => .like pattern
termination_by structural f => f

/-- The operand with a flattened filter. -/
def Operand.flatten : Operand → Operand
  | .value v => .value v
  | .list vs => .list vs
  | .filter f => .filter f.flatten
termination_by structural o => o

/-- What the members of a group contribute once they are flattened. -/
def Filter.flattenAll (c : Connective) : List Filter → List Filter
  | [] => []
  | f :: fs => c.spread f.flatten ++ Filter.flattenAll c fs
termination_by structural fs => fs

end

namespace Encoder

variable {e : Encoder} {c : Connective}

/-- A filter and what it contributes to a group become the same. -/
theorem compile_spread (c : Connective) (xs : List Filter) (f : Filter) (zs : List Filter) :
    e.compile (c.group (xs ++ c.spread f ++ zs)) = e.compile (c.group (xs ++ [f] ++ zs)) := by
  unfold Connective.spread
  by_cases hmembers : c.members f = []
  · rw [if_pos hmembers]
  · rw [if_neg hmembers, ← compile_nested c xs hmembers zs, Connective.group_members hmembers]

mutual

/-- **Flattening is not seen.** A filter and its flattened form become the same
clause, or have the same fault. -/
theorem compile_flatten (e : Encoder) (f : Filter) : e.compile f.flatten = e.compile f := by
  cases f with
  | field key o => rw [Filter.flatten, compile, compile, compileField_flatten e key o]
  | eq o => rfl
  | compare op o => rw [Filter.flatten, compile, compile, compileComparison_flatten e op o]
  | all fs => exact compile_flattenAll e .all [] fs
  | any fs => exact compile_flattenAll e .any [] fs
  | like p => rfl
termination_by structural f

theorem compileField_flatten (e : Encoder) (key : String) (o : Operand) :
    e.compileField key o.flatten = e.compileField key o := by
  cases o with
  | value v | list vs => rfl
  | filter f => rw [Operand.flatten, compileField, compileField, compile_flatten e f]
termination_by structural o

theorem compileComparison_flatten (e : Encoder) (op : Comparison) (o : Operand) :
    e.compileComparison op o.flatten = e.compileComparison op o := by
  cases o with
  | value v | list vs => rfl
  | filter f => rw [Operand.flatten, compileComparison, compileComparison, compile_flatten e f]
termination_by structural o

/-- The members of a group are flattened from left to right; those that have been
flattened stand in front. -/
theorem compile_flattenAll (e : Encoder) (c : Connective) (xs fs : List Filter) :
    e.compile (c.group (xs ++ Filter.flattenAll c fs)) = e.compile (c.group (xs ++ fs)) := by
  cases fs with
  | nil => rfl
  | cons f fs =>
    calc e.compile (c.group (xs ++ Filter.flattenAll c (f :: fs)))
        = e.compile (c.group (xs ++ c.spread f.flatten ++ Filter.flattenAll c fs)) := by
          rw [Filter.flattenAll, List.append_assoc]
      _ = e.compile (c.group (xs ++ c.spread f.flatten ++ fs)) := compile_flattenAll e c _ fs
      _ = e.compile (c.group (xs ++ [f.flatten] ++ fs)) := compile_spread c xs f.flatten fs
      _ = e.compile (c.group (xs ++ [f] ++ fs)) := compile_group_congr c (compile_flatten e f) xs fs
      _ = e.compile (c.group (xs ++ f :: fs)) := by rw [List.append_assoc, List.singleton_append]
termination_by structural fs

end

end Encoder

/-! ## Flat filters -/

mutual

/-- Whether nothing in a filter can be flattened: no group has a group of the
same connective as a member, unless that is empty. -/
def Filter.isFlat : Filter → Bool
  | .field _ operand => operand.isFlat
  | .eq _ => true
  | .compare _ operand => operand.isFlat
  | .all filters => Filter.areFlat .all filters
  | .any filters => Filter.areFlat .any filters
  | .like _ => true
termination_by structural f => f

/-- Whether nothing in an operand can be flattened. -/
def Operand.isFlat : Operand → Bool
  | .value _ => true
  | .list _ => true
  | .filter f => f.isFlat
termination_by structural o => o

/-- Whether nothing in the members of a group can be flattened. -/
def Filter.areFlat (c : Connective) : List Filter → Bool
  | [] => true
  | f :: fs => (c.members f).isEmpty && f.isFlat && Filter.areFlat c fs
termination_by structural fs => fs

end

namespace Filter

variable {c : Connective} {f : Filter}

@[simp] theorem isFlat_group (c : Connective) (fs : List Filter) :
    (c.group fs).isFlat = areFlat c fs := by
  cases c <;> rfl

@[simp] theorem flatten_group (c : Connective) (fs : List Filter) :
    (c.group fs).flatten = c.group (flattenAll c fs) := by
  cases c <;> rfl

theorem areFlat_append (c : Connective) (fs gs : List Filter) :
    areFlat c (fs ++ gs) = (areFlat c fs && areFlat c gs) := by
  induction fs with
  | nil => rfl
  | cons f fs ih => simp only [List.cons_append, areFlat, ih, Bool.and_assoc]

/-- What a flat filter contributes is flat: it is no group of the connective, or
it is one and its members have been seen to. -/
theorem areFlat_spread (c : Connective) (h : f.isFlat = true) :
    areFlat c (c.spread f) = true := by
  unfold Connective.spread
  by_cases hmembers : c.members f = []
  · rw [if_pos hmembers]
    simp [areFlat, hmembers, h]
  · rw [if_neg hmembers]
    rw [← Connective.group_members hmembers, isFlat_group] at h
    exact h

mutual

/-- **Nothing is left to flatten.** -/
theorem isFlat_flatten (f : Filter) : f.flatten.isFlat = true := by
  cases f with
  | field key o => exact isFlat_flattenOperand o
  | eq o => rfl
  | compare op o => exact isFlat_flattenOperand o
  | all fs => exact areFlat_flattenAll .all fs
  | any fs => exact areFlat_flattenAll .any fs
  | like p => rfl
termination_by structural f

theorem isFlat_flattenOperand (o : Operand) : o.flatten.isFlat = true := by
  cases o with
  | value v | list vs => rfl
  | filter f => exact isFlat_flatten f
termination_by structural o

theorem areFlat_flattenAll (c : Connective) (fs : List Filter) :
    areFlat c (flattenAll c fs) = true := by
  cases fs with
  | nil => rfl
  | cons f fs =>
    rw [flattenAll, areFlat_append, Bool.and_eq_true]
    exact ⟨areFlat_spread c (isFlat_flatten f), areFlat_flattenAll c fs⟩
termination_by structural fs

end

/-! ## Trees of one connective -/

/-- Whether a filter is a group. -/
def isGroup : Filter → Bool
  | .all _ | .any _ => true
  | _ => false

end Filter

mutual

/-- Whether all groups of a tree of groups are of one connective and have
members. The leaves of the tree are the filters that are no groups. -/
def Filter.isTreeOf (c : Connective) : Filter → Bool
  | .all filters => c = .all && !filters.isEmpty && Filter.areTreesOf c filters
  | .any filters => c = .any && !filters.isEmpty && Filter.areTreesOf c filters
  | _ => true
termination_by structural f => f

/-- Whether the members of a group are trees of groups of one connective. -/
def Filter.areTreesOf (c : Connective) : List Filter → Bool
  | [] => true
  | f :: fs => f.isTreeOf c && Filter.areTreesOf c fs
termination_by structural fs => fs

end

namespace Filter

variable {c : Connective} {f : Filter}

theorem isTreeOf_group (c : Connective) (fs : List Filter) :
    (c.group fs).isTreeOf c = (!fs.isEmpty && areTreesOf c fs) := by
  cases c <;> rfl

theorem members_of_not_isGroup (c : Connective) (h : f.isGroup = false) : c.members f = [] := by
  cases c <;> cases f <;> first | rfl | cases h

theorem spread_of_not_isGroup (c : Connective) (h : f.isGroup = false) : c.spread f = [f] := by
  rw [Connective.spread, if_pos (members_of_not_isGroup c h)]

theorem flattenAll_ne_nil {fs : List Filter} (hne : fs ≠ []) : flattenAll c fs ≠ [] := by
  cases fs with
  | nil => exact absurd rfl hne
  | cons f fs =>
    rw [flattenAll, Connective.spread]
    split
    · simp
    · next hmembers => simp [hmembers]

/-- A flattened group contributes its members. -/
theorem spread_flatten_group {fs : List Filter} (hne : fs ≠ []) :
    c.spread (c.group fs).flatten = flattenAll c fs := by
  rw [flatten_group, Connective.spread, Connective.members_group, if_neg (flattenAll_ne_nil hne)]

mutual

/-- **A tree of one connective contributes its leaves.** -/
theorem isGroup_of_mem_spread (c : Connective) (f : Filter) (h : f.isTreeOf c = true) :
    ∀ leaf ∈ c.spread f.flatten, leaf.isGroup = false := by
  cases f with
  | all fs =>
    simp only [isTreeOf, Bool.and_eq_true, decide_eq_true_eq] at h
    obtain ⟨⟨rfl, hmembers⟩, hfs⟩ := h
    have hne : fs ≠ [] := by simpa using hmembers
    rw [show Filter.all fs = Connective.all.group fs from rfl, spread_flatten_group hne]
    exact isGroup_of_mem_flattenAll .all fs hfs
  | any fs =>
    simp only [isTreeOf, Bool.and_eq_true, decide_eq_true_eq] at h
    obtain ⟨⟨rfl, hmembers⟩, hfs⟩ := h
    have hne : fs ≠ [] := by simpa using hmembers
    rw [show Filter.any fs = Connective.any.group fs from rfl, spread_flatten_group hne]
    exact isGroup_of_mem_flattenAll .any fs hfs
  | field | eq | compare | like =>
    rw [spread_of_not_isGroup c rfl]
    simp [flatten, isGroup]
termination_by structural f

theorem isGroup_of_mem_flattenAll (c : Connective) (fs : List Filter)
    (h : areTreesOf c fs = true) :
    ∀ leaf ∈ flattenAll c fs, leaf.isGroup = false := by
  cases fs with
  | nil => exact fun _ hleaf => absurd hleaf List.not_mem_nil
  | cons f fs =>
    rw [areTreesOf, Bool.and_eq_true] at h
    exact List.forall_mem_append.mpr
      ⟨isGroup_of_mem_spread c f h.1, isGroup_of_mem_flattenAll c fs h.2⟩
termination_by structural fs

end

end Filter

/-! ## The result -/

/-- **Groups of one connective flatten.** A group in a group of the same
connective can give its place to its members, wherever it stands among the
others, and a group of one is its member, as a clause. The compiler gives the
same clause or reports the same fault. So it cannot tell any filter from its
flattened form, in which no group has a group of its own connective with members
in it, at any depth; and a tree of groups that all use one connective becomes
what the single group of its leaves becomes. -/
theorem groups_flatten (e : Encoder) (c : Connective) :
    (∀ xs ys zs, ys ≠ [] →
      e.compile (c.group (xs ++ [c.group ys] ++ zs)) = e.compile (c.group (xs ++ ys ++ zs))) ∧
    (∀ f, e.compile (c.group [f]) = (do
      let compiled ← e.compile f
      let clause ← compiled.intoClause
      return .clause clause)) ∧
    (∀ f : Filter, e.compile f.flatten = e.compile f ∧ f.flatten.isFlat = true) ∧
    ∀ fs, (c.group fs).isTreeOf c = true → ∃ leaves, (c.group fs).flatten = c.group leaves ∧
      (∀ leaf ∈ leaves, leaf.isGroup = false) ∧
      e.compile (c.group fs) = e.compile (c.group leaves) := by
  refine ⟨fun xs ys zs hys => Encoder.compile_nested c xs hys zs, fun f => ?_,
    fun f => ⟨Encoder.compile_flatten e f, Filter.isFlat_flatten f⟩, fun fs htree => ?_⟩
  · rw [Encoder.compile_single c f, Encoder.condition, bind_assoc]
  · rw [Filter.isTreeOf_group, Bool.and_eq_true] at htree
    refine ⟨Filter.flattenAll c fs, Filter.flatten_group c fs,
      Filter.isGroup_of_mem_flattenAll c fs htree.2, ?_⟩
    rw [← Filter.flatten_group, Encoder.compile_flatten]

/-- A conjunction of conjunctions, three deep, with a group behind a key that is
flattened where it stands; and a list of values in the innermost group, which is
the first fault on both sides. -/
theorem groups_flatten_deep :
    let e : Encoder := { clock := .universal }
    let between : Filter := .field "n" (.filter (.all
      [.all [.compare .gt (.value (.int 3))], .compare .lt (.value (.int 9))]))
    let flat : Filter := .field "n" (.filter (.all
      [.compare .gt (.value (.int 3)), .compare .lt (.value (.int 9))]))
    let a : Filter := .field "a" (.value (.text "x AND y"))
    let b : Filter := .any [.field "b" (.value .null), .any [a]]
    let fs : List Filter := [.all [a, .all [between]], a]
    let bad : List Filter := [.all [a, .all [.eq (.list [.int 1])]], .all []]
    (Connective.all.group fs).isTreeOf .all = true ∧
      (Connective.all.group fs).flatten = .all [a, flat, a] ∧
      e.compile (.all fs) = e.compile (.all [a, flat, a]) ∧
      e.compile (.all [a, flat, a]) =
        .ok (.clause "a = \"x AND y\" AND n > 3 AND < 9 AND a = \"x AND y\"") ∧
      b.flatten = .any [.field "b" (.value .null), a] ∧
      e.compile (.all bad) = .error (.listWithoutColumn ["1"]) ∧
      e.compile (Filter.all bad).flatten = .error (.listWithoutColumn ["1"]) := by
  intro e between flat a b fs bad
  have htree : (Connective.all.group fs).isTreeOf .all = true := rfl
  obtain ⟨-, -, hflatten, hleaves⟩ := groups_flatten e .all
  obtain ⟨leaves, hsame, -, hcompile⟩ := hleaves fs htree
  obtain rfl : leaves = [a, flat, a] := (Filter.all.inj hsame).symm
  refine ⟨htree, rfl, hcompile, rfl, rfl, rfl, ?_⟩
  rw [(hflatten (.all bad)).1]
  rfl

end SqlBuilder
