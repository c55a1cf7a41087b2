import SqlBuilder.Proofs.Conditions
import SqlBuilder.Proofs.FilterDocuments

/-!
# What is wrong with a filter

A filter becomes a clause, or a list of literals if it is an equality with a
list, unless something is wrong with it. This module lists what is wrong with a
filter, node by node and from left to right, without stopping at the first
fault. The compiler accepts the filters that have nothing in their lists, and
reports the first fault of all others.

* `Value.IsEncodable`, `Filter.IsClause` — values and filters with nothing wrong;
* `Filter.offences` — everything that is wrong with a filter, in order;
* `ReportsFirst` — a check that reports the first of some faults, and
  `ReportsFirst.bind`, checks one after the other;
* `reportsFirst_compile` — the compiler is such a check;
* `offences_eq_nil_iff` — the filters without offences;
* `Fault.OfFilter` — the faults that a filter can have;
* `isFieldKey_of_ofJson` — the keys that are read from documents;
* `compile_exact` — which filters are accepted, and what is reported of others.
-/

namespace SqlBuilder

/-! ## Filters with nothing wrong -/

/-- Whether a text can be the key of a field. -/
structure Filter.IsColumnKey (key : String) : Prop where
  nonempty : key ≠ ""
  safe : ∀ c ∈ key.toList, NameRule.filterKey.allows c = true
  /-- Operators begin with a dollar sign. -/
  bare : key.toList.head? ≠ some '$'

/-- Whether a value can be encoded: it is finite if it is a number, and a text
that begins like a variable is one, unless it refers to a registered column. -/
def Value.IsEncodable (schemas : Schemas) : Value → Prop
  | .float x => x.isFinite = true
  | .text s =>
    ¬ (schemas.isColumnName (Text.trim s) = false ∧ (Text.trim s).toList.head? = some '@' ∧
      Name.isSafe .variableName (Text.trim s) = false)
  | _ => True

/-- Whether a value is of a kind that a text can be matched with. -/
def Value.isMatchable : Value → Bool
  | .text _ | .int _ | .float _ | .bool _ => true
  | _ => false

/-- The equalities with a list of values. -/
inductive Filter.IsValueList (schemas : Schemas) : Filter → Prop
  | oneOf {vs : List Value} (hvs : ∀ v ∈ vs, v.IsEncodable schemas) :
    Filter.IsValueList schemas (.eq (.list vs))

/-- The filters that become clauses. A list of values stands only under an
equality, and this equality only in a field. -/
inductive Filter.IsClause (schemas : Schemas) : Filter → Prop
  | field {key : String} {v : Value} (hkey : Filter.IsColumnKey key)
    (hv : v.IsEncodable schemas) : Filter.IsClause schemas (.field key (.value v))
  | fieldOf {key : String} {f : Filter} (hkey : Filter.IsColumnKey key)
    (hf : Filter.IsClause schemas f) : Filter.IsClause schemas (.field key (.filter f))
  | fieldOneOf {key : String} {f : Filter} (hkey : Filter.IsColumnKey key)
    (hf : Filter.IsValueList schemas f) : Filter.IsClause schemas (.field key (.filter f))
  | eq {v : Value} (hv : v.IsEncodable schemas) : Filter.IsClause schemas (.eq (.value v))
  | compare (op : Comparison) {v : Value} (hv : v.IsEncodable schemas) :
    Filter.IsClause schemas (.compare op (.value v))
  | compareWith (op : Comparison) {f : Filter} (hf : Filter.IsClause schemas f) :
    Filter.IsClause schemas (.compare op (.filter f))
  | all {fs : List Filter} (hne : fs ≠ []) (hfs : ∀ f ∈ fs, Filter.IsClause schemas f) :
    Filter.IsClause schemas (.all fs)
  | any {fs : List Filter} (hne : fs ≠ []) (hfs : ∀ f ∈ fs, Filter.IsClause schemas f) :
    Filter.IsClause schemas (.any fs)
  | regex {source : String}
    (hpattern : (Value.text (Wildcard.ofRegex source)).IsEncodable schemas) :
    Filter.IsClause schemas (.like (.regex source))
  | like {v : Value} (hkind : v.isMatchable = true) (hv : v.IsEncodable schemas) :
    Filter.IsClause schemas (.like (.value v))

/-! ## Offences -/

/-- What is wrong with a value. -/
def Value.offences (schemas : Schemas) : Value → List Fault
  | .float x => if x.isFinite then [] else [.notFinite x]
  | .text s =>
    if !schemas.isColumnName (Text.trim s) && (Text.trim s).toList.head? == some '@'
      && !Name.isSafe .variableName (Text.trim s) then [.unsafeText (Text.trim s)] else []
  | _ => []

/-- What is wrong with a pattern. -/
def Pattern.offences (schemas : Schemas) : Pattern → List Fault
  | .regex source => (Value.text (Wildcard.ofRegex source)).offences schemas
  | .value v => if v.isMatchable then v.offences schemas else [.patternOperand]

/-- What is wrong with the operand of an equality. -/
def Operand.offencesInEquality (schemas : Schemas) : Operand → List Fault
  | .value v => v.offences schemas
  | .list vs => vs.flatMap (Value.offences schemas)
  | .filter f => [.equalityOperand f]

/-- What is wrong with a filter where a clause has to stand, whatever is in it:
an equality with a list is none. -/
def Filter.strayList (e : Encoder) : Filter → List Fault
  | .eq (.list vs) => [.listWithoutColumn (vs.map e.literal)]
  | _ => []

mutual

/-- Everything that is wrong with a filter, from left to right. The key of a
field comes before its operand, and the values of a list before the complaint
that the list is out of place. -/
def Filter.offences (e : Encoder) : Filter → List Fault
  | .field key operand =>
    (if Filter.isFieldKey key then [] else [.notAFilterKey key]) ++ operand.offencesInField e key
  | .eq operand => operand.offencesInEquality e.schemas
  | .compare op operand => operand.offencesInComparison e op
  | .all filters =>
    if filters.isEmpty then [.groupOperand "$and"] else Filter.offencesOfAll e filters
  | .any filters =>
    if filters.isEmpty then [.groupOperand "$or"] else Filter.offencesOfAll e filters
  | .like pattern => pattern.offences e.schemas
termination_by structural f => f

/-- What is wrong with the operand of a field. -/
def Operand.offencesInField (e : Encoder) (key : String) : Operand → List Fault
  | .value v => v.offences e.schemas
  | .filter f => f.offences e
  | .list vs => [.fieldOperand key vs]
termination_by structural o => o

/-- What is wrong with the operand of a comparison. -/
def Operand.offencesInComparison (e : Encoder) (op : Comparison) : Operand → List Fault
  | .value v => v.offences e.schemas
  | .filter f => f.offences e ++ f.strayList e
  | .list vs => [.comparisonOperand op vs]
termination_by structural o => o

/-- What is wrong with the filters of a group. -/
def Filter.offencesOfAll (e : Encoder) : List Filter → List Fault
  | [] => []
  | f :: fs => (f.offences e ++ f.strayList e) ++ Filter.offencesOfAll e fs
termination_by structural fs => fs

end

/-! ## Checks in order -/

/-- The result of some checks in order: the first of the faults, or no fault if
there is none. -/
inductive ReportsFirst {α : Type} : Except Fault α → List Fault → Prop
  | ok {a : α} : ReportsFirst (.ok a) []
  | error {fault : Fault} {rest : List Fault} : ReportsFirst (.error fault) (fault :: rest)

namespace ReportsFirst

variable {α β : Type} {x : Except Fault α} {faults faults' : List Fault}

theorem error_iff (h : ReportsFirst x faults) {fault : Fault} :
    x = .error fault ↔ faults.head? = some fault := by
  cases h with
  | ok => simp
  | error => simp

theorem ok_iff (h : ReportsFirst x faults) : (∃ a, x = .ok a) ↔ faults = [] := by
  cases h with
  | ok => simp
  | error => simp

/-- Checks one after the other report the faults of the first in front of those
of the second. -/
theorem bind {f : α → Except Fault β} (h : ReportsFirst x faults)
    (hf : ∀ a, x = .ok a → ReportsFirst (f a) faults') :
    ReportsFirst (x >>= f) (faults ++ faults') := by
  cases h with
  | ok => exact hf _ rfl
  | error => exact .error

/-- What is made of a result has no faults of its own. -/
theorem map (h : ReportsFirst x faults) (f : α → β) :
    ReportsFirst (x >>= fun a => .ok (f a)) faults := by
  cases h with
  | ok => exact .ok
  | error => exact .error

/-- A list is checked item by item. -/
theorem mapM {f : α → Except Fault β} {offences : α → List Fault}
    (h : ∀ a, ReportsFirst (f a) (offences a)) (xs : List α) :
    ReportsFirst (xs.mapM f) (xs.flatMap offences) := by
  induction xs with
  | nil => exact .ok
  | cons x xs ih =>
    rw [List.mapM_cons, List.flatMap_cons]
    -- the other items are reached only if this one is in order
    exact (h x).bind fun y _ => ih.map (y :: ·)

end ReportsFirst

/-! ## Values -/

theorem Filter.isFieldKey_iff {key : String} :
    Filter.isFieldKey key = true ↔ Filter.IsColumnKey key := by
  rw [isFieldKey, Bool.and_eq_true, decide_eq_true_eq, Name.isSafe_iff]
  constructor
  · rintro ⟨hbare, hne, hsafe⟩
    refine ⟨?_, hsafe, hbare⟩
    rintro rfl
    exact hne rfl
  · rintro ⟨hne, hsafe, hbare⟩
    exact ⟨hbare, fun hnil => hne (String.toList_inj.mp hnil), hsafe⟩

theorem Value.offences_eq_nil_iff {schemas : Schemas} {v : Value} :
    v.offences schemas = [] ↔ v.IsEncodable schemas := by
  cases v with
  | float x => simp [offences, IsEncodable]
  | text s => simp [offences, IsEncodable]
  | null | bool | int | instant | wall | column => simp [offences, IsEncodable]

theorem Value.flatMap_offences_eq_nil_iff {schemas : Schemas} {vs : List Value} :
    vs.flatMap (Value.offences schemas) = [] ↔ ∀ v ∈ vs, v.IsEncodable schemas := by
  simp only [List.flatMap_eq_nil_iff, Value.offences_eq_nil_iff]

namespace Encoder

variable {e : Encoder}

/-- **The encoder reports what is wrong with a value.** -/
theorem reportsFirst_encode (e : Encoder) (v : Value) :
    ReportsFirst (e.encode v) (v.offences e.schemas) := by
  cases v with
  | float x =>
    rw [encode, Value.offences]
    split <;> constructor
  | text s =>
    rw [encode, encodeText]
    -- the encoder asks in the order in which the offence is described
    cases hcolumn : e.schemas.isColumnName (Text.trim s) with
    | true =>
      rw [Value.offences, hcolumn]
      exact .ok
    | false =>
      rw [if_neg Bool.false_ne_true]
      by_cases hat : (Text.trim s).toList.head? = some '@'
      · rw [if_pos hat, Name.require, Value.offences, hcolumn, hat]
        cases hsafe : Name.isSafe .variableName (Text.trim s) with
        | true => exact .ok
        | false => exact .error
      · have hnone : (Value.text s).offences e.schemas = [] := by simp [Value.offences, hat]
        rw [if_neg hat, hnone]
        split <;> exact .ok
  | null | bool | int | instant | wall | column => exact .ok

theorem reportsFirst_encodeAll (e : Encoder) (vs : List Value) :
    ReportsFirst (e.encodeAll vs) (vs.flatMap (Value.offences e.schemas)) :=
  ReportsFirst.mapM (reportsFirst_encode e) vs

/-- The encoded values of a list are their literals. -/
theorem eq_map_literal_of_encodeAll {vs : List Value} {literals : List String}
    (h : e.encodeAll vs = .ok literals) : literals = vs.map e.literal := by
  have hencoded : List.Forall₂ (fun v literal => e.encode v = .ok literal) vs literals :=
    forall₂_of_mapM h
  clear h
  induction hencoded with
  | nil => rfl
  | cons hv _ ih => rw [List.map_cons, literal_of_encode hv, ih]

/-! ## Filters -/

theorem reportsFirst_pattern (e : Encoder) (p : Pattern) :
    ReportsFirst (e.pattern p) (p.offences e.schemas) := by
  have hlike (v : Value) : ReportsFirst (e.encode v >>= fun literal => .ok ("LIKE " ++ literal))
      (v.offences e.schemas) := (reportsFirst_encode e v).map ("LIKE " ++ ·)
  cases p with
  | regex source => exact hlike (.text (Wildcard.ofRegex source))
  | value v =>
    cases v with
    | text | int | float | bool =>
      rw [pattern, Pattern.offences, if_pos (show Value.isMatchable _ = true from rfl)]
      exact hlike _
    | null | instant | wall | column => exact .error

theorem reportsFirst_compileEquality (e : Encoder) (o : Operand) :
    ReportsFirst (e.compileEquality o) (o.offencesInEquality e.schemas) := by
  cases o with
  | value v => exact (reportsFirst_encode e v).map _
  | list vs => exact (reportsFirst_encodeAll e vs).map _
  | filter f => exact .error

/-- What a filter becomes: the literals of its values if it is an equality with
a list, and a clause otherwise. -/
theorem values_or_clause_of_compile {f : Filter} {c : Compiled} (h : e.compile f = .ok c) :
    (∃ vs, f = .eq (.list vs) ∧ c = .values (vs.map e.literal)) ∨
      (∃ text, c = .clause text) ∧ f.strayList e = [] := by
  cases f with
  | field key o =>
    rw [compile] at h
    split at h
    swap
    · cases h
    cases o with
    | value v =>
      obtain ⟨literal, -, hc⟩ := ok_of_bind h
      exact .inr ⟨⟨_, (Except.ok.inj hc).symm⟩, rfl⟩
    | filter f =>
      obtain ⟨inner, -, hc⟩ := ok_of_bind h
      exact .inr ⟨⟨_, (Except.ok.inj hc).symm⟩, rfl⟩
    | list vs => cases h
  | eq o =>
    cases o with
    | value v =>
      obtain ⟨literal, -, hc⟩ := ok_of_bind h
      exact .inr ⟨⟨_, (Except.ok.inj hc).symm⟩, rfl⟩
    | list vs =>
      obtain ⟨literals, hliterals, hc⟩ := ok_of_bind h
      obtain rfl := eq_map_literal_of_encodeAll hliterals
      exact .inl ⟨vs, rfl, (Except.ok.inj hc).symm⟩
    | filter f => cases h
  | compare op o =>
    cases o with
    | value v =>
      obtain ⟨literal, -, hc⟩ := ok_of_bind h
      exact .inr ⟨⟨_, (Except.ok.inj hc).symm⟩, rfl⟩
    | filter f =>
      obtain ⟨inner, -, hrest⟩ := ok_of_bind h
      obtain ⟨clause, -, hc⟩ := ok_of_bind hrest
      exact .inr ⟨⟨_, (Except.ok.inj hc).symm⟩, rfl⟩
    | list vs => cases h
  | all fs | any fs =>
    rw [compile] at h
    split at h
    · cases h
    · obtain ⟨clauses, -, hc⟩ := ok_of_bind h
      exact .inr ⟨⟨_, (Except.ok.inj hc).symm⟩, rfl⟩
  | like p =>
    obtain ⟨clause, -, hc⟩ := ok_of_bind h
    exact .inr ⟨⟨_, (Except.ok.inj hc).symm⟩, rfl⟩

theorem reportsFirst_intoClause {f : Filter} {c : Compiled} (h : e.compile f = .ok c) :
    ReportsFirst c.intoClause (f.strayList e) := by
  rcases values_or_clause_of_compile h with ⟨vs, rfl, rfl⟩ | ⟨⟨text, rfl⟩, hstray⟩
  · exact .error
  · rw [hstray]
    exact .ok

mutual

/-- **The compiler reports what is wrong with a filter.** -/
theorem reportsFirst_compile (e : Encoder) (f : Filter) :
    ReportsFirst (e.compile f) (f.offences e) := by
  cases f with
  | field key o =>
    rw [compile, Filter.offences]
    split
    · exact reportsFirst_compileField e key o
    · -- the operand of a bad key is not looked at
      exact .error
  | eq o => exact reportsFirst_compileEquality e o
  | compare op o => exact reportsFirst_compileComparison e op o
  | all fs =>
    rw [compile, Filter.offences]
    split
    · exact .error
    · exact (reportsFirst_compileClauses e fs).map _
  | any fs =>
    rw [compile, Filter.offences]
    split
    · exact .error
    · exact (reportsFirst_compileClauses e fs).map _
  | like p => exact (reportsFirst_pattern e p).map _
termination_by structural f

theorem reportsFirst_compileField (e : Encoder) (key : String) (o : Operand) :
    ReportsFirst (e.compileField key o) (o.offencesInField e key) := by
  cases o with
  | value v => exact (reportsFirst_encode e v).map _
  | filter f => exact (reportsFirst_compile e f).map _
  | list vs => exact .error
termination_by structural o

theorem reportsFirst_compileComparison (e : Encoder) (op : Comparison) (o : Operand) :
    ReportsFirst (e.compileComparison op o) (o.offencesInComparison e op) := by
  cases o with
  | value v => exact (reportsFirst_encode e v).map _
  | filter f =>
    exact (reportsFirst_compile e f).bind fun _ hc => (reportsFirst_intoClause hc).map _
  | list vs => exact .error
termination_by structural o

theorem reportsFirst_compileClauses (e : Encoder) (fs : List Filter) :
    ReportsFirst (e.compileClauses fs) (Filter.offencesOfAll e fs) := by
  cases fs with
  | nil => exact .ok
  | cons f fs =>
    rw [compileClauses, Filter.offencesOfAll, List.append_assoc]
    -- an item of the group is compiled, has to be a clause, and then come the others
    exact (reportsFirst_compile e f).bind fun _ hc => (reportsFirst_intoClause hc).bind
      fun _ _ => (reportsFirst_compileClauses e fs).map _
termination_by structural fs

end

end Encoder

/-! ## Filters without offences -/

namespace Filter

variable {e : Encoder} {schemas : Schemas}

theorem IsClause.isColumnKey {key : String} {o : Operand}
    (h : (Filter.field key o).IsClause schemas) : IsColumnKey key := by
  cases h with
  | field hkey => exact hkey
  | fieldOf hkey => exact hkey
  | fieldOneOf hkey => exact hkey

theorem IsClause.strayList_eq_nil {f : Filter} (h : f.IsClause schemas) :
    f.strayList e = [] := by
  cases h <;> rfl

/-- A filter without offences is a clause unless it is a list of values. -/
theorem append_strayList_eq_nil_iff {f : Filter}
    (h : f.offences e = [] ↔ f.IsClause e.schemas ∨ f.IsValueList e.schemas) :
    f.offences e ++ f.strayList e = [] ↔ f.IsClause e.schemas := by
  rw [List.append_eq_nil_iff, h]
  constructor
  · rintro ⟨hclause | hlist, hstray⟩
    · exact hclause
    · cases hlist
      cases hstray
  · exact fun hclause => ⟨.inl hclause, hclause.strayList_eq_nil⟩

theorem patternOffences_eq_nil_iff {p : Pattern} :
    p.offences schemas = [] ↔ (Filter.like p).IsClause schemas := by
  cases p with
  | regex source =>
    rw [Pattern.offences, Value.offences_eq_nil_iff]
    exact ⟨.regex, fun | .regex h => h⟩
  | value v =>
    rw [Pattern.offences]
    cases hkind : v.isMatchable with
    | true =>
      rw [if_pos rfl, Value.offences_eq_nil_iff]
      exact ⟨.like hkind, fun | .like _ hv => hv⟩
    | false => exact ⟨nofun, fun | .like hmatchable _ => absurd hmatchable (by simp [hkind])⟩

/-- A group has to have filters. -/
theorem groupOffences_eq_nil_iff {fs : List Filter} {fault : Fault} {faults : List Fault} :
    (if fs.isEmpty then [fault] else faults) = [] ↔ fs ≠ [] ∧ faults = [] := by
  cases fs with
  | nil => simp
  | cons f fs => simp

/-- An equality is a clause over a value and a list over values. -/
theorem offencesInEquality_eq_nil_iff {o : Operand} :
    o.offencesInEquality schemas = [] ↔
      (Filter.eq o).IsClause schemas ∨ (Filter.eq o).IsValueList schemas := by
  cases o with
  | value v =>
    rw [Operand.offencesInEquality, Value.offences_eq_nil_iff]
    constructor
    · exact fun hv => .inl (.eq hv)
    · rintro (hclause | hlist)
      · cases hclause with
        | eq hv => exact hv
      · cases hlist
  | list vs =>
    rw [Operand.offencesInEquality, Value.flatMap_offences_eq_nil_iff]
    constructor
    · exact fun hvs => .inr (.oneOf hvs)
    · rintro (hclause | hlist)
      · cases hclause
      · cases hlist with
        | oneOf hvs => exact hvs
  | filter f =>
    constructor
    · exact fun h => absurd h (List.cons_ne_nil _ _)
    · rintro (hclause | hlist)
      · cases hclause
      · cases hlist

mutual

/-- **Nothing is wrong with clauses and lists of values, and something is wrong
with all other filters.** -/
theorem offences_eq_nil_iff (e : Encoder) (f : Filter) :
    f.offences e = [] ↔ f.IsClause e.schemas ∨ f.IsValueList e.schemas := by
  cases f with
  | eq o => exact offencesInEquality_eq_nil_iff
  | field key o =>
    rw [offences, List.append_eq_nil_iff]
    constructor
    · rintro ⟨hkeyOffences, ho⟩
      have hkey : IsColumnKey key := isFieldKey_iff.mp (by simpa using hkeyOffences)
      exact .inl ((offencesInField_eq_nil_iff e hkey o).mp ho)
    · rintro (hclause | hlist)
      · have hkey := hclause.isColumnKey
        exact ⟨if_pos (isFieldKey_iff.mpr hkey), (offencesInField_eq_nil_iff e hkey o).mpr hclause⟩
      · cases hlist
  | compare op o =>
    rw [offences, offencesInComparison_eq_nil_iff e op o]
    exact ⟨.inl, fun | .inl h => h⟩
  | all fs =>
    rw [offences, groupOffences_eq_nil_iff, offencesOfAll_eq_nil_iff e fs]
    exact ⟨fun ⟨hne, hfs⟩ => .inl (.all hne hfs), fun | .inl (.all hne hfs) => ⟨hne, hfs⟩⟩
  | any fs =>
    rw [offences, groupOffences_eq_nil_iff, offencesOfAll_eq_nil_iff e fs]
    exact ⟨fun ⟨hne, hfs⟩ => .inl (.any hne hfs), fun | .inl (.any hne hfs) => ⟨hne, hfs⟩⟩
  | like p =>
    rw [offences, patternOffences_eq_nil_iff]
    exact ⟨.inl, fun | .inl h => h⟩
termination_by structural f

theorem offencesInField_eq_nil_iff (e : Encoder) {key : String} (hkey : IsColumnKey key)
    (o : Operand) : o.offencesInField e key = [] ↔ (Filter.field key o).IsClause e.schemas := by
  cases o with
  | value v =>
    rw [Operand.offencesInField, Value.offences_eq_nil_iff]
    exact ⟨.field hkey, fun | .field _ hv => hv⟩
  | filter f =>
    rw [Operand.offencesInField, offences_eq_nil_iff e f]
    exact ⟨(·.elim (.fieldOf hkey) (.fieldOneOf hkey)),
      fun | .fieldOf _ hf => .inl hf | .fieldOneOf _ hf => .inr hf⟩
  | list vs => exact ⟨nofun, nofun⟩
termination_by structural o

theorem offencesInComparison_eq_nil_iff (e : Encoder) (op : Comparison) (o : Operand) :
    o.offencesInComparison e op = [] ↔ (Filter.compare op o).IsClause e.schemas := by
  cases o with
  | value v =>
    rw [Operand.offencesInComparison, Value.offences_eq_nil_iff]
    exact ⟨.compare op, fun | .compare _ hv => hv⟩
  | filter f =>
    rw [Operand.offencesInComparison, append_strayList_eq_nil_iff (offences_eq_nil_iff e f)]
    exact ⟨.compareWith op, fun | .compareWith _ hf => hf⟩
  | list vs => exact ⟨nofun, nofun⟩
termination_by structural o

theorem offencesOfAll_eq_nil_iff (e : Encoder) (fs : List Filter) :
    offencesOfAll e fs = [] ↔ ∀ f ∈ fs, f.IsClause e.schemas := by
  cases fs with
  | nil => simp [offencesOfAll]
  | cons f fs =>
    rw [offencesOfAll, List.append_eq_nil_iff, List.forall_mem_cons,
      append_strayList_eq_nil_iff (offences_eq_nil_iff e f), offencesOfAll_eq_nil_iff e fs]
termination_by structural fs

end

end Filter

/-! ## The faults of filters -/

mutual

/-- The keys of the fields of a filter, to any depth. -/
def Filter.keys : Filter → List String
  | .field key operand => key :: operand.keys
  | .eq operand => operand.keys
  | .compare _ operand => operand.keys
  | .all filters => Filter.keysOfAll filters
  | .any filters => Filter.keysOfAll filters
  | .like _ => []
termination_by structural f => f

/-- The keys in an operand. -/
def Operand.keys : Operand → List String
  | .filter f => f.keys
  | _ => []
termination_by structural o => o

/-- The keys in the filters of a group. -/
def Filter.keysOfAll : List Filter → List String
  | [] => []
  | f :: fs => f.keys ++ Filter.keysOfAll fs
termination_by structural fs => fs

end

/-- The faults that a filter with some keys can have. -/
inductive Fault.OfFilter (keys : List String) : Fault → Prop
  | key {key : String} (hmem : key ∈ keys) (hkey : Filter.isFieldKey key = false) :
    Fault.OfFilter keys (.notAFilterKey key)
  | notFinite (x : Binary64) : Fault.OfFilter keys (.notFinite x)
  | unsafeText (text : String) : Fault.OfFilter keys (.unsafeText text)
  | equalityOperand (f : Filter) : Fault.OfFilter keys (.equalityOperand f)
  | comparisonOperand (op : Comparison) (vs : List Value) :
    Fault.OfFilter keys (.comparisonOperand op vs)
  | groupOperand (tag : String) : Fault.OfFilter keys (.groupOperand tag)
  | patternOperand : Fault.OfFilter keys .patternOperand
  | fieldOperand (key : String) (vs : List Value) : Fault.OfFilter keys (.fieldOperand key vs)
  | listWithoutColumn (literals : List String) :
    Fault.OfFilter keys (.listWithoutColumn literals)

namespace Fault.OfFilter

variable {keys keys' : List String} {fault : Fault}

theorem mono (h : fault.OfFilter keys) (hsub : ∀ key ∈ keys, key ∈ keys') :
    fault.OfFilter keys' := by
  cases h with
  | key hmem hkey => exact .key (hsub _ hmem) hkey
  | _ => constructor

theorem kind (h : fault.OfFilter keys) : fault.kind = .injection ∨ fault.kind = .malformed := by
  cases h with
  | key | notFinite | unsafeText | equalityOperand | comparisonOperand => exact .inl rfl
  | groupOperand | patternOperand | fieldOperand | listWithoutColumn => exact .inr rfl

theorem of_value {schemas : Schemas} {v : Value} (h : fault ∈ v.offences schemas) :
    fault.OfFilter keys := by
  cases v with
  | float x =>
    rw [Value.offences] at h
    split at h
    · cases h
    · obtain rfl := List.mem_singleton.mp h
      exact .notFinite x
  | text s =>
    rw [Value.offences] at h
    split at h
    · obtain rfl := List.mem_singleton.mp h
      exact .unsafeText _
    · cases h
  | null | bool | int | instant | wall | column => cases h

theorem of_pattern {schemas : Schemas} {p : Pattern} (h : fault ∈ p.offences schemas) :
    fault.OfFilter keys := by
  cases p with
  | regex source =>
    rw [Pattern.offences] at h
    exact of_value h
  | value v =>
    rw [Pattern.offences] at h
    split at h
    · exact of_value h
    · obtain rfl := List.mem_singleton.mp h
      exact .patternOperand

theorem of_equality {schemas : Schemas} {o : Operand}
    (h : fault ∈ o.offencesInEquality schemas) : fault.OfFilter keys := by
  cases o with
  | value v => exact of_value h
  | list vs =>
    obtain ⟨v, -, hv⟩ := List.mem_flatMap.mp h
    exact of_value hv
  | filter f =>
    obtain rfl := List.mem_singleton.mp h
    exact .equalityOperand f

theorem of_strayList {e : Encoder} {f : Filter} (h : fault ∈ f.strayList e) :
    fault.OfFilter keys := by
  unfold Filter.strayList at h
  split at h
  · obtain rfl := List.mem_singleton.mp h
    exact .listWithoutColumn _
  · cases h

mutual

/-- **The faults of a filter** are about its values, its operands and its
keys. -/
theorem of_filter {e : Encoder} (f : Filter) (h : fault ∈ f.offences e) :
    fault.OfFilter f.keys := by
  cases f with
  | field key o =>
    rcases List.mem_append.mp h with hkey | ho
    · split at hkey
      · cases hkey
      · next hbad =>
        obtain rfl := List.mem_singleton.mp hkey
        exact .key List.mem_cons_self (Bool.eq_false_iff.mpr hbad)
    · exact (of_field o ho).mono fun _ hmem => List.mem_cons_of_mem key hmem
  | eq o => exact of_equality h
  | compare op o => exact of_comparison o h
  | all fs | any fs =>
    rw [Filter.offences] at h
    split at h
    · obtain rfl := List.mem_singleton.mp h
      exact .groupOperand _
    · exact of_all fs h
  | like p => exact of_pattern h
termination_by structural f

theorem of_field {e : Encoder} {key : String} (o : Operand) (h : fault ∈ o.offencesInField e key) :
    fault.OfFilter o.keys := by
  cases o with
  | value v => exact of_value h
  | filter f => exact of_filter f h
  | list vs =>
    obtain rfl := List.mem_singleton.mp h
    exact .fieldOperand key vs
termination_by structural o

theorem of_comparison {e : Encoder} {op : Comparison} (o : Operand)
    (h : fault ∈ o.offencesInComparison e op) : fault.OfFilter o.keys := by
  cases o with
  | value v => exact of_value h
  | filter f =>
    rcases List.mem_append.mp h with hf | hstray
    · exact of_filter f hf
    · exact of_strayList hstray
  | list vs =>
    obtain rfl := List.mem_singleton.mp h
    exact .comparisonOperand op vs
termination_by structural o

theorem of_all {e : Encoder} (fs : List Filter) (h : fault ∈ Filter.offencesOfAll e fs) :
    fault.OfFilter (Filter.keysOfAll fs) := by
  cases fs with
  | nil => cases h
  | cons f fs =>
    rcases List.mem_append.mp h with hf | hfs
    · rcases List.mem_append.mp hf with hf | hstray
      · -- the keys of one filter are among those of its group
        exact (of_filter f hf).mono fun _ => List.mem_append_left _
      · exact of_strayList hstray
    · exact (of_all fs hfs).mono fun _ => List.mem_append_right _
termination_by structural fs

end

end Fault.OfFilter

/-! ## The keys of documents -/

mutual

/-- **The keys that are read from a document are keys of fields.** -/
theorem Filter.isFieldKey_of_ofJson (j : Json) (f : Filter) (h : Filter.ofJson j = .ok f) :
    ∀ key ∈ f.keys, Filter.isFieldKey key = true := by
  cases j with
  | object entries => exact Filter.isFieldKey_of_ofEntries entries f h
  | _ => cases h
termination_by structural j

theorem Filter.isFieldKey_of_ofEntries (entries : List (String × Json)) (f : Filter)
    (h : Filter.ofEntries entries = .ok f) : ∀ key ∈ f.keys, Filter.isFieldKey key = true := by
  match entries with
  | [] => cases h
  | [entry] => exact Filter.isFieldKey_of_ofEntry entry f h
  | _ :: _ :: _ => cases h
termination_by structural entries

theorem Filter.isFieldKey_of_ofEntry (entry : String × Json) (f : Filter)
    (h : Filter.ofEntry entry = .ok f) : ∀ key ∈ f.keys, Filter.isFieldKey key = true := by
  obtain ⟨key, j⟩ := entry
  cases Filter.reads_of_ofEntry h with
  | field hkey hread =>
    exact List.forall_mem_cons.mpr ⟨hkey, Operand.isFieldKey_of_ofJson j _ hread⟩
  | eq hread | compare op hread => exact Operand.isFieldKey_of_ofJson j _ hread
  | all hread | any hread => exact Filter.isFieldKey_of_listOfJson j _ _ hread
  | like => exact nofun
termination_by structural entry

theorem Operand.isFieldKey_of_ofJson (j : Json) (o : Operand) (h : Operand.ofJson j = .ok o) :
    ∀ key ∈ o.keys, Filter.isFieldKey key = true := by
  cases j with
  | object entries =>
    obtain ⟨f, hf, ho⟩ := ok_of_bind h
    obtain rfl := Except.ok.inj ho
    exact Filter.isFieldKey_of_ofEntries entries f hf
  | null | bool | integer | real | text | array =>
    obtain ⟨_, -, ho⟩ := ok_of_bind h
    obtain rfl := Except.ok.inj ho
    exact nofun
termination_by structural j

theorem Filter.isFieldKey_of_listOfJson (j : Json) (tag : String) (fs : List Filter)
    (h : Filter.listOfJson tag j = .ok fs) :
    ∀ key ∈ Filter.keysOfAll fs, Filter.isFieldKey key = true := by
  cases j with
  | array items => exact Filter.isFieldKey_of_ofItems items fs h
  | _ => cases h
termination_by structural j

theorem Filter.isFieldKey_of_ofItems (items : List Json) (fs : List Filter)
    (h : Filter.ofItems items = .ok fs) :
    ∀ key ∈ Filter.keysOfAll fs, Filter.isFieldKey key = true := by
  cases items with
  | nil =>
    obtain rfl := Except.ok.inj h
    exact nofun
  | cons j items =>
    obtain ⟨f, hf, hrest⟩ := ok_of_bind h
    obtain ⟨fs, hfs, hcons⟩ := ok_of_bind hrest
    obtain rfl := Except.ok.inj hcons
    exact List.forall_mem_append.mpr
      ⟨Filter.isFieldKey_of_ofJson j f hf, Filter.isFieldKey_of_ofItems items fs hfs⟩
termination_by structural items

end

/-! ## The result -/

theorem Value.isEncodable_iff {e : Encoder} {v : Value} :
    v.IsEncodable e.schemas ↔ ∃ literal, e.encode v = .ok literal :=
  Value.offences_eq_nil_iff.symm.trans (e.reportsFirst_encode v).ok_iff.symm

namespace Encoder

variable {e : Encoder} {f : Filter}

/-- **Clauses become clauses**, and nothing else does. -/
theorem compile_clause_iff :
    (∃ text, e.compile f = .ok (.clause text)) ↔ f.IsClause e.schemas := by
  constructor
  · rintro ⟨text, hf⟩
    rcases values_or_clause_of_compile hf with ⟨vs, -, hc⟩ | ⟨-, hstray⟩
    · cases hc
    · -- neither an offence nor a list out of place: that leaves the clauses
      have hnone := (e.reportsFirst_compile f).ok_iff.mp ⟨_, hf⟩
      have hboth : f.offences e ++ f.strayList e = [] := by rw [hnone, hstray, List.append_nil]
      exact (Filter.append_strayList_eq_nil_iff (Filter.offences_eq_nil_iff e f)).mp hboth
  · intro hclause
    obtain ⟨c, hc⟩ := (e.reportsFirst_compile f).ok_iff.mpr
      ((Filter.offences_eq_nil_iff e f).mpr (.inl hclause))
    rcases values_or_clause_of_compile hc with ⟨vs, rfl, -⟩ | ⟨⟨text, rfl⟩, -⟩
    · -- an equality with a list is no clause
      cases hclause
    · exact ⟨text, hc⟩

/-- **Lists of values become lists of literals**, and nothing else does. -/
theorem compile_values_iff :
    (∃ literals, e.compile f = .ok (.values literals)) ↔
      ∃ vs, f = .eq (.list vs) ∧ ∀ v ∈ vs, v.IsEncodable e.schemas := by
  constructor
  · rintro ⟨literals, hf⟩
    rcases values_or_clause_of_compile hf with ⟨vs, rfl, -⟩ | ⟨⟨text, hc⟩, -⟩
    · exact ⟨vs, rfl, Value.flatMap_offences_eq_nil_iff.mp
        ((e.reportsFirst_compile _).ok_iff.mp ⟨_, hf⟩)⟩
    · cases hc
  · rintro ⟨vs, rfl, hvs⟩
    obtain ⟨c, hc⟩ := (e.reportsFirst_compile (.eq (.list vs))).ok_iff.mpr
      (Value.flatMap_offences_eq_nil_iff.mpr hvs)
    rcases values_or_clause_of_compile hc with ⟨vs', -, rfl⟩ | ⟨-, hstray⟩
    · exact ⟨_, hc⟩
    · cases hstray

end Encoder

/-- **The compiler accepts exactly the well-formed filters.** An equality with a
list of encodable values becomes a list of literals, a clause becomes a clause,
and for any other filter the first of its offences is reported, which is an
injection or a malformed filter. What can be encoded, and so what is accepted,
depends on the registered columns only. A filter that was read from a document
is never refused for a key. -/
theorem compile_exact (e : Encoder) (f : Filter) :
    ((∃ literals, e.compile f = .ok (.values literals)) ↔
      ∃ vs, f = .eq (.list vs) ∧ ∀ v ∈ vs, v.IsEncodable e.schemas) ∧
    ((∃ text, e.compile f = .ok (.clause text)) ↔ f.IsClause e.schemas) ∧
    (∀ fault, e.compile f = .error fault ↔ (f.offences e).head? = some fault) ∧
    (∀ fault ∈ f.offences e, fault.kind = .injection ∨ fault.kind = .malformed) ∧
    (∀ v : Value, v.IsEncodable e.schemas ↔ ∃ literal, e.encode v = .ok literal) ∧
    (∀ e' : Encoder, e'.schemas = e.schemas →
      ((∃ literals, e'.compile f = .ok (.values literals)) ↔
        ∃ literals, e.compile f = .ok (.values literals)) ∧
      ((∃ text, e'.compile f = .ok (.clause text)) ↔
        ∃ text, e.compile f = .ok (.clause text))) ∧
    ∀ j, Filter.ofJson j = .ok f → ∀ key, e.compile f ≠ .error (.notAFilterKey key) := by
  have hreports := e.reportsFirst_compile f
  refine ⟨Encoder.compile_values_iff, Encoder.compile_clause_iff, fun _ => hreports.error_iff,
    fun _ hmem => (Fault.OfFilter.of_filter f hmem).kind, fun _ => Value.isEncodable_iff,
    fun e' hsame => ?_, fun j hj key hrefused => ?_⟩
  · rw [Encoder.compile_values_iff, Encoder.compile_values_iff, Encoder.compile_clause_iff,
      Encoder.compile_clause_iff, hsame]
    exact ⟨Iff.rfl, Iff.rfl⟩
  · -- the key is one of the filter, and those have been checked
    have hmem := List.mem_of_head? (hreports.error_iff.mp hrefused)
    cases Fault.OfFilter.of_filter f hmem with
    | key hin hkey =>
      have hread := Filter.isFieldKey_of_ofJson j f hj key hin
      rw [hkey] at hread
      cases hread

/-- A group with two offences in it, neither of them a key: the first is
reported, and another family accepts the group no more than this one. -/
theorem compile_exact_group :
    let j : Json := .object [("$and", .array [
      .object [("t.a", .object [("$gte", .integer 3)])],
      .object [("id", .object [("$eq", .array [.integer 1, .null, .text " @x y"])])],
      .object [("b", .array [.bool true])]])]
    let f : Filter := .all [.field "t.a" (.filter (.compare .gte (.value (.int 3)))),
      .field "id" (.filter (.eq (.list [.int 1, .null, .text " @x y"]))),
      .field "b" (.list [.bool true])]
    let e : Encoder := { clock := .universal }
    let e' : Encoder := { family := .sqlite, useUtc := true, clock := .universal }
    Filter.ofJson j = .ok f ∧
      f.offences e = [.unsafeText "@x y", .fieldOperand "b" [.bool true]] ∧
      e.compile f = .error (.unsafeText "@x y") ∧
      (∀ key, e.compile f ≠ .error (.notAFilterKey key)) ∧
      ((∃ text, e'.compile f = .ok (.clause text)) ↔
        ∃ text, e.compile f = .ok (.clause text)) := by
  intro j f e e'
  have hread : Filter.ofJson j = .ok f := rfl
  have hoffences : f.offences e = [.unsafeText "@x y", .fieldOperand "b" [.bool true]] := rfl
  obtain ⟨-, -, hreported, -, -, hfamily, hkeys⟩ := compile_exact e f
  exact ⟨hread, hoffences, (hreported _).mpr (by rw [hoffences]; rfl), hkeys j hread,
    (hfamily e' rfl).2⟩

end SqlBuilder
