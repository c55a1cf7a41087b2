import SqlBuilder.Builder.Step
import SqlBuilder.Proofs.Agreement

/-!
# Correspondences

What a statement looks like is argued side by side for two builders: a relation
between values is carried through filters, definitions and rows to a relation
between the texts of statements. The relation of a text to itself covers a
single builder.

* `Correspondence` — the relations, and what they have to satisfy;
* `Filter.Corresponds`, `ColumnDefinition.Corresponds` — values inside
  arguments;
* `agree_condition`, `agree_definition` — what is written for them.

The texts that do not come from values are of three sorts: words with nothing in
them that opens or closes anything, which stand for themselves; function calls,
which are written as they were given; and selected names, in which a caller can
put parentheses. The last two are left to the correspondence.
-/

namespace SqlBuilder

/-- The characters of names, keywords and operators. -/
def isPlainChar (c : Char) : Bool :=
  c.isAlphanum || match c with
    | '_' | '.' | '*' | '@' | '$' | ',' | ' ' | '=' | '!' | '<' | '>' => true
    | _ => false

theorem isPlainChar_of_isAlphanum {c : Char} (h : c.isAlphanum = true) :
    isPlainChar c = true := by
  unfold isPlainChar
  rw [h, Bool.true_or]

/-- Every value but a column reference stands in the relation to itself. These
are the values that JSON has. -/
def KeepsScalars (V : Value → Value → Prop) : Prop := ∀ v, (∀ r, v ≠ .column r) → V v v

/-- Relations between texts and between values that encoding respects. -/
structure Correspondence where
  /-- Between finished texts. -/
  text : String → String → Prop
  /-- Between values. -/
  value : Value → Value → Prop
  /-- Between values of assignments, where a text can stand as a function call. -/
  assigned : Value → Value → Prop
  /-- The names that may be selected. -/
  selectable : String → Prop
  /-- The registered tables that may be there. -/
  schemas : Schemas → Prop
  /-- The columns that may be registered. -/
  registrable : String → List (String × Validator) → Prop
  text_append : ∀ {a b a' b'}, text a b → text a' b' → text (a ++ a') (b ++ b')
  text_plain : ∀ {s}, s.toList.all isPlainChar = true → text s s
  text_parens : ∀ {a b}, text a b → text ("(" ++ a ++ ")") ("(" ++ b ++ ")")
  text_call : ∀ {s}, FunctionCall.isWhole s = .ok true → text s s
  text_selected : ∀ {s}, Name.isSafe .selection s = true → selectable s → text s s
  /-- Only texts differ. -/
  value_cases : ∀ {v w}, value v w → v = w ∨ ∃ s t, v = .text s ∧ w = .text t
  keepsScalars : KeepsScalars assigned
  value_of_assigned : ∀ {v w}, assigned v w → value v w
  callText?_eq : ∀ {v w}, assigned v w → Settings.callText? v = Settings.callText? w
  encode : ∀ {e : Encoder} {v w}, schemas e.schemas → value v w →
    Agree text (e.encode v) (e.encode w)
  check : ∀ {s table column v w}, schemas s → value v w →
    Agree value (s.check table column v) (s.check table column w)
  schemas_empty : schemas .empty
  schemas_ensure : ∀ {s table}, schemas s → schemas (s.ensure table)
  schemas_register : ∀ {s table columns}, schemas s → registrable table columns →
    schemas (s.register table columns)

/-! ## Arguments with values in them -/

/-- Patterns with corresponding values. -/
inductive Pattern.Corresponds (V : Value → Value → Prop) : Pattern → Pattern → Prop
  | value {v w : Value} (h : V v w) : Pattern.Corresponds V (.value v) (.value w)
  | regex {s t : String} (h : V (.text (Wildcard.ofRegex s)) (.text (Wildcard.ofRegex t))) :
    Pattern.Corresponds V (.regex s) (.regex t)

mutual

/-- Filters of one shape with corresponding values. -/
inductive Filter.Corresponds (V : Value → Value → Prop) : Filter → Filter → Prop
  | field (key : String) {o p : Operand} (h : Operand.Corresponds V o p) :
    Filter.Corresponds V (.field key o) (.field key p)
  | eq {o p : Operand} (h : Operand.Corresponds V o p) : Filter.Corresponds V (.eq o) (.eq p)
  | compare (op : Comparison) {o p : Operand} (h : Operand.Corresponds V o p) :
    Filter.Corresponds V (.compare op o) (.compare op p)
  | all {fs gs : List Filter} (h : Filter.AllCorrespond V fs gs) :
    Filter.Corresponds V (.all fs) (.all gs)
  | any {fs gs : List Filter} (h : Filter.AllCorrespond V fs gs) :
    Filter.Corresponds V (.any fs) (.any gs)
  | like {p q : Pattern} (h : Pattern.Corresponds V p q) : Filter.Corresponds V (.like p) (.like q)

/-- Operands of one shape with corresponding values. -/
inductive Operand.Corresponds (V : Value → Value → Prop) : Operand → Operand → Prop
  | value {v w : Value} (h : V v w) : Operand.Corresponds V (.value v) (.value w)
  | list {vs ws : List Value} (h : List.Forall₂ V vs ws) :
    Operand.Corresponds V (.list vs) (.list ws)
  | filter {f g : Filter} (h : Filter.Corresponds V f g) :
    Operand.Corresponds V (.filter f) (.filter g)

/-- Filters that correspond one by one. -/
inductive Filter.AllCorrespond (V : Value → Value → Prop) : List Filter → List Filter → Prop
  | nil : Filter.AllCorrespond V [] []
  | cons {f g : Filter} {fs gs : List Filter} (h : Filter.Corresponds V f g)
    (hrest : Filter.AllCorrespond V fs gs) : Filter.AllCorrespond V (f :: fs) (g :: gs)

end

/-- Definitions that differ at most in corresponding default values. -/
structure ColumnDefinition.Corresponds (V : Value → Value → Prop) (c d : ColumnDefinition) :
    Prop where
  same : d = { c with defaultValue := d.defaultValue }
  defaultValue : Option.Rel V c.defaultValue d.defaultValue

/-- Corresponding groups are empty together. -/
theorem Filter.AllCorrespond.isEmpty_eq {V : Value → Value → Prop} {fs gs : List Filter}
    (h : Filter.AllCorrespond V fs gs) : fs.isEmpty = gs.isEmpty := by
  cases h <;> rfl

/-- What corresponding filters become: clauses or lists of encoded values. -/
inductive Compiled.Corresponds (T : String → String → Prop) : Compiled → Compiled → Prop
  | clause {s t : String} (h : T s t) : Compiled.Corresponds T (.clause s) (.clause t)
  | values {ss ts : List String} (h : List.Forall₂ T ss ts) :
    Compiled.Corresponds T (.values ss) (.values ts)

namespace Correspondence

variable (K : Correspondence)

theorem keepsScalars_value : KeepsScalars K.value := fun v hv =>
  K.value_of_assigned (K.keepsScalars v hv)

/-! ## Texts -/

/-- A safe name without parentheses stands for itself. -/
theorem text_name {rule : NameRule} (hrule : rule.parens = false) {s : String}
    (h : Name.isSafe rule s = true) : K.text s s := by
  apply K.text_plain
  simp only [Name.isSafe, Name.isSafeList, Bool.and_eq_true] at h
  rw [List.all_eq_true] at h ⊢
  intro c hc
  have hallowed := h.2 c hc
  unfold NameRule.allows at hallowed
  rw [Bool.or_eq_true, Bool.or_eq_true] at hallowed
  -- a letter or digit, an underscore, or one of the characters of the rule
  rcases hallowed with (hc | hc) | hc
  · exact isPlainChar_of_isAlphanum hc
  · rw [decide_eq_true_eq] at hc
    subst hc
    rfl
  · split at hc <;> first | rfl | simp [hrule] at hc

theorem agree_require (rule : NameRule) (hrule : rule.parens = false) (s : String) :
    Agree (fun a b => a = b ∧ K.text a b) (Name.require rule s) (Name.require rule s) := by
  refine Agree.refl fun a ha => ⟨rfl, ?_⟩
  unfold Name.require at ha
  split at ha
  · next hsafe =>
    rw [Except.ok.injEq] at ha
    exact ha ▸ K.text_name hrule hsafe
  · simp at ha

theorem agree_requireAll (rule : NameRule) (hrule : rule.parens = false) (names : List String) :
    Agree (List.Forall₂ K.text) (Name.requireAll rule names) (Name.requireAll rule names) :=
  Agree.mapM (List.forall₂_eq_eq_eq.symm ▸ rfl : List.Forall₂ Eq names names) fun a b hab => by
    subst hab
    exact (K.agree_require rule hrule a).mono fun _ _ h => h.2

/-- The digits of a number stand for themselves. -/
theorem text_nat (n : Nat) : K.text (toString n) (toString n) := by
  apply K.text_plain
  rw [List.all_eq_true]
  intro c hc
  have hdigits : (toString n).toList = Nat.toDigits 10 n := by
    show n.repr.toList = _
    simp
  rw [hdigits] at hc
  have hdigit : c.isDigit = true := Nat.isDigit_of_mem_toDigits (by decide) (by decide) hc
  apply isPlainChar_of_isAlphanum
  rw [Char.isAlphanum, hdigit, Bool.or_true]

theorem text_intercalate {separator : String} (hsep : separator.toList.all isPlainChar = true)
    {xs ys : List String} (h : List.Forall₂ K.text xs ys) :
    K.text (separator.intercalate xs) (separator.intercalate ys) := by
  induction h with
  | nil => exact K.text_plain rfl
  | @cons x y xs ys hxy hrest ih =>
    cases hrest with
    | nil =>
      rw [String.intercalate_singleton, String.intercalate_singleton]
      exact hxy
    | cons hxy' hrest' =>
      rw [String.intercalate_cons_cons, String.intercalate_cons_cons]
      exact K.text_append (K.text_append hxy (K.text_plain hsep)) ih

/-! ## Filters -/

section Filters

variable {K} {e : Encoder}

theorem agree_encodeAll (he : K.schemas e.schemas) {vs ws : List Value}
    (h : List.Forall₂ K.value vs ws) :
    Agree (List.Forall₂ K.text) (e.encodeAll vs) (e.encodeAll ws) :=
  Agree.mapM h fun _ _ hvw => K.encode he hvw

theorem agree_pattern (he : K.schemas e.schemas) {p q : Pattern}
    (h : Pattern.Corresponds K.value p q) :
    Agree K.text (e.pattern p) (e.pattern q) := by
  have hlike : ∀ v w, K.value v w →
      Agree K.text (do let literal ← e.encode v; return "LIKE " ++ literal)
        (do let literal ← e.encode w; return "LIKE " ++ literal) := fun v w hvw =>
    (K.encode he hvw).bind fun _ _ hlit => .ok (K.text_append (K.text_plain (by decide)) hlit)
  cases h with
  | regex h => exact hlike _ _ h
  | @value v w h =>
    -- the kinds of values that are refused never differ
    rcases K.value_cases h with rfl | ⟨s, t, rfl, rfl⟩
    · cases v <;> first | exact hlike _ _ h | exact .error rfl
    · exact hlike _ _ h

theorem agree_compileEquality (he : K.schemas e.schemas) {o p : Operand}
    (h : Operand.Corresponds K.value o p) :
    Agree (Compiled.Corresponds K.text) (e.compileEquality o) (e.compileEquality p) := by
  cases h with
  | value h =>
    exact (K.encode he h).bind fun _ _ hlit =>
      .ok (.clause (K.text_append (K.text_plain (by decide)) hlit))
  | list h => exact (agree_encodeAll he h).bind fun _ _ hlits => .ok (.values hlits)
  | filter h => exact .error rfl

theorem agree_intoClause {a b : Compiled} (h : Compiled.Corresponds K.text a b) :
    Agree K.text a.intoClause b.intoClause := by
  cases h with
  | clause h => exact .ok h
  | values h => exact .error rfl

theorem text_symbol (op : Comparison) : K.text op.symbol op.symbol :=
  K.text_plain (by cases op <;> decide)

/-- A list of values becomes a group in parentheses, anything else follows the
key. -/
theorem text_fieldClause {key : String} (hkey : K.text key key) {a b : Compiled}
    (h : Compiled.Corresponds K.text a b) :
    K.text (Encoder.fieldClause key a) (Encoder.fieldClause key b) := by
  cases h with
  | clause h => exact K.text_append (K.text_append hkey (K.text_plain (by decide))) h
  | values h =>
    refine K.text_parens (K.text_intercalate (by decide) ?_)
    rw [List.forall₂_map_left_iff, List.forall₂_map_right_iff]
    exact h.imp fun _ _ hlit =>
      K.text_append (K.text_append hkey (K.text_plain (by decide))) hlit

mutual

theorem agree_compile (he : K.schemas e.schemas) :
    ∀ {f g : Filter}, Filter.Corresponds K.value f g →
      Agree (Compiled.Corresponds K.text) (e.compile f) (e.compile g)
  | _, _, .field key h => by
    rw [Encoder.compile, Encoder.compile]
    -- the key is the same on both sides, and so is its refusal
    by_cases hkey : Filter.isFieldKey key = true
    · rw [if_pos hkey, if_pos hkey]
      rw [Filter.isFieldKey, Bool.and_eq_true] at hkey
      exact agree_compileField he (K.text_name rfl hkey.2) h
    · rw [if_neg hkey, if_neg hkey]
      exact .error rfl
  | _, _, .eq h => agree_compileEquality he h
  | _, _, .compare op h => agree_compileComparison he op h
  | _, _, .all h => by
    rw [Encoder.compile, Encoder.compile, h.isEmpty_eq]
    split
    · exact .error rfl
    · exact (agree_compileClauses he h).bind fun _ _ hclauses =>
        .ok (.clause (K.text_intercalate (by decide) hclauses))
  | _, _, .any h => by
    rw [Encoder.compile, Encoder.compile, h.isEmpty_eq]
    split
    · exact .error rfl
    · exact (agree_compileClauses he h).bind fun _ _ hclauses =>
        .ok (.clause (K.text_intercalate (by decide) hclauses))
  | _, _, .like h => (agree_pattern he h).bind fun _ _ hclause => .ok (.clause hclause)

theorem agree_compileField (he : K.schemas e.schemas) {key : String} (hkey : K.text key key) :
    ∀ {o p : Operand}, Operand.Corresponds K.value o p →
      Agree (Compiled.Corresponds K.text) (e.compileField key o) (e.compileField key p)
  | _, _, .value h => (K.encode he h).bind fun _ _ hlit =>
    .ok (.clause (K.text_append (K.text_append hkey (K.text_plain (by decide))) hlit))
  | _, _, .list _ => .error rfl
  | _, _, .filter h => (agree_compile he h).bind fun _ _ hinner =>
    .ok (.clause (text_fieldClause hkey hinner))

theorem agree_compileComparison (he : K.schemas e.schemas) (op : Comparison) :
    ∀ {o p : Operand}, Operand.Corresponds K.value o p →
      Agree (Compiled.Corresponds K.text) (e.compileComparison op o) (e.compileComparison op p)
  | _, _, .value h => (K.encode he h).bind fun _ _ hlit =>
    .ok (.clause (K.text_append (K.text_append (text_symbol op) (K.text_plain (by decide))) hlit))
  | _, _, .list _ => .error rfl
  | _, _, .filter h => (agree_compile he h).bind fun _ _ hinner =>
    (agree_intoClause hinner).bind fun _ _ hclause =>
      .ok (.clause
        (K.text_append (K.text_append (text_symbol op) (K.text_plain (by decide))) hclause))

theorem agree_compileClauses (he : K.schemas e.schemas) :
    ∀ {fs gs : List Filter}, Filter.AllCorrespond K.value fs gs →
      Agree (List.Forall₂ K.text) (e.compileClauses fs) (e.compileClauses gs)
  | _, _, .nil => .ok .nil
  | _, _, .cons h hrest => (agree_compile he h).bind fun _ _ hcompiled =>
    (agree_intoClause hcompiled).bind fun _ _ hclause =>
      (agree_compileClauses he hrest).bind fun _ _ hclauses => .ok (.cons hclause hclauses)

end

/-- Corresponding filters have corresponding conditions. -/
theorem agree_condition (he : K.schemas e.schemas) {f g : Filter}
    (h : Filter.Corresponds K.value f g) :
    Agree K.text (e.condition f) (e.condition g) :=
  (agree_compile he h).bind fun _ _ hcompiled => agree_intoClause hcompiled

end Filters

end Correspondence

end SqlBuilder
