import SqlBuilder.Proofs.Effects

/-!
# Validated columns

The values that are written to a registered column pass through its validator.
A run decides which validator that is by its registrations alone: the last one
of a table counts, and no call, accepted or rejected, adds a validator or takes
one away.

The validator is looked up under the text that stands for the column in the row,
while a row may name a column with its table as well. Under the bare name the
validator cannot be got round. Under the qualified name it is not asked, and the
literal is that of the validated value only where validation would not have
changed it.

* `Builder.validator?_run` — the validators that a run leaves registered;
* `Builder.Writes` — the calls that write a row to a table;
* `Builder.stored_of_accepted` — the literals that an accepted call stores;
* `Builder.validated_iff` — which of them are those of validated values.
-/

namespace SqlBuilder

/-! ## Registrations along a run -/

/-- The columns that a step registers for a table. -/
def Step.columns? (table : String) : Step → Option (Keyed Validator)
  | .register name columns => if table = name then some (Keyed.ofList columns) else none
  | _ => none

/-- The columns of the last registration of a table. -/
def Step.lastColumns? (table : String) (steps : List Step) : Option (Keyed Validator) :=
  (steps.filterMap (Step.columns? table)).getLast?

namespace Builder

variable {b : Builder} {table column : String}

/-- No call changes a validator, under any dialect. -/
theorem validator?_perform (b : Builder) (c : Call Builder) (table column : String) :
    (b.perform c).1.settings.schemas.validator? table column
      = b.settings.schemas.validator? table column := by
  rcases b.settings_perform c with h | ⟨v, -, h⟩
  · rw [h]
  · rw [h]
    -- only the creation of a table touches the registered tables
    cases v with
    | createTable name columns => exact b.settings.schemas.validator?_ensure name table column
    | _ => rfl

/-- The validators after a step: those that it registers, for the table that it
registers. -/
theorem validator?_step (b : Builder) (s : Step) (table column : String) :
    (b.step s).1.settings.schemas.validator? table column
      = match s.columns? table with
        | some columns => columns.get? column
        | none => b.settings.schemas.validator? table column := by
  have hread : ∀ call : Except Fault (Call Builder),
      (b.performRead call).1.settings.schemas.validator? table column
        = b.settings.schemas.validator? table column := by
    intro call
    cases call with
    | ok c => exact b.validator?_perform c table column
    | error fault => rfl
  cases s with
  | call c => exact b.validator?_perform c table column
  | insertJson | setJson | filterByJson => exact hread _
  | setDialect | setTerminator | setUseUtc => rfl
  | register name columns =>
    refine (b.settings.schemas.validator?_register name table column columns).trans ?_
    rw [Step.columns?]
    split <;> rfl

/-- **The last registration of a table decides**, whatever else a run does. -/
theorem validator?_run (b : Builder) (steps : List Step) (table column : String) :
    (b.run steps).settings.schemas.validator? table column
      = match Step.lastColumns? table steps with
        | some columns => columns.get? column
        | none => b.settings.schemas.validator? table column := by
  induction steps generalizing b with
  | nil => rfl
  | cons s steps ih =>
    rw [run_cons, ih, validator?_step]
    unfold Step.lastColumns?
    cases hs : s.columns? table with
    | none => rw [List.filterMap_cons_none hs]
    | some columns =>
      -- the columns of the first step stay only if no later step registers the table
      rw [List.filterMap_cons_some hs, List.getLast?_cons]
      cases (steps.filterMap (Step.columns? table)).getLast? <;> rfl

/-! ## Writing calls -/

/-- The calls that write a row of values to the columns of a table. -/
inductive Writes (b : Builder) (table : String) : Call Builder → List (String × Value) → Prop
  | insert (row : List (String × Value)) : Writes b table (.verb (.insert table row)) row
  | replace (row : List (String × Value)) : Writes b table (.verb (.replace table row)) row
  | set (hupdate : b.inUpdate = true) (hname : b.statement.name = table)
    (pairs : List (String × Value)) : Writes b table (.set pairs) pairs

/-- The values that a writing call leaves in the statement: an assignment goes
on with those of the update. -/
def keptValues (b : Builder) : Call Builder → List (String × String)
  | .set _ => b.statement.values
  | _ => []

end Builder

/-- Whether a call writes a value as it stands: an assigned function call. -/
def Call.keepsText : Call Builder → Value → Bool
  | .set _, v => (Settings.callText? v).isSome
  | _, _ => false

namespace Settings

/-- A literal is that of the value that a validator makes. -/
def IsValidated (s : Settings) (f : Validator) (v : Value) (literal : String) : Prop :=
  ∃ w, f v = .ok w ∧ s.encoder.encode w = .ok literal

/-- How the literal under a name comes about, and how far it is that of the value
which the validator of a column makes. It is always the literal of what the text
of the whole name leads to. So it is that of the validated value under the bare
name of the column, and under its qualified name only where both literals are the
same: where the validator rejects the value, it stands in the statement all the
same. -/
structure Obeys (s : Settings) (table column : String) (f : Validator) (p : String × Value)
    (literal : String) : Prop where
  written : s.literalFor (some table) p.1 p.2 = .ok literal
  bare : p.1 = column → s.IsValidated f p.2 literal
  qualified : p.1 = table ++ "." ++ column → (s.IsValidated f p.2 literal ↔
    ∃ w, f p.2 = .ok w ∧ s.encoder.encode w = s.literalFor (some table) p.1 p.2)

variable {s : Settings} {table column : String} {f : Validator} {v : Value} {literal : String}

/-- Under its own name a column is validated. -/
theorem isValidated_of_literalFor (hf : s.schemas.validator? table column = some f)
    (h : s.literalFor (some table) column v = .ok literal) : s.IsValidated f v literal := by
  simp only [literalFor, valueFor, Schemas.check_eq, hf] at h
  exact ok_of_bind h

end Settings

namespace Builder

variable {b : Builder} {table column : String} {c : Call Builder} {row : List (String × Value)}
  {f : Validator}

/-- **The literals of a row that is written**: pair by pair the literal of the
value under the text of its column, but for function calls that are assigned. -/
theorem stored_of_accepted (hb : b.settings.dialect.PagesOnly) (hwrites : b.Writes table c row)
    (haccepted : (b.perform c).2 = .ok ()) :
    ∃ added, (b.perform c).1.statement.values = b.keptValues c ++ added ∧
      List.Forall₂ (fun p q => q.1 = p.1 ∧
        (c.keepsText p.2 = false →
          b.settings.literalFor (some table) p.1 p.2 = .ok q.2)) row added := by
  have heffect : b.Effect c (b.perform c).1 := effect_of_accepted hb haccepted
  generalize (b.perform c).1 = after at heffect
  -- the two verbs write their rows in the same way
  have hwritten : ∀ {values : List (String × String)},
      List.Forall₂ (fun p q => b.settings.writtenValue table p = .ok q) row values →
      List.Forall₂ (fun p q => q.1 = p.1 ∧ (false = false →
        b.settings.literalFor (some table) p.1 p.2 = .ok q.2)) row values := by
    intro values h
    refine h.imp fun p q hpq => ?_
    obtain ⟨hname, -, hliteral⟩ := Settings.writtenValue_ok hpq
    exact ⟨hname, fun _ => hliteral⟩
  cases hwrites with
  | insert =>
    obtain ⟨hstarts⟩ := heffect
    cases hstarts with
    | insert _ _ hvalues => exact ⟨_, rfl, hwritten hvalues⟩
  | replace =>
    obtain ⟨hstarts⟩ := heffect
    cases hstarts with
    | replace _ _ _ hvalues => exact ⟨_, rfl, hwritten hvalues⟩
  | set hupdate hname =>
    cases heffect with
    | toColumns _ hvalues =>
      obtain ⟨-, hpairs⟩ := Settings.assignments_ok hvalues
      rw [hname] at hpairs
      refine ⟨_, rfl, hpairs.imp fun p q hpq => ?_⟩
      obtain ⟨hsame, -, hcall | ⟨-, hliteral⟩⟩ := Settings.assignment_ok hpq
      · -- a function call is not looked up at all
        refine ⟨hsame, fun hkept => ?_⟩
        simp [Call.keepsText, hcall] at hkept
      · exact ⟨hsame, fun _ => hliteral⟩
    | toVariables hnotUpdate _ _ =>
      rw [hupdate] at hnotUpdate
      cases hnotUpdate

/-- Every value is stored as the text of its name has it, and so validated under
the bare name of a column. -/
theorem obeys_of_accepted (hb : b.settings.dialect.PagesOnly)
    (hf : b.settings.schemas.validator? table column = some f) (hwrites : b.Writes table c row)
    (haccepted : (b.perform c).2 = .ok ()) :
    ∃ added, (b.perform c).1.statement.values = b.keptValues c ++ added ∧
      List.Forall₂ (fun p q => q.1 = p.1 ∧
        (c.keepsText p.2 = false → b.settings.Obeys table column f p q.2)) row added := by
  obtain ⟨added, hvalues, hpairs⟩ := stored_of_accepted hb hwrites haccepted
  refine ⟨added, hvalues, hpairs.imp fun p q ⟨hname, hliteral⟩ => ⟨hname, fun hkept => ?_⟩⟩
  have hq : b.settings.literalFor (some table) p.1 p.2 = .ok q.2 := hliteral hkept
  refine { written := hq, bare := fun hcolumn => ?_, qualified := fun _ => ?_ }
  · -- the look-up is made under the text of the pair, which is the bare name here
    rw [hcolumn] at hq
    exact Settings.isValidated_of_literalFor hf hq
  · rw [hq]
    rfl

/-- A value that the validator of its column rejects has the call rejected. -/
theorem rejected_of_validator (hb : b.settings.dialect.PagesOnly)
    (hf : b.settings.schemas.validator? table column = some f) (hwrites : b.Writes table c row)
    {p : String × Value} (hp : p ∈ row) (hcolumn : p.1 = column)
    (hkept : c.keepsText p.2 = false) {fault : Fault} (hfault : f p.2 = .error fault) :
    ∃ fault', b.perform c = (b, .error fault') := by
  rcases b.perform_cases hb c with h | ⟨after, hperform, -⟩
  · exact h
  · -- an accepted call would have stored the literal of a validated value
    obtain ⟨added, -, hpairs⟩ := obeys_of_accepted hb hf hwrites (by rw [hperform])
    obtain ⟨q, -, -, hobeys⟩ := exists_left_of_forall₂ hpairs.flip hp
    obtain ⟨w, hw, -⟩ := (hobeys hkept).bare hcolumn
    rw [hfault] at hw
    cases hw

/-- **Where a validator cannot be got round.** After any run in which a column was
registered with a validator, an accepted call stores the literal of the validated
value for each pair under the name of the column, and a call is rejected if the
validator rejects one of these values. Under the qualified name of the column it
stores the literal that the text of the whole name leads to, whether the validator
accepts the value or not, and that is the literal of the validated value exactly
where the validator makes no difference to it. -/
theorem validated_iff {d : Dialect} (hd : d.PagesOnly) {clock : LocalClock} {steps : List Step}
    (hdialects : ∀ d, .setDialect d ∈ steps → d.PagesOnly) {columns : Keyed Validator}
    (hcolumns : Step.lastColumns? table steps = some columns)
    (hf : columns.get? column = some f)
    (hwrites : ((ofDialect d clock).run steps).Writes table c row) :
    let b := (ofDialect d clock).run steps
    ((b.perform c).2 = .ok () → ∃ added,
      (b.perform c).1.statement.values = b.keptValues c ++ added ∧
      List.Forall₂ (fun p q => q.1 = p.1 ∧
        (c.keepsText p.2 = false → b.settings.Obeys table column f p q.2)) row added) ∧
    ∀ p ∈ row, p.1 = column → c.keepsText p.2 = false → ∀ fault, f p.2 = .error fault →
      ∃ fault', b.perform c = (b, .error fault') := by
  intro b
  have hb : b.settings.dialect.PagesOnly := dialect_of_run (b := ofDialect d clock) hd hdialects
  have hvalidator : b.settings.schemas.validator? table column = some f := by
    rw [validator?_run, hcolumns]
    exact hf
  constructor
  · intro haccepted
    exact obeys_of_accepted hb hvalidator hwrites haccepted
  · intro p hp hcolumn hkept fault hfault
    exact rejected_of_validator hb hvalidator hwrites hp hcolumn hkept hfault

/-- An update that assigns to a validated column, to the same column by its
qualified name, once a value that the validator rejects, and a function call; and
an assignment under the bare name that the validator rejects. -/
theorem validated_iff_update :
    let positive : Validator := fun v =>
      if v = .int 0 then .error (.other .malformed "not positive") else .ok (.text "checked")
    let steps : List Step := [.register "t" [("c", positive)], .call (.verb (.update "t")),
      .call (.set [("a", .int 1)])]
    let b := (ofDialect .sql92 .universal).run steps
    let set : Call Builder :=
      .set [("c", .int 1), ("t.c", .int 2), ("t.c", .int 0), ("c", .text "now()")]
    (b.perform set).2 = .ok () ∧
      (b.perform set).1.statement.values
        = [("a", "1"), ("c", "\"checked\""), ("t.c", "2"), ("t.c", "0"), ("c", "now()")] ∧
      b.settings.IsValidated positive (.int 1) "\"checked\"" ∧
      ¬ b.settings.IsValidated positive (.int 2) "2" ∧
      b.settings.literalFor (some "t") "t.c" (.int 0) = .ok "0" ∧
      ¬ b.settings.IsValidated positive (.int 0) "0" ∧
      ∃ fault, b.perform (.set [("b", .int 1), ("c", .int 0)]) = (b, .error fault) := by
  intro positive steps b set
  have hdialects : ∀ d, .setDialect d ∈ steps → d.PagesOnly := by
    intro d hd
    simp [steps] at hd
  have hcolumns : Step.lastColumns? "t" steps = some (Keyed.ofList [("c", positive)]) := rfl
  have hf : (Keyed.ofList [("c", positive)]).get? "c" = some positive := rfl
  have hwrites : ∀ pairs, b.Writes "t" (.set pairs) pairs := .set rfl rfl
  have haccepted : (b.perform set).2 = .ok () := rfl
  have hvalues : (b.perform set).1.statement.values
      = [("a", "1")] ++ [("c", "\"checked\""), ("t.c", "2"), ("t.c", "0"), ("c", "now()")] := rfl
  obtain ⟨added, hadded, hobeys⟩ :=
    (validated_iff Dialect.pagesOnly_sql92 hdialects hcolumns hf (hwrites _)).1 haccepted
  obtain rfl := List.append_cancel_left (hvalues.symm.trans hadded)
  obtain ⟨hbare, hrest⟩ := List.forall₂_cons.mp hobeys
  obtain ⟨hqualified, hrest⟩ := List.forall₂_cons.mp hrest
  obtain ⟨hrejected, -⟩ := List.forall₂_cons.mp hrest
  refine ⟨haccepted, hvalues, (hbare.2 rfl).bare rfl, fun hvalidated => ?_,
    (hrejected.2 rfl).written, fun hvalidated => ?_, ?_⟩
  · -- the value that the validator makes has another literal
    obtain ⟨w, hw, hliteral⟩ := ((hqualified.2 rfl).qualified rfl).mp hvalidated
    obtain rfl := Except.ok.inj hw
    cases hliteral
  · -- the validator makes no value at all
    obtain ⟨w, hw, -⟩ := ((hrejected.2 rfl).qualified rfl).mp hvalidated
    cases hw
  · have hmem : ("c", Value.int 0) ∈ [("b", Value.int 1), ("c", Value.int 0)] := by simp
    exact (validated_iff Dialect.pagesOnly_sql92 hdialects hcolumns hf (hwrites _)).2 _ hmem
      rfl rfl _ rfl

/-- A value that the validator of a column rejects is stored all the same under
the qualified name of the column, by every call that writes. -/
theorem validator_got_round :
    let reject : Validator := fun v => .error (.other .malformed ("rejected " ++ v.display))
    let b := (ofDialect .sql92 .universal).run [.register "t" [("c", reject)]]
    let write (key : String) : List (String × Value) := [(key, .int 1)]
    let updated := (b.perform (.verb (.update "t"))).1
    b.settings.schemas.validator? "t" "c" = some reject ∧
      (b.perform (.verb (.insert "t" (write "c")))).2
        = .error (.other .malformed "rejected 1") ∧
      (b.perform (.verb (.insert "t" (write "t.c")))).2 = .ok () ∧
      (b.perform (.verb (.insert "t" (write "t.c")))).1.statement.values = [("t.c", "1")] ∧
      (b.perform (.verb (.replace "t" (write "t.c")))).1.statement.values = [("t.c", "1")] ∧
      (updated.perform (.set (write "c"))).2 = .error (.other .malformed "rejected 1") ∧
      (updated.perform (.set (write "t.c"))).1.statement.values = [("t.c", "1")] := by
  exact ⟨rfl, rfl, rfl, rfl, rfl, rfl, rfl⟩

end Builder

end SqlBuilder
