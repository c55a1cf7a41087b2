import SqlBuilder.Proofs.Encodings

/-!
# Calls under the built-in dialects

Where the four built-in dialects do not differ. The literal of a value is the
same in all families but SQLite, and in SQLite, too, unless the value is a text
with an apostrophe. A call that replaces no rows and assigns no variables is let
through by all four dialects, apart from `into`, and its built-in method does
the same under all of them. The paging of PostgreSQL is the built-in one.

* `Value.LacksApostrophe`, `writesAlike_of_lacksApostrophe`, `writesAlike_of_ne_sqlite`
  — literals under two families;
* `Dialect.IsBuiltIn` — the four dialects;
* `Builder.IsShared`, `Builder.IsPlainForSqlite` — the calls that they have in
  common;
* `perform_under_builtIn` — one call under two built-in dialects;
* `limit_postgresql92` — the override of PostgreSQL.
-/

namespace SqlBuilder

/-- A value that is not a text with an apostrophe. -/
def Value.LacksApostrophe : Value → Prop
  | .text s => '\'' ∉ s.toList
  | _ => True

instance (v : Value) : Decidable v.LacksApostrophe :=
  match v with
  | .text s => inferInstanceAs (Decidable ('\'' ∉ s.toList))
  | .null | .bool _ | .int _ | .float _ | .instant _ | .wall _ | .column _ => .isTrue trivial

/-! ## Texts without apostrophes -/

namespace Text

theorem mem_of_mem_dropSpace {c : Char} {cs : List Char} (h : c ∈ dropSpace cs) : c ∈ cs :=
  (List.dropWhile_sublist _).subset h

theorem mem_of_mem_trim {c : Char} {s : String} (h : c ∈ (trim s).toList) : c ∈ s.toList := by
  rw [toList_trim, dropSpaceEnd, List.mem_reverse] at h
  have hreverse : c ∈ (dropSpace s.toList).reverse := mem_of_mem_dropSpace h
  exact mem_of_mem_dropSpace (List.mem_reverse.mp hreverse)

end Text

theorem not_mem_paddedDigits (width n : Nat) : '\'' ∉ (paddedDigits width n).toList := by
  intro hmem
  rw [paddedDigits, String.toList_ofList, List.mem_append] at hmem
  have hdigit : Char.isDigit '\'' = true := by
    rcases hmem with hzero | hdigits
    · obtain ⟨-, hzero⟩ := List.mem_replicate.mp hzero
      cases hzero
    · exact Nat.isDigit_of_mem_toDigits (by decide) (by decide) hdigits
  cases hdigit

/-- Dates are written with digits and a few marks. -/
theorem not_mem_sqlText (m : Moment) : '\'' ∉ m.sqlText.toList := by
  have hyear : '\'' ∉ (yearText m.date.year).toList := by
    unfold yearText
    split
    · simp [not_mem_paddedDigits]
    · split <;> simp [not_mem_paddedDigits]
  have hdate : '\'' ∉ m.date.text.toList := by
    simp [Date.text, not_mem_paddedDigits, hyear]
  have htime : '\'' ∉ m.time.clockText.toList := by
    simp [TimeOfDay.clockText, not_mem_paddedDigits]
  unfold Moment.sqlText
  split
  · exact hdate
  · simp [hdate, htime]

/-! ## Literals -/

namespace Encoder

variable {family family' : Family}

theorem escapeChar_of_ne_sqlite (h : family ≠ .sqlite) (h' : family' ≠ .sqlite) (c : Char) :
    escapeChar family' c = escapeChar family c := by
  unfold escapeChar
  rw [if_neg h, if_neg h']

theorem escapeChar_of_ne_apostrophe {c : Char} (h : c ≠ '\'') :
    escapeChar family' c = escapeChar family c := by
  unfold escapeChar
  split <;> first | rfl | exact absurd rfl h

theorem quote_of_ne_sqlite (h : family ≠ .sqlite) (h' : family' ≠ .sqlite) (s : String) :
    quote family' s = quote family s := by
  have hescape : escapeChar family' = escapeChar family :=
    funext (escapeChar_of_ne_sqlite h h')
  rw [quote, quote, escape, escape, hescape]

theorem quote_of_not_mem {s : String} (h : '\'' ∉ s.toList) (family family' : Family) :
    quote family' s = quote family s := by
  have hescape : escape family' s.toList = escape family s.toList := by
    refine List.flatMap_congr fun c hc => escapeChar_of_ne_apostrophe ?_
    rintro rfl
    exact h hc
  rw [quote, quote, hescape]

end Encoder

namespace Settings

variable {s : Settings} {d : Dialect} {v : Value}

/-- A value has the same literal under two dialects if all that is quoted is
quoted the same. -/
theorem writesAlike_of_quote
    (htext : ∀ t, v = .text t →
      Encoder.quote d.family (Text.trim t) = Encoder.quote s.dialect.family (Text.trim t))
    (hdate : ∀ m : Moment,
      Encoder.quote d.family m.sqlText = Encoder.quote s.dialect.family m.sqlText) :
    s.WritesAlike d v := by
  cases v with
  | text t =>
    show (s.under d).encoder.encodeText t = s.encoder.encodeText t
    have hquote : Encoder.quote (s.under d).encoder.family (Text.trim t)
        = Encoder.quote s.encoder.family (Text.trim t) := htext t rfl
    rw [Encoder.encodeText, Encoder.encodeText, hquote]
    rfl
  | instant m =>
    show Except.ok (Encoder.quote d.family (m.instantText s.clock s.useUtc))
      = Except.ok (Encoder.quote s.dialect.family (m.instantText s.clock s.useUtc))
    unfold Moment.instantText
    split <;> rw [hdate]
  | wall m => exact congrArg Except.ok (hdate m)
  | null | bool b | int n | float x | column reference => rfl

/-- All families but SQLite write the same literals. -/
theorem writesAlike_of_ne_sqlite (h : s.dialect.family ≠ .sqlite) (hd : d.family ≠ .sqlite) :
    s.WritesAlike d v :=
  writesAlike_of_quote (fun _ _ => Encoder.quote_of_ne_sqlite h hd _)
    fun _ => Encoder.quote_of_ne_sqlite h hd _

/-- All families write the same literal for anything but a text with an
apostrophe. -/
theorem writesAlike_of_lacksApostrophe (h : v.LacksApostrophe) : s.WritesAlike d v := by
  refine writesAlike_of_quote (fun t ht => ?_) fun m =>
    Encoder.quote_of_not_mem (not_mem_sqlText m) _ _
  subst ht
  exact Encoder.quote_of_not_mem (fun hmem => h (Text.mem_of_mem_trim hmem)) _ _

end Settings

/-! ## The built-in dialects -/

/-- One of the dialects that are built in. -/
inductive Dialect.IsBuiltIn : Dialect → Prop
  | sql92 : IsBuiltIn .sql92
  | mysql55 : IsBuiltIn .mysql55
  | postgresql92 : IsBuiltIn .postgresql92
  | sqlite3 : IsBuiltIn .sqlite3

theorem Dialect.IsBuiltIn.pagesOnly {d : Dialect} (h : d.IsBuiltIn) : d.PagesOnly := by
  cases h with
  | sql92 => exact pagesOnly_sql92
  | mysql55 => exact pagesOnly_mysql55
  | postgresql92 => exact pagesOnly_postgresql92
  | sqlite3 => exact pagesOnly_sqlite3

/-- The built-in dialects support every verb but `replace` and `set`. -/
theorem Dialect.IsBuiltIn.supportsVerb {d : Dialect} (h : d.IsBuiltIn) {m : VerbMethod}
    (hreplace : m ≠ .replace) (hset : m ≠ .set) : d.verbs m = .supported := by
  cases h <;> cases m <;> first | rfl | exact absurd rfl hreplace | exact absurd rfl hset

/-- The built-in dialects refuse no clause, but for SQLite and `into`. -/
theorem Dialect.IsBuiltIn.allowsClause {d : Dialect} (h : d.IsBuiltIn) {m : ClauseMethod}
    (hinto : m = .intoTargets → d.family ≠ .sqlite) : d.clauses m ≠ .unsupported := by
  intro hrefuses
  cases h with
  | sqlite3 =>
    cases m with
    | intoTargets => exact hinto rfl rfl
    | _ => cases hrefuses
  | sql92 | mysql55 | postgresql92 => cases m <;> cases hrefuses

/-- Whether a call sends the results of a statement `into` variables. -/
def Call.isInto {α : Type} : Call α → Bool
  | .clause (.intoTargets _) => true
  | _ => false

@[simp] theorem Call.isInto_map {α β : Type} (f : α → β) (c : Call α) :
    (c.map f).isInto = c.isInto := by
  cases c with
  | clause c => cases c <;> rfl
  | verb c | set pairs => rfl

namespace Builder

variable {b : Builder} {d : Dialect} {c : Call Builder}

/-- A call that replaces no rows, and assigns nothing outside an update. -/
def IsShared (b : Builder) : Call Builder → Prop
  | .verb c => c.method ≠ .replace
  | .clause _ => True
  | .set _ => b.inUpdate = true

/-- A call that is no `into` and encodes no text with an apostrophe. -/
structure IsPlainForSqlite (b : Builder) (c : Call Builder) : Prop where
  notInto : c.isInto = false
  literals : ∀ v ∈ b.encoded c, v.LacksApostrophe

/-- **The built-in dialects let the shared calls through**, `into` under SQLite
apart. -/
theorem gate_of_isShared (hb : b.settings.dialect.IsBuiltIn) (hshared : b.IsShared c)
    (hinto : b.settings.dialect.family = .sqlite → c.isInto = false) : b.gate c = .ok () := by
  -- an entry that is not a refusal opens the door
  have hopen : ∀ (support : Support) (refusal : Fault), support ≠ .unsupported →
      support.gate refusal = .ok () := by
    intro support refusal hsupport
    cases support with
    | unsupported => exact absurd rfl hsupport
    | supported | custom override => rfl
  cases c with
  | verb c =>
    have hset : c.method ≠ .set := by
      cases c <;> exact VerbMethod.noConfusion
    rw [gate, hb.supportsVerb hshared hset]
    rfl
  | clause c =>
    refine hopen _ _ (hb.allowsClause fun hmethod hsqlite => ?_)
    cases c with
    | intoTargets targets => cases hinto hsqlite
    | _ => cases hmethod
  | set pairs =>
    have hupdate : b.inUpdate = true := hshared
    rw [gate, if_pos hupdate]
    exact hopen _ _ (hb.allowsClause ClauseMethod.noConfusion)

/-- No built-in method singles out a family in a shared call, `into` under SQLite
apart. -/
theorem singlesOut_of_isShared {family : Family} (hshared : b.IsShared c)
    (hinto : family = .sqlite → c.isInto = false) : b.singlesOut family c = false := by
  cases c with
  | verb c =>
    have hreplace : c.method ≠ .replace := hshared
    simp [singlesOut, hreplace]
  | clause c =>
    cases c with
    | intoTargets targets =>
      have hfamily : family ≠ .sqlite := by
        intro hsqlite
        cases hinto hsqlite
      simp [singlesOut, hfamily]
    | _ => rfl
  | set pairs =>
    have hupdate : b.inUpdate = true := hshared
    simp [singlesOut, hupdate]

theorem isShared_map (f : Builder → Builder) : (b.under d).IsShared (c.map f) ↔ b.IsShared c := by
  cases c with
  | verb c => rw [Call.map, IsShared, IsShared, VerbCall.method_map]
  | clause c => exact Iff.rfl
  | set pairs => exact Iff.rfl

/-- **A shared call under two built-in dialects** has the same result, and leaves
the same builder but for the dialect. If one of the two is SQLite, the call must
be no `into` and encode no text with an apostrophe. -/
theorem perform_under_builtIn {f : Builder → Builder} (hf : ∀ b, (f b).statement = b.statement)
    (hb : b.settings.dialect.IsBuiltIn) (hd : d.IsBuiltIn) (hshared : b.IsShared c)
    (hsqlite : b.settings.dialect.family = .sqlite ∨ d.family = .sqlite → b.IsPlainForSqlite c) :
    (b.under d).perform (c.map f) = Outcome.under (b.perform c) d := by
  have hgate : b.gate c = .ok () :=
    gate_of_isShared hb hshared fun hfamily => (hsqlite (.inl hfamily)).notInto
  have hgateUnder : (b.under d).gate (c.map f) = .ok () := by
    refine gate_of_isShared hd ((isShared_map f).mpr hshared) fun hfamily => ?_
    rw [Call.isInto_map]
    exact (hsqlite (.inr hfamily)).notInto
  have hmethod : (b.under d).builtIn (c.map f) = (b.builtIn c).map (·.under d) := by
    refine builtIn_under hf (fun hsingled => ?_) fun v hv => ?_
    · -- no shared call singles out a family
      rw [singlesOut_of_isShared hshared fun hfamily => (hsqlite (.inr hfamily)).notInto,
        singlesOut_of_isShared hshared fun hfamily => (hsqlite (.inl hfamily)).notInto] at hsingled
      rcases hsingled with hsingled | hsingled <;> cases hsingled
    · by_cases hone : b.settings.dialect.family = .sqlite ∨ d.family = .sqlite
      · exact Settings.writesAlike_of_lacksApostrophe ((hsqlite hone).literals v hv)
      · obtain ⟨hbfamily, hdfamily⟩ := not_or.mp hone
        exact Settings.writesAlike_of_ne_sqlite hbfamily hdfamily
  rw [perform_eq_settle hb.pagesOnly, perform_eq_settle (b := b.under d) hd.pagesOnly, hgate,
    hgateUnder]
  show (b.under d).settle ((b.under d).builtIn (c.map f)) = Outcome.under (b.settle (b.builtIn c)) d
  rw [hmethod, settle_under]

/-- **The paging of PostgreSQL is the built-in one**, in every state. -/
theorem limit_postgresql92 (hb : b.settings.dialect = .postgresql92) (index : Nat)
    (count : Option Nat) :
    b.perform (.clause (.limit index count)) = b.settle (b.fillClause (.limit index count)) := by
  have hentry : b.settings.dialect.clauses .limit = .custom Dialect.pagingOverride := by
    rw [hb]
    rfl
  rw [perform_clause]
  show b.dispatch (b.settings.dialect.clauses .limit) _ _ _ = _
  rw [hentry]
  exact pagingOverride_eq_fillClause b index count

end Builder

end SqlBuilder
