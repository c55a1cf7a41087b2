import SqlBuilder.Proofs.Correspondence.Runs
import SqlBuilder.Proofs.Families

/-!
# Scripts

A script is what a caller does to a builder, without saying which dialect the
builder is for. A builder inside a call is given by a script of its own. So a
script can be played under every dialect, on new builders throughout, and the
answers can be compared.

* `Instruction`, `Script` — one call or change of the settings, and a list of
  them;
* `Script.steps` — the steps of a script under a dialect;
* `Script.Along` — what holds of every call of a script as it is played;
* `Script.trace_under` — a script played under two built-in dialects;
* `builtIn_dialects_agree` — the built-in dialects give the same answers.
-/

namespace SqlBuilder

/-- One thing that a caller does to a builder. A builder inside a call is given
by what was done to it. -/
inductive Instruction where
  | call (call : Call (List Instruction))
  | insertJson (table : String) (row : Json)
  | setJson (values : Json)
  | filterByJson (filter : Json)
  | setTerminator (terminator : String)
  | setUseUtc (useUtc : Bool)
  | register (table : String) (columns : List (String × Validator))

/-- What a caller does to a builder, one thing after the other. -/
abbrev Script := List Instruction

mutual

/-- The step of an instruction under a dialect. -/
def Instruction.step (d : Dialect) (clock : LocalClock) : Instruction → Step
  | .call c => .call (Script.callUnder d clock c)
  | .insertJson table row => .insertJson table row
  | .setJson values => .setJson values
  | .filterByJson filter => .filterByJson filter
  | .setTerminator terminator => .setTerminator terminator
  | .setUseUtc useUtc => .setUseUtc useUtc
  | .register table columns => .register table columns
termination_by structural i => i

/-- A call with the builders that its scripts build under a dialect. -/
def Script.callUnder (d : Dialect) (clock : LocalClock) : Call (List Instruction) → Call Builder
  | .verb c => .verb (Script.verbUnder d clock c)
  | .clause c => .clause c
  | .set pairs => .set pairs
termination_by structural c => c

/-- A verb with the builders that its scripts build under a dialect. -/
def Script.verbUnder (d : Dialect) (clock : LocalClock) :
    VerbCall (List Instruction) → VerbCall Builder
  | .createView name view =>
    .createView name ((Builder.ofDialect d clock).run (Script.steps d clock view))
  | .union left right =>
    .union ((Builder.ofDialect d clock).run (Script.steps d clock left))
      ((Builder.ofDialect d clock).run (Script.steps d clock right))
  | .createTable name columns => .createTable name columns
  | .dropTable name => .dropTable name
  | .createIndex name options => .createIndex name options
  | .dropIndex name => .dropIndex name
  | .dropView name => .dropView name
  | .insert table row => .insert table row
  | .replace table row => .replace table row
  | .update table => .update table
  | .deleteFrom table => .deleteFrom table
  | .select columns options => .select columns options
termination_by structural c => c

/-- The steps of a script under a dialect. -/
def Script.steps (d : Dialect) (clock : LocalClock) : List Instruction → List Step
  | [] => []
  | i :: is => i.step d clock :: Script.steps d clock is
termination_by structural is => is

end

/-- The scripts inside an instruction. -/
def Instruction.scripts : Instruction → List Script
  | .call (.verb (.createView _ view)) => [view]
  | .call (.verb (.union left right)) => [left, right]
  | _ => []

/-- The builder that a script builds under a dialect. -/
def Script.build (d : Dialect) (clock : LocalClock) (script : Script) : Builder :=
  (Builder.ofDialect d clock).run (Script.steps d clock script)

/-- What callers see of a script under a dialect: after every instruction its
result, and the text of the statement or why there is none. -/
def Script.answers (d : Dialect) (clock : LocalClock) (script : Script) :
    List (Except Fault Unit × Except Fault String) :=
  ((Builder.ofDialect d clock).trace (Script.steps d clock script)).map fun o => (o.2, o.1.render)

/-- Every call of a script has the property `P` of the builder that it is made
on, and so has every call of the scripts inside it. -/
inductive Script.Along (d : Dialect) (clock : LocalClock) (P : Builder → Call Builder → Prop) :
    Builder → List Instruction → Prop
  | nil {b : Builder} : Script.Along d clock P b []
  | cons {b : Builder} {i : Instruction} {is : List Instruction}
    (hcall : ∀ c, (i.step d clock).call? = some c → P b c)
    (hinner : ∀ script ∈ i.scripts, Script.Along d clock P (.ofDialect d clock) script)
    (hrest : Script.Along d clock P (b.step (i.step d clock)).1 is) :
    Script.Along d clock P b (i :: is)

/-- A script all of whose calls, as it is played under a dialect, have a
property. -/
def Script.Meets (d : Dialect) (clock : LocalClock) (P : Builder → Call Builder → Prop)
    (script : Script) : Prop :=
  Script.Along d clock P (.ofDialect d clock) script

/-! ## One instruction under two dialects -/

/-- A step with other builders inside it. -/
def Step.map (f : Builder → Builder) : Step → Step
  | .call c => .call (c.map f)
  | s => s

theorem Instruction.step_ne_setDialect (d d' : Dialect) (clock : LocalClock) (i : Instruction) :
    i.step d clock ≠ .setDialect d' := by
  cases i <;> exact Step.noConfusion

/-- The step of an instruction under another dialect has the builders of the
other dialect inside it. -/
theorem Instruction.step_under {d d' : Dialect} {clock : LocalClock} {i : Instruction}
    (h : ∀ script ∈ i.scripts,
      Script.build d' clock script = (Script.build d clock script).under d') :
    i.step d' clock = (i.step d clock).map (·.under d') := by
  cases i with
  | call c =>
    cases c with
    | verb c =>
      cases c with
      | createView name view =>
        have hview := h view List.mem_cons_self
        rw [Script.build, Script.build] at hview
        simp only [Instruction.step, Script.callUnder, Script.verbUnder, Step.map, Call.map,
          VerbCall.map, hview]
      | union left right =>
        have hleft := h left List.mem_cons_self
        have hright := h right (List.mem_cons_of_mem _ List.mem_cons_self)
        rw [Script.build, Script.build] at hleft hright
        simp only [Instruction.step, Script.callUnder, Script.verbUnder, Step.map, Call.map,
          VerbCall.map, hleft, hright]
      | _ => rfl
    | clause c | set pairs => rfl
  | _ => rfl

namespace Builder

variable {b : Builder} {d : Dialect} {s : Step}

theorem performRead_under {α : Type} {x : Except Fault α} {call : α → Call Builder}
    (h : ∀ a, x = .ok a → (b.under d).perform (call a) = Outcome.under (b.perform (call a)) d) :
    (b.under d).performRead (x.map call) = Outcome.under (b.performRead (x.map call)) d := by
  cases x with
  | ok a => exact h a rfl
  | error fault => rfl

/-- **A step under two built-in dialects**, if its call is shared. -/
theorem step_under_builtIn (hb : b.settings.dialect.IsBuiltIn) (hd : d.IsBuiltIn)
    (hs : ∀ d', s ≠ .setDialect d') (hshared : ∀ c, s.call? = some c → b.IsShared c)
    (hsqlite : b.settings.dialect.family = .sqlite ∨ d.family = .sqlite →
      ∀ c, s.call? = some c → b.IsPlainForSqlite c) :
    (b.under d).step (s.map (·.under d)) = Outcome.under (b.step s) d := by
  have hperform : ∀ c, s.call? = some c →
      (b.under d).perform (c.map (·.under d)) = Outcome.under (b.perform c) d :=
    fun c hc => perform_under_builtIn (fun _ => rfl) hb hd (hshared c hc)
      fun hfamily => hsqlite hfamily c hc
  cases s with
  | call c => exact hperform c rfl
  | insertJson table row =>
    exact performRead_under fun r hr => hperform (.verb (.insert table r)) (by
      rw [Step.call?, hr]
      rfl)
  | setJson values =>
    exact performRead_under fun r hr => hperform (.set r) (by
      rw [Step.call?, hr]
      rfl)
  | filterByJson filter =>
    exact performRead_under fun f hf => hperform (.clause (.filterBy f)) (by
      rw [Step.call?, hf]
      rfl)
  | setDialect d' => exact absurd rfl (hs d')
  | setTerminator terminator | setUseUtc useUtc | register table columns => rfl

end Builder

/-! ## Scripts under two dialects -/

namespace Script

variable {d d' : Dialect} {clock : LocalClock} {P : Builder → Call Builder → Prop}

/-- **A script under two built-in dialects** leaves the same builder and gives
the same outcomes, but for the dialect. -/
theorem trace_under (hd : d.IsBuiltIn) (hd' : d'.IsBuiltIn)
    (hshared : ∀ b c, P b c → b.IsShared c)
    (hsqlite : d.family = .sqlite ∨ d'.family = .sqlite → ∀ b c, P b c → b.IsPlainForSqlite c)
    {b : Builder} {script : Script} (h : Along d clock P b script) (hb : b.settings.dialect = d) :
    (b.under d').run (steps d' clock script) = (b.run (steps d clock script)).under d' ∧
      (b.under d').trace (steps d' clock script)
        = (b.trace (steps d clock script)).map (Outcome.under · d') := by
  induction h with
  | nil => exact ⟨rfl, rfl⟩
  | @cons b i is hcall _ _ ihinner ih =>
    have hinner : ∀ script ∈ i.scripts, build d' clock script = (build d clock script).under d' :=
      fun script hscript => (ihinner script hscript rfl).1
    have hstep : (b.under d').step (i.step d' clock)
        = Outcome.under (b.step (i.step d clock)) d' := by
      rw [Instruction.step_under hinner]
      refine Builder.step_under_builtIn (hb ▸ hd) hd' (fun d'' => i.step_ne_setDialect d d'' clock)
        (fun c hc => hshared b c (hcall c hc)) fun hfamily c hc => ?_
      exact hsqlite (hb ▸ hfamily) b c (hcall c hc)
    -- no instruction changes the dialect
    have hafter : (b.step (i.step d clock)).1.settings.dialect = d :=
      Builder.dialect_of_step (P := (· = d)) hb fun d'' hset =>
        absurd hset (i.step_ne_setDialect d d'' clock)
    obtain ⟨hrun, htrace⟩ := ih hafter
    refine ⟨?_, ?_⟩
    · rw [steps, steps, Builder.run_cons, Builder.run_cons, hstep]
      exact hrun
    · rw [steps, steps, Builder.trace, Builder.trace, List.map_cons, hstep]
      exact congrArg _ htrace

/-- The answers to a script do not show which of two built-in dialects it is
played under. -/
theorem answers_eq (hd : d.IsBuiltIn) (hd' : d'.IsBuiltIn)
    (hshared : ∀ b c, P b c → b.IsShared c)
    (hsqlite : d.family = .sqlite ∨ d'.family = .sqlite → ∀ b c, P b c → b.IsPlainForSqlite c)
    {script : Script} (h : script.Meets d clock P) :
    answers d' clock script = answers d clock script := by
  have htrace := (trace_under hd hd' hshared hsqlite h rfl).2
  have hfresh : (Builder.ofDialect d clock).under d' = Builder.ofDialect d' clock := rfl
  rw [hfresh] at htrace
  rw [answers, answers, htrace, List.map_map]
  rfl

end Script

/-- **The built-in dialects agree.** A script without `replace` that assigns
values in updates only gets the same answers under the baseline, MySQL and
PostgreSQL: every instruction has the same result, and the statement after it
the same text. It gets them under SQLite, too, if it sends nothing `into`
variables and encodes no text with an apostrophe. Under whichever of the
dialects these conditions are checked, the others agree with it. The paging of
PostgreSQL, the one override among them, is the built-in one in every state. -/
theorem builtIn_dialects_agree :
    (∀ d d' : Dialect, d.IsBuiltIn → d'.IsBuiltIn → d.family ≠ .sqlite → d'.family ≠ .sqlite →
      ∀ (clock : LocalClock) (script : Script), script.Meets d clock Builder.IsShared →
        script.answers d' clock = script.answers d clock) ∧
    (∀ d d' : Dialect, d.IsBuiltIn → d'.IsBuiltIn → ∀ (clock : LocalClock) (script : Script),
      script.Meets d clock (fun b c => b.IsShared c ∧ b.IsPlainForSqlite c) →
        script.answers d' clock = script.answers d clock) ∧
    ∀ (b : Builder) (index : Nat) (count : Option Nat), b.settings.dialect = .postgresql92 →
      b.perform (.clause (.limit index count)) = b.settle (b.fillClause (.limit index count)) := by
  refine ⟨fun d d' hd hd' hfamily hfamily' clock script h => ?_,
    fun d d' hd hd' clock script h => ?_,
    fun b index count hb => Builder.limit_postgresql92 hb index count⟩
  · refine Script.answers_eq hd hd' (fun _ _ hshared => hshared) (fun hone => ?_) h
    rcases hone with hone | hone
    · exact absurd hone hfamily
    · exact absurd hone hfamily'
  · exact Script.answers_eq hd hd' (fun _ _ hP => hP.1) (fun _ _ _ hP => hP.2) h

/-- A page of a view and an assignment in an update, under SQLite as under
PostgreSQL. -/
theorem builtIn_dialects_agree_nested :
    let view : Script := [.call (.verb (.select [.name "id"] { })),
      .call (.clause (.limit 5 (some 10)))]
    let script : Script := [.call (.verb (.createView "v" view)), .call (.verb (.update "t")),
      .call (.set [("a", .text "\"x\"")])]
    script.Meets .postgresql92 .universal (fun b c => b.IsShared c ∧ b.IsPlainForSqlite c) ∧
    script.answers .sqlite3 .universal = script.answers .postgresql92 .universal ∧
    script.answers .sqlite3 .universal =
      [(.ok (), .ok "CREATE VIEW v AS SELECT id LIMIT 10 OFFSET 5;"),
      (.ok (), .ok "UPDATE t;"), (.ok (), .ok "UPDATE t SET a = \"\\\"x\\\"\";")] := by
  intro view script
  have hview : view.Meets .postgresql92 .universal
      (fun b c => b.IsShared c ∧ b.IsPlainForSqlite c) := by
    refine .cons ?_ (List.forall_mem_nil _) (.cons ?_ (List.forall_mem_nil _) .nil)
    · rintro c ⟨⟩
      exact ⟨VerbMethod.noConfusion, rfl, List.forall_mem_nil _⟩
    · rintro c ⟨⟩
      exact ⟨trivial, rfl, List.forall_mem_nil _⟩
  have hscript : script.Meets .postgresql92 .universal
      (fun b c => b.IsShared c ∧ b.IsPlainForSqlite c) := by
    refine .cons ?_ (List.forall_mem_singleton.mpr hview) (.cons ?_ (List.forall_mem_nil _)
      (.cons ?_ (List.forall_mem_nil _) .nil))
    · rintro c ⟨⟩
      exact ⟨VerbMethod.noConfusion, rfl, List.forall_mem_nil _⟩
    · rintro c ⟨⟩
      exact ⟨VerbMethod.noConfusion, rfl, List.forall_mem_nil _⟩
    · rintro c ⟨⟩
      exact ⟨rfl, rfl, by decide⟩
  exact ⟨hscript, builtIn_dialects_agree.2.1 _ _ .postgresql92 .sqlite3 _ script hscript, rfl⟩

end SqlBuilder
