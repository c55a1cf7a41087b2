import SqlBuilder.Proofs.Contents
import SqlBuilder.Proofs.Correspondence.Runs

/-!
# Reachable builders

The builders that some run from a new builder brings about, failed calls
included. What the steps may do is a parameter, and the builders inside a step
are reachable in the same sense.

* `Reachable` — the builders of all runs with allowed dialects and steps;
* `Reachable.twins` — a reachable builder corresponds to itself, if the allowed
  steps do.
-/

namespace SqlBuilder

/-- Builders that are brought about by runs in which every dialect has the
property `D` and every step the property `S`. -/
inductive Reachable (D : Dialect → Prop) (S : Step → Prop) : Builder → Prop
  | fresh {d : Dialect} {clock : LocalClock} (hd : D d) : Reachable D S (.ofDialect d clock)
  | step {b : Builder} {s : Step} (h : Reachable D S b) (hs : S s)
    (hinner : ∀ inner ∈ s.inners, Reachable D S inner) : Reachable D S (b.step s).1

/-- A run of allowed steps leads from reachable builders to reachable ones. -/
theorem Reachable.run {D : Dialect → Prop} {S : Step → Prop} {b : Builder} (h : Reachable D S b)
    {steps : List Step}
    (hsteps : ∀ s ∈ steps, S s ∧ ∀ inner ∈ s.inners, Reachable D S inner) :
    Reachable D S (b.run steps) := by
  induction steps generalizing b with
  | nil => exact h
  | cons s steps ih =>
    obtain ⟨hs, hinner⟩ := hsteps s List.mem_cons_self
    exact ih (h.step hs hinner) fun s' hs' => hsteps s' (List.mem_cons_of_mem s hs')

/-- Steps that may do more bring about more builders. -/
theorem Reachable.mono {D : Dialect → Prop} {S S' : Step → Prop} (hS : ∀ s, S s → S' s)
    {b : Builder} (h : Reachable D S b) : Reachable D S' b := by
  induction h with
  | fresh hd => exact .fresh hd
  | step _ hs _ ih ihinner => exact .step ih (hS _ hs) ihinner

/-! ## Steps that correspond to themselves -/

section Self

variable {V : Value → Value → Prop}

theorem Pattern.corresponds_self (hV : KeepsScalars V) {p : Pattern} (h : ∀ v ∈ p.values, V v v) :
    Pattern.Corresponds V p p := by
  cases p with
  | value v => exact .value (h v List.mem_cons_self)
  | regex source => exact .regex (hV _ fun _ => Value.noConfusion)

mutual

/-- A filter corresponds to itself if its values do. -/
theorem Filter.corresponds_self (hV : KeepsScalars V) :
    ∀ {f : Filter}, (∀ v ∈ f.values, V v v) → Filter.Corresponds V f f
  | .field key _, h => .field key (Operand.corresponds_self hV h)
  | .eq _, h => .eq (Operand.corresponds_self hV h)
  | .compare op _, h => .compare op (Operand.corresponds_self hV h)
  | .all _, h => .all (Filter.allCorrespond_self hV h)
  | .any _, h => .any (Filter.allCorrespond_self hV h)
  | .like _, h => .like (Pattern.corresponds_self hV h)

theorem Operand.corresponds_self (hV : KeepsScalars V) :
    ∀ {o : Operand}, (∀ v ∈ o.values, V v v) → Operand.Corresponds V o o
  | .value v, h => .value (h v List.mem_cons_self)
  | .list _, h => .list (List.forall₂_same.mpr h)
  | .filter _, h => .filter (Filter.corresponds_self hV h)

theorem Filter.allCorrespond_self (hV : KeepsScalars V) :
    ∀ {fs : List Filter}, (∀ v ∈ Filter.valuesOfAll fs, V v v) → Filter.AllCorrespond V fs fs
  | [], _ => .nil
  | _ :: _, h => .cons (Filter.corresponds_self hV fun v hv => h v (List.mem_append_left _ hv))
    (Filter.allCorrespond_self hV fun v hv => h v (List.mem_append_right _ hv))

end

/-- A row corresponds to itself if its values do. -/
theorem agreeingPairs_self {row : List (String × Value)} (h : ∀ v ∈ row.map Prod.snd, V v v) :
    AgreeingPairs V row row :=
  List.forall₂_same.mpr fun _ hp => ⟨rfl, h _ (List.mem_map_of_mem hp)⟩

theorem ColumnDefinition.corresponds_self {c : ColumnDefinition}
    (h : ∀ v, c.defaultValue = some v → V v v) : c.Corresponds V c where
  same := rfl
  defaultValue := by
    cases hdefault : c.defaultValue with
    | none => exact .none
    | some v => exact .some (h v hdefault)

end Self

namespace Correspondence

variable {K : Correspondence}

/-- A call corresponds to itself if its values and the builders in it do, and
the names it selects may be selected. -/
theorem call_self {B : Builder → Builder → Prop} {c : Call Builder}
    (hvalues : ∀ v ∈ c.values, K.assigned v v)
    (hselected : ∀ column ∈ (Step.call c).selected, column.IsSelectable K.selectable)
    (hinner : ∀ inner ∈ (Step.call c).inners, B inner inner) : Call.Corresponds K B c c := by
  have hvalue : ∀ v ∈ c.values, K.value v v := fun v hv => K.value_of_assigned (hvalues v hv)
  cases c with
  | set pairs => exact .set (agreeingPairs_self hvalues)
  | clause c =>
    refine .clause ?_
    cases c with
    | fromTables tables => exact .fromTables tables
    | join tables f => exact .join tables (Filter.corresponds_self K.keepsScalars_value hvalue)
    | filterBy f => exact .filterBy (Filter.corresponds_self K.keepsScalars_value hvalue)
    | limit index count => exact .limit index count
    | offset index => exact .offset index
    | orderBy fields direction => exact .orderBy fields direction
    | groupBy fields => exact .groupBy fields
    | intoTargets targets => exact .intoTargets targets
  | verb c =>
    refine .verb ?_
    cases c with
    | createTable name columns =>
      refine .createTable name (List.forall₂_same.mpr fun p hp => ⟨rfl, ?_⟩)
      refine ColumnDefinition.corresponds_self fun v hv => hvalue v ?_
      exact List.mem_filterMap.mpr ⟨p, hp, hv⟩
    | dropTable name => exact .dropTable name
    | createIndex name options => exact .createIndex name options
    | dropIndex name => exact .dropIndex name
    | createView name view => exact .createView name (hinner view List.mem_cons_self)
    | dropView name => exact .dropView name
    | insert table row => exact .insert table (agreeingPairs_self hvalue)
    | replace table row => exact .replace table (agreeingPairs_self hvalue)
    | update table => exact .update table
    | deleteFrom table => exact .deleteFrom table
    | select columns options => exact .select columns options hselected
    | union left right =>
      exact .union (hinner left List.mem_cons_self)
        (hinner right (List.mem_cons_of_mem _ List.mem_cons_self))

/-- What a step has to satisfy to correspond to itself. -/
structure Allows (K : Correspondence) (s : Step) : Prop where
  values : ∀ v ∈ s.values, K.assigned v v
  selected : ∀ column ∈ s.selected, column.IsSelectable K.selectable
  dialect : ∀ d, s = .setDialect d → d.PagesOnly
  registered : ∀ table columns, s = .register table columns → K.registrable table columns

/-- An allowed step corresponds to itself if the builders in it do. -/
theorem Allows.corresponds {s : Step} (h : K.Allows s) {B : Builder → Builder → Prop}
    (hinner : ∀ inner ∈ s.inners, B inner inner) : Step.Corresponds K B s s := by
  cases s with
  | call c => exact .call (call_self h.values h.selected hinner)
  | insertJson table row => exact .insertJson table (Json.Corresponds.refl K.keepsScalars_value row)
  | setJson values => exact .setJson (Json.Corresponds.refl K.keepsScalars values)
  | filterByJson filter => exact .filterByJson (Json.Corresponds.refl K.keepsScalars_value filter)
  | setDialect d => exact .setDialect (h.dialect d rfl)
  | setTerminator terminator => exact .setTerminator terminator
  | setUseUtc useUtc => exact .setUseUtc useUtc
  | register table columns => exact .register (h.registered table columns rfl)

end Correspondence

/-- **A reachable builder corresponds to itself**, under a correspondence that
allows the dialects and the steps of the run. -/
theorem Reachable.twins {K : Correspondence} {D : Dialect → Prop} {S : Step → Prop} {b : Builder}
    (h : Reachable D S b) (hD : ∀ d, D d → d.PagesOnly) (hS : ∀ s, S s → K.Allows s) :
    Twins K b b := by
  induction h with
  | fresh hd => exact .fresh (hD _ hd)
  | @step b s h hs hinner ih ihinner =>
    -- inside the step every builder is its own twin
    refine Twins.step ih (B := fun v w => v = w ∧ v ∈ s.inners) ?_ ?_
    · rintro v w ⟨rfl, hv⟩
      exact ihinner v hv
    · exact (hS s hs).corresponds fun inner hinner => ⟨rfl, hinner⟩

end SqlBuilder
