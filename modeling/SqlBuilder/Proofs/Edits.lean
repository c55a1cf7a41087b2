import Mathlib.Data.List.DropRight
import SqlBuilder.Proofs.Inheritance

/-!
# Edits of dialects

A dialect is defined by edits, and of two edits of the same thing the later one
wins. To support a method, to refuse it and to override it are edits of its
entry. A base is an edit of the family and of all entries at once, so that it
undoes the entries before it and is open to those after it. A verb and a clause
of the same name have entries of their own.

The base counts as it was when it was taken: what is registered under its name
later does not reach the dialects that were built on it.

* `Edit.sinceBase`, `Edit.lastBase?` — the last base of a definition, and the
  edits behind it;
* `field_foldl`, `entry_foldl` — what a run of edits leaves;
* `Registry.get?_foldl_define` — what a run of registrations leaves;
* `Dialect.last_edit_wins` — the dialect that edits define.
-/

namespace SqlBuilder

namespace Dialect

namespace Edit

/-- The dialect that an edit takes as the base. -/
def base? : Edit → Option Dialect
  | .basedOn base => some base
  | _ => none

/-- The family that an edit writes, its own or that of a base. -/
def family? : Edit → Option Family
  | .basedOn base => some base.family
  | .ofFamily family => some family
  | _ => none

/-- The description that an edit writes. -/
def description? : Edit → Option String
  | .describedAs description => some description
  | _ => none

/-- The entry that an edit writes for a verb. -/
def verb? (m : VerbMethod) : Edit → Option Support
  | .verb method support => if m = method then some support else none
  | _ => none

/-- The entry that an edit writes for a clause. -/
def clause? (m : ClauseMethod) : Edit → Option Support
  | .clause method support => if m = method then some support else none
  | _ => none

/-- The last base that edits take. -/
def lastBase? (edits : List Edit) : Option Dialect := (edits.filterMap base?).getLast?

/-- The edits behind the last base, all of them if there is none. -/
def sinceBase (edits : List Edit) : List Edit := edits.rtakeWhile fun e => e.base?.isNone

/-! ### Bases at the end of a run -/

variable {edits : List Edit} {e : Edit} {base : Dialect}

theorem lastBase?_concat (edits : List Edit) (e : Edit) :
    lastBase? (edits ++ [e]) = e.base?.or (lastBase? edits) := by
  unfold lastBase?
  rw [List.filterMap_append]
  cases h : e.base? with
  | none => simp [h]
  | some base => simp [h]

/-- A base leaves no edits behind it. -/
theorem sinceBase_concat_of_base (h : e.base? = some base) : sinceBase (edits ++ [e]) = [] :=
  List.rtakeWhile_concat_neg _ _ _ (by simp [h])

theorem sinceBase_concat (h : e.base? = none) :
    sinceBase (edits ++ [e]) = sinceBase edits ++ [e] :=
  List.rtakeWhile_concat_pos _ _ _ (by simp [h])

end Edit

open Edit

/-! ## One edit -/

/-- A base brings all its entries. -/
theorem edit_of_base {e : Edit} {base : Dialect} (h : e.base? = some base) (d : Dialect) :
    (d.edit e).verbs = base.verbs ∧ (d.edit e).clauses = base.clauses := by
  cases e with
  | basedOn =>
    obtain rfl := Option.some.inj h
    exact ⟨rfl, rfl⟩
  | _ => cases h

/-- Any other edit writes the entry of a verb that it names. -/
theorem verbs_edit {e : Edit} (h : e.base? = none) (d : Dialect) (m : VerbMethod) :
    (d.edit e).verbs m = (verb? m e).getD (d.verbs m) := by
  cases e with
  | basedOn => cases h
  | verb method support =>
    simp only [edit, verb?]
    split <;> rfl
  | _ => rfl

theorem clauses_edit {e : Edit} (h : e.base? = none) (d : Dialect) (m : ClauseMethod) :
    (d.edit e).clauses m = (clause? m e).getD (d.clauses m) := by
  cases e with
  | basedOn => cases h
  | clause method support =>
    simp only [edit, clause?]
    split <;> rfl
  | _ => rfl

/-! ## Runs of edits -/

/-- **What is written last stays**, of a field that an edit writes or leaves alone. -/
theorem field_foldl {α : Type} (field : Dialect → α) (write? : Edit → Option α)
    (hedit : ∀ d e, field (d.edit e) = (write? e).getD (field d)) (d : Dialect)
    (edits : List Edit) :
    field (edits.foldl edit d) = (edits.filterMap write?).getLast?.getD (field d) := by
  induction edits generalizing d with
  | nil => rfl
  | cons e edits ih =>
    rw [List.foldl_cons, ih, hedit]
    cases h : write? e with
    | none => rw [List.filterMap_cons_none h, Option.getD_none]
    | some value =>
      -- the first value counts if no later edit writes one
      rw [List.filterMap_cons_some h, List.getLast?_cons, Option.getD_some, Option.getD_some]

/-- **The last entry behind the last base stays**, and without one the entry of the
base. -/
theorem entry_foldl (entry : Dialect → Support) (write? : Edit → Option Support)
    (hbase : ∀ (d : Dialect) (e : Edit) (base : Dialect), e.base? = some base →
      entry (d.edit e) = entry base)
    (hedit : ∀ (d : Dialect) (e : Edit), e.base? = none →
      entry (d.edit e) = (write? e).getD (entry d))
    (d : Dialect) (edits : List Edit) :
    entry (edits.foldl edit d)
      = ((sinceBase edits).filterMap write?).getLast?.getD
        ((lastBase? edits).elim (entry d) entry) := by
  -- the last edit is a base, or goes behind the last one
  induction edits using List.reverseRecOn with
  | nil => rfl
  | append_singleton edits e ih =>
    rw [List.foldl_concat, lastBase?_concat]
    cases h : e.base? with
    | some base =>
      rw [hbase _ e base h, sinceBase_concat_of_base h]
      rfl
    | none =>
      rw [hedit _ e h, sinceBase_concat h, ih, List.filterMap_append]
      cases hwrite : write? e with
      | none => simp [hwrite]
      | some support => simp [hwrite]

end Dialect

/-! ## Runs of registrations -/

/-- **The last dialect that is registered under a name is found there**, and
without one what was there before. -/
theorem Registry.get?_foldl_define (r : Registry) (dialects : List Dialect) (name : String) :
    (dialects.foldl define r).get? name
      = (dialects.filter (·.name = name)).getLast?.or (r.get? name) := by
  induction dialects generalizing r with
  | nil => rfl
  | cons d dialects ih =>
    rw [List.foldl_cons, ih, get?_define]
    by_cases hname : d.name = name
    · rw [if_pos hname.symm, List.filter_cons_of_pos (by simpa using hname), List.getLast?_cons]
      cases (dialects.filter (·.name = name)).getLast? <;> rfl
    · rw [if_neg (Ne.symm hname), List.filter_cons_of_neg (by simpa using hname)]

namespace Dialect

open Edit

/-- No edit writes a name. -/
theorem name_define (name : String) (edits : List Edit) : (define name edits).name = name := by
  have hfold := field_foldl Dialect.name (fun _ => none) (fun d e => by cases e <;> rfl)
    (plain name) edits
  rwa [List.filterMap_none] at hfold

/-- **The last edit wins.** The entry of a method is the last one behind the last
base, else that of the last base, else the method is supported; the family is that
of the last edit or base that has one; the description is the last one, else the
name. A registered dialect stays under its name until the name is registered again,
whatever else is registered, under the names of its bases too. -/
theorem last_edit_wins (name : String) (edits : List Edit) :
    let d := define name edits
    d.name = name ∧
    (∀ m, d.verbs m = ((sinceBase edits).filterMap (verb? m)).getLast?.getD
      ((lastBase? edits).elim .supported fun base => base.verbs m)) ∧
    (∀ m, d.clauses m = ((sinceBase edits).filterMap (clause? m)).getLast?.getD
      ((lastBase? edits).elim .supported fun base => base.clauses m)) ∧
    d.family = (edits.filterMap family?).getLast?.getD .standard ∧
    d.description = (edits.filterMap description?).getLast?.getD name ∧
    ∀ (r : Registry) (later : List Dialect) (found : String),
      (later.foldl Registry.define (r.define d)).get? found
        = (later.filter (·.name = found)).getLast?.or
          (if found = name then some d else r.get? found) := by
  intro d
  refine ⟨name_define name edits, fun m => ?_, fun m => ?_, ?_, ?_, fun r later found => ?_⟩
  · exact entry_foldl (·.verbs m) (verb? m) (fun d e base h => congrFun (edit_of_base h d).1 m)
      (fun d e h => verbs_edit h d m) (plain name) edits
  · exact entry_foldl (·.clauses m) (clause? m) (fun d e base h => congrFun (edit_of_base h d).2 m)
      (fun d e h => clauses_edit h d m) (plain name) edits
  · exact field_foldl Dialect.family family? (fun d e => by cases e <;> rfl) (plain name) edits
  · exact field_foldl Dialect.description description? (fun d e => by cases e <;> rfl)
      (plain name) edits
  · rw [Registry.get?_foldl_define, Registry.get?_define, name_define]

/-- An entry before the base is undone by it, one behind it is kept, and the dialect
stays as it is when another one takes the name of the base. -/
example :
    let d := define "D" [.verb .set .supported, .basedOn .sqlite3, .verb .insert .unsupported]
    let r := (Registry.builtIn.define d).define { sql92 with name := "SQLite3" }
    d.verbs .set = .unsupported ∧ d.verbs .insert = .unsupported ∧ d.family = .sqlite ∧
      d.description = "D" ∧ r.get? "D" = some d ∧
      (r.get? "SQLite3").map Dialect.description = some "SQL 1992" := by
  exact ⟨rfl, rfl, rfl, rfl, rfl, rfl⟩

end Dialect

end SqlBuilder
