import SqlBuilder.Proofs.CallText
import SqlBuilder.Proofs.Correspondence.Runs
import SqlBuilder.Proofs.LiteralForm

/-!
# Literals do not interfere

What a text literal says never changes anything outside quotes. Two runs that
differ in nothing but texts in literal positions give the same results, and
statements that are the same text once every quoted segment is blotted out.

Three promises of the callers are needed. A text that differs must not begin
with an at sign, where it would be a variable; in an assignment it must not be a
function call, which stands as it is; and a column reference that was never
checked must not leave a quote open, since it would turn the rest of the
statement inside out (`unchecked_column_interferes`).

* `SameShell` — texts that look the same from outside quotes;
* `Value.SameButText` — values that may stand in for one another;
* `erasure` — the correspondence of the two;
* `literals_do_not_interfere` — the two runs.
-/

namespace SqlBuilder

open Quotation

/-- Texts that leave no quote open and look the same from outside quotes. -/
structure SameShell (s t : String) : Prop where
  left : IsClosed s.toList
  right : IsClosed t.toList
  shell : shell .outside s.toList = shell .outside t.toList

/-- A value whose column reference, if it is one, leaves no quote open. -/
def Value.IsClosed : Value → Prop
  | .column reference => Quotation.IsClosed reference.toList
  | _ => True

/-- Values that are the same, or two texts that are free to differ. -/
inductive Value.SameButText (free : String → Prop) : Value → Value → Prop
  | same {v : Value} (h : v.IsClosed) : Value.SameButText free v v
  | texts {s t : String} (hs : free s) (ht : free t) :
    Value.SameButText free (.text s) (.text t)

/-- A text that stands for no variable. -/
def NoVariable (s : String) : Prop := (Text.trim s).toList.head? ≠ some '@'

instance (s : String) : Decidable (NoVariable s) := inferInstanceAs (Decidable (_ ≠ _))

/-- A text that stands for no variable and is no function call. -/
def NoVariableOrCall (s : String) : Prop := NoVariable s ∧ FunctionCall.isWhole s ≠ .ok true

/-- No column of any table is registered. -/
def Schemas.HasNoColumns (s : Schemas) : Prop :=
  ∀ table column, s.validator? table column = none

namespace SameShell

theorem refl {s : String} (h : IsClosed s.toList) : SameShell s s := ⟨h, h, rfl⟩

theorem append {a b a' b' : String} (h : SameShell a b) (h' : SameShell a' b') :
    SameShell (a ++ a') (b ++ b') where
  left := by
    rw [String.toList_append]
    exact h.left.append h'.left
  right := by
    rw [String.toList_append]
    exact h.right.append h'.right
  shell := by
    rw [String.toList_append, String.toList_append, h.left.shell_append, h.right.shell_append,
      h.shell, h'.shell]

/-- All quoted literals look the same. -/
theorem quote (family : Family) (s t : String) :
    SameShell (Encoder.quote family s) (Encoder.quote family t) where
  left := Encoder.isClosed_quote family s
  right := Encoder.isClosed_quote family t
  shell := by rw [Encoder.shell_quote, Encoder.shell_quote]

theorem parens {s t : String} (h : SameShell s t) :
    SameShell ("(" ++ s ++ ")") ("(" ++ t ++ ")") := by
  have hopen : SameShell "(" "(" := .refl rfl
  have hclose : SameShell ")" ")" := .refl rfl
  exact (hopen.append h).append hclose

end SameShell

/-! ## Texts without quotes -/

theorem isQuote_of_isPlainChar {c : Char} (h : isPlainChar c = true) : isQuote c = false :=
  isQuote_eq_false rfl rfl h

theorem isQuote_of_allows {rule : NameRule} {c : Char} (h : rule.allows c = true) :
    isQuote c = false :=
  isQuote_eq_false rfl rfl h

theorem sameShell_self_of_forall {s : String} (h : ∀ c ∈ s.toList, isQuote c = false) :
    SameShell s s :=
  .refl (isClosed_of_forall h)

/-! ## Schemas without columns -/

namespace Schemas.HasNoColumns

variable {s : Schemas}

theorem empty : Schemas.empty.HasNoColumns := fun _ _ => rfl

/-- A created table has no registered columns. -/
theorem ensure (h : s.HasNoColumns) (table : String) : (s.ensure table).HasNoColumns := by
  intro t column
  rw [validator?_ensure]
  exact h t column

theorem isPlain (h : s.HasNoColumns) : s.IsPlain := by
  intro table column hsome
  rw [h table column] at hsome
  cases hsome

theorem isColumnName (h : s.HasNoColumns) (reference : String) :
    s.isColumnName reference = false := by
  unfold Schemas.isColumnName
  split
  · rw [h, Option.isSome_none, Bool.and_false]
  · rfl

/-- Without validators every value passes as it is. -/
theorem check (h : s.HasNoColumns) (table column : String) (v : Value) :
    s.check table column v = .ok v := by
  rw [check_eq, h table column]

end Schemas.HasNoColumns

/-! ## The correspondence -/

/-- The text of a value leaves no quote open. -/
theorem isClosed_encode {e : Encoder} (he : e.schemas.HasNoColumns) {v : Value} (hv : v.IsClosed)
    {t : String} (h : e.encode v = .ok t) : IsClosed t.toList := by
  -- only column references can be anything but literals
  by_cases hcolumn : ∃ r, v = .column r
  · obtain ⟨r, rfl⟩ := hcolumn
    exact Except.ok.inj h ▸ hv
  · have hchecked : v.IsChecked := by
      cases v with
      | column r => exact absurd ⟨r, rfl⟩ hcolumn
      | _ => trivial
    exact (isLiteral_encode he.isPlain hchecked h).isClosed

/-- Values that are the same but for free texts are written as texts that look
the same. -/
theorem agree_encode_sameButText {e : Encoder} (he : e.schemas.HasNoColumns) {v w : Value}
    (h : Value.SameButText NoVariable v w) : Agree SameShell (e.encode v) (e.encode w) := by
  cases h with
  | same hv => exact Agree.refl fun t ht => .refl (isClosed_encode he hv ht)
  | texts hs ht =>
    rw [Encoder.encode_text (he.isColumnName _) hs, Encoder.encode_text (he.isColumnName _) ht]
    exact .ok (.quote e.family _ _)

theorem callText?_eq_of_sameButText {v w : Value}
    (h : Value.SameButText NoVariableOrCall v w) :
    Settings.callText? v = Settings.callText? w := by
  have hnone : ∀ s, NoVariableOrCall s → Settings.callText? (.text s) = none := by
    intro s hs
    unfold Settings.callText?
    dsimp only
    split
    · next hcall => exact absurd hcall hs.2
    · rfl
  cases h with
  | same hv => rfl
  | texts hs ht => rw [hnone _ hs, hnone _ ht]

/-- Texts that look the same from outside quotes, for values that are the same
but for texts. No columns are registered. -/
def erasure : Correspondence where
  text := SameShell
  value := Value.SameButText NoVariable
  assigned := Value.SameButText NoVariableOrCall
  selectable := fun _ => True
  schemas := Schemas.HasNoColumns
  registrable := fun _ _ => False
  text_append := SameShell.append
  text_plain := fun h => sameShell_self_of_forall fun c hc =>
    isQuote_of_isPlainChar (List.all_eq_true.mp h c hc)
  text_parens := SameShell.parens
  text_call := fun h => .refl (FunctionCall.isClosed_of_isWhole h)
  text_selected := fun h _ => sameShell_self_of_forall fun c hc =>
    isQuote_of_allows ((Name.isSafe_iff.mp h).2 c hc)
  value_cases := by
    intro v w h
    cases h with
    | same hv => exact .inl rfl
    | texts hs ht => exact .inr ⟨_, _, rfl, rfl⟩
  keepsScalars := by
    intro v hv
    refine .same ?_
    cases v with
    | column r => exact absurd rfl (hv r)
    | _ => trivial
  value_of_assigned := by
    intro v w h
    cases h with
    | same hv => exact .same hv
    | texts hs ht => exact .texts hs.1 ht.1
  callText?_eq := callText?_eq_of_sameButText
  encode := fun he h => agree_encode_sameButText he h
  check := by
    intro s table column v w hs h
    rw [hs.check, hs.check]
    exact .ok h
  schemas_empty := .empty
  schemas_ensure := fun h => h.ensure _
  schemas_register := fun _ h => h.elim

/-! ## The two runs -/

/-- **Literals do not interfere.** Two runs on new builders of one dialect, with
steps that are the same but for texts in literal positions, succeed and fail
together, with the same kind of fault; and after every step both statements
have no text, for the same kind of fault, or both have one and the texts look
the same from outside quotes. -/
theorem literals_do_not_interfere {d : Dialect} (hd : d.PagesOnly) {clock : LocalClock}
    {ss ts : List Step}
    (h : List.Forall₂ (Step.Corresponds erasure (Twins erasure)) ss ts) :
    List.Forall₂ (fun o p => Agree Eq o.2 p.2 ∧
        Agree SameShell (o.1.renderWith "") (p.1.renderWith ""))
      ((Builder.ofDialect d clock).trace ss) ((Builder.ofDialect d clock).trace ts) :=
  (Twins.fresh hd).trace h

/-- An insertion and a condition with harmless texts, and with texts that try to
get out of their quotes. -/
theorem literals_do_not_interfere_hostile :
    let steps (s t : String) : List Step :=
      [.call (.verb (.insert "t" [("a", .text s), ("b", .null)])),
        .call (.verb (.deleteFrom "t")),
        .call (.clause (.filterBy (.field "a" (.filter (.like (.value (.text t)))))))]
    Dialect.mysql55.PagesOnly ∧
    List.Forall₂ (Step.Corresponds erasure (Twins erasure))
      (steps "x" "x") (steps "'); DROP TABLE t; -- " "\\\"\n") ∧
    List.Forall₂ (fun o p => Agree Eq o.2 p.2 ∧
        Agree SameShell (o.1.renderWith "") (p.1.renderWith ""))
      ((Builder.ofDialect .mysql55 .universal).trace (steps "x" "x"))
      ((Builder.ofDialect .mysql55 .universal).trace (steps "'); DROP TABLE t; -- " "\\\"\n")) := by
  intro steps
  have hinsert : AgreeingPairs erasure.value [("a", .text "x"), ("b", .null)]
      [("a", .text "'); DROP TABLE t; -- "), ("b", .null)] :=
    .cons ⟨rfl, .texts (by decide) (by decide)⟩ (.cons ⟨rfl, .same trivial⟩ .nil)
  have hlike : Filter.Corresponds erasure.value
      (.field "a" (.filter (.like (.value (.text "x")))))
      (.field "a" (.filter (.like (.value (.text "\\\"\n"))))) :=
    .field "a" (.filter (.like (.value (.texts (by decide) (by decide)))))
  have hsteps : List.Forall₂ (Step.Corresponds erasure (Twins erasure))
      (steps "x" "x") (steps "'); DROP TABLE t; -- " "\\\"\n") :=
    .cons (.call (.verb (.insert "t" hinsert))) (.cons (.call (.verb (.deleteFrom "t")))
      (.cons (.call (.clause (.filterBy hlike))) .nil))
  exact ⟨Dialect.pagesOnly_mysql55, hsteps,
    literals_do_not_interfere Dialect.pagesOnly_mysql55 hsteps⟩

/-- A column reference that was never checked can leave a quote open. Then the
texts of two insertions that differ in one literal differ outside quotes. -/
theorem unchecked_column_interferes :
    let steps (s : String) : List Step :=
      [.call (.verb (.insert "t" [("a", .column "\""), ("b", .text s)]))]
    NoVariable "x" ∧ NoVariable "y" ∧
    ∃ t u, ((Builder.new .universal).run (steps "x")).renderWith "" = .ok t ∧
      ((Builder.new .universal).run (steps "y")).renderWith "" = .ok u ∧
      shell .outside t.toList ≠ shell .outside u.toList :=
  ⟨by decide, by decide, "INSERT INTO t (a, b) VALUES (\", \"x\")",
    "INSERT INTO t (a, b) VALUES (\", \"y\")", rfl, rfl, by decide⟩

end SqlBuilder
