import SqlBuilder.Proofs.CallText
import SqlBuilder.Proofs.LiteralForm
import SqlBuilder.Proofs.Reachable

/-!
# No injection

Nothing that is given to a builder gets out of its place in a statement. The
text of a statement leaves no quote open, and outside quotes it has nothing that
ends a statement or begins a comment.

Half of that would not survive concatenation: two texts without a comment can
make one where they meet. The invariant is stronger and does: outside quotes a
minus sign stands right in front of a digit, and there is no slash at all.

* `LexicallySafe` — what is claimed of a text;
* `Inert` — the invariant, kept by `Inert.append`;
* `IsLiteral.inert` — literals have it;
* `inertness` — the correspondence of inert texts with themselves;
* `lexicallySafe_of_reachable` — all runs of a builder.
-/

namespace SqlBuilder

open Quotation

/-- A text that leaves no quote open and has no statement end and no comment
outside quotes. -/
structure LexicallySafe (t : String) : Prop where
  closed : IsClosed t.toList
  noSemicolon : some ';' ∉ shell .outside t.toList
  noHash : some '#' ∉ shell .outside t.toList
  noDashes : ¬ [some '-', some '-'] <:+: shell .outside t.toList
  noOpening : ¬ [some '/', some '*'] <:+: shell .outside t.toList

/-! ## The invariant -/

/-- What may stand in front of the rest of a shell: anything but the beginnings
of comments and the end of a statement; a minus sign only in front of a
digit. -/
def MayPrecede : Option Char → List (Option Char) → Prop
  | none, _ => True
  | some c, rest =>
    if c = '-' then ∃ d, rest.head? = some (some d) ∧ d.isDigit = true
    else c ≠ ';' ∧ c ≠ '#' ∧ c ≠ '/'

/-- Everything in the shell may precede what comes after it. -/
def Harmless : List (Option Char) → Prop
  | [] => True
  | x :: rest => MayPrecede x rest ∧ Harmless rest

/-- A text that leaves no quote open and is harmless outside. -/
structure Inert (t : String) : Prop where
  closed : IsClosed t.toList
  harmless : Harmless (shell .outside t.toList)

/-- The characters that may stand in front of anything. -/
def isHarmlessChar (c : Char) : Bool := c ≠ '-' && c ≠ ';' && c ≠ '#' && c ≠ '/'

theorem mayPrecede_of_isHarmlessChar {c : Char} (h : isHarmlessChar c = true)
    (rest : List (Option Char)) : MayPrecede (some c) rest := by
  simp only [isHarmlessChar, Bool.and_eq_true, decide_eq_true_eq] at h
  obtain ⟨⟨⟨hminus, hsemicolon⟩, hhash⟩, hslash⟩ := h
  rw [MayPrecede, if_neg hminus]
  exact ⟨hsemicolon, hhash, hslash⟩

theorem MayPrecede.append {x : Option Char} {rest : List (Option Char)} (h : MayPrecede x rest)
    (more : List (Option Char)) : MayPrecede x (rest ++ more) := by
  cases x with
  | none => trivial
  | some c =>
    by_cases hminus : c = '-'
    · rw [MayPrecede, if_pos hminus] at *
      obtain ⟨d, hhead, hd⟩ := h
      exact ⟨d, by rw [List.head?_append, hhead, Option.some_or], hd⟩
    · rw [MayPrecede, if_neg hminus] at *
      exact h

/-- The invariant survives concatenation. -/
theorem Harmless.append {a b : List (Option Char)} (ha : Harmless a) (hb : Harmless b) :
    Harmless (a ++ b) := by
  induction a with
  | nil => exact hb
  | cons x a ih => exact ⟨ha.1.append b, ih ha.2⟩

theorem harmless_of_forall {l : List (Option Char)}
    (h : ∀ c, some c ∈ l → isHarmlessChar c = true) : Harmless l := by
  induction l with
  | nil => trivial
  | cons x l ih =>
    refine ⟨?_, ih fun c hc => h c (List.mem_cons_of_mem x hc)⟩
    cases x with
    | none => trivial
    | some c => exact mayPrecede_of_isHarmlessChar (h c List.mem_cons_self) l

theorem Inert.append {s t : String} (hs : Inert s) (ht : Inert t) : Inert (s ++ t) where
  closed := by
    rw [String.toList_append]
    exact hs.closed.append ht.closed
  harmless := by
    rw [String.toList_append, hs.closed.shell_append]
    exact hs.harmless.append ht.harmless

/-- A text of harmless characters without quotes is inert. -/
theorem inert_of_forall {p : Char → Bool} (hsingle : p '\'' = false) (hdouble : p '"' = false)
    (hharmless : ∀ c, p c = true → isHarmlessChar c = true) {t : String}
    (h : ∀ c ∈ t.toList, p c = true) : Inert t := by
  have hquotes : ∀ c ∈ t.toList, isQuote c = false := fun c hc =>
    isQuote_eq_false hsingle hdouble (h c hc)
  refine ⟨isClosed_of_forall hquotes, harmless_of_forall fun c hc => hharmless c (h c ?_)⟩
  rw [shell_of_forall hquotes, List.mem_map] at hc
  obtain ⟨d, hd, hdc⟩ := hc
  exact Option.some.inj hdc ▸ hd

/-- A class of characters without the harmful ones. -/
theorem isHarmlessChar_of_class {p : Char → Bool} (hminus : p '-' = false)
    (hsemicolon : p ';' = false) (hhash : p '#' = false) (hslash : p '/' = false) {c : Char}
    (h : p c = true) : isHarmlessChar c = true := by
  simp only [isHarmlessChar, Bool.and_eq_true, decide_eq_true_eq]
  refine ⟨⟨⟨?_, ?_⟩, ?_⟩, ?_⟩ <;> rintro rfl
  · exact Bool.noConfusion (hminus.symm.trans h)
  · exact Bool.noConfusion (hsemicolon.symm.trans h)
  · exact Bool.noConfusion (hhash.symm.trans h)
  · exact Bool.noConfusion (hslash.symm.trans h)

/-! ## Safety from the invariant -/

theorem Harmless.not_mem {c : Char} (hc : c = ';' ∨ c = '#') {l : List (Option Char)}
    (h : Harmless l) : some c ∉ l := by
  induction l with
  | nil => exact List.not_mem_nil
  | cons x l ih =>
    intro hmem
    rcases List.mem_cons.mp hmem with rfl | hmem
    · have hfirst := h.1
      rcases hc with rfl | rfl
      · exact hfirst.1 rfl
      · exact hfirst.2.1 rfl
    · exact ih h.2 hmem

/-- Behind every character of a harmless shell is a harmless shell that it may
precede. -/
theorem Harmless.of_append {pre : List (Option Char)} {x : Option Char}
    {post : List (Option Char)} (h : Harmless (pre ++ x :: post)) : MayPrecede x post := by
  induction pre with
  | nil => exact h.1
  | cons y pre ih => exact ih h.2

/-- Inert texts are lexically safe. -/
theorem Inert.lexicallySafe {t : String} (h : Inert t) : LexicallySafe t where
  closed := h.closed
  noSemicolon := h.harmless.not_mem (.inl rfl)
  noHash := h.harmless.not_mem (.inr rfl)
  noDashes := by
    rintro ⟨pre, post, heq⟩
    have hshell := h.harmless
    rw [← heq, List.append_assoc] at hshell
    -- the second dash would have to be a digit
    obtain ⟨d, hd, hdigit⟩ := hshell.of_append
    cases hd
    cases hdigit
  noOpening := by
    rintro ⟨pre, post, heq⟩
    have hshell := h.harmless
    rw [← heq, List.append_assoc] at hshell
    exact hshell.of_append.2.2 rfl

/-! ## The pieces of statements -/

/-- Literals are inert: the only minus signs are those of numbers. -/
theorem IsLiteral.inert {family : Family} {t : String} (h : IsLiteral family t) : Inert t := by
  refine ⟨h.isClosed, ?_⟩
  cases h with
  | quoted s =>
    rw [Encoder.shell_quote]
    exact ⟨trivial, trivial⟩
  | word hne hchars =>
    exact (inert_of_forall (p := isWordChar) rfl rfl
      (fun c hc => isHarmlessChar_of_class rfl rfl rfl rfl hc) hchars).harmless
  | @negative _ d cs ht hd hchars =>
    have hword : ∀ c ∈ d :: cs, isWordChar c = true := by
      intro c hc
      rcases List.mem_cons.mp hc with rfl | hc
      · exact isWordChar_of_isDigit hd
      · exact hchars c hc
    have hquotes : ∀ c ∈ t.toList, isQuote c = false := fun c hc =>
      isQuote_of_isBareChar (isBareChar_of_negative ht hd hchars c hc)
    -- the minus sign stands in front of a digit, and nothing else is harmful
    rw [shell_of_forall hquotes, ht]
    refine ⟨⟨d, rfl, hd⟩, harmless_of_forall fun c hc => ?_⟩
    obtain ⟨c', hc', heq⟩ := List.mem_map.mp hc
    obtain rfl := Option.some.inj heq
    exact isHarmlessChar_of_class (p := isWordChar) rfl rfl rfl rfl (hword c' hc')

theorem isHarmlessChar_of_isCallChar {c : Char} (h : FunctionCall.isCallChar c = true) :
    isHarmlessChar c = true :=
  isHarmlessChar_of_class (by decide) (by decide) (by decide) (by decide) h

/-- A function call is inert. -/
theorem inert_of_isWhole {s : String} (h : FunctionCall.isWhole s = .ok true) : Inert s := by
  refine ⟨FunctionCall.isClosed_of_isWhole h, harmless_of_forall fun c hc => ?_⟩
  exact isHarmlessChar_of_isCallChar (FunctionCall.isCallChar_of_isWhole h hc)

theorem Inert.parens {t : String} (h : Inert t) : Inert ("(" ++ t ++ ")") := by
  have hopen : Inert "(" := inert_of_forall (p := FunctionCall.isCallChar) rfl rfl
    (fun c hc => isHarmlessChar_of_isCallChar hc) (List.all_eq_true.mp rfl)
  have hclose : Inert ")" := inert_of_forall (p := FunctionCall.isCallChar) rfl rfl
    (fun c hc => isHarmlessChar_of_isCallChar hc) (List.all_eq_true.mp rfl)
  exact (hopen.append h).append hclose

/-! ## Validators and registered columns -/

/-- A validator that makes no unchecked column references. -/
def Validator.KeepsChecked (f : Validator) : Prop :=
  ∀ v w, v.IsChecked → f v = .ok w → w.IsChecked

/-- Columns under plain names with validators that make no unchecked
references. -/
structure IsPlainRegistration (table : String) (columns : List (String × Validator)) : Prop where
  plainTable : Name.isSafe .plain table = true
  plainColumns : ∀ p ∈ columns, Name.isSafe .plain p.1 = true
  keepsChecked : ∀ p ∈ columns, Validator.KeepsChecked p.2

/-- Schemas in which plain columns have been registered. -/
structure Schemas.IsCareful (s : Schemas) : Prop where
  isPlain : s.IsPlain
  validators : ∀ table column f, s.validator? table column = some f → f.KeepsChecked

/-- What is found in a table was among the pairs it was made of. -/
theorem Keyed.mem_of_get?_ofList {α : Type} {pairs : List (String × α)} {key : String} {a : α}
    (h : (Keyed.ofList pairs).get? key = some a) : (key, a) ∈ pairs := by
  have hfold : ∀ (pairs : List (String × α)) (t : Keyed α),
      (pairs.foldl (fun t p => t.put p.1 p.2) t).get? key = some a →
      t.get? key = some a ∨ (key, a) ∈ pairs := by
    intro pairs
    induction pairs with
    | nil => exact fun t h => .inl h
    | cons p pairs ih =>
      intro t h
      rcases ih _ h with hput | hmem
      · rw [Keyed.get?_put] at hput
        split at hput
        · next hkey =>
          obtain rfl := Option.some.inj hput
          rw [hkey]
          exact .inr List.mem_cons_self
        · exact .inl hput
      · exact .inr (List.mem_cons_of_mem p hmem)
  rcases hfold pairs [] h with hnil | hmem
  · cases hnil
  · exact hmem

namespace Schemas.IsCareful

variable {s : Schemas}

theorem empty : Schemas.empty.IsCareful where
  isPlain := fun _ _ h => by cases h
  validators := fun _ _ _ h => by cases h

theorem ensure (h : s.IsCareful) (table : String) : (s.ensure table).IsCareful where
  isPlain := fun t column hsome => h.isPlain t column (by simpa using hsome)
  validators := fun t column f hf => h.validators t column f (by simpa using hf)

theorem register (h : s.IsCareful) {table : String} {columns : List (String × Validator)}
    (hcolumns : IsPlainRegistration table columns) : (s.register table columns).IsCareful := by
  refine ⟨fun t column hsome => ?_, fun t column f hf => ?_⟩
  · rw [validator?_register] at hsome
    split at hsome
    · next htable =>
      obtain ⟨f, hf⟩ := Option.isSome_iff_exists.mp hsome
      have hmem := Keyed.mem_of_get?_ofList hf
      rw [htable]
      exact ⟨hcolumns.plainTable, hcolumns.plainColumns (column, f) hmem⟩
    · exact h.isPlain t column hsome
  · rw [validator?_register] at hf
    split at hf
    · exact hcolumns.keepsChecked (column, f) (Keyed.mem_of_get?_ofList hf)
    · exact h.validators t column f hf

/-- A checked value that passes is still checked. -/
theorem isChecked_of_check (h : s.IsCareful) {table column : String} {v w : Value}
    (hv : v.IsChecked) (hcheck : s.check table column v = .ok w) : w.IsChecked := by
  rw [check_eq] at hcheck
  cases hf : s.validator? table column with
  | none =>
    rw [hf] at hcheck
    exact Except.ok.inj hcheck ▸ hv
  | some f =>
    rw [hf] at hcheck
    exact h.validators table column f hf v w hv hcheck

end Schemas.IsCareful

/-! ## All runs -/

/-- Inert texts and checked values, each standing for itself. -/
def inertness : Correspondence where
  text := fun s t => s = t ∧ Inert s
  value := fun v w => v = w ∧ v.IsChecked
  assigned := fun v w => v = w ∧ v.IsChecked
  selectable := fun _ => True
  schemas := Schemas.IsCareful
  registrable := IsPlainRegistration
  text_append := fun h h' => ⟨by rw [h.1, h'.1], h.2.append h'.2⟩
  text_plain := fun h => ⟨rfl, inert_of_forall (p := isPlainChar) rfl rfl
    (fun c hc => isHarmlessChar_of_class rfl rfl rfl rfl hc) (List.all_eq_true.mp h)⟩
  text_parens := fun h => ⟨by rw [h.1], h.2.parens⟩
  text_call := fun h => ⟨rfl, inert_of_isWhole h⟩
  text_selected := fun h _ => ⟨rfl, inert_of_forall (p := NameRule.allows .selection) rfl rfl
    (fun c hc => isHarmlessChar_of_class rfl rfl rfl rfl hc) (Name.isSafe_iff.mp h).2⟩
  value_cases := fun h => .inl h.1
  keepsScalars := by
    intro v hv
    refine ⟨rfl, ?_⟩
    cases v with
    | column r => exact absurd rfl (hv r)
    | _ => trivial
  value_of_assigned := fun h => h
  callText?_eq := fun h => by rw [h.1]
  encode := by
    rintro e v w he ⟨rfl, hv⟩
    exact Agree.refl fun t ht => ⟨rfl, (isLiteral_encode he.isPlain hv ht).inert⟩
  check := by
    rintro s table column v w hs ⟨rfl, hv⟩
    exact Agree.refl fun w hw => ⟨rfl, hs.isChecked_of_check hv hw⟩
  schemas_empty := .empty
  schemas_ensure := fun h => h.ensure _
  schemas_register := fun h hcolumns => h.register hcolumns

/-- A step that keeps the promises of callers: column references are checked,
columns are registered under plain names, and no dialect overrides anything but
paging. -/
structure Step.IsCareful (s : Step) : Prop where
  values : ∀ v ∈ s.values, v.IsChecked
  dialect : ∀ d, s = .setDialect d → d.PagesOnly
  registered : ∀ table columns, s = .register table columns → IsPlainRegistration table columns

/-- A call is careful when its values are checked. -/
theorem Step.isCareful_call {c : Call Builder} (h : ∀ v ∈ c.values, v.IsChecked) :
    (Step.call c).IsCareful where
  values := h
  dialect := fun _ hd => by cases hd
  registered := fun _ _ hregister => by cases hregister

/-- **No injection.** Whatever run of careful steps has brought a builder about,
the text of its statement is lexically safe. -/
theorem lexicallySafe_of_reachable {b : Builder}
    (h : Reachable Dialect.PagesOnly Step.IsCareful b) {t : String}
    (ht : b.renderWith "" = .ok t) : LexicallySafe t := by
  have htwins : Twins inertness b b := h.twins (fun _ hd => hd) fun s hs =>
    { values := fun v hv => ⟨rfl, hs.values v hv⟩
      selected := fun column _ => by cases column <;> trivial
      dialect := hs.dialect
      registered := hs.registered }
  have hrender := htwins.corresponds.renderWith
  rw [ht] at hrender
  cases hrender with
  | ok htext => exact htext.2.lexicallySafe

/-- An update with a text that tries to get out of its quotes, a negative number
and a function call. -/
theorem lexicallySafe_of_reachable_hostile :
    let steps : List Step :=
      [.call (.verb (.update "t")),
        .call (.set [("a", .text "\\\"; DROP TABLE t; -- "), ("b", .int (-1)),
          ("c", .text "concat(';', now())")]),
        .call (.clause (.filterBy (.field "a" (.filter (.compare .gt (.value (.text "/*")))))))]
    let text := "UPDATE t SET a = \"\\\\\\\"; DROP TABLE t; --\", b = -1, c = concat(';', now())" ++
      " WHERE a > \"/*\""
    Reachable Dialect.PagesOnly Step.IsCareful ((Builder.new .universal).run steps) ∧
    ((Builder.new .universal).run steps).renderWith "" = .ok text ∧ LexicallySafe text := by
  intro steps text
  have hreachable :
      Reachable Dialect.PagesOnly Step.IsCareful ((Builder.new .universal).run steps) := by
    refine (Reachable.fresh Dialect.pagesOnly_sql92).run fun s hs => ?_
    simp only [steps, List.mem_cons, List.not_mem_nil, or_false] at hs
    rcases hs with rfl | rfl | rfl <;> refine ⟨Step.isCareful_call ?_, fun _ h => by cases h⟩ <;>
      simp [Call.values, Filter.values, Operand.values, Value.IsChecked]
  have htext : ((Builder.new .universal).run steps).renderWith "" = .ok text := rfl
  exact ⟨hreachable, htext, lexicallySafe_of_reachable hreachable htext⟩

end SqlBuilder
