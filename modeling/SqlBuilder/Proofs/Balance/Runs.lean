import SqlBuilder.Proofs.Balance
import SqlBuilder.Proofs.Decoding
import SqlBuilder.Proofs.Slots

/-!
# Statements with balanced parentheses

Everything that goes into a statement is balanced on its own, but for one thing.
The name of a selected column can have parentheses in any order, one of them
alone as well as `)(`. So the text of a statement is balanced exactly if the
columns that it selects are, taken together, provided that the same holds of
every statement inside it. Then the operands of a union stay in the parentheses
that are written around them.

* `Statement.selected?`, `Statement.SelectsBalanced` — the columns of a selection,
  taken together;
* `balancedness` — balanced texts and checked values;
* `Statement.IsBalancedApart` — the invariant: a statement is balanced apart from
  the columns that it selects;
* `isBalanced_text_iff` — the text of such a statement;
* `isBalancedApart_of_reachable` — every run leaves one;
* `isBalanced_iff_of_reachable` — all runs, and the operands of unions;
* `selected_parenthesis_escapes` — a column that gets out of its operand.
-/

namespace SqlBuilder

open Quotation FunctionCall

/-! ## Selected columns -/

/-- The columns that a selection lists, as they are written one after the other. -/
def Statement.selected? (st : Statement) : Option String :=
  match st.verb with
  | some .select | some .selectDistinct | some .selectAll =>
    some (Statement.commaList (st.columns.map Column.text))
  | _ => none

/-- If a statement selects columns, their parentheses are balanced, taken
together. -/
def Statement.SelectsBalanced (st : Statement) : Prop :=
  ∀ list, st.selected? = some list → IsBalanced list

/-- A careful step. The statements of the builders inside it select balanced
columns. -/
structure Step.IsBalancing (s : Step) : Prop where
  careful : s.IsCareful
  inners : ∀ inner ∈ s.inners, inner.statement.SelectsBalanced

/-- A statement without the columns that it selects. -/
def Statement.withoutSelected (st : Statement) : Statement :=
  if st.selected?.isSome then { st with columns := [] } else st

/-! ## Balanced texts -/

/-- Balanced texts and checked values, each standing for itself. -/
def balancedness : Correspondence :=
  { inertness with
    text := fun s t => s = t ∧ IsBalanced s
    selectable := IsBalanced
    text_append := fun h h' => ⟨by rw [h.1, h'.1], h.2.append h'.2⟩
    text_plain := fun h =>
      ⟨rfl, .of_forall (p := isPlainChar) ⟨rfl, rfl⟩ ⟨rfl, rfl⟩ (List.all_eq_true.mp h)⟩
    text_parens := fun h => ⟨by rw [h.1], h.2.parens⟩
    text_call := fun h => ⟨rfl, isBalanced_of_isWhole h⟩
    text_selected := fun _ h => ⟨rfl, h⟩
    encode := by
      rintro e v w he ⟨rfl, hv⟩
      exact Agree.refl fun t ht => ⟨rfl, (isLiteral_encode he.isPlain hv ht).isBalanced⟩ }

/-- Everything in a statement is balanced but for the columns that it selects. -/
def Statement.IsBalancedApart (st : Statement) : Prop :=
  st.withoutSelected.Corresponds balancedness.text st.withoutSelected

namespace Statement

variable {st : Statement} {t list : String}

theorem withoutSelected_of_none (h : st.selected? = none) : st.withoutSelected = st := by
  rw [withoutSelected, h]
  rfl

theorem withoutSelected_of_some (h : st.selected? = some list) :
    st.withoutSelected = { st with columns := [] } := by
  rw [withoutSelected, h]
  rfl

theorem selectionSlots_withoutSelected (st : Statement) :
    st.withoutSelected.selectionSlots = st.selectionSlots := by
  unfold withoutSelected
  split <;> rfl

theorem Corresponds.isBalancedApart (h : st.Corresponds balancedness.text st) :
    st.IsBalancedApart := by
  unfold IsBalancedApart withoutSelected
  split
  · exact { h with columns := .nil }
  · exact h

/-- The text of a selection: a verb, the columns, and the slots of clauses. -/
theorem text_of_selected (h : st.selected? = some list) :
    ∃ verb : Verb, st.text = .ok (" ".intercalate (verb.keyword ::
      (if st.columns.isEmpty then "*" else list) :: st.selectionSlots)) := by
  unfold selected? at h
  split at h
  case h_4 => cases h
  all_goals
    next hverb =>
      obtain rfl := Option.some.inj h
      exact ⟨_, text_of_parts hverb rfl⟩

/-- The slots of clauses stand behind the columns, in a balanced text. -/
theorem exists_tail {slots : List String} (h : List.Forall₂ balancedness.text slots slots)
    (x : String) : ∃ tail, IsBalanced tail ∧ " ".intercalate (x :: slots) = x ++ tail := by
  cases slots with
  | nil => exact ⟨"", (balancedness.text_plain rfl).2, by simp⟩
  | cons slot slots =>
    have hslots : balancedness.text (" ".intercalate (slot :: slots))
        (" ".intercalate (slot :: slots)) := balancedness.text_intercalate rfl h
    refine ⟨" " ++ " ".intercalate (slot :: slots), ?_, ?_⟩
    · exact (balancedness.text_append (balancedness.text_plain rfl) hslots).2
    · rw [String.intercalate_cons_cons, String.append_assoc]

/-- A selection in three pieces, of which the columns are the one in the middle. -/
theorem IsBalancedApart.exists_pieces (h : st.IsBalancedApart) (hlist : st.selected? = some list)
    (ht : st.text = .ok t) :
    ∃ front columns tail, IsBalanced front ∧ IsBalanced tail ∧ t = front ++ columns ++ tail ∧
      (columns = list ∨ columns = "*" ∧ list = "") := by
  have hslots := balancedness.texts_selectionSlots h
  rw [selectionSlots_withoutSelected] at hslots
  obtain ⟨verb, htext⟩ := text_of_selected hlist
  -- a selection without columns has an asterisk in their place
  have hcolumns : (if st.columns.isEmpty then "*" else list) = list ∨
      (if st.columns.isEmpty then "*" else list) = "*" ∧ list = "" := by
    cases hempty : st.columns with
    | nil =>
      refine .inr ⟨rfl, ?_⟩
      unfold selected? at hlist
      rw [hempty] at hlist
      split at hlist <;> cases hlist <;> rfl
    | cons column columns => exact .inl rfl
  generalize (if st.columns.isEmpty then "*" else list) = columns at htext hcolumns
  obtain ⟨tail, htail, htailText⟩ := exists_tail hslots columns
  have hfront := balancedness.text_append (balancedness.text_verb verb)
    (balancedness.text_plain (s := " ") rfl)
  refine ⟨verb.keyword ++ " ", columns, tail, hfront.2, htail, ?_, hcolumns⟩
  rw [htext] at ht
  rw [← Except.ok.inj ht, String.intercalate_cons_cons, htailText]
  simp only [String.append_assoc]

/-- A statement that is no selection is balanced throughout. -/
theorem IsBalancedApart.corresponds (h : st.IsBalancedApart) (hnone : st.selected? = none) :
    st.Corresponds balancedness.text st := by
  unfold IsBalancedApart at h
  rwa [withoutSelected_of_none hnone] at h

theorem isBalanced_star : IsBalanced "*" := (balancedness.text_plain rfl).2

/-- A statement that is no selection has a balanced text. -/
theorem IsBalancedApart.isBalanced_of_none (h : st.IsBalancedApart) (hnone : st.selected? = none)
    (ht : st.text = .ok t) : IsBalanced t := by
  have htext := balancedness.agree_text (h.corresponds hnone)
  rw [ht] at htext
  cases htext with
  | ok hbalanced => exact hbalanced.2

/-- A statement that selects balanced columns has a balanced text. -/
theorem IsBalancedApart.isBalanced (h : st.IsBalancedApart) (hselects : st.SelectsBalanced)
    (ht : st.text = .ok t) : IsBalanced t := by
  cases hlist : st.selected? with
  | none => exact h.isBalanced_of_none hlist ht
  | some list =>
    obtain ⟨front, columns, tail, hfront, htail, rfl, hcolumns⟩ := h.exists_pieces hlist ht
    have hmiddle : IsBalanced columns := by
      rcases hcolumns with rfl | ⟨rfl, -⟩
      · exact hselects columns hlist
      · exact isBalanced_star
    exact (hfront.append hmiddle).append htail

/-- **The text of a selection is balanced exactly if its columns are**, taken
together; any other text is balanced. -/
theorem IsBalancedApart.isBalanced_iff (h : st.IsBalancedApart)
    (hclosed : ∀ list, st.selected? = some list → IsClosed list.toList) (ht : st.text = .ok t) :
    IsBalanced t ↔ st.SelectsBalanced := by
  refine ⟨fun hbalanced list hlist => ?_, fun hselects => h.isBalanced hselects ht⟩
  obtain ⟨front, columns, tail, hfront, htail, rfl, hcolumns⟩ := h.exists_pieces hlist ht
  rcases hcolumns with rfl | ⟨-, rfl⟩
  · exact (hfront.between_iff htail (hclosed columns hlist)).mp hbalanced
  · exact (balancedness.text_plain rfl).2

/-- The operands of a union are balanced. -/
theorem IsBalancedApart.operands (h : st.IsBalancedApart) (hverb : st.verb = some .union)
    {left right : String} (hoperands : st.operands = some (left, right)) :
    IsBalanced left ∧ IsBalanced right := by
  have hnone : st.selected? = none := by rw [selected?, hverb]
  have hpair := (h.corresponds hnone).operands
  rw [hoperands] at hpair
  cases hpair with
  | some hpair => exact ⟨hpair.1.2, hpair.2.2⟩

end Statement

/-! ## One call -/

namespace Settings

variable {s : Settings} {st : Statement}

/-- **Verbs start statements that are balanced apart from selected columns**, if
the texts of the builders that they are given are balanced. -/
theorem isBalancedApart_of_start (hs : s.schemas.IsCareful) {c : VerbCall Builder}
    (hvalues : ∀ v ∈ (Call.verb c).values, v.IsChecked)
    (hinner : ∀ inner ∈ (Step.call (.verb c)).inners, ∀ t,
      inner.statement.text = .ok t → IsBalanced t)
    (h : s.start c = .ok st) : st.IsBalancedApart := by
  -- without builders inside and without columns, a call corresponds to itself
  have hself : (Step.call (.verb c)).inners = [] → (Step.call (.verb c)).selected = [] →
      st.IsBalancedApart := by
    intro hinners hselected
    have hcall : Call.Corresponds balancedness (fun _ _ => False) (.verb c) (.verb c) := by
      refine Correspondence.call_self (fun v hv => ⟨rfl, hvalues v hv⟩) ?_ ?_
      · rw [hselected]
        exact fun _ hcolumn => absurd hcolumn List.not_mem_nil
      · rw [hinners]
        exact fun _ hinner => absurd hinner List.not_mem_nil
    cases hcall with
    | verb hverb =>
      have hstart := Correspondence.agree_start (K := balancedness) hs (fun _ _ h => h.elim) hverb
      rw [h] at hstart
      cases hstart with
      | ok hst => exact hst.isBalancedApart
  cases c with
  | select columns o =>
    cases starts_of_start h with
    | select hsafe =>
      -- the columns are the only slot that the verb fills
      have hverb := balancedness.corresponds_ofVerb o.verb
      have hsome : ∃ list, Statement.selected?
          { Statement.ofVerb o.verb with columns := columns } = some list := by
        rcases o.verb_cases with h | h | h <;> rw [h] <;> exact ⟨_, rfl⟩
      obtain ⟨list, hlist⟩ := hsome
      unfold Statement.IsBalancedApart
      rw [Statement.withoutSelected_of_some hlist]
      exact hverb
  | createView name view =>
    cases starts_of_start h with
    | createView hname hbody =>
      have hbalanced := hinner view List.mem_cons_self _ hbody
      have hnamed := balancedness.corresponds_named .createView (balancedness.text_name rfl hname)
      exact Statement.Corresponds.isBalancedApart { hnamed with view := .some ⟨rfl, hbalanced⟩ }
  | union left right =>
    cases starts_of_start h with
    | union hleft hright =>
      have hbalancedLeft := hinner left List.mem_cons_self _ hleft
      have hbalancedRight := hinner right (List.mem_cons_of_mem _ List.mem_cons_self) _ hright
      exact Statement.Corresponds.isBalancedApart { balancedness.corresponds_ofVerb .union with
        operands := .some ⟨⟨rfl, hbalancedLeft⟩, rfl, hbalancedRight⟩ }
  | _ => exact hself rfl rfl

/-- A clause does the same whether the selected columns are there or not. -/
theorem Fills.withoutSelected {c : ClauseCall} {change : Statement → Statement}
    (h : s.Fills c change) (st : Statement) :
    (change st).withoutSelected = change st.withoutSelected := by
  cases h <;>
  · unfold Statement.withoutSelected Statement.selected?
    dsimp only
    split <;> rfl

/-- **Clauses keep statements balanced apart from selected columns.** -/
theorem isBalancedApart_of_fill (hs : s.schemas.IsCareful) {c : ClauseCall}
    (hc : ClauseCall.Corresponds balancedness c c) {change : Statement → Statement}
    (h : s.fill c = .ok change) (hst : st.IsBalancedApart) : (change st).IsBalancedApart := by
  have hfill := Correspondence.agree_fill (K := balancedness) hs hc
  rw [h] at hfill
  cases hfill with
  | ok hchange =>
    unfold Statement.IsBalancedApart
    rw [(fills_of_fill h).withoutSelected]
    exact hchange _ _ hst

end Settings

/-! ## One step -/

/-- The builders that a call is given are those of its step. -/
theorem Step.inners_of_call? {s : Step} {c : Call Builder} (hc : s.call? = some c) :
    (Step.call c).inners = s.inners := by
  cases s with
  | call c' =>
    obtain rfl := Option.some.inj hc
    rfl
  | insertJson table j | setJson j | filterByJson j =>
    -- what is read from JSON has no builders in it
    simp only [call?, Option.map_eq_some_iff] at hc
    obtain ⟨_, -, rfl⟩ := hc
    rfl
  | _ => cases hc

namespace Step.IsCareful

variable {s : Step}

/-- The values of a verb are checked, also if they are read from JSON. -/
theorem values_verb (hs : s.IsCareful) {c : VerbCall Builder} (hc : s.call? = some (.verb c)) :
    ∀ v ∈ (Call.verb c).values, v.IsChecked := by
  have hwritten := hs.written hc
  cases s with
  | call c' =>
    obtain rfl := Option.some.inj hc
    exact hs.values
  | insertJson table row =>
    simp only [call?, Option.map_eq_some_iff] at hc
    obtain ⟨row', -, hc⟩ := hc
    obtain rfl := Call.verb.inj hc
    exact hwritten
  | setJson values | filterByJson filter =>
    simp only [call?, Option.map_eq_some_iff] at hc
    obtain ⟨_, -, hc⟩ := hc
    cases hc
  | _ => cases hc

/-- A clause corresponds to itself, also if its filter is read from JSON. -/
theorem clause_corresponds (hs : s.IsCareful) {c : ClauseCall} (hc : s.call? = some (.clause c)) :
    ClauseCall.Corresponds balancedness c c := by
  cases s with
  | call c' =>
    obtain rfl := Option.some.inj hc
    have hself : Call.Corresponds balancedness (fun _ _ => False) (.clause c) (.clause c) :=
      Correspondence.call_self (fun v hv => ⟨rfl, hs.values v hv⟩)
        (fun _ hcolumn => absurd hcolumn List.not_mem_nil)
        fun _ hinner => absurd hinner List.not_mem_nil
    cases hself with
    | clause hclause => exact hclause
  | filterByJson j =>
    simp only [call?, Option.map_eq_some_iff] at hc
    obtain ⟨f, hf, hc⟩ := hc
    obtain rfl := Call.clause.inj hc
    have hscalars := balancedness.keepsScalars_value
    have hfilter := agree_filterOfJson hscalars (Json.Corresponds.refl hscalars j)
    rw [ok_of_toOption hf] at hfilter
    cases hfilter with
    | ok hf => exact .filterBy hf
  | insertJson table j | setJson j =>
    simp only [call?, Option.map_eq_some_iff] at hc
    obtain ⟨_, -, hc⟩ := hc
    cases hc
  | _ => cases hc

end Step.IsCareful

namespace Builder

variable {b : Builder} {s : Step}

/-- **A step keeps the statement balanced apart from selected columns**, if the
texts of the builders that it is given are balanced. -/
theorem isBalancedApart_step (hpages : b.settings.dialect.PagesOnly)
    (hschemas : b.settings.schemas.IsCareful) (hb : b.statement.IsBalancedApart)
    (hs : s.IsCareful)
    (hinner : ∀ inner ∈ s.inners, ∀ t, inner.statement.text = .ok t → IsBalanced t) :
    (b.step s).1.statement.IsBalancedApart := by
  rcases b.step_cases s with ⟨c, hcall, hstep⟩ | ⟨-, fault, hstep⟩ | ⟨-, settings, hstep, -⟩
  · rw [hstep, perform_eq_settle hpages]
    refine settle_induction (P := fun after => after.statement.IsBalancedApart) hb
      fun after hafter => ?_
    obtain ⟨-, -, hmethod⟩ := ok_of_bind hafter
    cases c with
    | verb c =>
      obtain ⟨st, hst, hafter⟩ := ok_of_bind hmethod
      obtain rfl := Except.ok.inj hafter
      rw [← Step.inners_of_call? hcall] at hinner
      exact Settings.isBalancedApart_of_start hschemas (hs.values_verb hcall) hinner hst
    | clause c =>
      obtain ⟨change, hchange, hafter⟩ := ok_of_bind hmethod
      obtain rfl := Except.ok.inj hafter
      exact Settings.isBalancedApart_of_fill hschemas (hs.clause_corresponds hcall) hchange hb
    | set pairs =>
      have hpairs : AgreeingPairs balancedness.assigned pairs pairs :=
        agreeingPairs_self fun v hv => ⟨rfl, hs.written hcall v hv⟩
      rw [builtIn] at hmethod
      by_cases hupdate : b.inUpdate = true
      · rw [if_pos hupdate] at hmethod
        obtain ⟨st, hst, hafter⟩ := ok_of_bind hmethod
        obtain rfl := Except.ok.inj hafter
        -- an update selects nothing
        have hverb : b.statement.verb = some .update := of_decide_eq_true hupdate
        have hnone : b.statement.selected? = none := by rw [Statement.selected?, hverb]
        have hassigned :=
          Correspondence.agree_assignColumns hschemas (hb.corresponds hnone) hpairs
        rw [hst] at hassigned
        cases hassigned with
        | ok hcorresponds => exact hcorresponds.isBalancedApart
      · rw [if_neg hupdate] at hmethod
        obtain ⟨st, hst, hafter⟩ := ok_of_bind hmethod
        obtain rfl := Except.ok.inj hafter
        have hassigned := Correspondence.agree_assignVariables (K := balancedness) hschemas hpairs
        rw [hst] at hassigned
        cases hassigned with
        | ok hcorresponds => exact hcorresponds.isBalancedApart
  · rw [hstep]
    exact hb
  · rw [hstep]
    exact hb

end Builder

/-! ## All runs -/

section Runs

variable {b : Builder}

/-- **Every run leaves a statement that is balanced apart from selected columns.** -/
theorem isBalancedApart_of_reachable (h : Reachable Dialect.PagesOnly Step.IsBalancing b) :
    b.statement.IsBalancedApart := by
  -- over the run and, at each step, over the runs of the builders that it is given
  induction h with
  | fresh _ => exact balancedness.corresponds_empty.isBalancedApart
  | @step b s h hs _ ih ihinner =>
    obtain ⟨hpages, hschemas⟩ := careful_of_reachable (h.mono fun _ hs => hs.careful)
    refine Builder.isBalancedApart_step hpages hschemas ih hs.careful fun inner hinner t ht => ?_
    exact (ihinner inner hinner).isBalanced (hs.inners inner hinner) ht

/-- Selected columns leave no quote open. -/
theorem isClosed_selected (h : Reachable Dialect.PagesOnly Step.IsCareful b) {list : String}
    (hlist : b.statement.selected? = some list) : IsClosed list.toList := by
  have hcolumns := inertness.text_commaList (inert_of_reachable h).statement.columns
  unfold Statement.selected? at hlist
  split at hlist
  case h_4 => cases hlist
  all_goals
    obtain rfl := Option.some.inj hlist
    exact hcolumns.2.closed

/-- **Texts are balanced as far as the selected columns are.** Along a run of
careful steps in which every builder that is given to a step selects balanced
columns, the text of the statement is balanced if and only if the columns that it
selects are, taken together. And each operand of a union stays in its
parentheses: the one in front of it is closed by the one right behind it. -/
theorem isBalanced_iff_of_reachable (h : Reachable Dialect.PagesOnly Step.IsBalancing b)
    {t : String} (ht : b.renderWith "" = .ok t) :
    (IsBalanced t ↔ b.statement.SelectsBalanced) ∧
    ∀ left right, b.statement.verb = some .union → b.statement.operands = some (left, right) →
      t = "(" ++ left ++ ") UNION (" ++ right ++ ")" ∧
      group? t.toList = some (left.toList, (" UNION (" ++ right ++ ")").toList) ∧
      group? ("(" ++ right ++ ")").toList = some (right.toList, []) := by
  have hbalanced := isBalancedApart_of_reachable h
  rw [Builder.renderWith_empty] at ht
  refine ⟨hbalanced.isBalanced_iff ?_ ht, fun left right hverb hoperands => ?_⟩
  · exact fun list hlist => isClosed_selected (h.mono fun _ hs => hs.careful) hlist
  · obtain ⟨hleft, hright⟩ := hbalanced.operands hverb hoperands
    have hparts : b.statement.parts .union
        = .ok ["(" ++ left ++ ")", "UNION", "(" ++ right ++ ")"] := by
      rw [Statement.parts, hoperands]
      rfl
    have htext : t = "(" ++ left ++ ")" ++ (" UNION (" ++ right ++ ")") := by
      rw [Statement.text_of_parts hverb hparts] at ht
      rw [← Except.ok.inj ht, ← String.toList_inj]
      simp
    have hgroup := group?_parens hright ""
    rw [String.append_empty] at hgroup
    refine ⟨?_, ?_, hgroup⟩
    · rw [htext, ← String.toList_inj]
      simp
    · rw [htext]
      exact group?_parens hleft _

/-- A union whose right operand selects a parenthesis in each of two columns, and
whose left operand has one in a name and one between quotes. -/
theorem isBalanced_iff_of_reachable_split :
    let left := (Builder.new .universal).run [.call (.verb (.select [.name "count(*)"] {})),
      .call (.clause (.filterBy (.field "a" (.value (.text ")")))))]
    let right := (Builder.new .universal).run [.call (.verb (.select [.name "(", .name ")"] {}))]
    let b := (Builder.new .universal).run [.call (.verb (.union left right))]
    let text := "(SELECT count(*) WHERE a = \")\") UNION (SELECT (, ))"
    Reachable Dialect.PagesOnly Step.IsBalancing b ∧ b.renderWith "" = .ok text ∧
      IsBalanced text ∧
      group? text.toList = some ("SELECT count(*) WHERE a = \")\"".toList,
        " UNION (SELECT (, ))".toList) := by
  intro left right b text
  have hnew : Reachable Dialect.PagesOnly Step.IsBalancing (Builder.new .universal) :=
    .fresh Dialect.pagesOnly_sql92
  have hleft : Reachable Dialect.PagesOnly Step.IsBalancing left := by
    refine hnew.run fun s hs => ?_
    simp only [List.mem_cons, List.not_mem_nil, or_false] at hs
    rcases hs with rfl | rfl <;>
      refine ⟨⟨Step.isCareful_call ?_, fun _ h => by cases h⟩, fun _ h => by cases h⟩ <;>
      simp [Call.values, Filter.values, Operand.values, Value.IsChecked]
  have hright : Reachable Dialect.PagesOnly Step.IsBalancing right := by
    refine hnew.run fun s hs => ?_
    obtain rfl := List.mem_singleton.mp hs
    exact ⟨⟨Step.isCareful_call (by simp [Call.values]), fun _ h => by cases h⟩,
      fun _ h => by cases h⟩
  have hleftSelects : left.statement.SelectsBalanced := by
    intro list hlist
    obtain rfl : "count(*)" = list := Option.some.inj hlist
    decide
  have hrightSelects : right.statement.SelectsBalanced := by
    intro list hlist
    obtain rfl : "(, )" = list := Option.some.inj hlist
    decide
  have hreachable : Reachable Dialect.PagesOnly Step.IsBalancing
      ((Builder.new .universal).run [.call (.verb (.union left right))]) := by
    refine hnew.run fun s hs => ?_
    obtain rfl := List.mem_singleton.mp hs
    refine ⟨⟨Step.isCareful_call (by simp [Call.values]), ?_⟩, ?_⟩
    · exact List.forall_mem_cons.mpr ⟨hleftSelects, List.forall_mem_singleton.mpr hrightSelects⟩
    · exact List.forall_mem_cons.mpr ⟨hleft, List.forall_mem_singleton.mpr hright⟩
  have htext : b.renderWith "" = .ok text := ok_of_toOption (by decide +kernel)
  obtain ⟨hiff, hgroups⟩ := isBalanced_iff_of_reachable hreachable htext
  have hoperands : b.statement.operands
      = some ("SELECT count(*) WHERE a = \")\"", "SELECT (, )") := rfl
  obtain ⟨-, hgroup, -⟩ := hgroups _ _ rfl hoperands
  refine ⟨hreachable, htext, hiff.mpr ?_, hgroup⟩
  -- a union selects nothing itself
  intro list hlist
  cases (show none = some list from hlist)

/-- A selected parenthesis closes the operand that it stands in, although the run
is a careful one. -/
theorem selected_parenthesis_escapes :
    let left := (Builder.new .universal).run [.call (.verb (.select [.name ")"] {}))]
    let right := (Builder.new .universal).run [.call (.verb (.select [.name "a"] {}))]
    let b := (Builder.new .universal).run [.call (.verb (.union left right))]
    let text := "(SELECT )) UNION (SELECT a)"
    Reachable Dialect.PagesOnly Step.IsCareful b ∧ b.renderWith "" = .ok text ∧
      ¬ IsBalanced text ∧
      group? text.toList = some ("SELECT ".toList, ") UNION (SELECT a)".toList) := by
  intro left right b text
  have hnew : Reachable Dialect.PagesOnly Step.IsCareful (Builder.new .universal) :=
    .fresh Dialect.pagesOnly_sql92
  have hselect : ∀ name : String, Reachable Dialect.PagesOnly Step.IsCareful
      ((Builder.new .universal).run [.call (.verb (.select [.name name] {}))]) := by
    intro name
    refine hnew.run fun s hs => ?_
    obtain rfl := List.mem_singleton.mp hs
    exact ⟨Step.isCareful_call (by simp [Call.values]), fun _ h => by cases h⟩
  have hreachable : Reachable Dialect.PagesOnly Step.IsCareful
      ((Builder.new .universal).run [.call (.verb (.union left right))]) := by
    refine hnew.run fun s hs => ?_
    obtain rfl := List.mem_singleton.mp hs
    refine ⟨Step.isCareful_call (by simp [Call.values]), ?_⟩
    exact List.forall_mem_cons.mpr ⟨hselect ")", List.forall_mem_singleton.mpr (hselect "a")⟩
  have htext : b.renderWith "" = .ok text := ok_of_toOption (by decide +kernel)
  exact ⟨hreachable, htext, by decide, by decide⟩

end Runs

end SqlBuilder
