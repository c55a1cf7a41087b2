import SqlBuilder.Proofs.Injection
import SqlBuilder.Proofs.Items
import SqlBuilder.Proofs.Layout
import SqlBuilder.Proofs.Effects

/-!
# Written statements can be read back

The text of a statement that writes something tells what is written: from the
text alone a reader finds the verb, the name, and the names and values of its
lists in order. No value can hold a comma, a parenthesis or a keyword in such a
way that it is taken for the end of its list or for another row.

The reader goes from left to right and knows at each place what comes next, so
that names may be keywords. All it needs is that every name and every value is
an item and tells its own end; what comes last, a condition, can be any text.

* `Statement.IsReadable` — names and values are items;
* `isReadable_of_reachable` — along every run with careful steps they are;
* `row_unique`, `assignments_unique`, `update_unique` — reading back, by layout;
* `written_of_text` — two runs with one text have written the same.
-/

namespace SqlBuilder

/-- The verbs of statements that write something. -/
def Verb.writing : List Verb := [.insert, .replace, .update, .delete, .set]

/-- The first letter tells these verbs apart. -/
theorem Verb.eq_of_head : ∀ v ∈ Verb.writing, ∀ w ∈ Verb.writing,
    v.keyword.toList.head? = w.keyword.toList.head? → v = w := by
  decide

/-- Pairs of a name and a value that tell their own ends. -/
def AreItems (pairs : List (String × String)) : Prop := ∀ p ∈ pairs, IsItem p.1 ∧ IsItem p.2

theorem AreItems.names {pairs : List (String × String)} (h : AreItems pairs) :
    ∀ x ∈ pairs.map Prod.fst, IsItem x := by
  intro x hx
  obtain ⟨p, hp, rfl⟩ := List.mem_map.mp hx
  exact (h p hp).1

theorem AreItems.values {pairs : List (String × String)} (h : AreItems pairs) :
    ∀ x ∈ pairs.map Prod.snd, IsItem x := by
  intro x hx
  obtain ⟨p, hp, rfl⟩ := List.mem_map.mp hx
  exact (h p hp).2

namespace Statement

/-- Everything that a reader needs to know of the name and the values of a
statement. -/
structure IsReadable (s : Statement) : Prop where
  name : IsItem s.name
  values : AreItems s.values
  nonempty : s.verb = some .insert ∨ s.verb = some .replace ∨ s.verb = some .set → s.values ≠ []
  bare : s.verb = some .delete → s.values = []
  nameless : s.verb = some .set → s.name = ""

theorem isItem_empty : IsItem "" := .nil

theorem areItems_nil : AreItems [] := fun _ hp => absurd hp List.not_mem_nil

theorem isReadable_empty : Statement.empty.IsReadable where
  name := isItem_empty
  values := areItems_nil
  nonempty := by rintro (h | h | h) <;> cases h
  bare := fun _ => rfl
  nameless := fun _ => rfl

/-- Only the verb, the name and the values count. -/
theorem IsReadable.congr {s t : Statement} (h : s.IsReadable)
    (heq : t.verb = s.verb ∧ t.name = s.name ∧ t.values = s.values) : t.IsReadable := by
  obtain ⟨hverb, hname, hvalues⟩ := heq
  exact
    { name := by rw [hname]; exact h.name
      values := by rw [hvalues]; exact h.values
      nonempty := by rw [hverb, hvalues]; exact h.nonempty
      bare := by rw [hverb, hvalues]; exact h.bare
      nameless := by rw [hverb, hname]; exact h.nameless }

end Statement

/-! ## What calls write -/

/-- The values that a call writes, assigned or in a row. -/
def Call.written : Call Builder → List Value
  | .verb (.insert _ row) => row.map Prod.snd
  | .verb (.replace _ row) => row.map Prod.snd
  | .set pairs => pairs.map Prod.snd
  | _ => []

theorem isItem_of_isSafe {rule : NameRule}
    (hrule : rule.parens = false ∧ rule.asterisk = false ∧ rule.dollarSign = false) {s : String}
    (h : Name.isSafe rule s = true) : IsItem s :=
  isItem_of_isWordChar fun c hc => isWordChar_of_allows hrule ((Name.isSafe_iff.mp h).2 c hc)

namespace Settings

variable {s : Settings}

/-- The literal of a checked value is an item, also behind a validator. -/
theorem isItem_of_literalFor (hs : s.schemas.IsCareful) {table : Option String} {name : String}
    {v : Value} (hv : v.IsChecked) {literal : String}
    (h : s.literalFor table name v = .ok literal) : IsItem literal := by
  obtain ⟨value, hvalue, hliteral⟩ := ok_of_bind h
  have hchecked : value.IsChecked := by
    cases table with
    | none => exact Except.ok.inj hvalue ▸ hv
    | some table => exact hs.isChecked_of_check hv hvalue
  have hform : IsLiteral s.dialect.family literal := isLiteral_encode hs.isPlain hchecked hliteral
  exact hform.isItem

/-- A written column and its value are items. -/
theorem items_of_writtenValue (hs : s.schemas.IsCareful) {table : String} {p : String × Value}
    {q : String × String} (hp : p.2.IsChecked) (h : s.writtenValue table p = .ok q) :
    IsItem q.1 ∧ IsItem q.2 := by
  obtain ⟨hname, hsafe, hliteral⟩ := writtenValue_ok h
  rw [hname]
  exact ⟨isItem_of_isSafe (by decide) hsafe, isItem_of_literalFor hs hp hliteral⟩

theorem isWhole_of_callText? {v : Value} {call : String} (h : callText? v = some call) :
    FunctionCall.isWhole call = .ok true := by
  unfold callText? at h
  split at h
  · split at h
    · next hwhole => exact Option.some.inj h ▸ hwhole
    · cases h
  · cases h

/-- An assigned name is safe, and its value is an item, be it a literal or a
function call. -/
theorem items_of_assignment (hs : s.schemas.IsCareful) {table : Option String}
    {p : String × Value} {q : String × String} (hp : p.2.IsChecked)
    (h : s.assignment table p = .ok q) : Name.isSafe .qualified q.1 = true ∧ IsItem q.2 := by
  obtain ⟨hname, hsafe, hcall | ⟨-, hliteral⟩⟩ := assignment_ok h
  · exact ⟨hname ▸ hsafe, isItem_of_isWhole (isWhole_of_callText? hcall)⟩
  · exact ⟨hname ▸ hsafe, isItem_of_literalFor hs hp hliteral⟩

theorem areItems_of_forall₂ {P : String × Value → String × String → Prop}
    {pairs : List (String × Value)} {values : List (String × String)}
    (hchecked : ∀ v ∈ pairs.map Prod.snd, v.IsChecked) (h : List.Forall₂ P pairs values)
    (hitem : ∀ p q, p.2.IsChecked → P p q → IsItem q.1 ∧ IsItem q.2) : AreItems values := by
  intro q hq
  obtain ⟨p, hp, hpq⟩ := exists_left_of_forall₂ h hq
  exact hitem p q (hchecked _ (List.mem_map_of_mem hp)) hpq

/-- A written row makes a readable statement. -/
theorem isReadable_row (hs : s.schemas.IsCareful) {verb : Verb}
    (hverb : verb = .insert ∨ verb = .replace) {table : String}
    (htable : Name.isSafe .plain table = true) {row : List (String × Value)} (hne : row ≠ [])
    (hchecked : ∀ v ∈ row.map Prod.snd, v.IsChecked) {values : List (String × String)}
    (h : List.Forall₂ (fun p q => s.writtenValue table p = .ok q) row values) :
    Statement.IsReadable { Statement.named verb table with values := values } where
  name := isItem_of_isSafe (by decide) htable
  values := areItems_of_forall₂ hchecked h fun p q hp hpq => items_of_writtenValue hs hp hpq
  nonempty := fun _ => ne_nil_of_forall₂ h hne
  bare := by rcases hverb with rfl | rfl <;> exact fun hdelete => by cases hdelete
  nameless := by rcases hverb with rfl | rfl <;> exact fun hset => by cases hset

/-- A statement that lists no values is readable. -/
theorem isReadable_of_bare {st : Statement} (verb : Verb) (hst : st.verb = some verb)
    (hverb : verb ∉ [.insert, .replace, .set]) (hname : IsItem st.name)
    (hvalues : st.values = []) : st.IsReadable := by
  have hne : ∀ v ∈ [Verb.insert, .replace, .set], st.verb ≠ some v := by
    intro v hv heq
    rw [hst] at heq
    exact hverb (Option.some.inj heq ▸ hv)
  exact
    { name := hname
      values := by
        rw [hvalues]
        exact Statement.areItems_nil
      nonempty := by
        rintro (h | h | h)
        · exact absurd h (hne .insert (by decide))
        · exact absurd h (hne .replace (by decide))
        · exact absurd h (hne .set (by decide))
      bare := fun _ => hvalues
      nameless := fun h => absurd h (hne .set (by decide)) }

/-- Every verb starts a readable statement. -/
theorem isReadable_of_starts (hs : s.schemas.IsCareful) {c : VerbCall Builder} {st : Statement}
    (hc : ∀ v ∈ (Call.verb c).written, v.IsChecked) (h : s.Starts c st) : st.IsReadable := by
  have hplain : ∀ {name : String}, Name.isSafe .plain name = true → IsItem name := fun hname =>
    isItem_of_isSafe (by decide) hname
  cases h with
  | createTable hname _ _ =>
    exact isReadable_of_bare .createTable rfl (by decide) (hplain hname) rfl
  | dropTable hname => exact isReadable_of_bare .dropTable rfl (by decide) (hplain hname) rfl
  | createIndex hname _ _ _ =>
    exact isReadable_of_bare .createIndex rfl (by decide) (hplain hname) rfl
  | dropIndex hname => exact isReadable_of_bare .dropIndex rfl (by decide) (hplain hname) rfl
  | createView hname _ => exact isReadable_of_bare .createView rfl (by decide) (hplain hname) rfl
  | dropView hname => exact isReadable_of_bare .dropView rfl (by decide) (hplain hname) rfl
  | insert htable hne hvalues => exact isReadable_row hs (.inl rfl) htable hne hc hvalues
  | replace _ htable hne hvalues => exact isReadable_row hs (.inr rfl) htable hne hc hvalues
  | update htable => exact isReadable_of_bare .update rfl (by decide) (hplain htable) rfl
  | deleteFrom htable => exact isReadable_of_bare .delete rfl (by decide) (hplain htable) rfl
  | @select columns o _ =>
    have hverb : o.verb ∉ [Verb.insert, .replace, .set] := by
      rcases o.verb_cases with h | h | h <;> rw [h] <;> decide
    exact isReadable_of_bare o.verb rfl hverb Statement.isItem_empty rfl
  | union _ _ => exact isReadable_of_bare .union rfl (by decide) Statement.isItem_empty rfl

end Settings

/-- An accepted call leaves a readable statement. -/
theorem Builder.isReadable_of_effect {b after : Builder} (hs : b.settings.schemas.IsCareful)
    (hb : b.statement.IsReadable) {c : Call Builder} (hc : ∀ v ∈ c.written, v.IsChecked)
    (h : b.Effect c after) : after.statement.IsReadable := by
  cases h with
  | verb hstarts => exact Settings.isReadable_of_starts hs hc hstarts
  | clause hfills => exact hb.congr (hfills.keeps b.statement)
  | @toColumns pairs added hupdate hvalues =>
    obtain ⟨-, hadded⟩ := Settings.assignments_ok hvalues
    have hitems : AreItems added := Settings.areItems_of_forall₂ hc hadded fun p q hp hpq => by
      obtain ⟨hsafe, hitem⟩ := Settings.items_of_assignment hs hp hpq
      exact ⟨isItem_of_isSafe (by decide) hsafe, hitem⟩
    have hverb : b.statement.verb = some .update := of_decide_eq_true hupdate
    -- an update can do without values, so that nothing but their form matters
    exact
      { name := hb.name
        values := List.forall_mem_append.mpr ⟨hb.values, hitems⟩
        nonempty := by
          intro h
          rw [hverb] at h
          rcases h with h | h | h <;> cases h
        bare := fun h => by cases hverb.symm.trans h
        nameless := fun h => by cases hverb.symm.trans h }
  | @toVariables pairs assigned _ _ hvalues =>
    obtain ⟨hne, hassigned⟩ := Settings.assignments_ok hvalues
    have hmark : ∀ ch ∈ b.settings.variableMark.toList, isWordChar ch = true := by
      unfold Settings.variableMark
      split <;> exact List.all_eq_true.mp rfl
    let marked (r : String × String) : String × String := (b.settings.variableMark ++ r.1, r.2)
    have hmarked : List.Forall₂
        (fun p q => ∃ r, b.settings.assignment none p = .ok r ∧ q = marked r) pairs
        (assigned.map marked) :=
      List.forall₂_map_right_iff.mpr (hassigned.imp fun p r hpr => ⟨r, hpr, rfl⟩)
    have hitems := Settings.areItems_of_forall₂ hc hmarked fun p q hp hpq => by
      obtain ⟨r, hr, rfl⟩ := hpq
      obtain ⟨hsafe, hitem⟩ := Settings.items_of_assignment hs hp hr
      refine ⟨isItem_of_isWordChar fun ch hch => ?_, hitem⟩
      rw [String.toList_append, List.mem_append] at hch
      rcases hch with hch | hch
      · exact hmark ch hch
      · exact isWordChar_of_allows (by decide) ((Name.isSafe_iff.mp hsafe).2 ch hch)
    exact
      { name := Statement.isItem_empty
        values := hitems
        nonempty := by
          intro _ hnil
          exact ne_nil_of_forall₂ hassigned hne (List.map_eq_nil_iff.mp hnil)
        bare := fun h => by cases h
        nameless := fun _ => rfl }

/-! ## What runs write -/

/-- No value of a JSON document is a column reference. -/
theorem isChecked_of_rowOfJson {j : Json} {row : List (String × Value)}
    (h : rowOfJson j = .ok row) : ∀ v ∈ row.map Prod.snd, v.IsChecked := by
  have hscalars := inertness.keepsScalars
  have hself := agree_rowOfJson hscalars (Json.Corresponds.refl hscalars j)
  rw [h] at hself
  cases hself with
  | ok hrow =>
    intro v hv
    obtain ⟨p, hp, rfl⟩ := List.mem_map.mp hv
    exact (List.forall₂_same.mp hrow p hp).2.2

/-- What a careful step writes is checked, also if it is read from JSON. -/
theorem Step.IsCareful.written {s : Step} (hs : s.IsCareful) {c : Call Builder}
    (hc : s.call? = some c) : ∀ v ∈ c.written, v.IsChecked := by
  cases s with
  | call c' =>
    obtain rfl := Option.some.inj hc
    have hvalues := hs.values
    cases c' with
    | verb v =>
      cases v with
      | insert table row => exact hvalues
      | replace table row => exact hvalues
      | _ => exact fun _ hv => absurd hv List.not_mem_nil
    | clause _ => exact fun _ hv => absurd hv List.not_mem_nil
    | set pairs => exact hvalues
  | insertJson table j =>
    simp only [Step.call?, Option.map_eq_some_iff] at hc
    obtain ⟨row, hrow, rfl⟩ := hc
    exact isChecked_of_rowOfJson (ok_of_toOption hrow)
  | setJson j =>
    simp only [Step.call?, Option.map_eq_some_iff] at hc
    obtain ⟨row, hrow, rfl⟩ := hc
    exact isChecked_of_rowOfJson (ok_of_toOption hrow)
  | filterByJson j =>
    simp only [Step.call?, Option.map_eq_some_iff] at hc
    obtain ⟨f, -, rfl⟩ := hc
    exact fun _ hv => absurd hv List.not_mem_nil
  | _ => cases hc

section Runs

variable {b c : Builder}

/-- Along careful steps a builder keeps its promises, and its slots stay inert. -/
theorem inert_of_reachable (h : Reachable Dialect.PagesOnly Step.IsCareful b) :
    b.Corresponds inertness b := by
  have htwins : Twins inertness b b := h.twins (fun _ hd => hd) fun s hs =>
    { values := fun v hv => ⟨rfl, hs.values v hv⟩
      selected := fun column _ => by cases column <;> trivial
      dialect := hs.dialect
      registered := hs.registered }
  exact htwins.corresponds

theorem careful_of_reachable (h : Reachable Dialect.PagesOnly Step.IsCareful b) :
    b.settings.dialect.PagesOnly ∧ b.settings.schemas.IsCareful :=
  ⟨(inert_of_reachable h).pagesOnly, (inert_of_reachable h).schemas⟩

/-- **Every run leaves a readable statement.** -/
theorem isReadable_of_reachable (h : Reachable Dialect.PagesOnly Step.IsCareful b) :
    b.statement.IsReadable := by
  induction h with
  | fresh _ => exact Statement.isReadable_empty
  | @step b s h hs _ ih _ =>
    obtain ⟨hpages, hschemas⟩ := careful_of_reachable h
    rcases b.step_cases s with ⟨c, hcall, hstep⟩ | ⟨-, fault, hstep⟩ | ⟨-, settings, hstep, -⟩
    · rw [hstep]
      rcases b.perform_cases hpages c with ⟨fault, hperform⟩ | ⟨after, hperform, heffect⟩
      · -- a rejected call leaves the statement
        rw [hperform]
        exact ih
      · rw [hperform]
        exact Builder.isReadable_of_effect hschemas ih (hs.written hcall) heffect
    · rw [hstep]
      exact ih
    · -- and so does a change of the settings
      rw [hstep]
      exact ih

end Runs

/-! ## Reading back -/

theorem pairs_eq {xs ys : List (String × String)} (hnames : xs.map Prod.fst = ys.map Prod.fst)
    (hvalues : xs.map Prod.snd = ys.map Prod.snd) : xs = ys := by
  rw [List.zip_of_prod hnames hvalues]
  exact (List.zip_of_prod rfl rfl).symm

namespace Statement

theorem parenList_unique {xs ys : List String} (hxs : ∀ x ∈ xs, IsItem x)
    (hys : ∀ y ∈ ys, IsItem y) (hxne : xs ≠ []) (hyne : ys ≠ []) {r s : String}
    (h : parenList xs ++ r = parenList ys ++ s) : xs = ys ∧ r = s := by
  rw [← List.map_id xs, ← List.map_id ys] at h
  exact parenList_unique_of_follow IsItem.unique ends_comma ends_closing hxs hys hxne hyne h

/-- A row is read back: the name of the table, the columns and the values. -/
theorem row_unique {s t : Statement} (hs : s.IsReadable) (ht : t.IsReadable) (hsne : s.values ≠ [])
    (htne : t.values ≠ []) {keyword : String}
    (h : keyword ++ " " ++ s.name ++ " " ++ parenList (s.values.map Prod.fst) ++ " VALUES "
        ++ parenList (s.values.map Prod.snd)
      = keyword ++ " " ++ t.name ++ " " ++ parenList (t.values.map Prod.fst) ++ " VALUES "
        ++ parenList (t.values.map Prod.snd)) :
    s.name = t.name ∧ s.values = t.values := by
  have hmap : ∀ {s : Statement} (f : String × String → String), s.values ≠ [] →
      s.values.map f ≠ [] := fun f hne hnil => hne (List.map_eq_nil_iff.mp hnil)
  simp only [String.append_assoc, String.append_right_inj] at h
  -- the name ends at the blank, the lists end at their parentheses
  obtain ⟨hname, hcolumns⟩ := IsItem.unique hs.name ht.name (ends_blank _) (ends_blank _) h
  rw [String.append_right_inj] at hcolumns
  obtain ⟨hcolumns, hrest⟩ := parenList_unique hs.values.names ht.values.names (hmap _ hsne)
    (hmap _ htne) hcolumns
  rw [String.append_right_inj, ← String.append_empty (s := parenList (s.values.map _)),
    ← String.append_empty (s := parenList (t.values.map _))] at hrest
  obtain ⟨hvalues, -⟩ := parenList_unique hs.values.values ht.values.values (hmap _ hsne)
    (hmap _ htne) hrest
  exact ⟨hname, pairs_eq hcolumns hvalues⟩

/-- An assignment tells its name and its value. -/
theorem assignment_unique : Delimited (fun p : String × String => IsItem p.1 ∧ IsItem p.2)
    fun p => p.1 ++ " = " ++ p.2 := by
  intro p q r s hp hq hr hs h
  have hequals : ∀ t : String, Ends (" = " ++ t) := fun t =>
    ends_of_head (c := ' ') (by simp) rfl
  simp only [String.append_assoc] at h
  obtain ⟨hname, hrest⟩ := IsItem.unique hp.1 hq.1 (hequals _) (hequals _) h
  rw [String.append_right_inj] at hrest
  obtain ⟨hvalue, hrs⟩ := IsItem.unique hp.2 hq.2 hr hs hrest
  exact ⟨Prod.ext hname hvalue, hrs⟩

theorem assignments_unique {xs ys : List (String × String)} (hxs : AreItems xs) (hys : AreItems ys)
    (hxne : xs ≠ []) (hyne : ys ≠ []) {r s : String} (hr : EndsList r) (hs : EndsList s)
    (h : assignments xs ++ r = assignments ys ++ s) : xs = ys ∧ r = s :=
  commaList_unique assignment_unique hxs hys hxne hyne hr hs h

theorem endsList_conditionPart (condition : Option String) :
    EndsList (conditionPart condition) := by
  cases condition with
  | none => exact endsList_empty
  | some c => exact endsList_of_head (.inl (by simp [conditionPart]))

theorem conditionPart_injective {c d : Option String} (h : conditionPart c = conditionPart d) :
    c = d := by
  have hne : ∀ t : String, " WHERE " ++ t ≠ "" := fun t ht => by
    have := congrArg String.toList ht
    simp at this
  cases c with
  | none =>
    cases d with
    | none => rfl
    | some d => exact absurd h.symm (hne d)
  | some c =>
    cases d with
    | none => exact absurd h (hne c)
    | some d => rw [(String.append_right_inj _).mp h]

/-- A condition is told from assignments by its keyword. -/
theorem conditionPart_ne_set (condition : Option String) (t : String) :
    conditionPart condition ≠ " SET " ++ t := by
  intro h
  have hlist := congrArg String.toList h
  cases condition <;> simp [conditionPart] at hlist

/-- The assignments and the condition of an update are read back. -/
theorem update_unique {xs ys : List (String × String)} (hxs : AreItems xs) (hys : AreItems ys)
    {c d : Option String}
    (h : assignmentPart xs ++ conditionPart c = assignmentPart ys ++ conditionPart d) :
    xs = ys ∧ c = d := by
  have hpart : ∀ {zs : List (String × String)}, zs ≠ [] →
      assignmentPart zs = " SET " ++ assignments zs := by
    intro zs hne
    unfold assignmentPart
    rw [if_neg (by simpa using hne)]
  -- there can be assignments on both sides, on one of them or on none
  by_cases hxne : xs = []
  · by_cases hyne : ys = []
    · rw [hxne, hyne] at h ⊢
      exact ⟨rfl, conditionPart_injective (by simpa [assignmentPart] using h)⟩
    · rw [hxne, hpart hyne, String.append_assoc] at h
      exact absurd (by simpa [assignmentPart] using h) (conditionPart_ne_set c _)
  · by_cases hyne : ys = []
    · rw [hyne, hpart hxne, String.append_assoc] at h
      exact absurd (by simpa [assignmentPart] using h.symm) (conditionPart_ne_set d _)
    · rw [hpart hxne, hpart hyne, String.append_assoc, String.append_assoc,
        String.append_right_inj] at h
      obtain ⟨hvalues, hcondition⟩ := assignments_unique hxs hys hxne hyne
        (endsList_conditionPart c) (endsList_conditionPart d) h
      exact ⟨hvalues, conditionPart_injective hcondition⟩

theorem mem_writing {verb : Verb} (h : verb ∈ Verb.writing) :
    (verb = .insert ∨ verb = .replace) ∨ verb = .update ∨ verb = .delete ∨ verb = .set := by
  simpa [Verb.writing, or_assoc] using h

/-- The first letter of a text is the one of its verb. -/
theorem head_of_text {s : Statement} (hs : s.IsReadable) {verb : Verb}
    (hwriting : verb ∈ Verb.writing) (hverb : s.verb = some verb) {t : String}
    (ht : s.text = .ok t) :
    t.toList.head? = verb.keyword.toList.head? := by
  rcases mem_writing hwriting with hrow | rfl | rfl | rfl
  · rw [text_row hrow hverb] at ht
    obtain rfl := Except.ok.inj ht
    rcases hrow with rfl | rfl <;> simp [Verb.keyword]
  · rw [text_update hverb] at ht
    obtain rfl := Except.ok.inj ht
    simp [Verb.keyword]
  · rw [text_delete hverb] at ht
    obtain rfl := Except.ok.inj ht
    simp [Verb.keyword]
  · rw [text_set hverb (hs.nonempty (.inr (.inr hverb)))] at ht
    obtain rfl := Except.ok.inj ht
    simp [Verb.keyword]

/-- **A readable statement is read back from its text.** -/
theorem eq_of_text {s t : Statement} (hs : s.IsReadable) (ht : t.IsReadable) {verb : Verb}
    (hwriting : verb ∈ Verb.writing) (hsv : s.verb = some verb) (htv : t.verb = some verb)
    (h : s.text = t.text) :
    s.name = t.name ∧ s.values = t.values ∧
      (verb = .update ∨ verb = .delete → s.condition = t.condition) := by
  -- a row, an update, a deletion, an assignment to variables
  rcases mem_writing hwriting with hrow | rfl | rfl | rfl
  · have hnonempty : ∀ {s : Statement}, s.IsReadable → s.verb = some verb → s.values ≠ [] := by
      intro s hs hsv
      rcases hrow with rfl | rfl
      · exact hs.nonempty (.inl hsv)
      · exact hs.nonempty (.inr (.inl hsv))
    rw [text_row hrow hsv, text_row hrow htv, Except.ok.injEq] at h
    obtain ⟨hname, hvalues⟩ := row_unique hs ht (hnonempty hs hsv) (hnonempty ht htv) h
    refine ⟨hname, hvalues, fun hother => ?_⟩
    rcases hrow with rfl | rfl <;> rcases hother with hother | hother <;> cases hother
  · have hends : ∀ s : Statement, Ends (assignmentPart s.values ++ conditionPart s.condition) := by
      intro s
      unfold assignmentPart
      split
      · simpa using (endsList_conditionPart s.condition).1
      · exact ends_of_head (c := ' ') (by simp) rfl
    rw [text_update hsv, text_update htv, Except.ok.injEq] at h
    simp only [String.append_assoc, String.append_right_inj] at h
    obtain ⟨hname, hrest⟩ := IsItem.unique hs.name ht.name (hends s) (hends t) h
    obtain ⟨hvalues, hcondition⟩ := update_unique hs.values ht.values hrest
    exact ⟨hname, hvalues, fun _ => hcondition⟩
  · rw [text_delete hsv, text_delete htv, Except.ok.injEq] at h
    simp only [String.append_assoc, String.append_right_inj] at h
    obtain ⟨hname, hcondition⟩ := IsItem.unique hs.name ht.name
      (endsList_conditionPart s.condition).1 (endsList_conditionPart t.condition).1 h
    exact ⟨hname, by rw [hs.bare hsv, ht.bare htv], fun _ => conditionPart_injective hcondition⟩
  · have hsne := hs.nonempty (.inr (.inr hsv))
    have htne := ht.nonempty (.inr (.inr htv))
    rw [text_set hsv hsne, text_set htv htne, Except.ok.injEq, String.append_right_inj,
      ← String.append_empty (s := assignments s.values),
      ← String.append_empty (s := assignments t.values)] at h
    obtain ⟨hvalues, -⟩ := assignments_unique hs.values ht.values hsne htne endsList_empty
      endsList_empty h
    refine ⟨by rw [hs.nameless hsv, ht.nameless htv], hvalues, fun hother => ?_⟩
    rcases hother with hother | hother <;> cases hother

end Statement

/-- **Written statements are unambiguous.** Two runs of careful steps that end
in statements which write something, with the same text, have written the same:
the verbs, the names and the lists of names and values are equal, and in updates
and deletions so are the conditions. -/
theorem written_of_text {b c : Builder} (hb : Reachable Dialect.PagesOnly Step.IsCareful b)
    (hc : Reachable Dialect.PagesOnly Step.IsCareful c) {v w : Verb} (hv : v ∈ Verb.writing)
    (hw : w ∈ Verb.writing) (hbv : b.statement.verb = some v) (hcw : c.statement.verb = some w)
    {t : String} (hbt : b.renderWith "" = .ok t) (hct : c.renderWith "" = .ok t) :
    v = w ∧ b.statement.name = c.statement.name ∧ b.statement.values = c.statement.values ∧
      (v = .update ∨ v = .delete → b.statement.condition = c.statement.condition) := by
  have hbs := isReadable_of_reachable hb
  have hcs := isReadable_of_reachable hc
  rw [Builder.renderWith_empty] at hbt hct
  -- with the verbs equal, the texts have one layout
  have hverbs : v = w := by
    refine Verb.eq_of_head v hv w hw ?_
    rw [← Statement.head_of_text hbs hv hbv hbt, Statement.head_of_text hcs hw hcw hct]
  subst hverbs
  exact ⟨rfl, Statement.eq_of_text hbs hcs hv hbv hcw (hbt.trans hct.symm)⟩

/-- Updates with one text, brought about in two ways, with keywords for names, a
function call and a text that tries to be the rest of the statement. -/
theorem written_of_text_keywords :
    let call : String × Value := ("a", .text "concat(x, ' WHERE (', (y))")
    let literal : String × Value := ("WHERE", .text ", b = \"1\" WHERE c")
    let filter : Step := .call (.clause (.filterBy (.field "SET" (.value (.int (-1))))))
    let one : List Step :=
      [.call (.verb (.update "SET")), .call (.set [call]), .call (.set [literal]), filter]
    let other : List Step :=
      [.call (.verb (.deleteFrom "SET")), filter, .call (.verb (.update "SET")), filter,
        .call (.set [call, literal])]
    let text := "UPDATE SET SET a = concat(x, ' WHERE (', (y)), " ++
      "WHERE = \", b = \\\"1\\\" WHERE c\" WHERE SET = -1"
    let b := (Builder.new .universal).run one
    let c := (Builder.ofDialect .mysql55 .universal).run other
    b.renderWith "" = .ok text ∧ c.renderWith "" = .ok text ∧
      b.statement.name = c.statement.name ∧ b.statement.values = c.statement.values ∧
      b.statement.condition = c.statement.condition := by
  intro call literal filter one other text b c
  have hcareful : ∀ s ∈ one ++ other,
      s.IsCareful ∧ ∀ inner ∈ s.inners, Reachable Dialect.PagesOnly Step.IsCareful inner := by
    intro s hs
    simp only [one, other, filter, List.mem_append, List.mem_cons, List.not_mem_nil, or_false] at hs
    rcases hs with (rfl | rfl | rfl | rfl) | rfl | rfl | rfl | rfl | rfl <;>
      refine ⟨Step.isCareful_call ?_, fun _ h => by cases h⟩ <;>
      simp [Call.values, Filter.values, Operand.values, Value.IsChecked, call, literal]
  have hb : Reachable Dialect.PagesOnly Step.IsCareful b :=
    (Reachable.fresh Dialect.pagesOnly_sql92).run fun s hs =>
      hcareful s (List.mem_append_left _ hs)
  have hc : Reachable Dialect.PagesOnly Step.IsCareful c :=
    (Reachable.fresh Dialect.pagesOnly_mysql55).run fun s hs =>
      hcareful s (List.mem_append_right _ hs)
  have hbt : b.renderWith "" = .ok text := ok_of_toOption (by decide +kernel)
  have hct : c.renderWith "" = .ok text := ok_of_toOption (by decide +kernel)
  have hbv : b.statement.verb = some .update := by decide +kernel
  have hcw : c.statement.verb = some .update := by decide +kernel
  obtain ⟨-, hname, hvalues, hcondition⟩ :=
    written_of_text hb hc (by decide) (by decide) hbv hcw hbt hct
  exact ⟨hbt, hct, hname, hvalues, hcondition (.inl rfl)⟩

end SqlBuilder
