import Mathlib.Data.List.Basic
import Mathlib.Data.List.TakeWhile
import SqlBuilder.Proofs.LiteralForm

/-!
# Safe names

A name is tested by looking at its characters, and it is sanitized by dropping
characters. Both go by the same rule: a text is a safe name when sanitizing has
nothing to drop and something is left. A reference to a column is found in a
third way, by its first period, and that agrees with them too.

* `NameRule.inter`, `NameRule.Enables` — the options that rules have in common,
  and rules with more options;
* `Name.IsLongest` — what sanitizing is to leave of a text;
* `Name.splitAtPeriod?_eq_some_iff` — where a text is split;
* `Name.isQualified_iff` — references to columns by counting periods;
* `Name.acceptance_agrees` — safe names, sanitized texts and references.
-/

namespace SqlBuilder

namespace NameRule

/-- The options that two rules have in common. -/
def inter (rule rule' : NameRule) : NameRule where
  period := rule.period && rule'.period
  parens := rule.parens && rule'.parens
  asterisk := rule.asterisk && rule'.asterisk
  atSign := rule.atSign && rule'.atSign
  dollarSign := rule.dollarSign && rule'.dollarSign

/-- Whether another rule has all options of a rule. -/
structure Enables (rule more : NameRule) : Prop where
  period : rule.period = true → more.period = true
  parens : rule.parens = true → more.parens = true
  asterisk : rule.asterisk = true → more.asterisk = true
  atSign : rule.atSign = true → more.atSign = true
  dollarSign : rule.dollarSign = true → more.dollarSign = true

/-- The common options allow the characters that both rules allow. -/
theorem allows_inter (rule rule' : NameRule) (c : Char) :
    (rule.inter rule').allows c = (rule.allows c && rule'.allows c) := by
  unfold allows
  cases c.isAlphanum || decide (c = '_') with
  | true => rfl
  | false =>
    simp only [Bool.false_or]
    split <;> rfl

/-- More options allow more characters. -/
theorem allows_of_enables {rule more : NameRule} (h : rule.Enables more) {c : Char}
    (hc : rule.allows c = true) : more.allows c = true := by
  unfold allows at hc ⊢
  rw [Bool.or_eq_true] at hc ⊢
  refine hc.imp_right fun hc => ?_
  split at hc
  · exact h.period hc
  · exact h.parens hc
  · exact h.parens hc
  · exact h.asterisk hc
  · exact h.atSign hc
  · exact h.dollarSign hc
  · cases hc

/-- Next to plain names, qualified ones have periods. -/
theorem allows_qualified_iff {c : Char} :
    allows .qualified c = true ↔ c = '.' ∨ allows .plain c = true := by
  by_cases hc : c = '.'
  · subst hc
    decide
  · -- the period is the only option of qualified names
    unfold allows
    split <;> simp_all [qualified, plain]

theorem ne_period_of_allows_plain {c : Char} (h : allows .plain c = true) : c ≠ '.' := by
  rintro rfl
  revert h
  decide

end NameRule

namespace Name

variable {rule : NameRule} {s : String}

/-! ## Sanitized texts -/

theorem toList_sanitize (rule : NameRule) (s : String) :
    (sanitize rule s).toList = s.toList.filter rule.allows :=
  String.toList_ofList

/-- A text is a subsequence of another, with allowed characters only, and every
other such text is a subsequence of it. -/
structure IsLongest (rule : NameRule) (s t : String) : Prop where
  sublist : t.toList.Sublist s.toList
  allowed : ∀ c ∈ t.toList, rule.allows c = true
  longest : ∀ u : String, u.toList.Sublist s.toList → (∀ c ∈ u.toList, rule.allows c = true) →
    u.toList.Sublist t.toList

theorem isLongest_sanitize (rule : NameRule) (s : String) :
    IsLongest rule s (sanitize rule s) := by
  refine ⟨?_, fun c hc => ?_, fun u hu hallowed => ?_⟩
  · rw [toList_sanitize]
    exact List.filter_sublist
  · rw [toList_sanitize] at hc
    exact List.of_mem_filter hc
  · -- dropping characters from the longer text drops none of the shorter one
    have hsame : u.toList.filter rule.allows = u.toList := List.filter_eq_self.mpr hallowed
    rw [toList_sanitize, ← hsame]
    exact hu.filter rule.allows

/-- There is only one longest subsequence. -/
theorem isLongest_iff {t : String} : IsLongest rule s t ↔ t = sanitize rule s := by
  constructor
  · intro h
    have hlongest := isLongest_sanitize rule s
    exact String.toList_inj.mp
      ((hlongest.longest t h.sublist h.allowed).antisymm
        (h.longest _ hlongest.sublist hlongest.allowed))
  · rintro rfl
    exact isLongest_sanitize rule s

/-- Sanitizing changes nothing where all characters are allowed. -/
theorem sanitize_eq_self_iff :
    sanitize rule s = s ↔ ∀ c ∈ s.toList, rule.allows c = true := by
  rw [← String.toList_inj, toList_sanitize]
  exact List.filter_eq_self

/-- Sanitizing by one rule and then another goes by what they have in common. -/
theorem sanitize_sanitize (rule rule' : NameRule) (s : String) :
    sanitize rule' (sanitize rule s) = sanitize (rule.inter rule') s := by
  rw [← String.toList_inj, toList_sanitize, toList_sanitize, toList_sanitize, List.filter_filter]
  refine List.filter_congr fun c _ => ?_
  rw [NameRule.allows_inter, Bool.and_comm]

theorem sanitize_idem (rule : NameRule) (s : String) :
    sanitize rule (sanitize rule s) = sanitize rule s :=
  sanitize_eq_self_iff.mpr (isLongest_sanitize rule s).allowed

/-- More options drop no more characters. -/
theorem sublist_sanitize_of_enables {more : NameRule} (h : rule.Enables more) (s : String) :
    (sanitize rule s).toList.Sublist (sanitize more s).toList := by
  have hrule := isLongest_sanitize rule s
  exact (isLongest_sanitize more s).longest _ hrule.sublist fun c hc =>
    NameRule.allows_of_enables h (hrule.allowed c hc)

/-- **A safe name is a text that sanitizing leaves alone, and not the empty one.** -/
theorem isSafe_iff_sanitize_eq : isSafe rule s = true ↔ s ≠ "" ∧ sanitize rule s = s := by
  rw [isSafe_iff, sanitize_eq_self_iff, ne_eq, String.toList_eq_nil_iff]

/-- The check returns the text itself where sanitizing leaves it alone, and
refuses it otherwise. -/
theorem require_eq (rule : NameRule) (s : String) :
    require rule s
      = if s ≠ "" ∧ sanitize rule s = s then .ok s else .error (.unsafeText s) := by
  unfold require
  exact if_congr isSafe_iff_sanitize_eq rfl rfl

/-! ## References to columns -/

/-- A text is split at the period in front of which there is none. -/
theorem splitAtPeriod?_eq_some_iff {cs before after : List Char} :
    splitAtPeriod? cs = some (before, after) ↔ cs = before ++ '.' :: after ∧ '.' ∉ before := by
  constructor
  · intro h
    refine ⟨eq_of_splitAtPeriod? h, ?_⟩
    unfold splitAtPeriod? at h
    rw [List.span_eq_takeWhile_dropWhile] at h
    split at h
    · next b c a hsplit =>
      rw [Prod.mk.injEq] at hsplit
      rw [Option.some.injEq, Prod.mk.injEq] at h
      rw [← h.1, ← hsplit.1]
      intro hmem
      simpa using List.mem_takeWhile_imp hmem
    · cases h
  · rintro ⟨rfl, hbefore⟩
    have hnone : ∀ c ∈ before, decide (c ≠ '.') = true := by
      intro c hc
      rw [decide_eq_true_eq]
      rintro rfl
      exact hbefore hc
    unfold splitAtPeriod?
    rw [List.span_eq_takeWhile_dropWhile, List.takeWhile_append_of_pos hnone,
      List.dropWhile_append_of_pos hnone]
    simp

/-- A table without a period and a column are split where they were joined. -/
theorem splitAtPeriod?_append {table : String} (h : '.' ∉ table.toList) (column : String) :
    splitAtPeriod? (table ++ "." ++ column).toList = some (table.toList, column.toList) :=
  splitAtPeriod?_eq_some_iff.mpr ⟨by simp, h⟩

/-- A text that is split is a table without a period, a period and a column. -/
theorem exists_append_of_splitAtPeriod? {parts : List Char × List Char}
    (h : splitAtPeriod? s.toList = some parts) :
    ∃ table column : String, s = table ++ "." ++ column ∧ '.' ∉ table.toList := by
  obtain ⟨hs, hbefore⟩ := splitAtPeriod?_eq_some_iff.mp h
  refine ⟨String.ofList parts.1, String.ofList parts.2, ?_, ?_⟩
  · rw [← String.toList_inj]
    simp [hs]
  · rw [String.toList_ofList]
    exact hbefore

/-- Of a table without a period and a column, both names are checked. -/
theorem isQualified_append {table : String} (h : '.' ∉ table.toList) (column : String) :
    isQualified (table ++ "." ++ column) = (isSafe .plain table && isSafe .plain column) := by
  unfold isQualified
  rw [splitAtPeriod?_append h]
  rfl

theorem not_mem_period_of_isSafe (h : isSafe .plain s = true) : '.' ∉ s.toList :=
  fun hmem => NameRule.ne_period_of_allows_plain ((isSafe_iff.mp h).2 _ hmem) rfl

/-- Two plain names with a period between them are a reference, and nothing else
is. -/
theorem isQualified_iff_exists : isQualified s = true ↔
    ∃ table column, s = table ++ "." ++ column ∧ isSafe .plain table = true ∧
      isSafe .plain column = true := by
  constructor
  · intro h
    cases hsplit : splitAtPeriod? s.toList with
    | none =>
      rw [isQualified, hsplit] at h
      cases h
    | some parts =>
      obtain ⟨table, column, rfl, htable⟩ := exists_append_of_splitAtPeriod? hsplit
      rw [isQualified_append htable] at h
      exact ⟨table, column, rfl, Bool.and_eq_true_iff.mp h⟩
  · rintro ⟨table, column, rfl, htable, hcolumn⟩
    rw [isQualified_append (not_mem_period_of_isSafe htable)]
    exact Bool.and_eq_true_iff.mpr ⟨htable, hcolumn⟩

/-- **References by counting periods**: a name that can have periods, with one of
them, which is neither at its beginning nor at its end. -/
theorem isQualified_iff : isQualified s = true ↔
    isSafe .qualified s = true ∧ s.toList.count '.' = 1 ∧ s.toList.head? ≠ some '.' ∧
      s.toList.getLast? ≠ some '.' := by
  rw [isQualified_iff_exists]
  constructor
  · rintro ⟨table, column, rfl, htable, hcolumn⟩
    -- neither of the two names has a period
    have htablePeriod := not_mem_period_of_isSafe htable
    have hcolumnPeriod := not_mem_period_of_isSafe hcolumn
    obtain ⟨htableNe, htable⟩ := isSafe_iff.mp htable
    obtain ⟨hcolumnNe, hcolumn⟩ := isSafe_iff.mp hcolumn
    have hlist : (table ++ "." ++ column).toList = table.toList ++ '.' :: column.toList := by simp
    rw [isSafe_iff, hlist]
    refine ⟨⟨by simp, fun c hc => ?_⟩, ?_, ?_, ?_⟩
    · rw [NameRule.allows_qualified_iff]
      rcases List.mem_append.mp hc with hc | hc
      · exact .inr (htable c hc)
      · exact (List.mem_cons.mp hc).imp_right (hcolumn c)
    · rw [List.count_append, List.count_cons_self, List.count_eq_zero_of_not_mem htablePeriod,
        List.count_eq_zero_of_not_mem hcolumnPeriod]
    · rw [List.head?_append_of_ne_nil _ htableNe]
      exact fun h => htablePeriod (List.mem_of_head? h)
    · rw [List.getLast?_append_of_ne_nil _ (List.cons_ne_nil _ _),
        List.getLast?_cons_of_ne_nil hcolumnNe]
      exact fun h => hcolumnPeriod (List.mem_of_getLast? h)
  · rintro ⟨hsafe, hcount, hhead, hlast⟩
    have hallowed := (isSafe_iff.mp hsafe).2
    -- the text is split at its only period
    have hmem : '.' ∈ s.toList := List.count_pos_iff.mp (by omega)
    obtain ⟨before, after, hs, hbefore⟩ := List.eq_append_cons_of_mem hmem
    rw [hs] at hcount hhead hlast hallowed
    have hafter : '.' ∉ after := by
      rw [List.count_append, List.count_cons_self] at hcount
      exact List.count_eq_zero.mp (by omega)
    have hplain : ∀ {cs : List Char}, '.' ∉ cs → (∀ c ∈ cs, c ∈ before ++ '.' :: after) →
        ∀ c ∈ cs, NameRule.allows .plain c = true := by
      intro cs hperiod hcs c hc
      refine (NameRule.allows_qualified_iff.mp (hallowed c (hcs c hc))).resolve_left ?_
      rintro rfl
      exact hperiod hc
    refine ⟨String.ofList before, String.ofList after, ?_, ?_, ?_⟩
    · rw [← String.toList_inj]
      simp [hs]
    · rw [isSafe_iff, String.toList_ofList]
      refine ⟨?_, hplain hbefore fun c hc => List.mem_append_left _ hc⟩
      rintro rfl
      exact hhead rfl
    · rw [isSafe_iff, String.toList_ofList]
      refine ⟨?_, hplain hafter fun c hc => List.mem_append_right _ (List.mem_cons_of_mem _ hc)⟩
      rintro rfl
      exact hlast (by simp)

/-- **Acceptance of names agrees with sanitizing.** A text is a safe name, and is
returned by the check, exactly if it is not empty and sanitizing leaves it alone;
otherwise the check refuses it by itself. Sanitizing leaves the longest
subsequence of allowed characters: a second time it changes nothing, by a second
rule it leaves what both rules allow, and with more options it drops no more. And
a reference to a column is a name with one period, which has something on either
side. -/
theorem acceptance_agrees (rule : NameRule) (s : String) :
    (isSafe rule s = true ↔ s ≠ "" ∧ sanitize rule s = s) ∧
    require rule s
      = (if s ≠ "" ∧ sanitize rule s = s then .ok s else .error (.unsafeText s)) ∧
    (∀ t, IsLongest rule s t ↔ t = sanitize rule s) ∧
    sanitize rule (sanitize rule s) = sanitize rule s ∧
    (∀ rule', sanitize rule' (sanitize rule s) = sanitize (rule.inter rule') s) ∧
    (∀ more, rule.Enables more → (sanitize rule s).toList.Sublist (sanitize more s).toList) ∧
    (isQualified s = true ↔
      isSafe .qualified s = true ∧ s.toList.count '.' = 1 ∧ s.toList.head? ≠ some '.' ∧
        s.toList.getLast? ≠ some '.') :=
  ⟨isSafe_iff_sanitize_eq, require_eq rule s, fun _ => isLongest_iff, sanitize_idem rule s,
    fun rule' => sanitize_sanitize rule rule' s,
    fun _ hmore => sublist_sanitize_of_enables hmore s, isQualified_iff⟩

/-- A text with two periods, a statement and a letter outside ASCII, under the rule
of variables and with the options of selections on top. -/
theorem acceptance_agrees_hostile :
    let more : NameRule := { NameRule.variableName with parens := true, asterisk := true }
    let s := "@t.ï.count(*); --"
    NameRule.Enables .variableName more ∧
      (sanitize .variableName s).toList.Sublist (sanitize more s).toList ∧
      sanitize .variableName s = "@t..count" ∧ sanitize more s = "@t..count(*)" ∧
      sanitize .selection (sanitize .variableName s) = sanitize .qualified s ∧
      require more s = .error (.unsafeText s) ∧
      isQualified s = false := by
  intro more s
  have hmore : NameRule.Enables .variableName more := by constructor <;> decide
  obtain ⟨-, hrequire, -, -, hinter, henables, hqualified⟩ := acceptance_agrees .variableName s
  refine ⟨hmore, henables more hmore, by decide, by decide, hinter .selection, ?_, ?_⟩
  · rw [(acceptance_agrees more s).2.1, if_neg]
    decide
  · rw [← Bool.not_eq_true, hqualified]
    decide

end Name

end SqlBuilder
