import SqlBuilder.Proofs.Conditions

/-!
# The meaning of conditions

A tree of filters and its condition need not mean the same: where an `AND` group
has a member with an `OR` of its own, the condition has no parentheses to keep
that member together. It then lets through everything that the tree does, and
more.

* `Filter.keepsGroups` — trees that need no parentheses;
* `holds_reading_of_holds` — the condition lets through what the tree does;
* `holds_reading_of_keepsGroups` — and nothing else, if no parentheses are
  missing.
-/

namespace SqlBuilder

open Precedence

/-! ## Trees that need no parentheses -/

mutual

/-- Whether the condition of a tree has an `OR` outside parentheses. -/
def Filter.hasBareOr : Filter → Bool
  | .all filters => Filter.anyHasBareOr filters
  | .any filters => filters.length ≥ 2 || Filter.anyHasBareOr filters
  | _ => false
termination_by structural f => f

/-- Whether the condition of one of the trees has an `OR` outside
parentheses. -/
def Filter.anyHasBareOr : List Filter → Bool
  | [] => false
  | f :: fs => f.hasBareOr || Filter.anyHasBareOr fs
termination_by structural fs => fs

end

mutual

/-- Whether no `AND` group with two members or more has a member whose condition
has an `OR` outside parentheses. -/
def Filter.keepsGroups : Filter → Bool
  | .all filters =>
    (filters.length ≤ 1 || !Filter.anyHasBareOr filters) && Filter.allKeepGroups filters
  | .any filters => Filter.allKeepGroups filters
  | _ => true
termination_by structural f => f

/-- Whether all trees keep their groups. -/
def Filter.allKeepGroups : List Filter → Bool
  | [] => true
  | f :: fs => f.keepsGroups && Filter.allKeepGroups fs
termination_by structural fs => fs

end

/-! ## Truth of disjunctions -/

namespace Precedence

variable (truth : String → Bool)

theorem Reading.allHold_eq_all (p : List Reading) :
    Reading.allHold truth p = p.all (·.holds truth) := by
  induction p with
  | nil => rfl
  | cons r p ih => rw [Reading.allHold, List.all_cons, ih]

theorem Reading.anyHolds_eq_any (ps : List (List Reading)) :
    Reading.anyHolds truth ps = ps.any (Reading.allHold truth) := by
  induction ps with
  | nil => rfl
  | cons p ps ih => rw [Reading.anyHolds, List.any_cons, ih]

theorem Reading.allHold_append (p q : List Reading) :
    Reading.allHold truth (p ++ q) = (Reading.allHold truth p && Reading.allHold truth q) := by
  simp only [Reading.allHold_eq_all, List.all_append]

theorem Reading.anyHolds_append (ps qs : List (List Reading)) :
    Reading.anyHolds truth (ps ++ qs)
      = (Reading.anyHolds truth ps || Reading.anyHolds truth qs) := by
  simp only [Reading.anyHolds_eq_any, List.any_append]

namespace Disjunction

theorem holds_single (r : Reading) : (single r).holds truth = r.holds truth := by
  simp [single, holds, Reading.anyHolds, Reading.allHold]

theorem holds_unit : unit.holds truth = true := by
  simp [unit, holds, Reading.anyHolds, Reading.allHold]

theorem holds_orElse (s t : Disjunction) :
    (s.orElse t).holds truth = (s.holds truth || t.holds truth) := by
  unfold holds orElse
  rw [Reading.anyHolds_append, Reading.anyHolds]
  simp only [Bool.or_assoc]

/-- Where two disjunctions hold, the one that they are joined to holds. -/
theorem holds_join_of_holds {s t : Disjunction} (hs : s.holds truth = true)
    (ht : t.holds truth = true) : (s.join t).holds truth = true := by
  obtain ⟨es, ls⟩ := s
  obtain ⟨et, lt⟩ := t
  unfold holds at *
  rw [Bool.or_eq_true] at hs ht ⊢
  cases et with
  | nil =>
    rcases hs with hs | hs
    · exact .inl hs
    · rcases ht with ht | ht
      · cases ht
      · refine .inr ?_
        show Reading.allHold truth (ls ++ lt) = true
        rw [Reading.allHold_append, hs, ht, Bool.true_and]
  | cons p et =>
    show Reading.anyHolds truth (es ++ (ls ++ p) :: et) = true ∨ Reading.allHold truth lt = true
    rw [Reading.anyHolds_append, Reading.anyHolds, Reading.allHold_append]
    rcases hs with hs | hs
    · rw [hs, Bool.true_or]
      exact .inl rfl
    · rcases ht with ht | ht
      · -- the conjunction that holds is one of those that stay apart, or the one that is joined
        rw [Reading.anyHolds] at ht
        rw [hs, Bool.true_and, ht, Bool.or_true]
        exact .inl rfl
      · exact .inr ht

/-- Two conjunctions are joined to one that holds where both do. -/
theorem holds_join {s t : Disjunction} (hs : s.earlier = []) (ht : t.earlier = []) :
    (s.join t).holds truth = (s.holds truth && t.holds truth) := by
  obtain ⟨es, ls⟩ := s
  obtain ⟨et, lt⟩ := t
  obtain rfl : es = [] := hs
  obtain rfl : et = [] := ht
  simp [holds, join, Reading.anyHolds, Reading.allHold_append]

theorem holds_orElseAll {ss : List Disjunction} (hne : ss ≠ []) :
    (orElseAll ss).holds truth = ss.any (·.holds truth) := by
  induction ss with
  | nil => exact absurd rfl hne
  | cons s ss ih =>
    cases ss with
    | nil => simp [orElseAll]
    | cons t ss =>
      rw [orElseAll, holds_orElse, ih (List.cons_ne_nil t ss)]
      simp only [List.any_cons]

/-- The conjunctions of a disjunction. -/
def conjunctions (s : Disjunction) : List (List Reading) := s.earlier ++ [s.last]

/-- A disjunction holds where one of its conjunctions does. -/
theorem holds_of_mem_conjunctions {s : Disjunction} {p : List Reading} (hp : p ∈ s.conjunctions)
    (h : Reading.allHold truth p = true) : s.holds truth = true := by
  unfold holds
  rw [Bool.or_eq_true, Reading.anyHolds_eq_any, List.any_eq_true]
  rcases List.mem_append.mp hp with hp | hp
  · exact .inl ⟨p, hp, h⟩
  · rw [List.mem_singleton] at hp
    exact .inr (hp ▸ h)

theorem conjunctions_orElse (s t : Disjunction) :
    (s.orElse t).conjunctions = s.conjunctions ++ t.conjunctions := by
  simp [conjunctions, orElse]

theorem conjunctions_orElseAll {ss : List Disjunction} (hne : ss ≠ []) :
    (orElseAll ss).conjunctions = ss.flatMap conjunctions := by
  induction ss with
  | nil => exact absurd rfl hne
  | cons s ss ih =>
    cases ss with
    | nil => rw [orElseAll, List.flatMap_singleton]
    | cons t ss =>
      rw [orElseAll, conjunctions_orElse, ih (List.cons_ne_nil t ss)]
      rfl

theorem mem_conjunctions_join_left {s : Disjunction} {p : List Reading} (hp : p ∈ s.earlier)
    (t : Disjunction) : p ∈ (s.join t).conjunctions := by
  obtain ⟨es, ls⟩ := s
  obtain ⟨et, lt⟩ := t
  refine List.mem_append_left _ ?_
  cases et with
  | nil => exact hp
  | cons q et => exact List.mem_append_left _ hp

/-- The last conjunction stays apart if it is not the first one, too. -/
theorem mem_conjunctions_join_right (s : Disjunction) {t : Disjunction} (ht : t.earlier ≠ []) :
    t.last ∈ (s.join t).conjunctions := by
  obtain ⟨es, ls⟩ := s
  obtain ⟨et, lt⟩ := t
  refine List.mem_append_right _ ?_
  cases et with
  | nil => exact absurd rfl ht
  | cons q et => exact List.mem_singleton_self lt

theorem earlier_join_eq_nil {s t : Disjunction} :
    (s.join t).earlier = [] ↔ s.earlier = [] ∧ t.earlier = [] := by
  obtain ⟨es, ls⟩ := s
  obtain ⟨et, lt⟩ := t
  cases et <;> simp [join]

end Disjunction

end Precedence

/-! ## Bare connectives -/

namespace Filter

variable {e : Encoder}

/-- A list of values is read as a group between parentheses, everything else as
one comparison. -/
theorem earlier_fieldReading {key : String} {o : Operand} (ho : o.IsComparison) :
    (e.fieldReading key o).earlier = [] := by
  cases ho <;> rfl

mutual

/-- The trees without a bare `OR` are those that are read as a single
conjunction. -/
theorem earlier_reading : ∀ {f : Filter}, f.IsCondition →
    ((f.reading e).earlier = [] ↔ f.hasBareOr = false)
  | _, .field key ho => iff_of_true (earlier_fieldReading ho) rfl
  | _, .all hne hfs => earlier_joinAll hfs
  | _, @IsCondition.any [] hne .nil => absurd rfl hne
  | _, @IsCondition.any [f] hne (.cons hf .nil) => by
    show (f.reading e).earlier = [] ↔ (false || (f.hasBareOr || false)) = false
    rw [Bool.false_or, Bool.or_false]
    exact earlier_reading hf
  | _, @IsCondition.any (f :: g :: fs) hne (.cons hf (.cons hg hfs)) => by
    refine iff_of_false ?_ ?_
    · exact List.append_ne_nil_of_right_ne_nil _ (List.cons_ne_nil _ _)
    · show ¬ (decide (fs.length + 2 ≥ 2) || anyHasBareOr (f :: g :: fs)) = false
      simp

theorem earlier_joinAll : ∀ {fs : List Filter}, AllConditions fs →
    ((Disjunction.joinAll (readings e fs)).earlier = [] ↔ anyHasBareOr fs = false)
  | _, .nil => iff_of_true rfl rfl
  | _, @AllConditions.cons f fs hf hfs => by
    show ((f.reading e).join (Disjunction.joinAll (readings e fs))).earlier = []
      ↔ (f.hasBareOr || anyHasBareOr fs) = false
    rw [Disjunction.earlier_join_eq_nil, Bool.or_eq_false_iff, earlier_reading hf,
      earlier_joinAll hfs]

end

mutual

/-- Where parentheses are missing, there is a bare `OR`. -/
theorem keepsGroups_of_hasBareOr : ∀ {f : Filter}, f.IsCondition → f.hasBareOr = false →
    f.keepsGroups = true
  | _, .field key ho, _ => rfl
  | _, @IsCondition.all fs hne hfs, h => by
    show ((decide (fs.length ≤ 1) || !anyHasBareOr fs) && allKeepGroups fs) = true
    have hbare : anyHasBareOr fs = false := h
    rw [hbare, allKeepGroups_of_anyHasBareOr hfs hbare]
    simp
  | _, @IsCondition.any fs hne hfs, h => by
    have hbare : (decide (fs.length ≥ 2) || anyHasBareOr fs) = false := h
    rw [Bool.or_eq_false_iff] at hbare
    exact allKeepGroups_of_anyHasBareOr hfs hbare.2

theorem allKeepGroups_of_anyHasBareOr : ∀ {fs : List Filter}, AllConditions fs →
    anyHasBareOr fs = false → allKeepGroups fs = true
  | _, .nil, _ => rfl
  | _, @AllConditions.cons f fs hf hfs, h => by
    have hbare : (f.hasBareOr || anyHasBareOr fs) = false := h
    rw [Bool.or_eq_false_iff] at hbare
    show (f.keepsGroups && allKeepGroups fs) = true
    rw [keepsGroups_of_hasBareOr hf hbare.1, allKeepGroups_of_anyHasBareOr hfs hbare.2]
    rfl

end

/-! ## The condition lets through what the tree does -/

theorem comparisons_ne_nil {key : String} {o : Operand} (ho : o.IsComparison) :
    e.comparisons key o ≠ [] := by
  cases ho with
  | oneOf vs hne => simpa [Encoder.comparisons] using hne
  | _ => exact List.cons_ne_nil _ _

theorem holds_fieldReading (truth : String → Bool) {key : String} {o : Operand}
    (ho : o.IsComparison) :
    (e.fieldReading key o).holds truth = (e.comparisons key o).any truth := by
  have hatoms : (Disjunction.orElseAll
      ((e.comparisons key o).map fun text => .single (.atom text))).holds truth
        = (e.comparisons key o).any truth := by
    rw [Disjunction.holds_orElseAll truth (by simpa using comparisons_ne_nil ho), List.any_map]
    congr 1
    funext text
    rw [Function.comp_apply, Disjunction.holds_single, Reading.holds]
  rw [← hatoms]
  cases ho with
  | oneOf vs _ =>
    show (Disjunction.single _).holds truth = _
    rw [Disjunction.holds_single, Reading.holds]
    rfl
  | _ => rfl

theorem readings_ne_nil {fs : List Filter} (hne : fs ≠ []) : readings e fs ≠ [] := by
  cases fs with
  | nil => exact absurd rfl hne
  | cons f fs => exact List.cons_ne_nil _ _

mutual

/-- **The condition of a tree lets through what the tree does.** -/
theorem holds_reading_of_holds (truth : String → Bool) : ∀ {f : Filter}, f.IsCondition →
    f.holds e truth = true → (f.reading e).holds truth = true
  | _, .field key ho, h => (holds_fieldReading truth ho).trans h
  | _, .all hne hfs, h => holds_joinAll_of_allHold truth hfs h
  | _, @IsCondition.any fs hne hfs, h => by
    show (Disjunction.orElseAll (readings e fs)).holds truth = true
    rw [Disjunction.holds_orElseAll truth (readings_ne_nil hne)]
    exact any_readings_of_anyHolds truth hfs h

theorem holds_joinAll_of_allHold (truth : String → Bool) : ∀ {fs : List Filter},
    AllConditions fs → allHold e truth fs = true →
    (Disjunction.joinAll (readings e fs)).holds truth = true
  | _, .nil, _ => Disjunction.holds_unit truth
  | _, @AllConditions.cons f fs hf hfs, h => by
    have hboth : (f.holds e truth && allHold e truth fs) = true := h
    rw [Bool.and_eq_true] at hboth
    exact Disjunction.holds_join_of_holds truth (holds_reading_of_holds truth hf hboth.1)
      (holds_joinAll_of_allHold truth hfs hboth.2)

theorem any_readings_of_anyHolds (truth : String → Bool) : ∀ {fs : List Filter},
    AllConditions fs → anyHolds e truth fs = true →
    (readings e fs).any (·.holds truth) = true
  | _, .nil, h => h
  | _, @AllConditions.cons f fs hf hfs, h => by
    have heither : (f.holds e truth || anyHolds e truth fs) = true := h
    rw [Bool.or_eq_true] at heither
    show ((f.reading e).holds truth || (readings e fs).any (·.holds truth)) = true
    rw [Bool.or_eq_true]
    rcases heither with hhead | hrest
    · exact .inl (holds_reading_of_holds truth hf hhead)
    · exact .inr (any_readings_of_anyHolds truth hfs hrest)

end

/-! ## Trees that keep their groups -/

mutual

/-- **Where no parentheses are missing, a tree and its condition mean the
same.** -/
theorem holds_reading_of_keepsGroups (truth : String → Bool) : ∀ {f : Filter}, f.IsCondition →
    f.keepsGroups = true → (f.reading e).holds truth = f.holds e truth
  | _, .field key ho, _ => holds_fieldReading truth ho
  | _, @IsCondition.all [] hne _, _ => absurd rfl hne
  | _, @IsCondition.all [f] _ (.cons hf _), h => by
    have hkeeps : (true && (f.keepsGroups && true)) = true := h
    rw [Bool.true_and, Bool.and_true] at hkeeps
    show ((f.reading e).join .unit).holds truth = (f.holds e truth && true)
    rw [Disjunction.join_unit, Bool.and_true]
    exact holds_reading_of_keepsGroups truth hf hkeeps
  | _, @IsCondition.all (f :: g :: fs) _ hfs, h => by
    have hkeeps : ((decide (fs.length + 2 ≤ 1) || !anyHasBareOr (f :: g :: fs))
        && allKeepGroups (f :: g :: fs)) = true := h
    -- there are two members or more
    rw [Bool.and_eq_true, decide_eq_false (by omega), Bool.false_or,
      Bool.not_eq_true'] at hkeeps
    exact holds_joinAll truth hfs hkeeps.1 hkeeps.2
  | _, @IsCondition.any fs hne hfs, h => by
    show (Disjunction.orElseAll (readings e fs)).holds truth = anyHolds e truth fs
    rw [Disjunction.holds_orElseAll truth (readings_ne_nil hne)]
    exact any_readings truth hfs h

theorem holds_joinAll (truth : String → Bool) : ∀ {fs : List Filter}, AllConditions fs →
    anyHasBareOr fs = false → allKeepGroups fs = true →
    (Disjunction.joinAll (readings e fs)).holds truth = allHold e truth fs
  | _, .nil, _, _ => Disjunction.holds_unit truth
  | _, @AllConditions.cons f fs hf hfs, hbare, hkeeps => by
    have hbare : (f.hasBareOr || anyHasBareOr fs) = false := hbare
    have hkeeps : (f.keepsGroups && allKeepGroups fs) = true := hkeeps
    rw [Bool.or_eq_false_iff] at hbare
    rw [Bool.and_eq_true] at hkeeps
    show ((f.reading e).join (Disjunction.joinAll (readings e fs))).holds truth
      = (f.holds e truth && allHold e truth fs)
    rw [Disjunction.holds_join truth ((earlier_reading hf).mpr hbare.1)
      ((earlier_joinAll hfs).mpr hbare.2), holds_reading_of_keepsGroups truth hf hkeeps.1,
      holds_joinAll truth hfs hbare.2 hkeeps.2]

theorem any_readings (truth : String → Bool) : ∀ {fs : List Filter}, AllConditions fs →
    allKeepGroups fs = true → (readings e fs).any (·.holds truth) = anyHolds e truth fs
  | _, .nil, _ => rfl
  | _, @AllConditions.cons f fs hf hfs, h => by
    have hkeeps : (f.keepsGroups && allKeepGroups fs) = true := h
    rw [Bool.and_eq_true] at hkeeps
    show ((f.reading e).holds truth || (readings e fs).any (·.holds truth))
      = (f.holds e truth || anyHolds e truth fs)
    rw [holds_reading_of_keepsGroups truth hf hkeeps.1, any_readings truth hfs hkeeps.2]

end

end Filter

end SqlBuilder
