import Mathlib.Data.List.Nodup
import SqlBuilder.Proofs.Meaning

/-!
# Groups that are lost

A tree that does not keep its groups has a condition that lets through more than
the tree does, provided that all its comparisons differ. Every conjunction of
the condition can be made true by itself, with no comparison true but its own;
and one of them leaves out a member of an `AND` group altogether.

* `Filter.atoms` — the comparisons of a tree;
* `exists_lost_conjunction` — the conjunction that leaves a member out;
* `meaning_of_compile` — what the condition of a tree means.
-/

namespace SqlBuilder

open Precedence

/-! ## The comparisons of a condition -/

namespace Precedence

mutual

/-- The comparisons of an operand. -/
def Reading.atoms : Reading → List String
  | .atom text => [text]
  | .group earlier last => Reading.atomsOfAny earlier ++ Reading.atomsOfAll last
termination_by structural r => r

/-- The comparisons of a conjunction. -/
def Reading.atomsOfAll : List Reading → List String
  | [] => []
  | r :: rs => r.atoms ++ Reading.atomsOfAll rs
termination_by structural rs => rs

/-- The comparisons of some conjunctions. -/
def Reading.atomsOfAny : List (List Reading) → List String
  | [] => []
  | p :: ps => Reading.atomsOfAll p ++ Reading.atomsOfAny ps
termination_by structural ps => ps

end

mutual

/-- An operand holds where all its comparisons do. -/
theorem Reading.holds_of_atoms (truth : String → Bool) : ∀ {r : Reading},
    (∀ a ∈ r.atoms, truth a = true) → r.holds truth = true
  | .atom text, h => h text List.mem_cons_self
  | .group earlier last, h => by
    rw [Reading.holds, Bool.or_eq_true]
    exact .inr (Reading.allHold_of_atoms truth fun a ha => h a (List.mem_append_right _ ha))

theorem Reading.allHold_of_atoms (truth : String → Bool) : ∀ {p : List Reading},
    (∀ a ∈ Reading.atomsOfAll p, truth a = true) → Reading.allHold truth p = true
  | [], _ => rfl
  | r :: p, h => by
    rw [Reading.allHold, Bool.and_eq_true]
    exact ⟨Reading.holds_of_atoms truth fun a ha => h a (List.mem_append_left _ ha),
      Reading.allHold_of_atoms truth fun a ha => h a (List.mem_append_right _ ha)⟩

end

theorem Reading.atomsOfAll_eq_flatMap (p : List Reading) :
    Reading.atomsOfAll p = p.flatMap Reading.atoms := by
  induction p with
  | nil => rfl
  | cons r p ih => rw [Reading.atomsOfAll, List.flatMap_cons, ih]

theorem Reading.atomsOfAny_eq_flatMap (ps : List (List Reading)) :
    Reading.atomsOfAny ps = ps.flatMap Reading.atomsOfAll := by
  induction ps with
  | nil => rfl
  | cons p ps ih => rw [Reading.atomsOfAny, List.flatMap_cons, ih]

theorem Reading.atomsOfAll_append (p q : List Reading) :
    Reading.atomsOfAll (p ++ q) = Reading.atomsOfAll p ++ Reading.atomsOfAll q := by
  simp only [Reading.atomsOfAll_eq_flatMap, List.flatMap_append]

theorem Reading.atomsOfAny_append (ps qs : List (List Reading)) :
    Reading.atomsOfAny (ps ++ qs) = Reading.atomsOfAny ps ++ Reading.atomsOfAny qs := by
  simp only [Reading.atomsOfAny_eq_flatMap, List.flatMap_append]

namespace Disjunction

/-- The comparisons of a disjunction. -/
def atoms (s : Disjunction) : List String :=
  Reading.atomsOfAny s.earlier ++ Reading.atomsOfAll s.last

theorem atoms_single (r : Reading) : (single r).atoms = r.atoms := by
  simp [atoms, single, Reading.atomsOfAny, Reading.atomsOfAll]

theorem atoms_orElse (s t : Disjunction) : (s.orElse t).atoms = s.atoms ++ t.atoms := by
  simp [atoms, orElse, Reading.atomsOfAny_append, Reading.atomsOfAny]

theorem atoms_orElseAll {ss : List Disjunction} (hne : ss ≠ []) :
    (orElseAll ss).atoms = ss.flatMap atoms := by
  induction ss with
  | nil => exact absurd rfl hne
  | cons s ss ih =>
    cases ss with
    | nil => rw [orElseAll, List.flatMap_singleton]
    | cons t ss =>
      rw [orElseAll, atoms_orElse, ih (List.cons_ne_nil t ss)]
      rfl

/-- No comparison is lost or doubled where two conjunctions are joined. -/
theorem atoms_join (s t : Disjunction) : (s.join t).atoms = s.atoms ++ t.atoms := by
  obtain ⟨es, ls⟩ := s
  obtain ⟨et, lt⟩ := t
  cases et <;>
    simp [atoms, join, Reading.atomsOfAny_append, Reading.atomsOfAll_append, Reading.atomsOfAny]

theorem mem_atoms_of_mem_conjunctions {s : Disjunction} {p : List Reading}
    (hp : p ∈ s.conjunctions) {a : String} (ha : a ∈ Reading.atomsOfAll p) : a ∈ s.atoms := by
  unfold atoms
  rw [List.mem_append, Reading.atomsOfAny_eq_flatMap, List.mem_flatMap]
  rcases List.mem_append.mp hp with hp | hp
  · exact .inl ⟨p, hp, ha⟩
  · rw [List.mem_singleton] at hp
    exact .inr (hp ▸ ha)

end Disjunction

end Precedence

/-! ## The comparisons of a tree -/

mutual

/-- The comparisons of a tree. -/
def Filter.atoms (e : Encoder) : Filter → List String
  | .field key operand => e.comparisons key operand
  | .all filters => Filter.atomsOfAll e filters
  | .any filters => Filter.atomsOfAll e filters
  | _ => []
termination_by structural f => f

/-- The comparisons of the trees of a group. -/
def Filter.atomsOfAll (e : Encoder) : List Filter → List String
  | [] => []
  | f :: fs => f.atoms e ++ Filter.atomsOfAll e fs
termination_by structural fs => fs

end

namespace Filter

variable {e : Encoder}

theorem atoms_fieldReading {key : String} {o : Operand} (ho : o.IsComparison) :
    (e.fieldReading key o).atoms = e.comparisons key o := by
  have hatoms : (Disjunction.orElseAll
      ((e.comparisons key o).map fun text => .single (.atom text))).atoms
        = e.comparisons key o := by
    rw [Disjunction.atoms_orElseAll (by simpa using comparisons_ne_nil ho), List.flatMap_map]
    simp only [Disjunction.atoms_single, Reading.atoms, List.flatMap_singleton']
  rw [← hatoms]
  cases ho with
  | oneOf vs _ =>
    show (Disjunction.single _).atoms = _
    rw [Disjunction.atoms_single, Reading.atoms]
    rfl
  | _ => rfl

mutual

/-- A tree and its condition have the same comparisons. -/
theorem atoms_reading : ∀ {f : Filter}, f.IsCondition → (f.reading e).atoms = f.atoms e
  | _, .field key ho => atoms_fieldReading ho
  | _, .all _ hfs => atoms_joinAll hfs
  | _, @IsCondition.any fs hne hfs => by
    show (Disjunction.orElseAll (readings e fs)).atoms = atomsOfAll e fs
    rw [Disjunction.atoms_orElseAll (readings_ne_nil hne), atoms_readings hfs]

theorem atoms_joinAll : ∀ {fs : List Filter}, AllConditions fs →
    (Disjunction.joinAll (readings e fs)).atoms = atomsOfAll e fs
  | _, .nil => rfl
  | _, @AllConditions.cons f fs hf hfs => by
    show ((f.reading e).join (Disjunction.joinAll (readings e fs))).atoms
      = f.atoms e ++ atomsOfAll e fs
    rw [Disjunction.atoms_join, atoms_reading hf, atoms_joinAll hfs]

theorem atoms_readings : ∀ {fs : List Filter}, AllConditions fs →
    (readings e fs).flatMap Disjunction.atoms = atomsOfAll e fs
  | _, .nil => rfl
  | _, @AllConditions.cons f fs hf hfs => by
    show (f.reading e).atoms ++ (readings e fs).flatMap Disjunction.atoms
      = f.atoms e ++ atomsOfAll e fs
    rw [atoms_reading hf, atoms_readings hfs]

end

/-! ## Members that are left out -/

mutual

/-- A tree does not hold where none of its comparisons does. -/
theorem holds_eq_false (truth : String → Bool) : ∀ {f : Filter}, f.IsCondition →
    (∀ a ∈ f.atoms e, truth a = false) → f.holds e truth = false
  | _, .field key ho, h => by
    rw [holds, List.any_eq_false]
    intro a ha
    rw [h a ha]
    exact Bool.false_ne_true
  | _, @IsCondition.all [] hne _, _ => absurd rfl hne
  | _, @IsCondition.all (f :: fs) _ (.cons hf _), h => by
    show (f.holds e truth && allHold e truth fs) = false
    rw [holds_eq_false truth hf fun a ha => h a (List.mem_append_left _ ha), Bool.false_and]
  | _, .any _ hfs, h => anyHolds_eq_false truth hfs h

theorem anyHolds_eq_false (truth : String → Bool) : ∀ {fs : List Filter}, AllConditions fs →
    (∀ a ∈ atomsOfAll e fs, truth a = false) → anyHolds e truth fs = false
  | _, .nil, _ => rfl
  | _, @AllConditions.cons f fs hf hfs, h => by
    show (f.holds e truth || anyHolds e truth fs) = false
    rw [holds_eq_false truth hf fun a ha => h a (List.mem_append_left _ ha),
      anyHolds_eq_false truth hfs fun a ha => h a (List.mem_append_right _ ha)]
    rfl

end

/-- A conjunction of a condition that does not make its tree hold: where no
comparison is true but its own, the tree does not hold. -/
def IsLost (tree : (String → Bool) → Bool) (p : List Reading) : Prop :=
  ∀ truth, (∀ a, truth a = true → a ∈ Reading.atomsOfAll p) → tree truth = false

/-- Comparisons that are true only in one place are false in another. -/
theorem false_of_disjoint {xs ys : List String} (hdisjoint : (xs ++ ys).Nodup)
    {truth : String → Bool} (h : ∀ a, truth a = true → a ∈ xs) : ∀ a ∈ ys, truth a = false := by
  intro a ha
  rw [Bool.eq_false_iff]
  intro htrue
  exact List.disjoint_of_nodup_append hdisjoint (h a htrue) ha

/-- An `AND` group that does not keep its members loses one of them: the first
conjunction of its condition ends in its first member, or the last one begins
behind it. -/
theorem exists_lost_join {f : Filter} {fs : List Filter} (hf : f.IsCondition)
    (hfs : AllConditions fs) (hne : fs ≠ []) (hnodup : (f.atoms e ++ atomsOfAll e fs).Nodup)
    (hbare : (f.hasBareOr || anyHasBareOr fs) = true) :
    ∃ p ∈ ((f.reading e).join (Disjunction.joinAll (readings e fs))).conjunctions,
      IsLost (fun truth => f.holds e truth && allHold e truth fs) p := by
  by_cases hhead : (f.reading e).earlier = []
  · -- the bare `OR` is in a later member
    have hrest : (Disjunction.joinAll (readings e fs)).earlier ≠ [] := by
      rw [(earlier_reading hf).mp hhead, Bool.false_or] at hbare
      intro hearlier
      rw [(earlier_joinAll hfs).mp hearlier] at hbare
      cases hbare
    refine ⟨_, Disjunction.mem_conjunctions_join_right _ hrest, fun truth htruth => ?_⟩
    have hquiet : ∀ a ∈ f.atoms e, truth a = false := by
      refine false_of_disjoint (List.nodup_append_comm.mp hnodup) fun a ha => ?_
      rw [← atoms_joinAll hfs]
      exact List.mem_append_right _ (htruth a ha)
    show (f.holds e truth && allHold e truth fs) = false
    rw [holds_eq_false truth hf hquiet, Bool.false_and]
  · -- the bare `OR` is in the first member
    obtain ⟨p, ps, hp⟩ := List.exists_cons_of_ne_nil hhead
    have hmem : p ∈ (f.reading e).earlier := hp ▸ List.mem_cons_self
    refine ⟨p, Disjunction.mem_conjunctions_join_left hmem _, fun truth htruth => ?_⟩
    have hquiet : ∀ a ∈ atomsOfAll e fs, truth a = false := by
      refine false_of_disjoint hnodup fun a ha => ?_
      rw [← atoms_reading hf]
      exact Disjunction.mem_atoms_of_mem_conjunctions (List.mem_append_left _ hmem) (htruth a ha)
    have hlost : allHold e truth fs = false := holds_eq_false truth (.all hne hfs) hquiet
    show (f.holds e truth && allHold e truth fs) = false
    rw [hlost, Bool.and_false]

mutual

/-- A tree that does not keep its groups has a condition with a conjunction that
is lost. -/
theorem exists_lost_conjunction : ∀ {f : Filter}, f.IsCondition → (f.atoms e).Nodup →
    f.keepsGroups = false →
    ∃ p ∈ (f.reading e).conjunctions, IsLost (fun truth => f.holds e truth) p
  | _, .field key ho, _, h => by cases h
  | _, @IsCondition.all [] hne _, _, _ => absurd rfl hne
  | _, @IsCondition.all [f] _ (.cons hf _), hnodup, h => by
    -- a single member is the whole group
    have hkeeps : (true && (f.keepsGroups && true)) = false := h
    have hatoms : (f.atoms e ++ []).Nodup := hnodup
    rw [Bool.true_and, Bool.and_true] at hkeeps
    rw [List.append_nil] at hatoms
    obtain ⟨p, hp, hlost⟩ := exists_lost_conjunction hf hatoms hkeeps
    refine ⟨p, ?_, fun truth htruth => ?_⟩
    · show p ∈ ((f.reading e).join .unit).conjunctions
      rw [Disjunction.join_unit]
      exact hp
    · show (f.holds e truth && true) = false
      rw [Bool.and_true]
      exact hlost truth htruth
  | _, @IsCondition.all (f :: g :: fs) hne (.cons hf hfs), hnodup, h => by
    -- a group without a bare `OR` would keep its members
    have hbare : anyHasBareOr (f :: g :: fs) = true := by
      by_contra hbare
      rw [Bool.not_eq_true] at hbare
      have hkeeps := keepsGroups_of_hasBareOr (.all hne (.cons hf hfs)) hbare
      rw [h] at hkeeps
      cases hkeeps
    exact exists_lost_join hf hfs (List.cons_ne_nil g fs) hnodup hbare
  | _, @IsCondition.any fs hne hfs, hnodup, h => by
    obtain ⟨p, hp, hlost⟩ := exists_lost_member hfs hnodup h
    refine ⟨p, ?_, hlost⟩
    show p ∈ (Disjunction.orElseAll (readings e fs)).conjunctions
    rw [Disjunction.conjunctions_orElseAll (readings_ne_nil hne)]
    exact hp

theorem exists_lost_member : ∀ {fs : List Filter}, AllConditions fs →
    (atomsOfAll e fs).Nodup → allKeepGroups fs = false →
    ∃ p ∈ (readings e fs).flatMap Disjunction.conjunctions,
      IsLost (fun truth => anyHolds e truth fs) p
  | _, .nil, _, h => by cases h
  | _, @AllConditions.cons f fs hf hfs, hnodup, h => by
    have hkeeps : (f.keepsGroups && allKeepGroups fs) = false := h
    have hatoms : (f.atoms e ++ atomsOfAll e fs).Nodup := hnodup
    by_cases hhead : f.keepsGroups = true
    · -- a later member is lost, and the first one is quiet
      rw [hhead, Bool.true_and] at hkeeps
      obtain ⟨p, hp, hlost⟩ := exists_lost_member hfs (List.Nodup.of_append_right hatoms) hkeeps
      refine ⟨p, List.mem_append_right _ hp, fun truth htruth => ?_⟩
      have hquiet : ∀ a ∈ f.atoms e, truth a = false := by
        refine false_of_disjoint (List.nodup_append_comm.mp hatoms) fun a ha => ?_
        obtain ⟨s, hs, hps⟩ := List.mem_flatMap.mp hp
        rw [← atoms_readings hfs]
        exact List.mem_flatMap.mpr
          ⟨s, hs, Disjunction.mem_atoms_of_mem_conjunctions hps (htruth a ha)⟩
      show (f.holds e truth || anyHolds e truth fs) = false
      rw [holds_eq_false truth hf hquiet, Bool.false_or]
      exact hlost truth htruth
    · -- the first member is lost, and the later ones are quiet
      rw [Bool.not_eq_true] at hhead
      obtain ⟨p, hp, hlost⟩ := exists_lost_conjunction hf (List.Nodup.of_append_left hatoms) hhead
      refine ⟨p, List.mem_append_left _ hp, fun truth htruth => ?_⟩
      have hquiet : ∀ a ∈ atomsOfAll e fs, truth a = false := by
        refine false_of_disjoint hatoms fun a ha => ?_
        rw [← atoms_reading hf]
        exact Disjunction.mem_atoms_of_mem_conjunctions hp (htruth a ha)
      show (f.holds e truth || anyHolds e truth fs) = false
      rw [anyHolds_eq_false truth hfs hquiet, Bool.or_false]
      exact hlost truth htruth

end

/-- **Where parentheses are missing, a tree and its condition differ**, if all
comparisons do. -/
theorem exists_holds_reading {f : Filter} (hf : f.IsCondition) (hnodup : (f.atoms e).Nodup)
    (h : f.keepsGroups = false) :
    ∃ truth, (f.reading e).holds truth = true ∧ f.holds e truth = false := by
  obtain ⟨p, hp, hlost⟩ := exists_lost_conjunction hf hnodup h
  -- the comparisons of the conjunction are true, and no others
  refine ⟨fun a => decide (a ∈ Reading.atomsOfAll p), ?_, ?_⟩
  · refine Disjunction.holds_of_mem_conjunctions _ hp (Reading.allHold_of_atoms _ fun a ha => ?_)
    exact decide_eq_true ha
  · exact hlost _ fun a ha => of_decide_eq_true ha

end Filter

/-! ## What conditions mean -/

/-- **The meaning of a condition.** The condition of a tree of non-empty groups
over comparisons can be read with precedence. Whatever the comparisons say, it
lets through what the tree does. It lets through nothing else where no `AND`
group has, among two members or more, one with a bare `OR`; and nowhere else, if
all comparisons differ. -/
theorem meaning_of_compile {e : Encoder} (hs : e.schemas.IsPlain) {f : Filter}
    (hf : f.IsCondition) (hv : ∀ v ∈ f.values, v.IsChecked) {c : Compiled}
    (h : e.compile f = .ok c) :
    ∃ text s, c = .clause text ∧ parse text = some s ∧
      (∀ truth, f.holds e truth = true → s.holds truth = true) ∧
      (f.keepsGroups = true → ∀ truth, s.holds truth = f.holds e truth) ∧
      ((f.atoms e).Nodup → f.keepsGroups = false →
        ∃ truth, s.holds truth = true ∧ f.holds e truth = false) := by
  obtain ⟨text, hc, hspells⟩ := Encoder.spells_compile hs hf hv h
  refine ⟨text, f.reading e, hc, hspells.parse, ?_, ?_, ?_⟩
  · exact fun truth => Filter.holds_reading_of_holds truth hf
  · exact fun hkeeps truth => Filter.holds_reading_of_keepsGroups truth hf hkeeps
  · exact Filter.exists_holds_reading hf

/-- Lists, patterns with quotes and connectives in them, and a checked column. -/
theorem meaning_of_compile_patterns :
    let e : Encoder := { clock := .universal }
    let f : Filter := .any
      [.all [.field "a" (.filter (.eq (.list [.int 1, .int 2]))),
          .field "b" (.filter (.like (.value (.text "x\" OR \"y"))))],
        .field "c" (.filter (.compare .gte (.value (.column "t.c"))))]
    e.schemas.IsPlain ∧ f.IsCondition ∧ (∀ v ∈ f.values, v.IsChecked) ∧
    ∃ text s, e.compile f = .ok (.clause text) ∧ parse text = some s ∧
      ∀ truth, s.holds truth = f.holds e truth := by
  intro e f
  have hs : e.schemas.IsPlain := fun _ _ h => by cases h
  have hf : f.IsCondition := by
    refine .any (List.cons_ne_nil _ _) (.cons ?_ (.cons (.field "c" (.compare _ _)) .nil))
    exact .all (List.cons_ne_nil _ _) (.cons (.field "a" (.oneOf _ (List.cons_ne_nil _ _)))
      (.cons (.field "b" (.like _)) .nil))
  have hv : ∀ v ∈ f.values, v.IsChecked := by
    simp [f, Filter.values, Filter.valuesOfAll, Operand.values, Pattern.values, Value.IsChecked]
    decide
  obtain ⟨text, s, hc, hparse, -, hmeaning, -⟩ := meaning_of_compile hs hf hv rfl
  exact ⟨hs, hf, hv, text, s, congrArg _ hc, hparse, hmeaning rfl⟩

/-- An `OR` group inside of an `AND` group falls apart: its condition holds where
the tree does not. A column reference that was never checked, and a text that is
a column registered under such a name, can even bring a connective along that
has no second operand. -/
theorem group_falls_apart :
    let e : Encoder := { clock := .universal }
    let f : Filter := .all
      [.any [.field "a" (.value (.int 1)), .field "b" (.value (.int 2))],
        .field "c" (.value (.int 3))]
    let registered : Encoder :=
      { clock := .universal, schemas := Schemas.empty.register "b OR c" [("d", .ok)] }
    (f.IsCondition ∧ e.compile f = .ok (.clause "a = 1 OR b = 2 AND c = 3") ∧
      ∃ s, parse "a = 1 OR b = 2 AND c = 3" = some s ∧
        s.holds (· == "a = 1") = true ∧ f.holds e (· == "a = 1") = false) ∧
    (e.compile (.field "a" (.value (.column "b OR c"))) = .ok (.clause "a = b OR c") ∧
      parse "a = b OR c" = none) ∧
    registered.compile (.field "a" (.value (.text "b OR c.d"))) = .ok (.clause "a = b OR c.d") ∧
      parse "a = b OR c.d" = none := by
  intro e f registered
  have hf : f.IsCondition := by
    refine .all (List.cons_ne_nil _ _) (.cons ?_ (.cons (.field "c" (.value _)) .nil))
    exact .any (List.cons_ne_nil _ _) (.cons (.field "a" (.value _))
      (.cons (.field "b" (.value _)) .nil))
  exact ⟨⟨hf, rfl, _, rfl, by decide, by decide⟩, ⟨rfl, rfl⟩, rfl, rfl⟩

end SqlBuilder
