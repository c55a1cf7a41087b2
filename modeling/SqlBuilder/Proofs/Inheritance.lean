import SqlBuilder.Config
import SqlBuilder.Proofs.Agreement

/-!
# Configured dialects

A configuration defines dialects one after the other, each on top of what is
registered by then. So the base of a definition is an earlier definition, or
the dialect that had the name before the configuration; a definition that is
based on its own name takes the dialect that it replaces.

* `Support.overlay`, `DialectDefinition.onBase` — what a definition makes of its
  base;
* `DialectDefinition.IsUsable`, `DialectDefinition.Defect` — definitions that can be
  registered, and why others cannot;
* `build_cases` — a definition is built, or has a defect;
* `Registry.standing` — the dialects that a definition can be based on;
* `Registry.Extends` — a registry extended by definitions in order, and
  `Registry.Extends.define`, by one more;
* `definitions_inherit_in_order` — what a configuration registers.
-/

namespace SqlBuilder

/-! ## Tables with entries -/

namespace Keyed

variable {α : Type}

/-- The value that was given last under a name. In a table whose names differ it is
the only one. -/
def last? (t : Keyed α) (key : String) : Option α := Keyed.get? t.reverse key

theorem get?_append (t t' : Keyed α) (key : String) :
    get? (t ++ t') key = (get? t key).or (get? t' key) := by
  induction t with
  | nil => rfl
  | cons p t ih =>
    obtain ⟨k, v⟩ := p
    rw [List.cons_append, get?_cons, get?_cons, ih]
    split <;> rfl

theorem last?_cons (k key : String) (v : α) (t : Keyed α) :
    last? ((k, v) :: t) key = (t.last? key).or (if key = k then some v else none) := by
  rw [last?, List.reverse_cons, get?_append, get?_cons]
  rfl

end Keyed

/-- The support of methods by the entries of a table, and by another support where
the table has none. -/
def Support.overlay {M : Type} (name : M → String) (entries : Keyed Bool) (under : M → Support) :
    M → Support :=
  fun m =>
    match entries.last? (name m) with
    | some b => .ofBool b
    | none => under m

/-- A first entry goes under all others. -/
theorem Support.overlay_cons {M : Type} [DecidableEq M] {name : M → String}
    (hname : ∀ m m', name m = name m' → m = m') (method : M) (b : Bool) (entries : Keyed Bool)
    (under : M → Support) :
    overlay name ((name method, b) :: entries) under
      = overlay name entries fun m => if m = method then .ofBool b else under m := by
  funext m
  have hif : (if name m = name method then some b else none)
      = if m = method then some b else none := by
    by_cases hm : m = method
    · rw [if_pos hm, if_pos (congrArg name hm)]
    · have hne : name m ≠ name method := fun h => hm (hname _ _ h)
      rw [if_neg hm, if_neg hne]
  simp only [overlay, Keyed.last?_cons, hif]
  by_cases hm : m = method
  · -- a later entry of the method wins over the first
    rw [if_pos hm, if_pos hm]
    cases entries.last? (name m) <;> rfl
  · rw [if_neg hm, if_neg hm, Option.or_none]

theorem VerbMethod.name_injective (m m' : VerbMethod) (h : m.name = m'.name) : m = m' := by
  have hfound : some m = some m' := by rw [← ofName?_name, ← ofName?_name, h]
  exact Option.some.inj hfound

theorem ClauseMethod.name_injective (m m' : ClauseMethod) (h : m.name = m'.name) : m = m' := by
  have hfound : some m = some m' := by rw [← ofName?_name, ← ofName?_name, h]
  exact Option.some.inj hfound

theorem VerbMethod.name_of_ofName? {s : String} {m : VerbMethod} (h : ofName? s = some m) :
    m.name = s := by
  simpa using List.find?_some h

theorem ClauseMethod.name_of_ofName? {s : String} {m : ClauseMethod} (h : ofName? s = some m) :
    m.name = s := by
  simpa using List.find?_some h

namespace DialectDefinition

variable {d : DialectDefinition}

/-! ## One definition -/

/-- The dialect that a definition makes of its base, if it has one: its own
entries win over those of the base, and a method without any is supported. -/
def onBase (d : DialectDefinition) (base : Option Dialect) : Dialect where
  name := d.name
  description := d.description.getD d.name
  family := d.family.getD (base.elim .standard Dialect.family)
  verbs := Support.overlay VerbMethod.name d.verbs fun m =>
    base.elim .supported fun base => base.verbs m
  clauses := Support.overlay ClauseMethod.name d.clauses fun m =>
    base.elim .supported fun base => base.clauses m

/-- Whether a definition can be registered where dialects are looked up in a
certain way: its base is there, and its entries name methods. -/
structure IsUsable (d : DialectDefinition) (find : String → Option Dialect) : Prop where
  base : ∀ name, d.basedOn = some name → (find name).isSome
  verbs : ∀ entry ∈ d.verbs, (VerbMethod.ofName? entry.1).isSome
  clauses : ∀ entry ∈ d.clauses, (ClauseMethod.ofName? entry.1).isSome

/-- Why a definition cannot be registered. -/
inductive Defect (d : DialectDefinition) (find : String → Option Dialect) : Fault → Prop
  | base {name : String} (hbase : d.basedOn = some name) (h : find name = none) :
    Defect d find (.unknownBase d.name name)
  | verb {entry : String × Bool} (hentry : entry ∈ d.verbs)
    (h : VerbMethod.ofName? entry.1 = none) : Defect d find (.unknownVerb entry.1)
  | clause {entry : String × Bool} (hentry : entry ∈ d.clauses)
    (h : ClauseMethod.ofName? entry.1 = none) : Defect d find (.unknownClause entry.1)

theorem Defect.kind {find : String → Option Dialect} {fault : Fault} (h : d.Defect find fault) :
    fault.kind = .configuration := by
  cases h <;> rfl

theorem Defect.not_isUsable {find : String → Option Dialect} {fault : Fault}
    (h : d.Defect find fault) : ¬ d.IsUsable find := by
  intro husable
  cases h with
  | base hbase h => simpa [h] using husable.base _ hbase
  | verb hentry h => simpa [h] using husable.verbs _ hentry
  | clause hentry h => simpa [h] using husable.clauses _ hentry

/-- The edits of entries lay them over one of the two tables of a dialect, which
is read by `support` and exchanged by `replace`. -/
theorem foldl_edits {M : Type} [DecidableEq M] {name : M → String}
    (hname : ∀ m m', name m = name m' → m = m') (support : Dialect → M → Support)
    (replace : Dialect → (M → Support) → Dialect) (toEdit : M → Support → Dialect.Edit)
    (hreplace : ∀ D, replace D (support D) = D)
    (hedit : ∀ D m s table, replace (D.edit (toEdit m s)) table = replace D table)
    (hsupport : ∀ D m s,
      support (D.edit (toEdit m s)) = fun m' => if m' = m then s else support D m')
    {entries : Keyed Bool} {edits : List Dialect.Edit}
    (h : List.Forall₂ (fun entry e => ∃ m, name m = entry.1 ∧ e = toEdit m (.ofBool entry.2))
      entries edits) (D : Dialect) :
    edits.foldl Dialect.edit D = replace D (Support.overlay name entries (support D)) := by
  -- the first edit ends up under all later ones
  induction h generalizing D with
  | nil => exact (hreplace D).symm
  | @cons entry e entries edits hread _ ih =>
    obtain ⟨key, b⟩ := entry
    obtain ⟨m, rfl, rfl⟩ := hread
    rw [List.foldl_cons, ih, hedit, hsupport, Support.overlay_cons hname]

theorem verbEdit_ok {entry : String × Bool} {e : Dialect.Edit} (h : verbEdit entry = .ok e) :
    (VerbMethod.ofName? entry.1).isSome ∧
      ∃ m : VerbMethod, m.name = entry.1 ∧ e = .verb m (.ofBool entry.2) := by
  unfold verbEdit at h
  split at h
  · next m hmethod =>
    have hname := VerbMethod.name_of_ofName? hmethod
    exact ⟨by simp [hmethod], m, hname, (Except.ok.inj h).symm⟩
  · cases h

theorem clauseEdit_ok {entry : String × Bool} {e : Dialect.Edit} (h : clauseEdit entry = .ok e) :
    (ClauseMethod.ofName? entry.1).isSome ∧
      ∃ m : ClauseMethod, m.name = entry.1 ∧ e = .clause m (.ofBool entry.2) := by
  unfold clauseEdit at h
  split at h
  · next m hmethod =>
    have hname := ClauseMethod.name_of_ofName? hmethod
    exact ⟨by simp [hmethod], m, hname, (Except.ok.inj h).symm⟩
  · cases h

theorem baseEdits_ok {r : Registry} {edits : List Dialect.Edit} (h : d.baseEdits r = .ok edits) :
    edits = ((d.basedOn.bind r.get?).map .basedOn).toList ∧
      ∀ name, d.basedOn = some name → (r.get? name).isSome := by
  unfold baseEdits at h
  cases hbase : d.basedOn with
  | none =>
    simp only [hbase] at h
    obtain rfl := Except.ok.inj h
    exact ⟨rfl, fun _ hname => by cases hname⟩
  | some name =>
    cases hfound : r.get? name with
    | none =>
      simp only [hbase, hfound] at h
      cases h
    | some base =>
      simp only [hbase, hfound] at h
      obtain rfl := Except.ok.inj h
      refine ⟨by simp [hfound], fun name' hname => ?_⟩
      obtain rfl := Option.some.inj hname
      simp [hfound]

/-- A definition that is built is usable, and its dialect is what it makes of its
base. -/
theorem build_ok {r : Registry} {D : Dialect} (h : d.build r = .ok D) :
    d.IsUsable r.get? ∧ D = d.onBase (d.basedOn.bind r.get?) := by
  obtain ⟨edits, hedits, hD⟩ := ok_of_bind h
  obtain ⟨base, hbase, hrest⟩ := ok_of_bind hedits
  obtain ⟨verbs, hverbs, hrest⟩ := ok_of_bind hrest
  obtain ⟨clauses, hclauses, hall⟩ := ok_of_bind hrest
  obtain rfl := Except.ok.inj hall
  obtain rfl := Except.ok.inj hD
  obtain ⟨rfl, hfound⟩ := baseEdits_ok hbase
  -- every entry was read, and what was read is an edit with its method
  obtain ⟨hknownVerbs, hreadVerbs⟩ := (List.forall₂_and_left _ _).mp
    ((forall₂_of_mapM hverbs).imp fun _ _ => verbEdit_ok)
  obtain ⟨hknownClauses, hreadClauses⟩ := (List.forall₂_and_left _ _).mp
    ((forall₂_of_mapM hclauses).imp fun _ _ => clauseEdit_ok)
  refine ⟨⟨hfound, hknownVerbs, hknownClauses⟩, ?_⟩
  -- the edits of the verbs do not touch the clauses, nor the other way round
  rw [Dialect.define, List.foldl_append, List.foldl_append,
    foldl_edits VerbMethod.name_injective Dialect.verbs (fun D table => { D with verbs := table })
      .verb (fun _ => rfl) (fun _ _ _ _ => rfl) (fun _ _ _ => rfl) hreadVerbs,
    foldl_edits ClauseMethod.name_injective Dialect.clauses
      (fun D table => { D with clauses := table }) .clause (fun _ => rfl) (fun _ _ _ _ => rfl)
      (fun _ _ _ => rfl) hreadClauses, onBase]
  cases d.description <;> cases d.family <;> cases d.basedOn.bind r.get? <;> rfl

/-- A definition that is not built has a defect, which its fault tells. -/
theorem build_error {r : Registry} {fault : Fault} (h : d.build r = .error fault) :
    d.Defect r.get? fault := by
  -- the edits are read in the order base, verbs, clauses, up to the first that fails
  rcases error_of_bind h with hedits | ⟨edits, -, hdefine⟩
  swap
  · cases hdefine
  rcases error_of_bind hedits with hbase | ⟨base, -, hrest⟩
  · unfold baseEdits at hbase
    split at hbase
    · cases hbase
    · next name hname =>
      split at hbase
      · cases hbase
      · next hfound =>
        obtain rfl := Except.error.inj hbase
        exact .base hname hfound
  rcases error_of_bind hrest with hverbs | ⟨verbs, -, hrest⟩
  · obtain ⟨entry, hentry, hedit⟩ := error_of_mapM hverbs
    unfold verbEdit at hedit
    split at hedit
    · cases hedit
    · next hunknown =>
      obtain rfl := Except.error.inj hedit
      exact .verb hentry hunknown
  rcases error_of_bind hrest with hclauses | ⟨clauses, -, hall⟩
  · obtain ⟨entry, hentry, hedit⟩ := error_of_mapM hclauses
    unfold clauseEdit at hedit
    split at hedit
    · cases hedit
    · next hunknown =>
      obtain rfl := Except.error.inj hedit
      exact .clause hentry hunknown
  · cases hall

end DialectDefinition

/-! ## Definitions in order -/

namespace Registry

variable {r r' : Registry} {done : List DialectDefinition} {d : DialectDefinition} {D : Dialect}

theorem get?_define (r : Registry) (D : Dialect) (name : String) :
    (r.define D).get? name = if name = D.name then some D else r.get? name :=
  Keyed.get?_put r.dialects D.name name D

theorem names_define (r : Registry) (D : Dialect) :
    (r.define D).names = if D.name ∈ r.names then r.names else r.names ++ [D.name] :=
  Keyed.keys_put r.dialects D.name D

/-- The dialects on which a definition can be based that comes right behind some
others: what these define, and what a registry had under other names. -/
def standing (r r' : Registry) (before : List DialectDefinition) (name : String) :
    Option Dialect :=
  if name ∈ before.map DialectDefinition.name then r'.get? name else r.get? name

/-- A registry is another one extended by definitions in order. New names are at
the end, other names have their dialects, and each definition can be used and is
there as what it makes of its base, where it stood. -/
structure Extends (r : Registry) (done : List DialectDefinition) (r' : Registry) : Prop where
  names : r'.names = r.names ++ (done.map DialectDefinition.name).filter (· ∉ r.names)
  others : ∀ name, name ∉ done.map DialectDefinition.name → r'.get? name = r.get? name
  defined : ∀ before d after, done = before ++ d :: after →
    d.IsUsable (r.standing r' before) ∧
      r'.get? d.name = some (d.onBase (d.basedOn.bind (r.standing r' before)))

theorem Extends.refl (r : Registry) : r.Extends [] r where
  names := by simp
  others := fun _ _ => rfl
  defined := fun before d after h => by simp at h

/-- Behind all definitions so far stands what is registered by then. -/
theorem Extends.standing_eq (h : r.Extends done r') : r.standing r' done = r'.get? := by
  funext name
  unfold standing
  split
  · rfl
  · next hname => exact (h.others name hname).symm

/-- **One more definition.** -/
theorem Extends.define (h : r.Extends done r') (hnew : d.name ∉ done.map DialectDefinition.name)
    (hbuild : d.build r' = .ok D) : r.Extends (done ++ [d]) (r'.define D) := by
  obtain ⟨husable, honBase⟩ := DialectDefinition.build_ok hbuild
  have hname : D.name = d.name := by rw [honBase]; rfl
  have hother : ∀ name, name ≠ d.name → (r'.define D).get? name = r'.get? name := by
    intro name hne
    rw [get?_define, hname, if_neg hne]
  -- the dialects before an earlier definition do not have the new name
  have hstanding : ∀ before, (∀ name ∈ before.map DialectDefinition.name, name ≠ d.name) →
      r.standing (r'.define D) before = r.standing r' before := by
    intro before hbefore
    funext name
    unfold standing
    split
    · next hmem => exact hother name (hbefore name hmem)
    · rfl
  have hdone : ∀ name ∈ done.map DialectDefinition.name, name ≠ d.name := by
    intro name hmem heq
    exact hnew (heq ▸ hmem)
  refine ⟨?_, fun name hmem => ?_, fun before d₀ after hsplit => ?_⟩
  · -- the name is new behind the definitions if it was new before them
    have hmem : d.name ∈ r'.names ↔ d.name ∈ r.names := by
      rw [h.names, List.mem_append, List.mem_filter]
      exact or_iff_left fun hfiltered => hnew hfiltered.1
    rw [names_define, hname, List.map_append, List.filter_append, ← List.append_assoc, ← h.names]
    by_cases hold : d.name ∈ r.names
    · simp [hmem, hold]
    · simp [hmem, hold]
  · rw [List.map_append, List.mem_append, not_or] at hmem
    have hne : name ≠ d.name := by
      intro heq
      exact hmem.2 (by simp [heq])
    rw [hother name hne, h.others name hmem.1]
  · rcases List.eq_nil_or_concat after with rfl | ⟨after', last, rfl⟩
    · -- the new definition itself
      obtain ⟨rfl, hd⟩ := List.append_inj' hsplit rfl
      obtain rfl : d = d₀ := (List.cons.inj hd).1
      rw [hstanding done hdone, h.standing_eq]
      refine ⟨husable, ?_⟩
      rw [get?_define, hname, if_pos rfl, ← honBase]
    · -- an earlier one, which keeps its dialect and its base
      have hsplit' : done = before ++ d₀ :: after' := by
        rw [List.concat_eq_append, ← List.cons_append, ← List.append_assoc] at hsplit
        exact (List.append_inj' hsplit rfl).1
      have hbefore : ∀ name ∈ before.map DialectDefinition.name, name ≠ d.name := by
        intro name hmem
        refine hdone name ?_
        rw [hsplit', List.map_append]
        exact List.mem_append_left _ hmem
      have hd₀ : d₀.name ≠ d.name := by
        refine hdone d₀.name (List.mem_map_of_mem ?_)
        rw [hsplit']
        exact List.mem_append_right _ List.mem_cons_self
      rw [hstanding before hbefore, hother d₀.name hd₀]
      exact h.defined before d₀ after' hsplit'

end Registry

namespace Config

variable {r r' : Registry} {done rest : List DialectDefinition}

/-- **All definitions are registered, or all up to one with a defect.** -/
theorem registerAll_cases (h : r.Extends done r')
    (hnodup : ((done ++ rest).map DialectDefinition.name).Nodup) :
    (∃ r'', registerAll r' rest = (r'', .ok ()) ∧ r.Extends (done ++ rest) r'') ∨
      ∃ before d after r'' fault, rest = before ++ d :: after ∧
        registerAll r' rest = (r'', .error fault) ∧ registerAll r' before = (r'', .ok ()) ∧
        r.Extends (done ++ before) r'' ∧ d.Defect r''.get? fault := by
  -- `done` has what is registered already, and each definition moves over to it
  induction rest generalizing done r' with
  | nil => exact .inl ⟨r', rfl, by rwa [List.append_nil]⟩
  | cons d rest ih =>
    cases hbuild : d.build r' with
    | error fault =>
      refine .inr ⟨[], d, rest, r', fault, rfl, ?_, rfl, by rwa [List.append_nil],
        DialectDefinition.build_error hbuild⟩
      rw [registerAll, hbuild]
    | ok D =>
      have hnew : d.name ∉ done.map DialectDefinition.name := by
        rw [List.map_append, List.nodup_append] at hnodup
        intro hmem
        exact hnodup.2.2 _ hmem _ List.mem_cons_self rfl
      have hone : ∀ defs, registerAll r' (d :: defs) = registerAll (r'.define D) defs := by
        intro defs
        rw [registerAll, hbuild]
      have hassoc : ∀ defs, done ++ d :: defs = done ++ [d] ++ defs := by simp
      rw [hassoc] at hnodup
      rcases ih (h.define hnew hbuild) hnodup with ⟨r'', hall, hextends⟩ |
        ⟨before, d', after, r'', fault, rfl, hall, hbefore, hextends, hdefect⟩
      · refine .inl ⟨r'', ?_, ?_⟩
        · rw [hone, hall]
        · rw [hassoc]
          exact hextends
      · refine .inr ⟨d :: before, d', after, r'', fault, rfl, ?_, ?_, ?_, hdefect⟩
        · rw [hone, hall]
        · rw [hone, hbefore]
        · rw [hassoc]
          exact hextends

/-- Names that pass the check differ from each other and from those seen before. -/
theorem nodup_of_checkNames {seen : List String} (h : checkNames seen rest = .ok ()) :
    (rest.map DialectDefinition.name).Nodup ∧ ∀ d ∈ rest, d.name ∉ seen := by
  -- what was seen grows by the name of each definition
  induction rest generalizing seen with
  | nil => exact ⟨List.nodup_nil, fun _ hd => absurd hd List.not_mem_nil⟩
  | cons d rest ih =>
    unfold checkNames at h
    split at h
    · cases h
    · split at h
      · cases h
      · next hseen =>
        obtain ⟨hnodup, hrest⟩ := ih h
        refine ⟨List.nodup_cons.mpr ⟨?_, hnodup⟩, List.forall_mem_cons.mpr ⟨?_, ?_⟩⟩
        · intro hmem
          obtain ⟨d', hd', heq⟩ := List.mem_map.mp hmem
          exact hrest d' hd' (heq ▸ List.mem_cons_self)
        · simpa using hseen
        · intro d' hd' hmem
          exact hrest d' hd' (List.mem_cons_of_mem _ hmem)

theorem nodup_of_validate {c : Config} (h : c.validate = .ok ()) :
    (c.dialects.map DialectDefinition.name).Nodup := by
  unfold validate at h
  split at h
  · cases h
  · exact (nodup_of_checkNames h).1

/-- **Configured dialects inherit in order.** If the definitions of a validated
configuration are all registered, the registry is extended by them: a method has
its own entry, else that of the base as it stood behind the definitions before,
else it is supported; likewise the family and the description. Otherwise one of
them is the first that cannot be used, and its fault says why; the registry is
what the definitions before it make of it. -/
theorem definitions_inherit_in_order {c : Config} (hc : c.validate = .ok ()) (r : Registry) :
    ((c.register r).2 = .ok () → r.Extends c.dialects (c.register r).1) ∧
    ∀ fault, (c.register r).2 = .error fault →
      fault.kind = .configuration ∧
      ∃ before d after, c.dialects = before ++ d :: after ∧
        register { c with dialects := before } r = ((c.register r).1, .ok ()) ∧
        r.Extends before (c.register r).1 ∧ d.Defect (c.register r).1.get? fault := by
  have hnodup : (([] ++ c.dialects).map DialectDefinition.name).Nodup := nodup_of_validate hc
  rcases registerAll_cases (.refl r) hnodup with ⟨r', hall, hextends⟩ |
    ⟨before, d, after, r', fault, hsplit, hall, hbefore, hextends, hdefect⟩
  · refine ⟨fun _ => ?_, fun fault hfault => ?_⟩
    · rw [register, hall]
      exact hextends
    · rw [register, hall] at hfault
      cases hfault
  · refine ⟨fun hok => ?_, fun fault' hfault => ?_⟩
    · rw [register, hall] at hok
      cases hok
    · rw [register, hall] at hfault
      obtain rfl := Except.error.inj hfault
      refine ⟨hdefect.kind, before, d, after, hsplit, ?_, ?_, ?_⟩
      · rw [register, register, hall, hbefore]
      · rw [register, hall]
        exact hextends
      · rw [register, hall]
        exact hdefect

/-- A definition that replaces the dialect on which it is based, and another on top of
it, which still pages as the replaced dialect did; and the same with a definition
in between that has no base. -/
theorem definitions_inherit_in_order_chained :
    let replacing : DialectDefinition :=
      { name := "PostgreSQL92", basedOn := some "PostgreSQL92", verbs := [("replace", true)] }
    let stray : DialectDefinition := { name := "Stray", basedOn := some "Missing" }
    let chained : DialectDefinition :=
      { name := "Chained", basedOn := some "PostgreSQL92", clauses := [("into", false)] }
    let c : Config := { dialects := [replacing, chained] }
    let broken : Config := { dialects := [replacing, stray, chained] }
    let r := (c.register .builtIn).1
    (c.validate = .ok () ∧ (c.register .builtIn).2 = .ok () ∧
      r.names = Registry.builtIn.names ++ ["Chained"] ∧
      ∃ D, r.get? "Chained" = some D ∧ D.family = .postgresql ∧
        D.clauses .limit = .custom Dialect.pagingOverride ∧ D.verbs .replace = .supported ∧
        D.clauses .intoTargets = .unsupported) ∧
    broken.validate = .ok () ∧
      (broken.register .builtIn).2 = .error (.unknownBase "Stray" "Missing") ∧
      ∃ before d after, broken.dialects = before ++ d :: after ∧
        Registry.builtIn.Extends before (broken.register .builtIn).1 ∧
        ¬ d.IsUsable (broken.register .builtIn).1.get? := by
  intro replacing stray chained c broken r
  have hvalid : c.validate = .ok () := by
    unfold c replacing chained
    rfl
  have hstray : broken.validate = .ok () := by
    unfold broken replacing stray chained
    rfl
  have hok : (c.register .builtIn).2 = .ok () := rfl
  have hfault : (broken.register .builtIn).2 = .error (.unknownBase "Stray" "Missing") := rfl
  have hextends := (definitions_inherit_in_order hvalid .builtIn).1 hok
  obtain ⟨-, before, d, after, hsplit, -, hbefore, hdefect⟩ :=
    (definitions_inherit_in_order hstray .builtIn).2 _ hfault
  obtain ⟨-, hchained⟩ := hextends.defined [replacing] chained [] rfl
  refine ⟨⟨hvalid, hok, hextends.names, _, hchained, rfl, rfl, rfl, rfl⟩, hstray, hfault,
    before, d, after, hsplit, hbefore, hdefect.not_isUsable⟩

end Config

end SqlBuilder
