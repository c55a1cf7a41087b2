import SqlBuilder.Proofs.Slots

/-!
# Assignments in batches

In an update, assignments can be made in one call or in several. A call checks
its pairs one after the other under the settings and the name of the table, and
no assignment changes these. So the calls of a batch read what they would read
in one call, each adds its texts behind those that are there, and the first
fault is the one that the single call would report.

* `Settings.AssignedAs` — what a pair adds to an update;
* `Builder.added`, `Builder.extend` — what an assignment adds, and adding it;
* `AssignsColumns.perform_eq` — an assignment adds, or is rejected and changes
  nothing;
* `added_append`, `added_extend` — the pairs of two calls, and of a later call;
* `Builder.performAll` — calls one after the other, up to the first rejected;
* `AssignsColumns.perform_append`, `AssignsColumns.performAll_batches` — two
  calls, and any number of them;
* `assignments_concatenate` — one call, two calls and a call for each pair.
-/

namespace SqlBuilder

namespace Settings

variable {s : Settings}

/-- What a pair adds to the assignments of an update: its name, with a function
call as it stands, or with the literal of what the validator of the column
makes of the value. -/
structure AssignedAs (s : Settings) (table : String) (p : String × Value)
    (q : String × String) : Prop where
  name : q.1 = p.1
  text : callText? p.2 = some q.2 ∨
    callText? p.2 = none ∧ s.literalFor (some table) p.1 p.2 = .ok q.2

/-- The pairs of two lists are assigned one list after the other. An empty list
is refused on its own, and so neither may be empty. -/
theorem assignments_append {xs ys : List (String × Value)} (hxs : xs ≠ []) (hys : ys ≠ [])
    (table : Option String) :
    s.assignments table (xs ++ ys) = do
      let us ← s.assignments table xs
      let vs ← s.assignments table ys
      return us ++ vs := by
  simp [assignments, hxs, hys, List.mapM_append]

end Settings

namespace Builder

variable {b : Builder} {xs ys : List (String × Value)}

/-! ## What an assignment adds -/

/-- The texts that an assignment adds to an update. -/
def added (b : Builder) (pairs : List (String × Value)) :
    Except Fault (List (String × String)) := do
  b.gate (.set pairs)
  b.settings.assignments (some b.statement.name) pairs

/-- The builder with assignments behind those that are there. -/
def extend (b : Builder) (values : List (String × String)) : Builder :=
  { b with statement := { b.statement with values := b.statement.values ++ values } }

theorem extend_extend (b : Builder) (us vs : List (String × String)) :
    (b.extend us).extend vs = b.extend (us ++ vs) := by
  simp [extend, List.append_assoc]

/-- An assignment reads nothing that an earlier one has written. -/
theorem added_extend (b : Builder) (us : List (String × String)) (pairs : List (String × Value)) :
    (b.extend us).added pairs = b.added pairs := rfl

/-- The dialect lets an assignment through whatever its pairs are, and they are
checked from left to right. -/
theorem added_append (hxs : xs ≠ []) (hys : ys ≠ []) :
    b.added (xs ++ ys) = do
      let us ← b.added xs
      let vs ← b.added ys
      return us ++ vs := by
  have hgate : ∀ pairs, b.gate (.set pairs) = b.gate (.set []) := fun _ => rfl
  unfold added
  rw [hgate, hgate xs, hgate ys, Settings.assignments_append hxs hys]
  -- a dialect that refuses the first call refuses the single one
  cases b.gate (.set []) <;> rfl

/-- What an accepted assignment adds, pair by pair. -/
theorem forall₂_of_added {us : List (String × String)} (h : b.added xs = .ok us) :
    List.Forall₂ (b.settings.AssignedAs b.statement.name) xs us := by
  obtain ⟨-, -, hassigned⟩ := ok_of_bind h
  refine (Settings.assignments_ok hassigned).2.imp fun p q hpair => ?_
  obtain ⟨hname, -, htext⟩ := Settings.assignment_ok hpair
  exact ⟨hname, htext⟩

/-- Whether assignments to columns are left to the built-in method. -/
structure AssignsColumns (b : Builder) : Prop where
  inUpdate : b.inUpdate = true
  entry : ∀ o, b.settings.dialect.clauses .set ≠ .custom o

namespace AssignsColumns

/-- The dialect and the verb outlive an assignment. -/
theorem extend (h : b.AssignsColumns) (us : List (String × String)) :
    (b.extend us).AssignsColumns := ⟨h.inUpdate, h.entry⟩

/-- **An assignment adds its texts, or is rejected and changes nothing.** -/
theorem perform_eq (h : b.AssignsColumns) (pairs : List (String × Value)) :
    b.perform (.set pairs) = b.settle (do let values ← b.added pairs; return b.extend values) := by
  have hnone : b.PagesAtMost (.set pairs) := by
    intro override hoverride
    rw [Builder.entry, if_pos h.inUpdate] at hoverride
    exact absurd hoverride (h.entry override)
  rw [perform_eq_settle_of_pagesAtMost hnone, builtIn, if_pos h.inUpdate]
  unfold added assignColumns Settings.assignColumns
  cases b.gate (.set pairs) with
  | error fault => rfl
  | ok _ => cases b.settings.assignments (some b.statement.name) pairs <;> rfl

theorem perform_of_ok (h : b.AssignsColumns) {us : List (String × String)}
    (hus : b.added xs = .ok us) : b.perform (.set xs) = (b.extend us, .ok ()) := by
  rw [h.perform_eq, hus]
  rfl

theorem perform_of_error (h : b.AssignsColumns) {fault : Fault} (hxs : b.added xs = .error fault) :
    b.perform (.set xs) = (b, .error fault) := by
  rw [h.perform_eq, hxs]
  rfl

end AssignsColumns

/-! ## Calls one after the other -/

/-- Calls one after the other, up to the first that is rejected. -/
def performAll (b : Builder) : List (Call Builder) → Outcome
  | [] => (b, .ok ())
  | c :: cs =>
    match b.perform c with
    | (after, .ok _) => after.performAll cs
    | (after, .error fault) => (after, .error fault)

theorem performAll_cons_of_ok {c : Call Builder} {after : Builder}
    (h : b.perform c = (after, .ok ())) (cs : List (Call Builder)) :
    b.performAll (c :: cs) = after.performAll cs := by
  rw [performAll, h]

theorem performAll_cons_of_error {c : Call Builder} {after : Builder} {fault : Fault}
    (h : b.perform c = (after, .error fault)) (cs : List (Call Builder)) :
    b.performAll (c :: cs) = (after, .error fault) := by
  rw [performAll, h]

theorem performAll_singleton (b : Builder) (c : Call Builder) :
    b.performAll [c] = b.perform c := by
  cases h : b.perform c with
  | mk after result =>
    cases result with
    | ok _ => rw [performAll_cons_of_ok h, performAll]
    | error fault => rw [performAll_cons_of_error h]

/-! ## Batches -/

namespace AssignsColumns

/-- After the first of two assignments, the second brings about what one
assignment of both would have. -/
theorem perform_append (h : b.AssignsColumns) (hxs : xs ≠ []) (hys : ys ≠ [])
    {us : List (String × String)} (hus : b.added xs = .ok us) :
    Outcome.Matches (b.perform (.set (xs ++ ys))) ((b.extend us).perform (.set ys)) := by
  have hwhole : b.added (xs ++ ys) = do let vs ← b.added ys; return us ++ vs := by
    rw [added_append hxs hys, hus]
    rfl
  rw [(h.extend us).perform_eq, added_extend, h.perform_eq, hwhole]
  cases b.added ys with
  | error fault =>
    -- the first call has left its texts behind, but the fault is the same
    exact ⟨rfl, nofun⟩
  | ok vs => exact ⟨rfl, fun _ => extend_extend b us vs⟩

/-- What is wrong with the first of two assignments is wrong with one of both. -/
theorem perform_append_of_error (h : b.AssignsColumns) (hxs : xs ≠ []) (hys : ys ≠ [])
    {fault : Fault} (hfault : b.added xs = .error fault) :
    b.perform (.set (xs ++ ys)) = (b, .error fault) := by
  refine h.perform_of_error ?_
  rw [added_append hxs hys, hfault]
  rfl

/-- **Assignments in batches.** Any number of calls do what one call does. -/
theorem performAll_batches (h : b.AssignsColumns) {batches : List (List (String × Value))}
    (hne : batches ≠ []) (hbatches : ∀ pairs ∈ batches, pairs ≠ []) :
    Outcome.Matches (b.perform (.set batches.flatten)) (b.performAll (batches.map .set)) := by
  -- on the batches: the first call, and the others from the builder that it leaves
  induction batches generalizing b with
  | nil => exact absurd rfl hne
  | cons pairs batches ih =>
    obtain ⟨hpairs, hrest⟩ := List.forall_mem_cons.mp hbatches
    cases batches with
    | nil =>
      rw [List.map_singleton, List.flatten_singleton, performAll_singleton]
      exact .refl _
    | cons next batches =>
      have hnext : (next :: batches).flatten ≠ [] := by
        simp [hrest next List.mem_cons_self]
      rw [List.map_cons, List.flatten_cons]
      cases hadded : b.added pairs with
      | error fault =>
        -- no later call is made
        rw [performAll_cons_of_error (h.perform_of_error hadded),
          h.perform_append_of_error hpairs hnext hadded]
        exact .refl _
      | ok us =>
        rw [performAll_cons_of_ok (h.perform_of_ok hadded)]
        have hlater := ih (h.extend us) (List.cons_ne_nil next batches) hrest
        exact (h.perform_append hpairs hnext hadded).trans hlater

/-- A call for each pair does what one call does. -/
theorem performAll_singles (h : b.AssignsColumns) (hxs : xs ≠ []) :
    Outcome.Matches (b.perform (.set xs)) (b.performAll (xs.map fun p => .set [p])) := by
  have hne : xs.map (fun p => [p]) ≠ [] := by simpa using hxs
  have hpairs : ∀ pairs ∈ xs.map (fun p => [p]), pairs ≠ [] := by
    intro pairs hmem
    obtain ⟨p, -, rfl⟩ := List.mem_map.mp hmem
    exact List.cons_ne_nil p []
  have hflatten : (xs.map fun p => [p]).flatten = xs := by
    rw [← List.flatMap_def, List.flatMap_singleton']
  have hbatches := h.performAll_batches hne hpairs
  rw [List.map_map, hflatten] at hbatches
  exact hbatches

end AssignsColumns

/-- **The assignments of an update concatenate**, unless the dialect overrides
them. One call is accepted where the two calls of its parts are, with the
builder that the two leave: the texts of the first part and then of the second
stand behind those that were there. Where it is rejected, the two calls stop at
the same fault. And a call for each pair, in order, has the result of the single
call, and ends in the same text. -/
theorem assignments_concatenate {b : Builder} (hupdate : b.statement.verb = some .update)
    (hentry : ∀ o, b.settings.dialect.clauses .set ≠ .custom o)
    {xs ys : List (String × Value)} (hxs : xs ≠ []) (hys : ys ≠ []) :
    let whole := b.perform (.set (xs ++ ys))
    let first := b.perform (.set xs)
    let second := first.1.perform (.set ys)
    let singles := b.performAll ((xs ++ ys).map fun p => .set [p])
    (whole.2 = .ok () ↔ first.2 = .ok () ∧ second.2 = .ok ()) ∧
    (whole.2 = .ok () → whole.1 = second.1 ∧
      ∃ us vs, List.Forall₂ (b.settings.AssignedAs b.statement.name) xs us ∧
        List.Forall₂ (b.settings.AssignedAs b.statement.name) ys vs ∧
        second.1 = { b with statement := { b.statement with
          values := b.statement.values ++ us ++ vs } }) ∧
    (∀ fault, whole.2 = .error fault →
      first.2 = .error fault ∨ first.2 = .ok () ∧ second.2 = .error fault) ∧
    singles.2 = whole.2 ∧
    (whole.2 = .ok () → singles.1 = whole.1 ∧
      ∀ terminator, singles.1.renderWith terminator = whole.1.renderWith terminator) := by
  intro whole first second singles
  have h : b.AssignsColumns := ⟨by simpa [inUpdate] using hupdate, hentry⟩
  have hsingles : Outcome.Matches whole singles := h.performAll_singles (by simp [hxs])
  have hrendered : whole.2 = .ok () → singles.1 = whole.1 ∧
      ∀ terminator, singles.1.renderWith terminator = whole.1.renderWith terminator := by
    intro hok
    have hsame := hsingles.builder hok
    exact ⟨hsame, fun terminator => by rw [hsame]⟩
  -- what is wrong with the first part is wrong with both
  cases hadded : b.added xs with
  | error fault =>
    have hfirst : first = (b, .error fault) := h.perform_of_error hadded
    have hwhole : whole = (b, .error fault) := h.perform_append_of_error hxs hys hadded
    refine ⟨?_, ?_, ?_, hsingles.result, hrendered⟩
    · simp [hwhole, hfirst]
    · rw [hwhole]
      exact nofun
    · intro fault' hfault'
      rw [hwhole] at hfault'
      rw [hfirst]
      exact .inl hfault'
  | ok us =>
    have hfirst : first = (b.extend us, .ok ()) := h.perform_of_ok hadded
    have hresult : first.2 = .ok () := by rw [hfirst]
    have hsecond : second = (b.extend us).perform (.set ys) := by
      show first.1.perform (.set ys) = _
      rw [hfirst]
    have hboth : Outcome.Matches whole second := hsecond ▸ h.perform_append hxs hys hadded
    refine ⟨?_, ?_, ?_, hsingles.result, hrendered⟩
    · exact ⟨fun hok => ⟨hresult, hboth.result.trans hok⟩,
        fun hoks => hboth.result.symm.trans hoks.2⟩
    · intro hok
      refine ⟨(hboth.builder hok).symm, ?_⟩
      have haccepted : second.2 = .ok () := hboth.result.trans hok
      -- the second call has been accepted from the builder that the first left
      rw [hsecond] at haccepted ⊢
      cases hlater : b.added ys with
      | error fault =>
        rw [(h.extend us).perform_of_error hlater] at haccepted
        cases haccepted
      | ok vs =>
        rw [(h.extend us).perform_of_ok hlater]
        exact ⟨us, vs, forall₂_of_added hadded, forall₂_of_added hlater, rfl⟩
    · intro fault hfault
      exact .inr ⟨hresult, hboth.result.trans hfault⟩

/-- An update whose column has a validator: a function call and a checked value,
then a text that looks like an assignment and an absent value. A later pair that
is no name is the one that both ways report. -/
theorem assignments_concatenate_checked :
    let negated : Validator := fun v =>
      match v with
      | .int n => .ok (.int (-n))
      | _ => .error (.other .malformed "no number")
    let b := (Builder.ofDialect .mysql55 .universal).run [.register "t" [("a", negated)],
      .call (.verb (.update "t")), .call (.set [("a", .int 1)])]
    let xs : List (String × Value) := [("b", .text "NOW()"), ("a", .int 2)]
    let ys : List (String × Value) := [("c", .text "x, d = 1"), ("t.e", .null)]
    let bad : List (String × Value) := [("c", .null), ("d e", .null), ("a", .null)]
    b.statement.verb = some .update ∧
      (b.performAll ((xs ++ ys).map fun p => .set [p])).1 = (b.perform (.set (xs ++ ys))).1 ∧
      (b.perform (.set (xs ++ ys))).1.statement.values = [("a", "-1"), ("b", "NOW()"),
        ("a", "-2"), ("c", "\"x, d = 1\""), ("t.e", "NULL")] ∧
      (b.perform (.set (xs ++ bad))).2 = .error (.unsafeText "d e") ∧
      ((b.perform (.set xs)).1.perform (.set bad)).2 = .error (.unsafeText "d e") := by
  intro negated b xs ys bad
  have hverb : b.statement.verb = some .update := rfl
  have hentry : ∀ o, b.settings.dialect.clauses .set ≠ .custom o := nofun
  have hok : (b.perform (.set (xs ++ ys))).2 = .ok () := rfl
  have hbad : (b.perform (.set (xs ++ bad))).2 = .error (.unsafeText "d e") := rfl
  have hxs : xs ≠ [] := List.cons_ne_nil _ _
  have hys : ys ≠ [] := List.cons_ne_nil _ _
  have hbad_ne : bad ≠ [] := List.cons_ne_nil _ _
  have hgood := assignments_concatenate hverb hentry hxs hys
  have hfault := assignments_concatenate hverb hentry hxs hbad_ne
  have hsingles := (hgood.2.2.2.2 hok).1
  refine ⟨hverb, hsingles, rfl, hbad, ?_⟩
  -- the first call is accepted, and so the second is the one that fails
  rcases hfault.2.2.1 _ hbad with hfirst | ⟨-, hsecond⟩
  · cases hfirst
  · exact hsecond

end Builder

end SqlBuilder
