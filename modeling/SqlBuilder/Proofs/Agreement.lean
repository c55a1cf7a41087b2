import Mathlib.Data.List.Forall2
import SqlBuilder.Fault

/-!
# Results that agree

Two results agree when both are there and stand in a relation, or both are
faults of one kind. The rules here follow the two results through a `do` block
and through a list, so that what two calls make of related arguments is argued
side by side.

* `ok_of_bind`, `error_of_bind` — what became of the halves of a sequence;
* `forall₂_of_mapM`, `mapM_eq_error_iff` — what became of the items of a list;
* `Agree.bind`, `Agree.mapM` — sequences and lists of two results;
* `Agree.refl` — one result agrees with itself where it stands in the relation
  to itself.
-/

namespace SqlBuilder

/-- A sequence that gives a result went through both of its halves. -/
theorem ok_of_bind {α β : Type} {x : Except Fault α} {f : α → Except Fault β} {b : β}
    (h : x >>= f = .ok b) : ∃ a, x = .ok a ∧ f a = .ok b := by
  cases x with
  | ok a => exact ⟨a, rfl, h⟩
  | error fault => cases h

/-- A sequence that fails went wrong in one of its halves. -/
theorem error_of_bind {α β : Type} {x : Except Fault α} {f : α → Except Fault β} {fault : Fault}
    (h : x >>= f = .error fault) :
    x = .error fault ∨ ∃ a, x = .ok a ∧ f a = .error fault := by
  cases x with
  | ok a => exact .inr ⟨a, rfl, h⟩
  | error fault' =>
    obtain rfl := Except.error.inj h
    exact .inl rfl

/-- What is made of a result has no faults of its own. -/
theorem bind_ok_eq_error_iff {α β : Type} {x : Except Fault α} {f : α → β} {fault : Fault} :
    (do let a ← x; return f a) = Except.error fault ↔ x = .error fault := by
  constructor
  · intro h
    rcases error_of_bind h with hx | ⟨a, -, hmade⟩
    · exact hx
    · cases hmade
  · rintro rfl
    rfl

theorem ok_of_toOption {α : Type} {x : Except Fault α} {a : α} (h : x.toOption = some a) :
    x = .ok a := by
  cases x with
  | ok a' => rw [Option.some.inj h]
  | error fault => cases h

/-- A list that gives a result has one for every item. -/
theorem forall₂_of_mapM {α β : Type} {f : α → Except Fault β} {xs : List α} {ys : List β}
    (h : xs.mapM f = .ok ys) : List.Forall₂ (fun x y => f x = .ok y) xs ys := by
  induction xs generalizing ys with
  | nil =>
    obtain rfl := Except.ok.inj h
    exact .nil
  | cons x xs ih =>
    rw [List.mapM_cons] at h
    obtain ⟨y, hy, hrest⟩ := ok_of_bind h
    obtain ⟨ys', hys, hcons⟩ := ok_of_bind hrest
    obtain rfl := Except.ok.inj hcons
    exact .cons hy (ih hys)

/-- A list reports the fault of an item when all items before it are in order. -/
theorem mapM_eq_error_iff {α β : Type} {f : α → Except Fault β} {xs : List α} {fault : Fault} :
    xs.mapM f = .error fault ↔ ∃ before x after, xs = before ++ x :: after ∧
      (∀ y ∈ before, ∃ r, f y = .ok r) ∧ f x = .error fault := by
  constructor
  · intro h
    induction xs with
    | nil => cases h
    | cons x xs ih =>
      rw [List.mapM_cons] at h
      rcases error_of_bind h with hx | ⟨r, hx, hrest⟩
      · exact ⟨[], x, xs, rfl, fun _ hy => absurd hy List.not_mem_nil, hx⟩
      · rcases error_of_bind hrest with hxs | ⟨rs, -, hcons⟩
        · obtain ⟨before, x', after, rfl, hbefore, hx'⟩ := ih hxs
          exact ⟨x :: before, x', after, rfl, List.forall_mem_cons.mpr ⟨⟨r, hx⟩, hbefore⟩, hx'⟩
        · cases hcons
  · rintro ⟨before, x, after, rfl, hbefore, hx⟩
    induction before with
    | nil =>
      rw [List.nil_append, List.mapM_cons, hx]
      rfl
    | cons y before ih =>
      obtain ⟨⟨r, hy⟩, hrest⟩ := List.forall_mem_cons.mp hbefore
      rw [List.cons_append, List.mapM_cons, hy, ih hrest]
      rfl

/-- A list that fails does so at one of its items. -/
theorem error_of_mapM {α β : Type} {f : α → Except Fault β} {xs : List α} {fault : Fault}
    (h : xs.mapM f = .error fault) : ∃ x ∈ xs, f x = .error fault := by
  obtain ⟨before, x, after, rfl, -, hx⟩ := mapM_eq_error_iff.mp h
  exact ⟨x, List.mem_append_right before List.mem_cons_self, hx⟩

/-- Both results are there and in the relation, or both are faults of one
kind. -/
inductive Agree {α β : Type} (R : α → β → Prop) : Except Fault α → Except Fault β → Prop
  | ok {a : α} {b : β} (h : R a b) : Agree R (.ok a) (.ok b)
  | error {f g : Fault} (h : f.kind = g.kind) : Agree R (.error f) (.error g)

/-- The pairs of two lists have the same names, and values in a relation. -/
abbrev AgreeingPairs {α β : Type} (R : α → β → Prop) :
    List (String × α) → List (String × β) → Prop :=
  List.Forall₂ fun p q => p.1 = q.1 ∧ R p.2 q.2

namespace Agree

variable {α β γ δ : Type} {R : α → β → Prop} {S : γ → δ → Prop}

theorem refl {S : α → α → Prop} {x : Except Fault α} (h : ∀ a, x = .ok a → S a a) :
    Agree S x x := by
  cases x with
  | ok a => exact .ok (h a rfl)
  | error f => exact .error rfl

/-- What follows agreeing results agrees. -/
theorem bind {x : Except Fault α} {y : Except Fault β} {f : α → Except Fault γ}
    {g : β → Except Fault δ} (h : Agree R x y) (hnext : ∀ a b, R a b → Agree S (f a) (g b)) :
    Agree S (x >>= f) (y >>= g) := by
  cases h with
  | ok hab => exact hnext _ _ hab
  | error hkind => exact .error hkind

/-- Agreeing results still agree under a weaker relation. -/
theorem mono {R' : α → β → Prop} {x : Except Fault α} {y : Except Fault β} (h : Agree R x y)
    (himp : ∀ a b, R a b → R' a b) : Agree R' x y := by
  cases h with
  | ok hab => exact .ok (himp _ _ hab)
  | error hkind => exact .error hkind

/-- Lists with agreeing results item by item agree as a whole. -/
theorem mapM {P : α → β → Prop} {f : α → Except Fault γ} {g : β → Except Fault δ} {xs : List α}
    {ys : List β} (h : List.Forall₂ P xs ys) (hitem : ∀ a b, P a b → Agree S (f a) (g b)) :
    Agree (List.Forall₂ S) (xs.mapM f) (ys.mapM g) := by
  induction h with
  | nil => exact .ok .nil
  | cons hab _ ih =>
    -- the first fault ends both lists, since the items before it agree
    rw [List.mapM_cons, List.mapM_cons]
    exact (hitem _ _ hab).bind fun _ _ hcd => ih.bind fun _ _ hrest => .ok (.cons hcd hrest)

end Agree

theorem optionRel_map {α β γ δ : Type} {R : α → β → Prop} {S : γ → δ → Prop} {f : α → γ}
    {g : β → δ} {x : Option α} {y : Option β} (h : Option.Rel R x y)
    (hmap : ∀ a b, R a b → S (f a) (g b)) : Option.Rel S (x.map f) (y.map g) := by
  cases h with
  | some hab => exact .some (hmap _ _ hab)
  | none => exact .none

/-- Every item of the second list is related to one of the first. -/
theorem exists_left_of_forall₂ {α β : Type} {R : α → β → Prop} {xs : List α} {ys : List β}
    (h : List.Forall₂ R xs ys) {y : β} (hy : y ∈ ys) : ∃ x ∈ xs, R x y := by
  induction h with
  | nil => cases hy
  | cons hxy _ ih =>
    rcases List.mem_cons.mp hy with rfl | hy
    · exact ⟨_, List.mem_cons_self, hxy⟩
    · obtain ⟨x, hx, hR⟩ := ih hy
      exact ⟨x, List.mem_cons_of_mem _ hx, hR⟩

theorem ne_nil_of_forall₂ {α β : Type} {R : α → β → Prop} {xs : List α} {ys : List β}
    (h : List.Forall₂ R xs ys) (hne : xs ≠ []) : ys ≠ [] := by
  rintro rfl
  cases h
  exact hne rfl

/-- Related lists are empty together. -/
theorem isEmpty_eq_of_forall₂ {α β : Type} {R : α → β → Prop} {xs : List α} {ys : List β}
    (h : List.Forall₂ R xs ys) : xs.isEmpty = ys.isEmpty := by
  cases h <;> rfl

end SqlBuilder
