/-!
# Ordered tables

A finite table from names to values that remembers the order in which names
were first written, as a list of pairs. Writing a name that is there replaces
its value in place; a new name goes to the end.

* `get?_put` — what a lookup sees after a write;
* `keys_put` — what a write does to the names.
-/

namespace SqlBuilder

/-- A table from names to values in the order of first writing. -/
abbrev Keyed (α : Type) := List (String × α)

namespace Keyed

variable {α : Type}

/-- The value under a name. -/
def get? (t : Keyed α) (key : String) : Option α := t.lookup key

/-- The names, in order. -/
def keys (t : Keyed α) : List String := t.map Prod.fst

/-- Whether a name is there. -/
def has (t : Keyed α) (key : String) : Bool := (t.get? key).isSome

/-- Writes a value under a name. -/
def put : Keyed α → String → α → Keyed α
  | [], key, value => [(key, value)]
  | (k, v) :: rest, key, value =>
    if k = key then (k, value) :: rest else (k, v) :: put rest key value

/-- The table after writing the pairs in order. -/
def ofList (pairs : List (String × α)) : Keyed α :=
  pairs.foldl (fun t p => t.put p.1 p.2) []

/-- Inserts a pair in front of the first greater name of a table sorted by
name. -/
def insertSorted (key : String) (value : α) : Keyed α → Keyed α
  | [] => [(key, value)]
  | (k, v) :: rest =>
    if k < key then (k, v) :: insertSorted key value rest else (key, value) :: (k, v) :: rest

/-- The table in the order of its names. -/
def sorted (t : Keyed α) : Keyed α := t.foldr (fun p s => insertSorted p.1 p.2 s) []

/-! ## Lookups after writes -/

@[simp] theorem get?_nil (key : String) : get? ([] : Keyed α) key = none := rfl

theorem get?_cons (k key : String) (v : α) (t : Keyed α) :
    get? ((k, v) :: t) key = if key = k then some v else t.get? key := by
  unfold get?
  by_cases h : key = k
  · subst h
    simp
  · simp [List.lookup_cons, h, beq_false_of_ne h]

/-- A lookup sees the written value under the written name and the old value
under every other. -/
theorem get?_put (t : Keyed α) (k key : String) (v : α) :
    (t.put k v).get? key = if key = k then some v else t.get? key := by
  induction t with
  | nil => simp [put, get?_cons]
  | cons p t ih =>
    obtain ⟨k', v'⟩ := p
    simp only [put]
    split
    · next h => subst h; simp only [get?_cons]; split <;> rfl
    · next h =>
      simp only [get?_cons, ih]
      split
      · next h' => subst h'; simp [h]
      · rfl

/-- A write keeps the names and adds a new one at the end. -/
theorem keys_put (t : Keyed α) (k : String) (v : α) :
    (t.put k v).keys = if k ∈ t.keys then t.keys else t.keys ++ [k] := by
  induction t with
  | nil => simp [put, keys]
  | cons p t ih =>
    obtain ⟨k', v'⟩ := p
    simp only [put]
    split
    · next h => subst h; simp [keys]
    · next h =>
      simp only [keys, List.map_cons, List.mem_cons] at ih ⊢
      rw [ih]
      have h' : ¬k = k' := fun e => h e.symm
      simp only [h', false_or]
      split <;> simp [*]

end Keyed

end SqlBuilder
