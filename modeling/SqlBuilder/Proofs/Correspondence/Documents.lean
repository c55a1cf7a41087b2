import SqlBuilder.Proofs.Correspondence

/-!
# Corresponding JSON documents

Documents of one shape whose texts correspond are read as corresponding rows
and filters, or are refused for the same kind of fault. The source of a regular
expression is no value and stays the same.

* `Json.Corresponds` — documents of one shape;
* `agree_rowOfJson`, `agree_filterOfJson` — what is read from them.
-/

namespace SqlBuilder

mutual

/-- Documents of one shape with corresponding texts. -/
inductive Json.Corresponds (V : Value → Value → Prop) : Json → Json → Prop
  | null : Json.Corresponds V .null .null
  | bool (b : Bool) : Json.Corresponds V (.bool b) (.bool b)
  | integer (n : Int) : Json.Corresponds V (.integer n) (.integer n)
  | real (x : Finite64) : Json.Corresponds V (.real x) (.real x)
  | text {s t : String} (h : V (.text s) (.text t)) : Json.Corresponds V (.text s) (.text t)
  | array {js ks : List Json} (h : Json.AllCorrespond V js ks) :
    Json.Corresponds V (.array js) (.array ks)
  | object {es fs : List (String × Json)} (h : Json.EntriesCorrespond V es fs) :
    Json.Corresponds V (.object es) (.object fs)

/-- Items that correspond one by one. -/
inductive Json.AllCorrespond (V : Value → Value → Prop) : List Json → List Json → Prop
  | nil : Json.AllCorrespond V [] []
  | cons {j k : Json} {js ks : List Json} (h : Json.Corresponds V j k)
    (hrest : Json.AllCorrespond V js ks) : Json.AllCorrespond V (j :: js) (k :: ks)

/-- Entries with the same keys that correspond one by one. -/
inductive Json.EntriesCorrespond (V : Value → Value → Prop) :
    List (String × Json) → List (String × Json) → Prop
  | nil : Json.EntriesCorrespond V [] []
  | cons (key : String) {j k : Json} {es fs : List (String × Json)}
    (h : Json.Corresponds V j k) (hregex : key = "$regex" → j = k)
    (hrest : Json.EntriesCorrespond V es fs) :
    Json.EntriesCorrespond V ((key, j) :: es) ((key, k) :: fs)

end

variable {V : Value → Value → Prop}

mutual

/-- A document corresponds to itself. -/
theorem Json.Corresponds.refl (hV : KeepsScalars V) : ∀ j : Json, Json.Corresponds V j j
  | .null => .null
  | .bool b => .bool b
  | .integer n => .integer n
  | .real x => .real x
  | .text _ => .text (hV _ fun _ => Value.noConfusion)
  | .array items => .array (Json.AllCorrespond.refl hV items)
  | .object entries => .object (Json.EntriesCorrespond.refl hV entries)

theorem Json.AllCorrespond.refl (hV : KeepsScalars V) :
    ∀ js : List Json, Json.AllCorrespond V js js
  | [] => .nil
  | j :: js => .cons (Json.Corresponds.refl hV j) (Json.AllCorrespond.refl hV js)

theorem Json.EntriesCorrespond.refl (hV : KeepsScalars V) :
    ∀ es : List (String × Json), Json.EntriesCorrespond V es es
  | [] => .nil
  | (key, j) :: es =>
    .cons key (Json.Corresponds.refl hV j) (fun _ => rfl) (Json.EntriesCorrespond.refl hV es)

end

theorem Json.AllCorrespond.forall₂ : ∀ {js ks : List Json}, Json.AllCorrespond V js ks →
    List.Forall₂ (Json.Corresponds V) js ks
  | _, _, .nil => .nil
  | _, _, .cons h hrest => .cons h hrest.forall₂

theorem Json.EntriesCorrespond.forall₂ : ∀ {es fs : List (String × Json)},
    Json.EntriesCorrespond V es fs → AgreeingPairs (Json.Corresponds V) es fs
  | _, _, .nil => .nil
  | _, _, .cons _ h _ hrest => .cons ⟨rfl, h⟩ hrest.forall₂

/-! ## Values, rows and patterns -/

theorem keepsScalars_ofInteger (hV : KeepsScalars V) (n : Int) :
    V (.ofInteger n) (.ofInteger n) := by
  apply hV
  intro r hr
  unfold Value.ofInteger at hr
  split at hr <;> cases hr

/-- Corresponding documents stand for corresponding values. -/
theorem agree_valueOfJson (hV : KeepsScalars V) {j k : Json} (h : Json.Corresponds V j k) :
    Agree V (Value.ofJson j) (Value.ofJson k) := by
  cases h with
  | null => exact .ok (hV _ fun _ => Value.noConfusion)
  | bool b => exact .ok (hV _ fun _ => Value.noConfusion)
  | integer n => exact .ok (keepsScalars_ofInteger hV n)
  | real x => exact .ok (hV _ fun _ => Value.noConfusion)
  | text h => exact .ok h
  | array h => exact .error rfl
  | object h => exact .error rfl

/-- **Corresponding documents are read as corresponding rows.** -/
theorem agree_rowOfJson (hV : KeepsScalars V) {j k : Json} (h : Json.Corresponds V j k) :
    Agree (AgreeingPairs V) (rowOfJson j) (rowOfJson k) := by
  cases h with
  | object h =>
    refine Agree.mapM h.forall₂ fun p q hpq => ?_
    rw [hpq.1]
    exact (agree_valueOfJson hV hpq.2).bind fun _ _ hvw => .ok ⟨rfl, hvw⟩
  | _ => exact .error rfl

/-- An object is a pattern only as a regular expression. -/
theorem patternOfJson_object (es : List (String × Json)) :
    (∃ source, es = [("$regex", .text source)] ∧
      Pattern.ofJson (.object es) = .ok (.regex source)) ∨
    Pattern.ofJson (.object es) = .error .patternOperand := by
  unfold Pattern.ofJson
  split
  · next source h => exact .inl ⟨source, Json.object.inj h, rfl⟩
  · next h => cases h
  · next h => cases h
  · next h => cases h
  · next h => cases h
  · exact .inr rfl

theorem agree_patternOfJson (hV : KeepsScalars V) {j k : Json} (h : Json.Corresponds V j k) :
    Agree (Pattern.Corresponds V) (Pattern.ofJson j) (Pattern.ofJson k) := by
  cases h with
  | null => exact .error rfl
  | bool b => exact .ok (.value (hV _ fun _ => Value.noConfusion))
  | integer n => exact .ok (.value (keepsScalars_ofInteger hV n))
  | real x => exact .ok (.value (hV _ fun _ => Value.noConfusion))
  | text h => exact .ok (.value h)
  | array h => exact .error rfl
  | @object es fs h =>
    rcases patternOfJson_object es with ⟨source, rfl, hread⟩ | hread
    · -- the source of a regular expression is the same on both sides
      cases h with
      | cons key h hregex hrest =>
        cases hrest
        obtain rfl := hregex rfl
        rw [hread]
        exact .ok (.regex (hV _ fun _ => Value.noConfusion))
    · rcases patternOfJson_object fs with ⟨source, rfl, -⟩ | hread'
      · -- it cannot be one on the right side alone
        cases h with
        | cons key h hregex hrest =>
          cases hrest
          obtain rfl := hregex rfl
          cases hread
      · rw [hread, hread']
        exact .error rfl

/-! ## Filters -/

mutual

/-- **Corresponding documents are read as corresponding filters.** -/
theorem agree_filterOfJson (hV : KeepsScalars V) : ∀ {j k : Json}, Json.Corresponds V j k →
    Agree (Filter.Corresponds V) (Filter.ofJson j) (Filter.ofJson k)
  | _, _, .null => .error rfl
  | _, _, .bool _ => .error rfl
  | _, _, .integer _ => .error rfl
  | _, _, .real _ => .error rfl
  | _, _, .text _ => .error rfl
  | _, _, .array _ => .error rfl
  | _, _, .object h => agree_ofEntries hV h

theorem agree_ofEntries (hV : KeepsScalars V) : ∀ {es fs : List (String × Json)},
    Json.EntriesCorrespond V es fs →
    Agree (Filter.Corresponds V) (Filter.ofEntries es) (Filter.ofEntries fs)
  | _, _, .nil => .error rfl
  | _, _, .cons _ _ _ (.cons _ _ _ _) => .error rfl
  | _, _, .cons key h _ .nil => by
    have hoperand := agree_operandOfJson hV h
    have hlist := agree_listOfJson hV key h
    -- the key decides, and it is the same on both sides
    rw [Filter.ofEntries, Filter.ofEntries, Filter.ofEntry, Filter.ofEntry]
    split
    · exact .error rfl
    split
    · exact hoperand.bind fun _ _ h => .ok (.field key h)
    split
    · exact hoperand.bind fun _ _ h => .ok (.eq h)
    split
    · exact hlist.bind fun _ _ h => .ok (.all h)
    split
    · exact hlist.bind fun _ _ h => .ok (.any h)
    split
    · exact (agree_patternOfJson hV h).bind fun _ _ h => .ok (.like h)
    split
    · next op _ => exact hoperand.bind fun _ _ h => .ok (.compare op h)
    · exact .error rfl

theorem agree_operandOfJson (hV : KeepsScalars V) : ∀ {j k : Json}, Json.Corresponds V j k →
    Agree (Operand.Corresponds V) (Operand.ofJson j) (Operand.ofJson k)
  | _, _, .object h => (agree_ofEntries hV h).bind fun _ _ h => .ok (.filter h)
  | _, _, .array h =>
    (Agree.mapM h.forall₂ fun _ _ h => agree_valueOfJson hV h).bind fun _ _ h => .ok (.list h)
  | _, _, .null => .ok (.value (hV _ fun _ => Value.noConfusion))
  | _, _, .bool _ => .ok (.value (hV _ fun _ => Value.noConfusion))
  | _, _, .integer n => .ok (.value (keepsScalars_ofInteger hV n))
  | _, _, .real _ => .ok (.value (hV _ fun _ => Value.noConfusion))
  | _, _, .text h => .ok (.value h)

theorem agree_listOfJson (hV : KeepsScalars V) (tag : String) : ∀ {j k : Json},
    Json.Corresponds V j k →
    Agree (Filter.AllCorrespond V) (Filter.listOfJson tag j) (Filter.listOfJson tag k)
  | _, _, .array h => agree_ofItems hV h
  | _, _, .null => .error rfl
  | _, _, .bool _ => .error rfl
  | _, _, .integer _ => .error rfl
  | _, _, .real _ => .error rfl
  | _, _, .text _ => .error rfl
  | _, _, .object _ => .error rfl

theorem agree_ofItems (hV : KeepsScalars V) : ∀ {js ks : List Json},
    Json.AllCorrespond V js ks →
    Agree (Filter.AllCorrespond V) (Filter.ofItems js) (Filter.ofItems ks)
  | _, _, .nil => .ok .nil
  | _, _, .cons h hrest => (agree_filterOfJson hV h).bind fun _ _ hfilter =>
    (agree_ofItems hV hrest).bind fun _ _ hfilters => .ok (.cons hfilter hfilters)

end

end SqlBuilder
