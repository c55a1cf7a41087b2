import SqlBuilder.Filter.Condition
import SqlBuilder.Filter.OfJson
import SqlBuilder.Proofs.Agreement

/-!
# Filter documents

The grammar of filter documents, told by the printing of a filter: each filter
that has a document is read back from it, and whatever is read is the printing
of the filter it is read as. The grammar is therefore unambiguous, and reading
neither drops nor merges anything.

* `Filter.toJson`, `Filter.isDocument` — the document of a filter, and the
  filters that have one;
* `Filter.Reads` — what the one entry of an object is read as, key by key;
* `Filter.ofJson_toJson` — a filter is read back from its document;
* `Filter.toJson_of_ofJson` — only documents are read.
-/

namespace SqlBuilder

/-! ## Printing -/

/-- The JSON scalar of a value. A value that has none is printed as its bare
text, which is not read back as that value. -/
def Value.toJson : Value → Json
  | .null => .null
  | .bool b => .bool b
  | .int n => .integer n.toInt
  | .float (.finite x) => .real x
  | .text s => .text s
  | v => .text v.display

/-- Whether a value is a JSON scalar: no date, no column, no infinite or
undefined number. -/
def Value.isScalar : Value → Bool
  | .null | .bool _ | .int _ | .float (.finite _) | .text _ => true
  | _ => false

/-- The document of a pattern. -/
def Pattern.toJson : Pattern → Json
  | .value v => v.toJson
  | .regex source => .object [("$regex", .text source)]

/-- Whether a pattern has a document: the null value matches nothing. -/
def Pattern.isDocument : Pattern → Bool
  | .value v => v.isScalar && !v.isNull
  | .regex _ => true

mutual

/-- The document of a filter: an object with one key. -/
def Filter.toJson : Filter → Json
  | .field key operand => .object [(key, operand.toJson)]
  | .eq operand => .object [("$eq", operand.toJson)]
  | .compare op operand => .object [(op.tag, operand.toJson)]
  | .all filters => .object [("$and", .array (Filter.toJsonAll filters))]
  | .any filters => .object [("$or", .array (Filter.toJsonAll filters))]
  | .like pattern => .object [("$like", pattern.toJson)]
termination_by structural f => f

/-- The document of an operand. -/
def Operand.toJson : Operand → Json
  | .value v => v.toJson
  | .list vs => .array (vs.map Value.toJson)
  | .filter f => f.toJson
termination_by structural o => o

/-- The documents of the filters of a group. -/
def Filter.toJsonAll : List Filter → List Json
  | [] => []
  | f :: fs => f.toJson :: Filter.toJsonAll fs
termination_by structural fs => fs

end

mutual

/-- Whether a filter has a document: its keys are columns, its values scalars,
at every depth. -/
def Filter.isDocument : Filter → Bool
  | .field key operand => Filter.isFieldKey key && operand.isDocument
  | .eq operand => operand.isDocument
  | .compare _ operand => operand.isDocument
  | .all filters => Filter.areDocuments filters
  | .any filters => Filter.areDocuments filters
  | .like pattern => pattern.isDocument
termination_by structural f => f

/-- Whether an operand has a document. -/
def Operand.isDocument : Operand → Bool
  | .value v => v.isScalar
  | .list vs => vs.all Value.isScalar
  | .filter f => f.isDocument
termination_by structural o => o

/-- Whether the filters of a group have documents. -/
def Filter.areDocuments : List Filter → Bool
  | [] => true
  | f :: fs => f.isDocument && Filter.areDocuments fs
termination_by structural fs => fs

end

/-- Whether an integer fits 64 bits with a sign. -/
def Json.isInt64 (n : Int) : Bool := decide (-Int.pow 2 63 ≤ n ∧ n < Int.pow 2 63)

mutual

/-- Whether all integers of a document fit 64 bits with a sign. A larger one is
read as the nearest double, which is printed as another number. -/
def Json.fitsInt64 : Json → Bool
  | .integer n => Json.isInt64 n
  | .array items => Json.allFitInt64 items
  | .object entries => Json.entriesFitInt64 entries
  | _ => true
termination_by structural j => j

/-- Whether the integers of the items of an array fit. -/
def Json.allFitInt64 : List Json → Bool
  | [] => true
  | j :: items => j.fitsInt64 && Json.allFitInt64 items
termination_by structural items => items

/-- Whether the integers of the entries of an object fit. -/
def Json.entriesFitInt64 : List (String × Json) → Bool
  | [] => true
  | (_, j) :: entries => j.fitsInt64 && Json.entriesFitInt64 entries
termination_by structural entries => entries

end

/-! ## Scalars -/

theorem Value.ofInteger_toInt (n : Int64) : Value.ofInteger n.toInt = .int n := by
  have hlow : -Int.pow 2 63 ≤ n.toInt := Int64.le_toInt n
  have hhigh : n.toInt < Int.pow 2 63 := Int64.toInt_lt n
  rw [Value.ofInteger, if_pos ⟨hlow, hhigh⟩, Int64.ofInt_toInt]

theorem Value.ofInteger_of_isInt64 {n : Int} (h : Json.isInt64 n = true) :
    Value.ofInteger n = .int (Int64.ofInt n) ∧ (Int64.ofInt n).toInt = n := by
  have hn : -Int.pow 2 63 ≤ n ∧ n < Int.pow 2 63 := of_decide_eq_true h
  exact ⟨if_pos hn, Int64.toInt_ofInt_of_le hn.1 hn.2⟩

theorem Value.ofJson_toJson {v : Value} (h : v.isScalar = true) :
    Value.ofJson v.toJson = .ok v := by
  cases v with
  | null | bool | text => rfl
  | int n => exact congrArg Except.ok (Value.ofInteger_toInt n)
  | float x =>
    cases x with
    | finite => rfl
    | nan | infinite => cases h
  | instant | wall | column => cases h

/-- A value is read from its own printing only. -/
theorem Value.toJson_of_ofJson {j : Json} {v : Value} (hfits : j.fitsInt64 = true)
    (h : Value.ofJson j = .ok v) : v.isScalar = true ∧ v.toJson = j := by
  cases j with
  | null | bool | real | text =>
    obtain rfl := Except.ok.inj h
    exact ⟨rfl, rfl⟩
  | integer n =>
    obtain ⟨hint, hback⟩ := Value.ofInteger_of_isInt64 hfits
    obtain rfl := Except.ok.inj h
    rw [hint]
    exact ⟨rfl, congrArg Json.integer hback⟩
  | array | object => cases h

theorem Value.mapM_ofJson_toJson {vs : List Value} (h : vs.all Value.isScalar = true) :
    (vs.map Value.toJson).mapM Value.ofJson = .ok vs := by
  induction vs with
  | nil => rfl
  | cons v vs ih =>
    obtain ⟨hv, hvs⟩ := Bool.and_eq_true_iff.mp h
    rw [List.map_cons, List.mapM_cons, Value.ofJson_toJson hv, ih hvs]
    rfl

theorem Value.map_toJson_of_mapM {items : List Json} {vs : List Value}
    (hfits : Json.allFitInt64 items = true) (h : items.mapM Value.ofJson = .ok vs) :
    vs.all Value.isScalar = true ∧ vs.map Value.toJson = items := by
  have hread := forall₂_of_mapM h
  clear h
  induction hread with
  | nil => exact ⟨rfl, rfl⟩
  | cons hv _ ih =>
    obtain ⟨hfit, hrest⟩ := Bool.and_eq_true_iff.mp hfits
    obtain ⟨hscalar, hprint⟩ := Value.toJson_of_ofJson hfit hv
    obtain ⟨hall, hprints⟩ := ih hrest
    exact ⟨Bool.and_eq_true_iff.mpr ⟨hscalar, hall⟩, by rw [List.map_cons, hprint, hprints]⟩

theorem Pattern.ofJson_toJson {p : Pattern} (h : p.isDocument = true) :
    Pattern.ofJson p.toJson = .ok p := by
  cases p with
  | regex source => rfl
  | value v =>
    cases v with
    | bool | text => rfl
    | int n => exact congrArg (Except.ok ∘ Pattern.value) (Value.ofInteger_toInt n)
    | float x =>
      cases x with
      | finite => rfl
      | nan | infinite => cases h
    | null | instant | wall | column => cases h

theorem Pattern.toJson_of_ofJson {j : Json} {p : Pattern} (hfits : j.fitsInt64 = true)
    (h : Pattern.ofJson j = .ok p) : p.isDocument = true ∧ p.toJson = j := by
  unfold Pattern.ofJson at h
  split at h
  case h_3 n =>
    obtain ⟨hint, hback⟩ := Value.ofInteger_of_isInt64 hfits
    obtain rfl := Except.ok.inj h
    rw [hint]
    exact ⟨rfl, congrArg Json.integer hback⟩
  case h_6 => cases h
  all_goals
    obtain rfl := Except.ok.inj h
    exact ⟨rfl, rfl⟩

/-! ## Entries -/

/-- What an object is read as whose one entry holds the value `j`. The keys are
told apart by their first character, and no two operators have the same key. -/
inductive Filter.Reads (j : Json) : String → Filter → Prop
  | field {key : String} {operand : Operand} (hkey : Filter.isFieldKey key = true)
    (h : Operand.ofJson j = .ok operand) : Filter.Reads j key (.field key operand)
  | eq {operand : Operand} (h : Operand.ofJson j = .ok operand) :
    Filter.Reads j "$eq" (.eq operand)
  | compare (op : Comparison) {operand : Operand} (h : Operand.ofJson j = .ok operand) :
    Filter.Reads j op.tag (.compare op operand)
  | all {filters : List Filter} (h : Filter.listOfJson "$and" j = .ok filters) :
    Filter.Reads j "$and" (.all filters)
  | any {filters : List Filter} (h : Filter.listOfJson "$or" j = .ok filters) :
    Filter.Reads j "$or" (.any filters)
  | like {pattern : Pattern} (h : Pattern.ofJson j = .ok pattern) :
    Filter.Reads j "$like" (.like pattern)

/-- **What an entry can be read as.** -/
theorem Filter.reads_of_ofEntry {key : String} {j : Json} {f : Filter}
    (h : Filter.ofEntry (key, j) = .ok f) : Filter.Reads j key f := by
  rw [Filter.ofEntry] at h
  by_cases hsafe : Name.isSafe .filterKey key = true
  swap
  · -- an unsafe key is no key
    rw [if_pos (by simp [hsafe])] at h
    cases h
  rw [if_neg (by simp [hsafe])] at h
  by_cases hdollar : key.toList.head? ≠ some '$'
  · rw [if_pos hdollar] at h
    obtain ⟨operand, hoperand, hf⟩ := ok_of_bind h
    obtain rfl := Except.ok.inj hf
    exact .field (by simp [Filter.isFieldKey, hdollar, hsafe]) hoperand
  rw [if_neg hdollar] at h
  -- the operators, in the order in which the reader asks for them
  by_cases heq : key = "$eq"
  · rw [if_pos heq] at h
    obtain ⟨operand, hoperand, hf⟩ := ok_of_bind h
    obtain rfl := Except.ok.inj hf
    exact heq ▸ .eq hoperand
  rw [if_neg heq] at h
  by_cases hand : key = "$and"
  · rw [if_pos hand] at h
    obtain ⟨filters, hfilters, hf⟩ := ok_of_bind h
    subst hand
    obtain rfl := Except.ok.inj hf
    exact .all hfilters
  rw [if_neg hand] at h
  by_cases hor : key = "$or"
  · rw [if_pos hor] at h
    obtain ⟨filters, hfilters, hf⟩ := ok_of_bind h
    subst hor
    obtain rfl := Except.ok.inj hf
    exact .any hfilters
  rw [if_neg hor] at h
  by_cases hlike : key = "$like"
  · rw [if_pos hlike] at h
    obtain ⟨pattern, hpattern, hf⟩ := ok_of_bind h
    obtain rfl := Except.ok.inj hf
    exact hlike ▸ .like hpattern
  rw [if_neg hlike] at h
  cases hop : Comparison.ofTag? key with
  | none =>
    rw [hop] at h
    cases h
  | some op =>
    rw [hop] at h
    obtain ⟨operand, hoperand, hf⟩ := ok_of_bind h
    obtain rfl := Except.ok.inj hf
    exact Comparison.ofTag?_eq_some.mp hop ▸ .compare op hoperand

/-- Each of these entries is read. -/
theorem Filter.ofEntry_of_reads {key : String} {j : Json} {f : Filter}
    (h : Filter.Reads j key f) : Filter.ofEntry (key, j) = .ok f := by
  cases h with
  | field hkey h =>
    obtain ⟨hdollar, hsafe⟩ := Bool.and_eq_true_iff.mp hkey
    rw [Filter.ofEntry, if_neg (by simp [hsafe]), if_pos (of_decide_eq_true hdollar), h]
    rfl
  | eq h => exact congrArg (· >>= fun o => Except.ok (Filter.eq o)) h
  | compare op h =>
    -- each of the five tags passes by the other operators
    cases op <;> exact congrArg (· >>= fun o => Except.ok (Filter.compare _ o)) h
  | all h => exact congrArg (· >>= fun fs => Except.ok (Filter.all fs)) h
  | any h => exact congrArg (· >>= fun fs => Except.ok (Filter.any fs)) h
  | like h => exact congrArg (· >>= fun p => Except.ok (Filter.like p)) h

/-! ## Whole documents -/

/-- The document of a filter is an object, so as an operand it is read as a
filter again. -/
theorem Operand.ofJson_filter (f : Filter) :
    Operand.ofJson f.toJson = Filter.ofJson f.toJson >>= fun g => .ok (.filter g) := by
  cases f <;> rfl

/-- The document of a value is a scalar, so as an operand it is read as a value
again. -/
theorem Operand.ofJson_value (v : Value) :
    Operand.ofJson v.toJson = Value.ofJson v.toJson >>= fun w => .ok (.value w) := by
  cases v with
  | float x => cases x <;> rfl
  | _ => rfl

mutual

/-- **A filter is read back from its document.** -/
theorem Filter.ofJson_toJson (f : Filter) (h : f.isDocument = true) :
    Filter.ofJson f.toJson = .ok f := by
  cases f with
  | field key operand =>
    obtain ⟨hkey, hoperand⟩ := Bool.and_eq_true_iff.mp h
    exact Filter.ofEntry_of_reads (.field hkey (Operand.ofJson_toJson operand hoperand))
  | eq operand => exact Filter.ofEntry_of_reads (.eq (Operand.ofJson_toJson operand h))
  | compare op operand =>
    exact Filter.ofEntry_of_reads (.compare op (Operand.ofJson_toJson operand h))
  | all filters =>
    have hfilters : Filter.listOfJson "$and" (.array (Filter.toJsonAll filters)) = .ok filters :=
      Filter.ofItems_toJsonAll filters h
    exact Filter.ofEntry_of_reads (.all hfilters)
  | any filters =>
    have hfilters : Filter.listOfJson "$or" (.array (Filter.toJsonAll filters)) = .ok filters :=
      Filter.ofItems_toJsonAll filters h
    exact Filter.ofEntry_of_reads (.any hfilters)
  | like pattern => exact Filter.ofEntry_of_reads (.like (Pattern.ofJson_toJson h))
termination_by structural f

theorem Operand.ofJson_toJson (o : Operand) (h : o.isDocument = true) :
    Operand.ofJson o.toJson = .ok o := by
  cases o with
  | value v =>
    rw [Operand.toJson, Operand.ofJson_value, Value.ofJson_toJson h]
    rfl
  | list vs =>
    rw [Operand.toJson, Operand.ofJson, Value.mapM_ofJson_toJson h]
    rfl
  | filter f =>
    rw [Operand.toJson, Operand.ofJson_filter, Filter.ofJson_toJson f h]
    rfl
termination_by structural o

theorem Filter.ofItems_toJsonAll (fs : List Filter) (h : Filter.areDocuments fs = true) :
    Filter.ofItems (Filter.toJsonAll fs) = .ok fs := by
  cases fs with
  | nil => rfl
  | cons f fs =>
    obtain ⟨hf, hfs⟩ := Bool.and_eq_true_iff.mp h
    rw [Filter.toJsonAll, Filter.ofItems, Filter.ofJson_toJson f hf,
      Filter.ofItems_toJsonAll fs hfs]
    rfl
termination_by structural fs

end

mutual

/-- **Only documents are read**, and the filter that is read tells the document. -/
theorem Filter.toJson_of_ofJson (j : Json) (f : Filter) (hfits : j.fitsInt64 = true)
    (h : Filter.ofJson j = .ok f) : f.isDocument = true ∧ f.toJson = j := by
  cases j with
  | object entries => exact Filter.toJson_of_ofEntries entries f hfits h
  | _ => cases h
termination_by structural j

theorem Filter.toJson_of_ofEntries (entries : List (String × Json)) (f : Filter)
    (hfits : Json.entriesFitInt64 entries = true) (h : Filter.ofEntries entries = .ok f) :
    f.isDocument = true ∧ f.toJson = .object entries := by
  -- an object without entries or with two of them is refused as a whole
  match entries with
  | [] => cases h
  | [entry] => exact Filter.toJson_of_ofEntry entry f (Bool.and_eq_true_iff.mp hfits).1 h
  | _ :: _ :: _ => cases h
termination_by structural entries

theorem Filter.toJson_of_ofEntry (entry : String × Json) (f : Filter)
    (hfits : entry.2.fitsInt64 = true) (h : Filter.ofEntry entry = .ok f) :
    f.isDocument = true ∧ f.toJson = .object [entry] := by
  obtain ⟨key, j⟩ := entry
  cases Filter.reads_of_ofEntry h with
  | field hkey hread =>
    obtain ⟨hdoc, rfl⟩ := Operand.toJson_of_ofJson j _ hfits hread
    exact ⟨Bool.and_eq_true_iff.mpr ⟨hkey, hdoc⟩, rfl⟩
  | eq hread =>
    obtain ⟨hdoc, rfl⟩ := Operand.toJson_of_ofJson j _ hfits hread
    exact ⟨hdoc, rfl⟩
  | compare op hread =>
    obtain ⟨hdoc, rfl⟩ := Operand.toJson_of_ofJson j _ hfits hread
    exact ⟨hdoc, rfl⟩
  | all hread | any hread =>
    obtain ⟨hdocs, rfl⟩ := Filter.toJsonAll_of_listOfJson j _ _ hfits hread
    exact ⟨hdocs, rfl⟩
  | like hread =>
    obtain ⟨hdoc, rfl⟩ := Pattern.toJson_of_ofJson hfits hread
    exact ⟨hdoc, rfl⟩
termination_by structural entry

theorem Operand.toJson_of_ofJson (j : Json) (o : Operand) (hfits : j.fitsInt64 = true)
    (h : Operand.ofJson j = .ok o) : o.isDocument = true ∧ o.toJson = j := by
  -- an object stands for a filter, an array for values, and filters in it are refused
  cases j with
  | object entries =>
    obtain ⟨f, hf, ho⟩ := ok_of_bind h
    obtain rfl := Except.ok.inj ho
    exact Filter.toJson_of_ofEntries entries f hfits hf
  | array items =>
    obtain ⟨vs, hvs, ho⟩ := ok_of_bind h
    obtain rfl := Except.ok.inj ho
    obtain ⟨hscalars, hprint⟩ := Value.map_toJson_of_mapM hfits hvs
    exact ⟨hscalars, congrArg Json.array hprint⟩
  | null | bool | integer | real | text =>
    obtain ⟨v, hv, ho⟩ := ok_of_bind h
    obtain rfl := Except.ok.inj ho
    exact Value.toJson_of_ofJson hfits hv
termination_by structural j

theorem Filter.toJsonAll_of_listOfJson (j : Json) (tag : String) (fs : List Filter)
    (hfits : j.fitsInt64 = true) (h : Filter.listOfJson tag j = .ok fs) :
    Filter.areDocuments fs = true ∧ .array (Filter.toJsonAll fs) = j := by
  cases j with
  | array items =>
    obtain ⟨hdocs, hprints⟩ := Filter.toJsonAll_of_ofItems items fs hfits h
    exact ⟨hdocs, congrArg Json.array hprints⟩
  | _ => cases h
termination_by structural j

theorem Filter.toJsonAll_of_ofItems (items : List Json) (fs : List Filter)
    (hfits : Json.allFitInt64 items = true) (h : Filter.ofItems items = .ok fs) :
    Filter.areDocuments fs = true ∧ Filter.toJsonAll fs = items := by
  cases items with
  | nil =>
    obtain rfl := Except.ok.inj h
    exact ⟨rfl, rfl⟩
  | cons j items =>
    obtain ⟨f, hf, hrest⟩ := ok_of_bind h
    obtain ⟨fs, hfs, hcons⟩ := ok_of_bind hrest
    obtain rfl := Except.ok.inj hcons
    obtain ⟨hfit, hfitAll⟩ := Bool.and_eq_true_iff.mp hfits
    obtain ⟨hdoc, hprint⟩ := Filter.toJson_of_ofJson j f hfit hf
    obtain ⟨hdocs, hprints⟩ := Filter.toJsonAll_of_ofItems items fs hfitAll hfs
    exact ⟨Bool.and_eq_true_iff.mpr ⟨hdoc, hdocs⟩, by rw [Filter.toJsonAll, hprint, hprints]⟩
termination_by structural items

end

/-- **The reader accepts exactly the documents of filters, and printing inverts
it.** Every filter that has a document is read back from it, whatever its depth;
and a JSON value without oversized integers that is read as a filter is the
document of that filter. -/
theorem filter_documents_exact :
    (∀ f : Filter, f.isDocument = true → Filter.ofJson f.toJson = .ok f) ∧
    ∀ (j : Json) (f : Filter), j.fitsInt64 = true → Filter.ofJson j = .ok f →
      f.isDocument = true ∧ f.toJson = j :=
  ⟨Filter.ofJson_toJson, Filter.toJson_of_ofJson⟩

/-- A group with a comparison in a field, a list under `$eq`, a regular
expression and a nested group is read back, and nothing else prints it. -/
theorem filter_documents_exact_nested :
    let f : Filter := .all [.field "t.a$" (.filter (.compare .gte (.value (.int 3)))),
      .field "id" (.filter (.eq (.list [.int 1, .null, .text "x", .bool true]))),
      .any [.field "name" (.filter (.like (.regex "^Al"))), .any []]]
    let j : Json := .object [("$and", .array [
      .object [("t.a$", .object [("$gte", .integer 3)])],
      .object [("id", .object [("$eq", .array [.integer 1, .null, .text "x", .bool true])])],
      .object [("$or", .array [.object [("name", .object [("$like",
        .object [("$regex", .text "^Al")])])], .object [("$or", .array [])]])]])]
    f.isDocument = true ∧ Filter.ofJson f.toJson = .ok f ∧
      j.fitsInt64 = true ∧ Filter.ofJson j = .ok f ∧ f.toJson = j := by
  intro f j
  have hdoc : f.isDocument = true := by decide
  have hfits : j.fitsInt64 = true := by decide
  have hread : Filter.ofJson j = .ok f := rfl
  exact ⟨hdoc, filter_documents_exact.1 f hdoc, hfits, hread,
    (filter_documents_exact.2 j f hfits hread).2⟩

end SqlBuilder
