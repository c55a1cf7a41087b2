import SqlBuilder.Proofs.Decoding

/-!
# Created tables can be read back

The text of a created table tells the table and its columns: their names, types
and lengths, what is said of each, and the literals of the defaults. A default
can hold anything, be it the words that follow it or the definition of another
column, and a column can have a keyword for its name.

A definition is a name, a type and optional parts. The reader finds a part by the
first letter of its keyword, and knows that a definition has ended where no blank
follows.

* `optionalParts_unique` — optional parts are read back;
* `WrittenColumn`, `WrittenColumn.unique` — what the text of a definition says,
  and that it says nothing else;
* `exists_writtenColumn` — every definition that is written says something;
* `exists_text_of_created` — the text of a created table, column by column;
* `table_of_text` — two tables with one text are one table.
-/

namespace SqlBuilder

/-! ## Optional parts -/

/-- The text of optional parts, each one that is there behind a blank and its
keyword. -/
def optionalParts : List (String × Option String) → String
  | [] => ""
  | (_, none) :: parts => optionalParts parts
  | (keyword, some t) :: parts => " " ++ keyword ++ t ++ optionalParts parts

/-- The optional parts that are there, as words. -/
def partWords (parts : List (String × Option String)) : List String :=
  parts.filterMap fun p => p.2.map (p.1 ++ ·)

theorem intercalate_partWords (first : String) (parts : List (String × Option String)) :
    " ".intercalate (first :: partWords parts) = first ++ optionalParts parts := by
  induction parts generalizing first with
  | nil => simp [partWords, optionalParts]
  | cons part parts ih =>
    obtain ⟨keyword, _ | t⟩ := part
    · exact ih first
    · have hwords : partWords ((keyword, some t) :: parts) = (keyword ++ t) :: partWords parts :=
        rfl
      rw [hwords, String.intercalate_cons_cons, ih]
      simp only [optionalParts, String.append_assoc]

/-- What can follow a definition: what ends an item and is no blank. -/
def EndsDefinition (rest : String) : Prop := Ends rest ∧ rest.toList.head? ≠ some ' '

theorem ends_optionalParts (parts : List (String × Option String)) {r : String}
    (hr : EndsDefinition r) : Ends (optionalParts parts ++ r) := by
  induction parts with
  | nil =>
    rw [optionalParts, String.empty_append]
    exact hr.1
  | cons part parts ih =>
    obtain ⟨keyword, _ | t⟩ := part
    · exact ih
    · exact ends_of_head (c := ' ') (by simp [optionalParts]) rfl

theorem head?_toList_append {s t : String} (h : s ≠ "") :
    (s ++ t).toList.head? = s.toList.head? := by
  rw [String.toList_append]
  exact List.head?_append_of_ne_nil _ fun hnil => h (String.toList_inj.mp hnil)

/-- Optional parts that begin like a part with some keyword have a keyword with
its first letter. -/
theorem mem_of_eq_blank_append {parts : List (String × Option String)}
    (hne : ∀ k ∈ parts.map Prod.fst, k ≠ "") {r : String} (hr : EndsDefinition r)
    {keyword rest : String} (hkeyword : keyword ≠ "")
    (h : optionalParts parts ++ r = " " ++ keyword ++ rest) :
    ∃ k ∈ parts.map Prod.fst, k.toList.head? = keyword.toList.head? := by
  induction parts with
  | nil =>
    rw [optionalParts, String.empty_append] at h
    exact absurd (by simp [h]) hr.2
  | cons part parts ih =>
    obtain ⟨hother, hrest⟩ := List.forall_mem_cons.mp hne
    obtain ⟨other, _ | t⟩ := part
    · obtain ⟨k, hk, hhead⟩ := ih hrest h
      exact ⟨k, List.mem_cons_of_mem _ hk, hhead⟩
    · refine ⟨other, List.mem_cons_self, ?_⟩
      simp only [optionalParts, String.append_assoc, String.append_right_inj] at h
      have hhead := congrArg (fun s : String => s.toList.head?) h
      rwa [head?_toList_append hother, head?_toList_append hkeyword] at hhead

/-- **Optional parts are read back**, if their keywords begin with different
letters. -/
theorem optionalParts_unique {xs ys : List (String × Option String)}
    (hkeywords : xs.map Prod.fst = ys.map Prod.fst) (hne : ∀ k ∈ xs.map Prod.fst, k ≠ "")
    (hdistinct : (xs.map Prod.fst).Pairwise fun k l => l.toList.head? ≠ k.toList.head?)
    (hxs : ∀ p ∈ xs, ∀ t, p.2 = some t → IsItem t) (hys : ∀ p ∈ ys, ∀ t, p.2 = some t → IsItem t)
    {r s : String} (hr : EndsDefinition r) (hs : EndsDefinition s)
    (h : optionalParts xs ++ r = optionalParts ys ++ s) : xs = ys ∧ r = s := by
  induction xs generalizing ys with
  | nil =>
    obtain rfl := List.map_eq_nil_iff.mp hkeywords.symm
    exact ⟨rfl, (String.append_right_inj _).mp h⟩
  | cons x xs ih =>
    obtain ⟨y, ys, rfl⟩ : ∃ y ys', ys = y :: ys' := by
      refine List.exists_cons_of_ne_nil ?_
      rintro rfl
      cases hkeywords
    obtain ⟨keyword, a⟩ := x
    obtain ⟨keyword', b⟩ := y
    obtain ⟨hkeyword, htails⟩ := List.cons.inj hkeywords
    obtain rfl : keyword = keyword' := hkeyword
    obtain ⟨hfirst, hothers⟩ := List.forall_mem_cons.mp hne
    obtain ⟨hfresh, hrest⟩ := List.pairwise_cons.mp hdistinct
    obtain ⟨hx, hxrest⟩ := List.forall_mem_cons.mp hxs
    obtain ⟨hy, hyrest⟩ := List.forall_mem_cons.mp hys
    -- no later part can pass for this one: none begins with its letter
    have hclash : ∀ (zs : List (String × Option String)) (u rest : String),
        zs.map Prod.fst = xs.map Prod.fst → EndsDefinition u →
          optionalParts zs ++ u ≠ " " ++ keyword ++ rest := by
      intro zs u rest hzs hu heq
      obtain ⟨k, hk, hhead⟩ := mem_of_eq_blank_append (hzs ▸ hothers) hu hfirst heq
      exact hfresh k (hzs ▸ hk) hhead
    -- the part is there in both, in one of them or in neither
    cases a with
    | none =>
      cases b with
      | none =>
        obtain ⟨hparts, hrs⟩ := ih htails hothers hrest hxrest hyrest h
        exact ⟨by rw [hparts], hrs⟩
      | some u =>
        have hbegins : optionalParts xs ++ r
            = " " ++ keyword ++ (u ++ (optionalParts ys ++ s)) := by
          simpa only [optionalParts, String.append_assoc] using h
        exact absurd hbegins (hclash xs r _ rfl hr)
    | some t =>
      cases b with
      | none =>
        have hbegins : optionalParts ys ++ s
            = " " ++ keyword ++ (t ++ (optionalParts xs ++ r)) := by
          simpa only [optionalParts, String.append_assoc] using h.symm
        exact absurd hbegins (hclash ys s _ htails.symm hs)
      | some u =>
        simp only [optionalParts, String.append_assoc, String.append_right_inj] at h
        obtain ⟨rfl, htail⟩ := IsItem.unique (hx t rfl) (hy u rfl) (ends_optionalParts xs hr)
          (ends_optionalParts ys hs) h
        obtain ⟨hparts, hrs⟩ := ih htails hothers hrest hxrest hyrest htail
        exact ⟨by rw [hparts], hrs⟩

/-! ## Definitions -/

/-- The text of the length behind a type. -/
def lengthText : Option Nat → String
  | none => ""
  | some n => "(" ++ toString n ++ ")"

theorem toString_injective {m n : Nat} (h : toString m = toString n) : m = n := by
  have hdigits : Nat.toDigits 10 m = Nat.toDigits 10 n := by
    simpa using congrArg String.toList h
  calc m = Nat.ofDigitChars 10 (Nat.toDigits 10 m) 0 := Nat.ofDigitChars_ten_toDigits.symm
    _ = Nat.ofDigitChars 10 (Nat.toDigits 10 n) 0 := by rw [hdigits]
    _ = n := Nat.ofDigitChars_ten_toDigits

theorem lengthText_injective {m n : Option Nat} (h : lengthText m = lengthText n) : m = n := by
  have hne : ∀ k : Nat, lengthText (some k) ≠ "" := fun k hk => by
    have hlist := congrArg String.toList hk
    simp [lengthText] at hlist
  cases m with
  | none =>
    cases n with
    | none => rfl
    | some n => exact absurd h.symm (hne n)
  | some m =>
    cases n with
    | none => exact absurd h (hne m)
    | some n =>
      simp only [lengthText, String.append_right_inj, String.append_left_inj] at h
      rw [toString_injective h]

/-- What the text of a column definition says. -/
@[ext]
structure WrittenColumn where
  column : String
  type : ColumnType
  length : Option Nat
  autoIncrement : Bool
  primaryKey : Bool
  /-- The literal of the default value. -/
  preset : Option String
  notNull : Bool

namespace WrittenColumn

/-- A part without a text of its own. -/
def flag (b : Bool) : Option String := if b then some "" else none

theorem flag_injective {b c : Bool} (h : flag b = flag c) : b = c := by
  cases b <;> cases c <;> first | rfl | cases h

/-- The optional parts of a definition. -/
def parts (d : WrittenColumn) : List (String × Option String) :=
  [("AUTO_INCREMENT", flag d.autoIncrement), ("PRIMARY KEY", flag d.primaryKey),
    ("DEFAULT ", d.preset), ("NOT NULL", flag d.notNull)]

/-- The keywords of optional parts. -/
def keywords : List String := ["AUTO_INCREMENT", "PRIMARY KEY", "DEFAULT ", "NOT NULL"]

theorem map_fst_parts (d : WrittenColumn) : d.parts.map Prod.fst = keywords := rfl

/-- The text of a type with its length. -/
def typeText (d : WrittenColumn) : String := d.type.keyword ++ lengthText d.length

/-- The text of the definition. -/
def text (d : WrittenColumn) : String := d.column ++ " " ++ d.typeText ++ optionalParts d.parts

/-- The text is the words of the definition in a row. -/
theorem text_eq (d : WrittenColumn) :
    d.text = " ".intercalate ([d.column, d.typeText]
      ++ (if d.autoIncrement then ["AUTO_INCREMENT"] else [])
      ++ (if d.primaryKey then ["PRIMARY KEY"] else []) ++ d.preset.toList.map ("DEFAULT " ++ ·)
      ++ (if d.notNull then ["NOT NULL"] else [])) := by
  have hwords : [d.column, d.typeText] ++ (if d.autoIncrement then ["AUTO_INCREMENT"] else [])
      ++ (if d.primaryKey then ["PRIMARY KEY"] else []) ++ d.preset.toList.map ("DEFAULT " ++ ·)
      ++ (if d.notNull then ["NOT NULL"] else [])
      = d.column :: d.typeText :: partWords d.parts := by
    -- every combination of parts gives its own list of words
    obtain ⟨column, type, length, auto, primary, preset, notNull⟩ := d
    cases auto <;> cases primary <;> cases preset <;> cases notNull <;> rfl
  rw [hwords, String.intercalate_cons_cons, intercalate_partWords, text, String.append_assoc,
    String.append_assoc]

/-- The name and the literal tell their own ends. -/
structure IsReadable (d : WrittenColumn) : Prop where
  column : IsItem d.column
  preset : ∀ t, d.preset = some t → IsItem t

theorem isAlpha_keyword (type : ColumnType) : ∀ c ∈ type.keyword.toList, c.isAlpha = true := by
  cases type <;> exact List.all_eq_true.mp rfl

theorem keyword_injective {a b : ColumnType} (h : a.keyword = b.keyword) : a = b := by
  have hsome := ColumnType.ofName?_keyword a
  rw [h, ColumnType.ofName?_keyword] at hsome
  exact (Option.some.inj hsome).symm

theorem isNeutral_of_isAlpha {c : Char} (h : c.isAlpha = true) : isNeutral c = true :=
  isNeutral_of_class ⟨rfl, rfl⟩ ⟨rfl, rfl, rfl⟩ rfl h

theorem isNeutral_of_isDigit {c : Char} (h : c.isDigit = true) : isNeutral c = true :=
  isNeutral_of_class ⟨rfl, rfl⟩ ⟨rfl, rfl, rfl⟩ rfl h

/-- A type is an item: the parentheses around its length belong to it. -/
theorem isItem_typeText (d : WrittenColumn) : IsItem d.typeText := by
  have hkeyword : ∀ c ∈ d.type.keyword.toList, isNeutral c = true := fun c hc =>
    isNeutral_of_isAlpha (isAlpha_keyword d.type c hc)
  unfold IsItem typeText
  rw [String.toList_append]
  refine itemFrom_append_of_forall hkeyword ?_
  cases d.length with
  | none => exact .nil
  | some n =>
    have hdigits : ∀ c ∈ (toString n).toList, isNeutral c = true := by
      intro c hc
      have hmem : c ∈ Nat.toDigits 10 n := by simpa using hc
      exact isNeutral_of_isDigit (Nat.isDigit_of_mem_toDigits (by decide) (by decide) hmem)
    -- one parenthesis is open, so that this one does not end the item
    have hclosing : ItemFrom .outside 1 [')'] := .cons (fun _ hdepth => by cases hdepth) .nil
    have hlist : (lengthText (some n)).toList = '(' :: ((toString n).toList ++ [')']) := by
      simp [lengthText]
    rw [hlist]
    exact .cons (fun _ _ => rfl) (itemFrom_append_of_forall hdigits hclosing)

/-- The keyword of a type ends where the parenthesis of the length opens. -/
theorem takeWhile_typeText (d : WrittenColumn) :
    d.typeText.toList.takeWhile (· ≠ '(') = d.type.keyword.toList := by
  have hkeyword : ∀ c ∈ d.type.keyword.toList, decide (c ≠ '(') = true := fun c hc =>
    decide_eq_true (ne_of_class (isAlpha_keyword d.type c hc) rfl)
  rw [typeText, String.toList_append, List.takeWhile_append_of_pos hkeyword]
  cases d.length <;> simp [lengthText]

theorem typeText_injective {d d' : WrittenColumn} (h : d.typeText = d'.typeText) :
    d.type = d'.type ∧ d.length = d'.length := by
  have hkeyword : d.type.keyword = d'.type.keyword := by
    rw [← String.toList_inj, ← takeWhile_typeText, ← takeWhile_typeText, h]
  rw [typeText, typeText, hkeyword, String.append_right_inj] at h
  exact ⟨keyword_injective hkeyword, lengthText_injective h⟩

theorem isItem_of_mem_parts {d : WrittenColumn} (hd : d.IsReadable) :
    ∀ p ∈ d.parts, ∀ t, p.2 = some t → IsItem t := by
  have hflag : ∀ (b : Bool) (t : String), flag b = some t → IsItem t := by
    intro b t h
    cases b with
    | true =>
      obtain rfl := Option.some.inj h
      exact Statement.isItem_empty
    | false => cases h
  simp only [parts, List.forall_mem_cons, List.not_mem_nil, false_implies, implies_true, and_true]
  exact ⟨hflag d.autoIncrement, hflag d.primaryKey, hd.preset, hflag d.notNull⟩

/-- **A definition is read back**: its text says one thing only. -/
theorem unique : DelimitedBy EndsDefinition IsReadable text := by
  intro d d' r s hd hd' hr hs h
  simp only [text, String.append_assoc] at h
  -- the name, the type and the parts, each cut off where it ends
  obtain ⟨hcolumn, hrest⟩ := IsItem.unique hd.column hd'.column (ends_blank _) (ends_blank _) h
  rw [String.append_right_inj] at hrest
  obtain ⟨htyped, hrest⟩ := IsItem.unique d.isItem_typeText d'.isItem_typeText
    (ends_optionalParts _ hr) (ends_optionalParts _ hs) hrest
  obtain ⟨htype, hlength⟩ := typeText_injective htyped
  obtain ⟨hparts, hrs⟩ := optionalParts_unique
    (d.map_fst_parts.trans d'.map_fst_parts.symm) (by rw [map_fst_parts]; decide)
    (by rw [map_fst_parts]; decide) (isItem_of_mem_parts hd) (isItem_of_mem_parts hd') hr hs hrest
  simp only [parts, List.cons.injEq, Prod.mk.injEq, true_and, and_true] at hparts
  obtain ⟨hauto, hprimary, hpreset, hnotNull⟩ := hparts
  exact ⟨WrittenColumn.ext hcolumn htype hlength (flag_injective hauto) (flag_injective hprimary)
    hpreset (flag_injective hnotNull), hrs⟩

end WrittenColumn

/-! ## What is written -/

variable {e e' : Encoder} {c c' : String × ColumnDefinition} {d : WrittenColumn}

/-- What is said of a column whose definition is written under an encoder. -/
structure WrittenColumn.IsOf (e : Encoder) (c : String × ColumnDefinition) (d : WrittenColumn) :
    Prop where
  column : d.column = c.1
  safe : Name.isSafe .plain c.1 = true
  type : d.type.keyword = ColumnType.upperCase c.2.typeName
  length : d.length = c.2.length
  autoIncrement : d.autoIncrement = c.2.autoIncrement
  primaryKey : d.primaryKey = c.2.primaryKey
  preset : Option.Rel (fun v t => e.encode v = .ok t) c.2.defaultValue d.preset
  notNull : d.notNull = c.2.notNull

theorem keyword_of_ofName? {word : String} {type : ColumnType}
    (h : ColumnType.ofName? word = some type) : type.keyword = ColumnType.upperCase word := by
  have hfound := List.find?_some h
  exact of_decide_eq_true hfound

theorem typeText_ok {column t : String} {type : ColumnType} {length : Option Nat}
    (h : ColumnDefinition.typeText column type length = .ok t) :
    t = type.keyword ++ lengthText length := by
  cases length with
  | none =>
    obtain rfl := Except.ok.inj h
    exact (String.append_empty).symm
  | some n =>
    rw [ColumnDefinition.typeText] at h
    split at h
    · obtain rfl := Except.ok.inj h
      simp only [lengthText, String.append_assoc]
    · cases h

/-- The words of a default are one part if there is a default. -/
theorem defaultText_ok {v : Option Value} {words : List String}
    (h : ColumnDefinition.defaultText e v = .ok words) :
    ∃ preset : Option String, Option.Rel (fun v t => e.encode v = .ok t) v preset ∧
      words = preset.toList.map ("DEFAULT " ++ ·) := by
  cases v with
  | none =>
    obtain rfl := Except.ok.inj h
    exact ⟨none, .none, rfl⟩
  | some v =>
    obtain ⟨literal, hliteral, hwords⟩ := ok_of_bind h
    obtain rfl := Except.ok.inj hwords
    exact ⟨some literal, .some hliteral, rfl⟩

/-- **Every definition that is written says something.** -/
theorem exists_writtenColumn {t : String} (h : c.2.text e c.1 = .ok t) :
    ∃ d : WrittenColumn, d.IsOf e c ∧ t = d.text := by
  obtain ⟨column, hcolumn, hrest⟩ := ok_of_bind h
  obtain ⟨rfl, hsafe⟩ := Name.require_ok hcolumn
  cases htype : ColumnType.ofName? c.2.typeName with
  | none =>
    rw [htype] at hrest
    cases hrest
  | some type =>
    rw [htype] at hrest
    obtain ⟨typed, htyped, hrest⟩ := ok_of_bind hrest
    split at hrest
    · cases hrest
    · obtain ⟨words, hwords, ht⟩ := ok_of_bind hrest
      obtain ⟨preset, hpreset, rfl⟩ := defaultText_ok hwords
      let d : WrittenColumn :=
        ⟨c.1, type, c.2.length, c.2.autoIncrement, c.2.primaryKey, preset, c.2.notNull⟩
      refine ⟨d, ⟨rfl, hsafe, keyword_of_ofName? htype, rfl, rfl, rfl, hpreset, rfl⟩, ?_⟩
      rw [← Except.ok.inj ht, typeText_ok htyped]
      exact d.text_eq.symm

theorem exists_of_rel_some {α β : Type} {R : α → β → Prop} {x : Option α} {b : β}
    (h : Option.Rel R x (some b)) : ∃ a, x = some a ∧ R a b := by
  cases h with
  | some hR => exact ⟨_, rfl, hR⟩

/-- What is said of a column is readable, if its default is checked. -/
theorem WrittenColumn.IsOf.isReadable (hs : e.schemas.IsPlain) (h : d.IsOf e c)
    (hc : ∀ v, c.2.defaultValue = some v → v.IsChecked) : d.IsReadable where
  column := h.column ▸ isItem_of_isSafe (by decide) h.safe
  preset := by
    -- blanks and commas of a literal stand between quotes
    intro t ht
    obtain ⟨v, hdefault, hencode⟩ := exists_of_rel_some (ht ▸ h.preset)
    exact (isLiteral_encode hs (hc v hdefault) hencode).isItem

/-- All definitions of a table say something. -/
theorem exists_writtenColumns {columns : List (String × ColumnDefinition)}
    {definitions : List String}
    (h : List.Forall₂ (fun c t => c.2.text e c.1 = .ok t) columns definitions) :
    ∃ ds : List WrittenColumn,
      List.Forall₂ (WrittenColumn.IsOf e) columns ds ∧ definitions = ds.map WrittenColumn.text := by
  induction h with
  | nil => exact ⟨[], .nil, rfl⟩
  | cons hc _ ih =>
    obtain ⟨d, hd, rfl⟩ := exists_writtenColumn hc
    obtain ⟨ds, hds, rfl⟩ := ih
    exact ⟨d :: ds, .cons hd hds, rfl⟩

/-! ## Columns that are written alike -/

/-- Two columns with definitions that are written alike: they have one name, and
differ at most in the case of the word for the type and in what values their
default has one literal for. -/
structure WrittenAlike (e e' : Encoder) (c c' : String × ColumnDefinition) : Prop where
  name : c.1 = c'.1
  type : ColumnType.upperCase c.2.typeName = ColumnType.upperCase c'.2.typeName
  length : c.2.length = c'.2.length
  autoIncrement : c.2.autoIncrement = c'.2.autoIncrement
  primaryKey : c.2.primaryKey = c'.2.primaryKey
  preset : Option.Rel (fun v v' => ∃ literal, e.encode v = .ok literal ∧ e'.encode v' = .ok literal)
    c.2.defaultValue c'.2.defaultValue
  notNull : c.2.notNull = c'.2.notNull

theorem optionRel_join {α β γ : Type} {R : α → γ → Prop} {S : β → γ → Prop} {x : Option α}
    {y : Option β} {z : Option γ} (h : Option.Rel R x z) (h' : Option.Rel S y z) :
    Option.Rel (fun a b => ∃ c, R a c ∧ S b c) x y := by
  cases h with
  | none =>
    cases h'
    exact .none
  | some hR =>
    cases h' with
    | some hS => exact .some ⟨_, hR, hS⟩

theorem WrittenColumn.IsOf.writtenAlike (h : d.IsOf e c) (h' : d.IsOf e' c') :
    WrittenAlike e e' c c' where
  name := h.column.symm.trans h'.column
  type := h.type.symm.trans h'.type
  length := h.length.symm.trans h'.length
  autoIncrement := h.autoIncrement.symm.trans h'.autoIncrement
  primaryKey := h.primaryKey.symm.trans h'.primaryKey
  preset := optionRel_join h.preset h'.preset
  notNull := h.notNull.symm.trans h'.notNull

theorem forall₂_writtenAlike {columns columns' : List (String × ColumnDefinition)}
    {ds : List WrittenColumn} (h : List.Forall₂ (WrittenColumn.IsOf e) columns ds)
    (h' : List.Forall₂ (WrittenColumn.IsOf e') columns' ds) :
    List.Forall₂ (WrittenAlike e e') columns columns' := by
  induction h generalizing columns' with
  | nil =>
    cases h'
    exact .nil
  | cons hd _ ih =>
    cases h' with
    | cons hd' hds' => exact .cons (hd.writtenAlike hd') (ih hds')

/-! ## Tables -/

theorem endsDefinition_comma (t : String) : EndsDefinition (", " ++ t) :=
  ⟨ends_comma t, by simp⟩

theorem endsDefinition_closing (t : String) : EndsDefinition (")" ++ t) :=
  ⟨ends_closing t, by simp⟩

/-- A builder that defines tables by itself, for a schema with plain names. -/
structure Builder.DefinesTables (b : Builder) : Prop where
  entry : ∀ override, b.settings.dialect.verbs .createTable ≠ .custom override
  plain : b.settings.schemas.IsPlain

/-- An accepted definition of a table starts its statement. -/
theorem Builder.DefinesTables.starts {b after : Builder} (hb : b.DefinesTables) {name : String}
    {columns : List (String × ColumnDefinition)}
    (h : b.perform (.verb (.createTable name columns)) = (after, .ok ())) :
    b.settings.Starts (.createTable name columns) after.statement := by
  have hdispatch : b.dispatch (b.settings.dialect.verbs .createTable)
      (.verbRefused .createTable b.settings.dialect.description)
      (.verb (.createTable name columns)) (b.startVerb (.createTable name columns))
      = (after, .ok ()) := (b.perform_verb _).symm.trans h
  cases hentry : b.settings.dialect.verbs .createTable with
  | custom override => exact absurd hentry (hb.entry override)
  | unsupported =>
    rw [hentry, Builder.dispatch] at hdispatch
    cases hdispatch
  | supported =>
    rw [hentry, Builder.dispatch] at hdispatch
    cases hstart : b.startVerb (.createTable name columns) with
    | error fault =>
      rw [hstart] at hdispatch
      cases hdispatch
    | ok b' =>
      rw [hstart] at hdispatch
      obtain ⟨rfl, -⟩ := Prod.mk.inj hdispatch
      obtain ⟨st, hst, hb'⟩ := ok_of_bind hstart
      obtain rfl := Except.ok.inj hb'
      exact Settings.starts_of_start hst

/-- The text of a created table is its name and what is said of its columns. -/
theorem exists_text_of_created {b after : Builder} (hb : b.DefinesTables) {name : String}
    {columns : List (String × ColumnDefinition)}
    (hchecked : ∀ v ∈ (Call.verb (.createTable name columns)).values, v.IsChecked)
    (h : b.perform (.verb (.createTable name columns)) = (after, .ok ())) (t : String) :
    ∃ ds : List WrittenColumn, IsItem name ∧ ds ≠ [] ∧ (∀ d ∈ ds, d.IsReadable) ∧
      List.Forall₂ (WrittenColumn.IsOf b.encoder) columns ds ∧
      after.renderWith t
        = .ok ("CREATE TABLE " ++ name ++ " "
          ++ Statement.parenList (ds.map WrittenColumn.text) ++ t) := by
  have hstarts := hb.starts h
  generalize hst : after.statement = st at hstarts
  cases hstarts with
  | @createTable _ _ definitions hname hne hdefinitions =>
    obtain ⟨ds, hds, rfl⟩ := exists_writtenColumns hdefinitions
    refine ⟨ds, isItem_of_isSafe (by decide) hname, ne_nil_of_forall₂ hds hne, fun d hd => ?_,
      hds, ?_⟩
    · obtain ⟨c, hc, hof⟩ := exists_left_of_forall₂ hds hd
      exact hof.isReadable hb.plain fun v hv => hchecked v (List.mem_filterMap.mpr ⟨c, hc, hv⟩)
    · have htext : after.statement.text
          = .ok ("CREATE TABLE " ++ name ++ " "
            ++ Statement.parenList (ds.map WrittenColumn.text)) := by
        rw [hst, Statement.text_of_parts rfl rfl]
        simp [Statement.named, Verb.keyword, String.append_assoc]
      rw [Builder.renderWith, htext]
      rfl

/-- **Created tables are unambiguous.** Two accepted definitions of tables with
one text, whatever the builders have done before and however they end their
statements, name one table, and columns that are written alike, in one order. -/
theorem table_of_text {b b' after after' : Builder} (hb : b.DefinesTables)
    (hb' : b'.DefinesTables) {name name' : String}
    {columns columns' : List (String × ColumnDefinition)}
    (hchecked : ∀ v ∈ (Call.verb (.createTable name columns)).values, v.IsChecked)
    (hchecked' : ∀ v ∈ (Call.verb (.createTable name' columns')).values, v.IsChecked)
    (h : b.perform (.verb (.createTable name columns)) = (after, .ok ()))
    (h' : b'.perform (.verb (.createTable name' columns')) = (after', .ok ())) {t t' : String}
    (htext : after.renderWith t = after'.renderWith t') :
    name = name' ∧ List.Forall₂ (WrittenAlike b.encoder b'.encoder) columns columns' := by
  obtain ⟨ds, hname, hne, hreadable, hds, hrender⟩ := exists_text_of_created hb hchecked h t
  obtain ⟨ds', hname', hne', hreadable', hds', hrender'⟩ :=
    exists_text_of_created hb' hchecked' h' t'
  rw [hrender, hrender', Except.ok.injEq] at htext
  simp only [String.append_assoc, String.append_right_inj] at htext
  obtain ⟨hnames, hrest⟩ := IsItem.unique hname hname' (ends_blank _) (ends_blank _) htext
  rw [String.append_right_inj] at hrest
  obtain ⟨rfl, -⟩ := parenList_unique_of_follow WrittenColumn.unique
    endsDefinition_comma endsDefinition_closing hreadable hreadable' hne hne' hrest
  exact ⟨hnames, forall₂_writtenAlike hds hds'⟩

/-- One table, created by two builders, one of which had another statement before,
with keywords for names and a default that holds the rest of its own definition
and another column. -/
theorem table_of_text_keywords :
    let columns : List (String × ColumnDefinition) :=
      [("DEFAULT", {
          typeName := "VarChar"
          length := some 5
          notNull := true
          defaultValue := some (.text " 1\" NOT NULL, b INT) ") }),
        ("b", { typeName := "int", autoIncrement := true, primaryKey := true }),
        ("c", { typeName := "DATE", defaultValue := some .null })]
    let columns' : List (String × ColumnDefinition) :=
      [("DEFAULT", {
          typeName := "VARCHAR"
          length := some 5
          notNull := true
          defaultValue := some (.text "1\" NOT NULL, b INT)") }),
        ("b", { typeName := "INT", autoIncrement := true, primaryKey := true }),
        ("c", { typeName := "date", defaultValue := some .null })]
    let text := "CREATE TABLE SET (" ++
      "DEFAULT VARCHAR(5) DEFAULT \"1\\\" NOT NULL, b INT)\" NOT NULL, " ++
      "b INT AUTO_INCREMENT PRIMARY KEY, c DATE DEFAULT NULL)"
    let b := Builder.new .universal
    let b' : Builder := ⟨(Builder.ofDialect .mysql55 .universal).settings, .named .delete "x"⟩
    let after := (b.perform (.verb (.createTable "SET" columns))).1
    let after' := (b'.perform (.verb (.createTable "SET" columns'))).1
    after.renderWith "" = .ok text ∧ after'.renderWith "" = .ok text ∧
      List.Forall₂ (WrittenAlike b.encoder b'.encoder) columns columns' := by
  intro columns columns' text b b' after after'
  have hb : b.DefinesTables := ⟨nofun, nofun⟩
  have hb' : b'.DefinesTables := ⟨nofun, nofun⟩
  have hchecked : ∀ v ∈ (Call.verb (.createTable "SET" columns)).values, v.IsChecked := by
    simp [Call.values, columns, Value.IsChecked]
  have hchecked' : ∀ v ∈ (Call.verb (.createTable "SET" columns')).values, v.IsChecked := by
    simp [Call.values, columns', Value.IsChecked]
  have h : b.perform (.verb (.createTable "SET" columns)) = (after, .ok ()) :=
    Prod.ext rfl (ok_of_toOption (by decide +kernel))
  have h' : b'.perform (.verb (.createTable "SET" columns')) = (after', .ok ()) :=
    Prod.ext rfl (ok_of_toOption (by decide +kernel))
  have htext : after.renderWith "" = .ok text := ok_of_toOption (by decide +kernel)
  have htext' : after'.renderWith "" = .ok text := ok_of_toOption (by decide +kernel)
  exact ⟨htext, htext', (table_of_text hb hb' hchecked hchecked' h h' (htext.trans htext'.symm)).2⟩

end SqlBuilder
