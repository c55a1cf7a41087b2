import Mathlib.Data.List.TakeDrop
import SqlBuilder.Proofs.Literal

/-!
# The forms of literals

A value stands in a statement as a quoted text, as a word, or as a number with
a minus sign. This needs two promises of callers: column references have been
checked, and tables and columns are registered under plain names. Without them
a reference could be any text at all.

* `Value.IsChecked`, `Schemas.IsPlain` — the two promises;
* `IsLiteral` — the forms;
* `isLiteral_encode` — the encoder writes nothing else;
* `IsLiteral.isClosed` — none of them leaves a quote open.
-/

namespace SqlBuilder

open Quotation

/-- A value whose column reference, if it is one, has been checked. -/
def Value.IsChecked : Value → Prop
  | .column reference => Name.isQualified reference = true
  | _ => True

/-- Every registered column has a plain name in a table with a plain name. -/
def Schemas.IsPlain (s : Schemas) : Prop :=
  ∀ table column, (s.validator? table column).isSome = true →
    Name.isSafe .plain table = true ∧ Name.isSafe .plain column = true

/-- The characters of words: of numbers, keywords, columns and variables. -/
def isWordChar (c : Char) : Bool := c.isAlphanum || c = '_' || c = '.' || c = '@'

/-- The texts that stand for values in a statement. -/
inductive IsLiteral (family : Family) : String → Prop
  | quoted (s : String) : IsLiteral family (Encoder.quote family s)
  | word {t : String} (hne : t.toList ≠ []) (hchars : ∀ c ∈ t.toList, isWordChar c = true) :
    IsLiteral family t
  /-- A word that begins with a digit, with a minus sign in front. -/
  | negative {t : String} {d : Char} {cs : List Char} (ht : t.toList = '-' :: d :: cs)
    (hd : d.isDigit = true) (hchars : ∀ c ∈ cs, isWordChar c = true) : IsLiteral family t

theorem isWordChar_of_isAlphanum {c : Char} (h : c.isAlphanum = true) : isWordChar c = true := by
  rw [isWordChar, h]
  rfl

theorem isWordChar_of_isDigit {c : Char} (h : c.isDigit = true) : isWordChar c = true := by
  apply isWordChar_of_isAlphanum
  rw [Char.isAlphanum, h, Bool.or_true]

/-- Names without parentheses, asterisks and dollar signs are words. -/
theorem isWordChar_of_allows {rule : NameRule}
    (hrule : rule.parens = false ∧ rule.asterisk = false ∧ rule.dollarSign = false) {c : Char}
    (h : rule.allows c = true) : isWordChar c = true := by
  unfold NameRule.allows at h
  rw [Bool.or_eq_true, Bool.or_eq_true] at h
  rcases h with (h | h) | h
  · exact isWordChar_of_isAlphanum h
  · rw [decide_eq_true_eq] at h
    subst h
    rfl
  · split at h <;> first | rfl | simp [hrule] at h

namespace Name

theorem isSafe_iff {rule : NameRule} {s : String} :
    isSafe rule s = true ↔ s.toList ≠ [] ∧ ∀ c ∈ s.toList, rule.allows c = true := by
  simp [isSafe, isSafeList]

/-- A text with a period is what stands before and after its first one. -/
theorem eq_of_splitAtPeriod? {cs before after : List Char}
    (h : splitAtPeriod? cs = some (before, after)) : cs = before ++ '.' :: after := by
  unfold splitAtPeriod? at h
  rw [List.span_eq_takeWhile_dropWhile] at h
  have hwhole := List.takeWhile_append_dropWhile (p := (· ≠ '.')) (l := cs)
  -- the character that ends the first part is the period
  have hhead := List.head?_dropWhile_not (fun c : Char => decide (c ≠ '.')) cs
  split at h
  · next b c a hsplit =>
    rw [Prod.mk.injEq] at hsplit
    rw [Option.some.injEq, Prod.mk.injEq] at h
    obtain ⟨hb, ha⟩ := hsplit
    obtain ⟨rfl, rfl⟩ := h
    rw [ha] at hhead
    obtain rfl : c = '.' := by simpa using hhead
    rw [← hb, ← ha]
    exact hwhole.symm
  · simp at h

end Name

/-! ## Numbers -/

theorem isLiteral_natural (family : Family) (n : Nat) : IsLiteral family n.repr := by
  have hdigits : n.repr.toList = Nat.toDigits 10 n := by simp
  refine .word (hdigits ▸ Nat.toDigits_ne_nil) fun c hc => ?_
  rw [hdigits] at hc
  exact isWordChar_of_isDigit (Nat.isDigit_of_mem_toDigits (by decide) (by decide) hc)

/-- A minus sign goes in front of the digits of a negative integer. -/
theorem isLiteral_integer (family : Family) (n : Int) : IsLiteral family (toString n) := by
  cases n with
  | ofNat n => exact isLiteral_natural family n
  | negSucc n =>
    -- a minus sign and the digits of a positive number, of which there is at least one
    have hne : Nat.toDigits 10 (n + 1) ≠ [] := Nat.toDigits_ne_nil
    have hdigit : ∀ c ∈ Nat.toDigits 10 (n + 1), c.isDigit = true := fun c hc =>
      Nat.isDigit_of_mem_toDigits (by decide) (by decide) hc
    obtain ⟨d, cs, hcs⟩ := List.exists_cons_of_ne_nil hne
    have ht : (toString (Int.negSucc n)).toList = '-' :: d :: cs := by
      show ("-" ++ (n + 1).repr).toList = _
      simp [hcs]
    rw [hcs] at hdigit
    exact .negative ht (hdigit d List.mem_cons_self)
      fun c hc => isWordChar_of_isDigit (hdigit c (List.mem_cons_of_mem d hc))

/-- The digits of a number without an exponent: they begin with a digit and
have nothing among them but one point. -/
theorem positionalText_plain {digits : List Char} (hne : digits ≠ [])
    (hdigits : ∀ c ∈ digits, c.isDigit = true) (exponent : Int) :
    ∃ d cs, FloatStyle.plain.positionalText digits exponent = d :: cs ∧ d.isDigit = true ∧
      ∀ c ∈ cs, isWordChar c = true := by
  -- apart from the point there are only the given digits and zeros
  have hword : ∀ c ∈ digits, isWordChar c = true := fun c hc =>
    isWordChar_of_isDigit (hdigits c hc)
  have hzeros : ∀ n, ∀ c ∈ FloatStyle.zeros n, isWordChar c = true := by
    intro n c hc
    rw [List.eq_of_mem_replicate hc]
    rfl
  obtain ⟨d, cs, rfl⟩ := List.exists_cons_of_ne_nil hne
  have hd : d.isDigit = true := hdigits d List.mem_cons_self
  have hcs : ∀ c ∈ cs, isWordChar c = true := fun c hc => hword c (List.mem_cons_of_mem d hc)
  unfold FloatStyle.positionalText
  split
  · -- no places behind the point
    refine ⟨d, cs ++ FloatStyle.zeros exponent.toNat, by simp [FloatStyle.plain], hd, ?_⟩
    intro c hc
    rcases List.mem_append.mp hc with hc | hc
    · exact hcs c hc
    · exact hzeros _ c hc
  · dsimp only
    split
    · next hplaces =>
      -- the point stands behind at least one digit
      have htake : (d :: cs).length - (-exponent).toNat
          = cs.length - (-exponent).toNat + 1 := by
        rw [List.length_cons] at *
        omega
      rw [htake, List.take_succ_cons, List.drop_succ_cons, List.cons_append]
      refine ⟨d, _, rfl, hd, ?_⟩
      intro c hc
      rcases List.mem_append.mp hc with hc | hc
      · exact hcs c (List.mem_of_mem_take hc)
      · rcases List.mem_cons.mp hc with rfl | hc
        · rfl
        · exact hcs c (List.mem_of_mem_drop hc)
    · -- the number is below one and begins with a zero
      refine ⟨'0', _, rfl, by decide, ?_⟩
      intro c hc
      rcases List.mem_cons.mp hc with rfl | hc
      · rfl
      · rcases List.mem_append.mp hc with hc | hc
        · exact hzeros _ c hc
        · exact hword c hc

theorem isLiteral_float (family : Family) (x : Finite64) :
    IsLiteral family (FloatStyle.plain.write x) := by
  have hne : Nat.toDigits 10 (x.shortest FloatStyle.plain.tie).digits ≠ [] := Nat.toDigits_ne_nil
  obtain ⟨d, cs, hbody, hd, hcs⟩ := positionalText_plain hne
    (fun c hc => Nat.isDigit_of_mem_toDigits (by decide) (by decide) hc)
    (x.shortest FloatStyle.plain.tie).exponent
  have htext : (FloatStyle.plain.write x).toList
      = if x.negative then '-' :: d :: cs else d :: cs := by
    unfold FloatStyle.write
    rw [String.toList_ofList]
    simp only [show ∀ p, FloatStyle.plain.positional p = true from fun _ => rfl, if_true, hbody]
  cases hsign : x.negative with
  | true =>
    rw [hsign, if_pos rfl] at htext
    exact .negative htext hd hcs
  | false =>
    rw [hsign, if_neg (by decide)] at htext
    refine .word (by simp [htext]) fun c hc => ?_
    rw [htext] at hc
    rcases List.mem_cons.mp hc with rfl | hc
    · exact isWordChar_of_isDigit hd
    · exact hcs c hc

/-! ## What the encoder writes -/

theorem isLiteral_qualified (family : Family) {t : String} {table column : List Char}
    (ht : t.toList = table ++ '.' :: column)
    (htable : ∀ c ∈ table, NameRule.allows .plain c = true)
    (hcolumn : ∀ c ∈ column, NameRule.allows .plain c = true) : IsLiteral family t := by
  refine .word (by simp [ht]) fun c hc => ?_
  rw [ht] at hc
  rcases List.mem_append.mp hc with hc | hc
  · exact isWordChar_of_allows (by decide) (htable c hc)
  · rcases List.mem_cons.mp hc with rfl | hc
    · rfl
    · exact isWordChar_of_allows (by decide) (hcolumn c hc)

theorem isLiteral_of_isQualified (family : Family) {t : String}
    (h : Name.isQualified t = true) : IsLiteral family t := by
  unfold Name.isQualified at h
  split at h
  · next table column hsplit =>
    simp only [Name.isSafeList, Bool.and_eq_true, List.all_eq_true] at h
    exact isLiteral_qualified family (Name.eq_of_splitAtPeriod? hsplit) h.1.2 h.2.2
  · simp at h

theorem isLiteral_of_isColumnName (family : Family) {s : Schemas} (hs : s.IsPlain) {t : String}
    (h : s.isColumnName t = true) : IsLiteral family t := by
  unfold Schemas.isColumnName at h
  split at h
  · next table column hsplit =>
    rw [Bool.and_eq_true] at h
    obtain ⟨htable, hcolumn⟩ := hs _ _ h.2
    rw [Name.isSafe_iff, String.toList_ofList] at htable hcolumn
    exact isLiteral_qualified family (Name.eq_of_splitAtPeriod? hsplit) htable.2 hcolumn.2
  · simp at h

theorem isLiteral_encodeText {e : Encoder} (hs : e.schemas.IsPlain) {s t : String}
    (h : e.encodeText s = .ok t) : IsLiteral e.family t := by
  unfold Encoder.encodeText at h
  dsimp only at h
  split at h
  · next hcolumn =>
    rw [Except.ok.injEq] at h
    subst h
    exact isLiteral_of_isColumnName e.family hs hcolumn
  · split at h
    · -- a variable
      unfold Name.require at h
      split at h
      · next hsafe =>
        rw [Except.ok.injEq] at h
        subst h
        obtain ⟨hne, hchars⟩ := Name.isSafe_iff.mp hsafe
        exact .word hne fun c hc => isWordChar_of_allows (by decide) (hchars c hc)
      · simp at h
    · split at h
      · -- two double quotes are the quoted empty text
        rw [Except.ok.injEq] at h
        subst h
        exact Encoder.quote_empty e.family ▸ .quoted ""
      · rw [Except.ok.injEq] at h
        subst h
        exact .quoted _

/-- **The encoder writes literals.** Checked values are written as quoted texts,
words, or numbers with a sign. -/
theorem isLiteral_encode {e : Encoder} (hs : e.schemas.IsPlain) {v : Value} (hv : v.IsChecked)
    {t : String} (h : e.encode v = .ok t) : IsLiteral e.family t := by
  cases v with
  | null =>
    obtain rfl := Except.ok.inj h
    exact .word (by decide) (List.all_eq_true.mp rfl)
  | bool b =>
    obtain rfl := Except.ok.inj h
    cases b <;> exact .word (by decide) (List.all_eq_true.mp rfl)
  | int n =>
    obtain rfl := Except.ok.inj h
    exact isLiteral_integer e.family n.toInt
  | float x =>
    cases x with
    | finite x =>
      simp only [Encoder.encode, Binary64.isFinite, if_true, Binary64.text, Except.ok.injEq] at h
      subst h
      exact isLiteral_float e.family x
    | nan => simp [Encoder.encode, Binary64.isFinite] at h
    | infinite negative => simp [Encoder.encode, Binary64.isFinite] at h
  | text s =>
    change e.encodeText s = .ok t at h
    exact isLiteral_encodeText hs h
  | instant m =>
    obtain rfl := Except.ok.inj h
    exact .quoted _
  | wall m =>
    obtain rfl := Except.ok.inj h
    exact .quoted _
  | column reference =>
    obtain rfl := Except.ok.inj h
    exact isLiteral_of_isQualified e.family hv

/-! ## Literals and quotes -/

/-- The characters of literals that are not quoted. -/
def isBareChar (c : Char) : Bool := isWordChar c || c = '-'

theorem isBareChar_of_negative {t : String} {d : Char} {cs : List Char}
    (ht : t.toList = '-' :: d :: cs) (hd : d.isDigit = true)
    (hchars : ∀ c ∈ cs, isWordChar c = true) : ∀ c ∈ t.toList, isBareChar c = true := by
  intro c hc
  rw [ht] at hc
  rw [isBareChar, Bool.or_eq_true, decide_eq_true_eq]
  rcases List.mem_cons.mp hc with rfl | hc
  · exact .inr rfl
  · rcases List.mem_cons.mp hc with rfl | hc
    · exact .inl (isWordChar_of_isDigit hd)
    · exact .inl (hchars c hc)

theorem isQuote_of_isBareChar {c : Char} (h : isBareChar c = true) : isQuote c = false :=
  isQuote_eq_false rfl rfl h

theorem isQuote_of_isWordChar {c : Char} (h : isWordChar c = true) : isQuote c = false :=
  isQuote_eq_false rfl rfl h

/-- A literal leaves no quote open. -/
theorem IsLiteral.isClosed {family : Family} {t : String} (h : IsLiteral family t) :
    IsClosed t.toList := by
  cases h with
  | quoted s => exact Encoder.isClosed_quote family s
  | word hne hchars => exact isClosed_of_forall fun c hc => isQuote_of_isWordChar (hchars c hc)
  | negative ht hd hchars =>
    exact isClosed_of_forall fun c hc =>
      isQuote_of_isBareChar (isBareChar_of_negative ht hd hchars c hc)

end SqlBuilder
