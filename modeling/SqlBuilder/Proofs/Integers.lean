import SqlBuilder.Proofs.Equalities
import SqlBuilder.Proofs.FilterDocuments
import SqlBuilder.Proofs.ShortestDigits
import SqlBuilder.Proofs.TableDefinitions
import SqlBuilder.Proofs.Validation

/-!
# Integers in documents

An integer in a document can have 64 bits without a sign. One that fits 64 bits
with a sign is kept. Any other becomes the double nearest to it, whose neighbours
are 2048 away, and is written as the roundest number that is read as this double:
it loses its last three digits at least, and nothing is reported.

* `Finite64.exists_roundest` — the double of a number with 64 bits, and its digits;
* `Value.WrittenAs` — the number that is written for an integer;
* `Value.exists_writtenAs` — each integer of a document is written as one number;
* `Builder.WritesDocument` — the steps that write the values of a document;
* `Builder.stored_of_document` — the literals that an accepted step stores;
* `integer_literals` — the result.
-/

namespace SqlBuilder

/-! ## The double of a large integer -/

namespace Finite64

variable {k : Nat}

/-- A number with 64 bits is read as a double that is written as the roundest number
that is read as it. This one ends in three zeros. -/
theorem exists_roundest (hlow : 2 ^ 63 ≤ k) (hhigh : k < 2 ^ 64) :
    ∃ x m, Binary64.ofInt k = .finite x ∧ x.IsRoundest m ∧
      FloatStyle.plain.write x = toString m ∧ 1000 ∣ m := by
  have hlog : k.log2 = 52 + 11 := (Nat.log2_eq_iff (by omega)).mpr ⟨hlow, hhigh⟩
  have hwidth : Decimal.width k ≤ 310 := by
    have hdigits : Decimal.width k ≤ 20 :=
      (Nat.length_toDigits_le_iff (by decide) (by decide)).mpr (by omega)
    omega
  obtain ⟨x, hread, hsign, hscale⟩ := exists_ofInt hlog (by decide) hwidth
  -- the next double is 2048 away, and 4096 from two to the 64 on
  obtain ⟨t, ht, hscale⟩ : ∃ t, (t = 11 ∨ t = 12) ∧ x.scale = 1074 + t := by
    rcases hscale with h | h
    · exact ⟨11, .inl rfl, h⟩
    · exact ⟨12, .inr rfl, h⟩
  have hstep : 2 ^ 11 ≤ 2 ^ t := Nat.pow_le_pow_right (by decide) (by omega)
  have hsteps : 2 ^ t ≤ 2 ^ 12 := Nat.pow_le_pow_right (by decide) (by omega)
  have hlarge : 10 ^ 16 * unitsPerOne ≤ x.units := by
    have hupper := (isNear_of_ofInt hscale (by omega) hread).upper
    rw [units_eq hscale]
    exact Nat.mul_le_mul_right _ (by omega)
  obtain ⟨m, hm, hwrite⟩ := exists_write hsign hlarge
  refine ⟨x, m, hread, hm, hwrite, ?_⟩
  -- a multiple of a thousand is read as the same double, and the roundest is one too
  have habove : IsNear x.significand (2 ^ t) ((x.significand * 2 ^ t / 10 ^ 3 + 1) * 10 ^ 3) :=
    isNear_above (by decide) (by omega)
  exact hm.round 3 _ (ofInt_of_isNear hsign hscale (by omega)
    (width_le_of_isNear hscale habove) habove) (Nat.dvd_mul_left _ _)

end Finite64

/-! ## The number that is written -/

namespace Value

/-- The number that is written for an integer of a document: the integer itself if it
fits 64 bits with a sign, or else the roundest number that is read as its double. -/
inductive WrittenAs (n : Int) : Int → Prop
  | itself (hn : n < 2 ^ 63) : WrittenAs n n
  | rounded (hn : 2 ^ 63 ≤ n) {x : Finite64} {m : Nat} (hread : Binary64.ofInt n = .finite x)
    (hm : x.IsRoundest m) : WrittenAs n m

variable {n : Int}

theorem WrittenAs.unique {m m' : Int} (h : WrittenAs n m) (h' : WrittenAs n m') : m = m' := by
  cases h with
  | itself hn =>
    cases h' with
    | itself => rfl
    | rounded hn' => omega
  | rounded hn hread hm =>
    cases h' with
    | itself hn' => omega
    | rounded _ hread' hm' =>
      obtain rfl := Binary64.finite.inj (hread.symm.trans hread')
      rw [hm.unique hm']

/-- The number that is written has the digits of the integer only if it is the same. -/
theorem WrittenAs.eq_of_toString {m : Int} (h : WrittenAs n m) (hdigits : toString m = toString n) :
    m = n := by
  cases h with
  | itself => rfl
  | rounded hn =>
    obtain ⟨k, rfl⟩ : ∃ k : Nat, n = k := Int.eq_ofNat_of_zero_le (by omega)
    exact congrArg Int.ofNat (toString_injective hdigits)

/-- **Each integer of a document is written as one number**, and one that does not fit
64 bits with a sign as a multiple of a thousand. -/
theorem exists_writtenAs (hlow : -2 ^ 63 ≤ n) (hhigh : n < 2 ^ 64) :
    ∃ m, WrittenAs n m ∧ (n < 2 ^ 63 ∨ 1000 ∣ m) ∧
      ∀ e : Encoder, e.encode (ofInteger n) = .ok (toString m) := by
  by_cases hn : n < 2 ^ 63
  · have hfits : Json.isInt64 n = true := decide_eq_true ⟨hlow, hn⟩
    obtain ⟨hint, hback⟩ := ofInteger_of_isInt64 hfits
    refine ⟨n, .itself hn, .inl hn, fun e => ?_⟩
    rw [hint, Encoder.encode, hback]
  · -- no sign is left, and the integer goes through a double
    have hn : 2 ^ 63 ≤ n := Int.not_lt.mp hn
    obtain ⟨k, rfl⟩ : ∃ k : Nat, n = k := Int.eq_ofNat_of_zero_le (by omega)
    obtain ⟨x, m, hread, hm, hwrite, hdvd⟩ :=
      Finite64.exists_roundest (k := k) (by omega) (by omega)
    refine ⟨m, .rounded hn hread hm, .inr (Int.natCast_dvd_natCast.mpr hdvd), fun e => ?_⟩
    have hfloat : ofInteger k = .float (.finite x) := by
      rw [ofInteger, hread]
      exact if_neg fun h => (Int.not_lt.mpr hn) h.2
    rw [hfloat]
    exact congrArg Except.ok hwrite

end Value

/-! ## Documents that are written -/

/-- An integer of an object is an integer of its row. -/
theorem mem_rowOfJson {entries : List (String × Json)} {row : List (String × Value)}
    (h : rowOfJson (.object entries) = .ok row) {key : String} {n : Int}
    (hentry : (key, Json.integer n) ∈ entries) : (key, Value.ofInteger n) ∈ row := by
  obtain ⟨p, hp, hread⟩ := exists_left_of_forall₂ (forall₂_of_mapM h).flip hentry
  obtain rfl := Except.ok.inj hread
  exact hp

namespace Settings

/-- Without a validator the literal of a value is its own. -/
theorem literalFor_of_validator? {s : Settings} {table : Option String} {key : String} {v : Value}
    (h : ∀ t, table = some t → s.schemas.validator? t key = none) :
    s.literalFor table key v = s.encoder.encode v := by
  cases table with
  | none => rfl
  | some t =>
    simp only [literalFor, valueFor, Schemas.check_eq, h t rfl]
    rfl

theorem callText?_ofInteger (n : Int) : callText? (Value.ofInteger n) = none := by
  unfold Value.ofInteger
  split <;> rfl

end Settings

namespace Builder

variable {b : Builder} {entries : List (String × Json)} {row : List (String × Value)} {s : Step}
  {c : Call Builder} {t key : String} {n : Int}

/-- An integer is stored under its column by every call that writes rows. -/
theorem stored_of_writes (hb : b.settings.dialect.PagesOnly) (hwrites : b.Writes t c row)
    (haccepted : (b.perform c).2 = .ok ()) (hmem : (key, Value.ofInteger n) ∈ row) :
    ∃ literal, b.settings.literalFor (some t) key (.ofInteger n) = .ok literal ∧
      (key, literal) ∈ (b.perform c).1.statement.values := by
  obtain ⟨added, hvalues, hpairs⟩ := stored_of_accepted hb hwrites haccepted
  obtain ⟨⟨name, literal⟩, hq, rfl, hliteral⟩ := exists_left_of_forall₂ hpairs.flip hmem
  have hkept : c.keepsText (Value.ofInteger n) = false := by
    cases hwrites with
    | insert | replace => rfl
    | set => rw [Call.keepsText, Settings.callText?_ofInteger, Option.isSome_none]
  rw [hvalues]
  exact ⟨literal, hliteral hkept, List.mem_append_right _ hq⟩

/-- An integer is stored under the marked name of its variable. -/
theorem stored_of_variables (hb : b.settings.dialect.PagesOnly) (hupdate : b.inUpdate = false)
    (haccepted : (b.perform (.set row)).2 = .ok ()) (hmem : (key, Value.ofInteger n) ∈ row) :
    ∃ literal, b.settings.literalFor none key (.ofInteger n) = .ok literal ∧
      (b.settings.variableMark ++ key, literal) ∈ (b.perform (.set row)).1.statement.values := by
  have heffect := effect_of_accepted hb haccepted
  generalize (b.perform (.set row)).1 = after at heffect
  cases heffect with
  | toColumns hinside _ =>
    -- columns are assigned in an update only
    rw [hupdate] at hinside
    cases hinside
  | toVariables _ _ hvalues =>
    obtain ⟨-, hpairs⟩ := Settings.assignments_ok hvalues
    obtain ⟨⟨name, literal⟩, hq, hpair⟩ := exists_left_of_forall₂ hpairs.flip hmem
    obtain ⟨rfl, -, hcall | ⟨-, hliteral⟩⟩ := Settings.assignment_ok hpair
    · -- an integer is no function call
      rw [Settings.callText?_ofInteger] at hcall
      cases hcall
    · exact ⟨literal, hliteral, List.mem_map_of_mem hq⟩

/-- The steps that write the values of an object, with the table whose validators are
asked and what the names become: a row is inserted, columns are assigned in an update,
and variables outside. -/
inductive WritesDocument (b : Builder) (entries : List (String × Json)) :
    Step → Option String → (String → String) → Prop
  | inserts (table : String) :
    WritesDocument b entries (.insertJson table (.object entries)) (some table) id
  | assigns (hupdate : b.inUpdate = true) :
    WritesDocument b entries (.setJson (.object entries)) (some b.statement.name) id
  | declares (hupdate : b.inUpdate = false) :
    WritesDocument b entries (.setJson (.object entries)) none (b.settings.variableMark ++ ·)

/-- An accepted step has read its document and makes its call. -/
theorem ok_of_performRead {α : Type} {x : Except Fault α} {f : α → Call Builder}
    (h : (b.performRead (x.map f)).2 = .ok ()) :
    ∃ a, x = .ok a ∧ b.performRead (x.map f) = b.perform (f a) := by
  rcases b.performRead_map x f with hread | ⟨fault, -, hrejected⟩
  · exact hread
  · rw [hrejected] at h
    cases h

/-- **The literals of the integers of a document**: an accepted step stores each under
its name. -/
theorem stored_of_document (hb : b.settings.dialect.PagesOnly) {table : Option String}
    {rename : String → String} (hwrites : b.WritesDocument entries s table rename)
    (haccepted : (b.step s).2 = .ok ()) (hentry : (key, Json.integer n) ∈ entries) :
    ∃ literal, b.settings.literalFor table key (.ofInteger n) = .ok literal ∧
      (rename key, literal) ∈ (b.step s).1.statement.values := by
  cases hwrites with
  | inserts table =>
    obtain ⟨row, hrow, hstep⟩ := ok_of_performRead haccepted
    rw [step, hstep] at haccepted ⊢
    exact stored_of_writes hb (.insert row) haccepted (mem_rowOfJson hrow hentry)
  | assigns hupdate =>
    obtain ⟨row, hrow, hstep⟩ := ok_of_performRead haccepted
    rw [step, hstep] at haccepted ⊢
    exact stored_of_writes hb (.set hupdate rfl row) haccepted (mem_rowOfJson hrow hentry)
  | declares hupdate =>
    obtain ⟨row, hrow, hstep⟩ := ok_of_performRead haccepted
    rw [step, hstep] at haccepted ⊢
    exact stored_of_variables hb hupdate haccepted (mem_rowOfJson hrow hentry)

/-- The condition of a document with an integer under a key. -/
theorem condition_of_document (hb : b.settings.dialect.PagesOnly)
    (hkey : Filter.isFieldKey key = true)
    (haccepted : (b.step (.filterByJson (.object [(key, .integer n)]))).2 = .ok ()) :
    ∃ literal, b.settings.encoder.encode (.ofInteger n) = .ok literal ∧
      (b.step (.filterByJson (.object [(key, .integer n)]))).1.statement.condition
        = some (key ++ " = " ++ literal) := by
  have hread : Filter.ofJson (.object [(key, .integer n)])
      = .ok (.field key (.value (.ofInteger n))) := Filter.ofEntry_of_reads (.field hkey rfl)
  obtain ⟨f, hf, hstep⟩ := ok_of_performRead haccepted
  obtain rfl := Except.ok.inj (hread.symm.trans hf)
  rw [step, hstep] at haccepted ⊢
  have heffect := effect_of_accepted hb haccepted
  generalize (b.perform (.clause (.filterBy (.field key (.value (.ofInteger n)))))).1 = after
    at heffect
  cases heffect with
  | clause hfills =>
    cases hfills with
    | filterBy hcondition =>
      rw [Encoder.condition_value hkey] at hcondition
      obtain ⟨literal, hliteral, htext⟩ := ok_of_bind hcondition
      obtain rfl := Except.ok.inj htext
      exact ⟨literal, hliteral, rfl⟩

end Builder

/-- **The literals of integers.** Each integer of 64 bits, with or without a sign, is
written as one number, and no encoder fails. Its own digits are written if it fits 64
bits with a sign. If it does not, they are written only if no other number that is read
as the same double is rounder or as round and nearer to it; then it is a multiple of a
thousand. The same number stands in the rows and variables that are written from
documents, under names without a validator, and in the condition of a filter document. -/
theorem integer_literals {n : Int} (hlow : -2 ^ 63 ≤ n) (hhigh : n < 2 ^ 64) :
    ∃ m : Int, (∀ k, Value.WrittenAs n k ↔ k = m) ∧ (m = n → n < 2 ^ 63 ∨ 1000 ∣ n) ∧
      (∀ e : Encoder, (Value.ofJson (.integer n) >>= e.encode) = .ok (toString m)) ∧
      (∀ e : Encoder, (Value.ofJson (.integer n) >>= e.encode) = .ok (toString n) ↔ m = n) ∧
      ∀ b : Builder, b.settings.dialect.PagesOnly → ∀ key,
        (∀ entries s table rename, b.WritesDocument entries s table rename →
          (key, .integer n) ∈ entries →
          (∀ t, table = some t → b.settings.schemas.validator? t key = none) →
          (b.step s).2 = .ok () → (rename key, toString m) ∈ (b.step s).1.statement.values) ∧
        (Filter.isFieldKey key = true →
          (b.step (.filterByJson (.object [(key, .integer n)]))).2 = .ok () →
          (b.step (.filterByJson (.object [(key, .integer n)]))).1.statement.condition
            = some (key ++ " = " ++ toString m)) := by
  obtain ⟨m, hwritten, hround, hencode⟩ := Value.exists_writtenAs hlow hhigh
  refine ⟨m, fun k => ⟨fun hk => hk.unique hwritten, fun hk => hk ▸ hwritten⟩,
    fun hsame => hsame ▸ hround, hencode, fun e => ?_, fun b hb key => ⟨?_, ?_⟩⟩
  · show e.encode (.ofInteger n) = _ ↔ _
    rw [hencode, Except.ok.injEq]
    exact ⟨hwritten.eq_of_toString, fun hsame => hsame ▸ rfl⟩
  · intro entries s table rename hwrites hentry hvalidator haccepted
    obtain ⟨literal, hliteral, hstored⟩ :=
      Builder.stored_of_document hb hwrites haccepted hentry
    rw [Settings.literalFor_of_validator? hvalidator, hencode] at hliteral
    exact Except.ok.inj hliteral ▸ hstored
  · intro hkey haccepted
    obtain ⟨literal, hliteral, hcondition⟩ := Builder.condition_of_document hb hkey haccepted
    rw [hencode] at hliteral
    exact Except.ok.inj hliteral ▸ hcondition

/-- The greatest integer without a sign, in a row, in an update, in a variable and in a
condition. It is no multiple of a thousand and therefore lost. -/
theorem integer_literals_greatest :
    let n : Int := 18446744073709551615
    let document : Json := .object [("id", .integer n)]
    let b := Builder.ofDialect .sql92 .universal
    let updated := b.run [.call (.verb (.update "t"))]
    n < 2 ^ 64 ∧ -2 ^ 63 ≤ n ∧ ∃ m, Value.WrittenAs n m ∧ m ≠ n ∧
      toString m = "18446744073709552000" ∧
      (∀ e : Encoder, (Value.ofJson (.integer n) >>= e.encode) = .ok (toString m)) ∧
      ("id", toString m) ∈ (b.step (.insertJson "t" document)).1.statement.values ∧
      ("id", toString m) ∈ (updated.step (.setJson document)).1.statement.values ∧
      ("id", toString m) ∈ (b.step (.setJson document)).1.statement.values ∧
      (b.step (.filterByJson document)).1.statement.condition = some ("id = " ++ toString m) := by
  intro n document b updated
  have hlow : -2 ^ 63 ≤ n := by decide
  have hhigh : n < 2 ^ 64 := by decide
  obtain ⟨m, hwritten, hround, hliteral, -, hdocuments⟩ := integer_literals hlow hhigh
  have hdigits : (Value.ofJson (.integer n) >>= b.encoder.encode) = .ok "18446744073709552000" :=
    ok_of_toOption (by decide +kernel)
  obtain ⟨hinserted, hfiltered⟩ := hdocuments b Dialect.pagesOnly_sql92 "id"
  obtain ⟨hupdated, -⟩ := hdocuments updated Dialect.pagesOnly_sql92 "id"
  have hentry : ("id", Json.integer n) ∈ [("id", .integer n)] := List.mem_singleton_self _
  refine ⟨hhigh, hlow, m, (hwritten m).mpr rfl, fun hsame => ?_,
    Except.ok.inj ((hliteral _).symm.trans hdigits), hliteral, ?_, ?_, ?_, ?_⟩
  · rcases hround hsame with hsmall | hthousand
    · exact absurd hsmall (by decide)
    · exact absurd hthousand (by decide)
  · exact hinserted _ _ _ _ (.inserts "t") hentry (fun t ht => rfl)
      (ok_of_toOption (by decide +kernel))
  · exact hupdated _ _ _ _ (.assigns rfl) hentry (fun t ht => rfl)
      (ok_of_toOption (by decide +kernel))
  · exact hinserted _ _ _ _ (.declares rfl) hentry (fun t ht => nomatch ht)
      (ok_of_toOption (by decide +kernel))
  · exact hfiltered rfl (ok_of_toOption (by decide +kernel))

/-- An identifier beyond 64 bits with a sign is altered in silence, wherever a document
says it. -/
theorem integer_altered :
    let n : Int := 18446744073709551615
    let altered := "18446744073709552000"
    let document : Json := .object [("id", .integer n)]
    let b := Builder.ofDialect .sql92 .universal
    let updated := b.run [.call (.verb (.update "t"))]
    toString n ≠ altered ∧
      (Value.ofJson (.integer n) >>= b.encoder.encode) = .ok altered ∧
      (b.step (.insertJson "t" document)).2 = .ok () ∧
      (b.step (.insertJson "t" document)).1.statement.values = [("id", altered)] ∧
      (updated.step (.setJson document)).1.statement.values = [("id", altered)] ∧
      (b.step (.filterByJson document)).1.statement.condition = some ("id = " ++ altered) := by
  intro n altered document b updated
  exact ⟨by decide +kernel, ok_of_toOption (by decide +kernel), ok_of_toOption (by decide +kernel),
    by decide +kernel, by decide +kernel, by decide +kernel⟩

end SqlBuilder
