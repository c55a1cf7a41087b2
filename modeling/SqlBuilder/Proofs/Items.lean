import SqlBuilder.Proofs.CallText
import SqlBuilder.Proofs.LiteralForm
import SqlBuilder.Statement.Render

/-!
# Items of lists

The names and the values of a statement stand in lists, and a reader has to find
out where one item ends and the next one begins. A comma, a blank or a closing
parenthesis ends an item, unless it stands between quotes or inside parentheses
that the item itself has opened. Every name, every literal and every function
call is one item in this sense, so that an item tells its own end whatever it
holds.

* `ItemFrom`, `IsItem` — the reader of an item, and texts that are one;
* `IsItem.unique` — what an item is followed by does not matter;
* `IsLiteral.isItem`, `isItem_of_isWhole` — literals and function calls;
* `Delimited`, `DelimitedBy` — anything whose text tells its own end, wherever it
  stands or by what follows it;
* `commaList_unique_of_follow`, `commaList_unique` — lists of such things.
-/

namespace SqlBuilder

open Quotation

/-- The characters that end an item. -/
def endsItem (c : Char) : Bool := c = ',' || c = ' ' || c = ')'

/-- The number of open parentheses after a character. -/
def nesting (m : Mode) (depth : Nat) (c : Char) : Nat :=
  match m with
  | .outside => if c = '(' then depth + 1 else if c = ')' then depth - 1 else depth
  | _ => depth

theorem nesting_of_ne {m : Mode} {depth : Nat} {c : Char} (hopening : c ≠ '(')
    (hclosing : c ≠ ')') : nesting m depth c = depth := by
  cases m with
  | outside => rw [nesting, if_neg hopening, if_neg hclosing]
  | inside q => rfl
  | escaped q => rfl

/-- Parentheses between quotes do not count. -/
theorem nesting_of_ne_outside {m : Mode} (hm : m ≠ .outside) (depth : Nat) (c : Char) :
    nesting m depth c = depth := by
  cases m with
  | outside => exact absurd rfl hm
  | inside q => rfl
  | escaped q => rfl

theorem ne_of_class {p : Char → Bool} {c d : Char} (hc : p c = true) (hd : p d = false) :
    c ≠ d := by
  rintro rfl
  rw [hd] at hc
  cases hc

/-- The reader of an item gets to the end of the characters, outside quotes and
parentheses, and does not meet the end of the item before. -/
inductive ItemFrom : Mode → Nat → List Char → Prop
  | nil : ItemFrom .outside 0 []
  | cons {m : Mode} {depth : Nat} {c : Char} {cs : List Char}
    (hgoesOn : m = .outside → depth = 0 → endsItem c = false)
    (hrest : ItemFrom (m.next c) (nesting m depth c) cs) : ItemFrom m depth (c :: cs)

/-- A text that is one item. -/
def IsItem (t : String) : Prop := ItemFrom .outside 0 t.toList

/-- What can follow an item: nothing, or something that ends it. -/
def Ends (rest : String) : Prop := ∀ c, rest.toList.head? = some c → endsItem c = true

theorem ends_of_head {rest : String} {c : Char} (h : rest.toList.head? = some c)
    (hc : endsItem c = true) : Ends rest := by
  intro d hd
  rw [h] at hd
  exact Option.some.inj hd ▸ hc

/-! ## Reading items -/

theorem ItemFrom.unique {m : Mode} {depth : Nat} {a b r s : List Char} (ha : ItemFrom m depth a)
    (hb : ItemFrom m depth b) (hr : ∀ c, r.head? = some c → endsItem c = true)
    (hs : ∀ c, s.head? = some c → endsItem c = true) (h : a ++ r = b ++ s) : a = b ∧ r = s := by
  -- both readers go through the same modes, so that neither ends before the other
  induction ha generalizing b with
  | nil =>
    cases hb with
    | nil => exact ⟨rfl, h⟩
    | @cons _ _ c cs hgoesOn _ =>
      -- where the first item has ended, the second would have to go on
      have hend : endsItem c = true := hr c (by rw [← List.nil_append r, h]; rfl)
      rw [hgoesOn rfl rfl] at hend
      cases hend
  | @cons m depth c cs hgoesOn _ ih =>
    cases hb with
    | nil =>
      have hend : endsItem c = true := hs c (by rw [← List.nil_append s, ← h]; rfl)
      rw [hgoesOn rfl rfl] at hend
      cases hend
    | cons _ hrest =>
      rw [List.cons_append, List.cons_append, List.cons.injEq] at h
      obtain ⟨rfl, htail⟩ := h
      obtain ⟨rfl, hrs⟩ := ih hrest htail
      exact ⟨rfl, hrs⟩

/-- What is written by `text` tells itself and its own end, whatever ends it. -/
def Delimited {α : Type} (P : α → Prop) (text : α → String) : Prop :=
  ∀ {a b : α} {r s : String}, P a → P b → Ends r → Ends s → text a ++ r = text b ++ s →
    a = b ∧ r = s

/-- What is written by `text` tells itself and its own end, where what follows it is
of some kind. -/
def DelimitedBy {α : Type} (Follows : String → Prop) (P : α → Prop) (text : α → String) : Prop :=
  ∀ {a b : α} {r s : String}, P a → P b → Follows r → Follows s → text a ++ r = text b ++ s →
    a = b ∧ r = s

/-- An item tells its own end. -/
theorem IsItem.unique : Delimited IsItem id := by
  intro a b r s ha hb hr hs h
  rw [id, id] at h
  have hlist : a.toList ++ r.toList = b.toList ++ s.toList := by
    rw [← String.toList_append, ← String.toList_append, h]
  obtain ⟨hab, hrs⟩ := ItemFrom.unique ha hb hr hs hlist
  exact ⟨String.toList_inj.mp hab, String.toList_inj.mp hrs⟩

/-! ## Items without quotes and parentheses -/

/-- The characters that mean nothing to the reader of an item. -/
def isNeutral (c : Char) : Bool := !isQuote c && !endsItem c && c ≠ '('

theorem itemFrom_cons_of_isNeutral {depth : Nat} {c : Char} {cs : List Char}
    (hc : isNeutral c = true) (h : ItemFrom .outside depth cs) :
    ItemFrom .outside depth (c :: cs) := by
  simp only [isNeutral, Bool.and_eq_true, Bool.not_eq_true', decide_eq_true_eq] at hc
  obtain ⟨⟨hquote, hend⟩, hopening⟩ := hc
  have hclosing : c ≠ ')' := by
    rintro rfl
    cases hend
  refine .cons (fun _ _ => hend) ?_
  rw [FunctionCall.next_of_not_isQuote hquote, nesting_of_ne hopening hclosing]
  exact h

theorem itemFrom_append_of_forall {depth : Nat} {a cs : List Char}
    (ha : ∀ c ∈ a, isNeutral c = true) (h : ItemFrom .outside depth cs) :
    ItemFrom .outside depth (a ++ cs) := by
  induction a with
  | nil => exact h
  | cons c a ih =>
    have hrest := ih fun d hd => ha d (List.mem_cons_of_mem c hd)
    exact itemFrom_cons_of_isNeutral (ha c List.mem_cons_self) hrest

theorem isItem_of_forall {t : String} (h : ∀ c ∈ t.toList, isNeutral c = true) : IsItem t := by
  have hitem := itemFrom_append_of_forall h .nil
  rw [List.append_nil] at hitem
  exact hitem

/-- A class of characters without quotes, ends and parentheses. -/
theorem isNeutral_of_class {p : Char → Bool} (hquotes : p '\'' = false ∧ p '"' = false)
    (hends : p ',' = false ∧ p ' ' = false ∧ p ')' = false) (hopening : p '(' = false) {c : Char}
    (h : p c = true) : isNeutral c = true := by
  have hquote : isQuote c = false := isQuote_eq_false hquotes.1 hquotes.2 h
  simp [isNeutral, hquote, endsItem, ne_of_class h hends.1, ne_of_class h hends.2.1,
    ne_of_class h hends.2.2, ne_of_class h hopening]

theorem isNeutral_of_isBareChar {c : Char} (h : isBareChar c = true) : isNeutral c = true :=
  isNeutral_of_class ⟨rfl, rfl⟩ ⟨rfl, rfl, rfl⟩ rfl h

/-- Words are items. -/
theorem isItem_of_isWordChar {t : String} (h : ∀ c ∈ t.toList, isWordChar c = true) : IsItem t :=
  isItem_of_forall fun c hc => isNeutral_of_isBareChar (by rw [isBareChar, h c hc]; rfl)

/-! ## Literals -/

/-- A quoted segment goes on to the quote that closes it. -/
theorem itemFrom_of_leave? {m : Mode} (hm : m ≠ .outside) {cs used : List Char}
    (h : leave? m cs = some (used, [])) : ItemFrom m 0 cs := by
  induction cs generalizing m used with
  | nil => cases h
  | cons c cs ih =>
    rw [leave?] at h
    refine .cons (fun hout => absurd hout hm) ?_
    rw [nesting_of_ne_outside hm]
    by_cases hout : m.next c = .outside
    · rw [if_pos hout, Option.some.injEq, Prod.mk.injEq] at h
      rw [hout, h.2]
      exact .nil
    · rw [if_neg hout] at h
      obtain ⟨p, hp, hpair⟩ := Option.map_eq_some_iff.mp h
      have hlast : p.2 = [] := congrArg Prod.snd hpair
      have hrest : leave? (m.next c) cs = some (p.1, []) := by rw [hp, ← hlast]
      exact ih hout hrest

theorem isItem_quote (family : Family) (s : String) : IsItem (Encoder.quote family s) := by
  have hleave := Encoder.leave?_escape family s.toList []
  have hinside : ItemFrom (.inside '"') 0 (Encoder.escape family s.toList ++ ['"']) :=
    itemFrom_of_leave? Mode.noConfusion hleave
  unfold IsItem
  rw [Encoder.toList_quote]
  exact .cons (fun _ _ => rfl) hinside

/-- A literal is one item, whatever its text holds. -/
theorem IsLiteral.isItem {family : Family} {t : String} (h : IsLiteral family t) : IsItem t := by
  cases h with
  | quoted s => exact isItem_quote family s
  | word _ hchars => exact isItem_of_isWordChar hchars
  | negative ht hd hchars =>
    exact isItem_of_forall fun c hc =>
      isNeutral_of_isBareChar (isBareChar_of_negative ht hd hchars c hc)

/-! ## Function calls -/

/-- The arguments of a call stand inside parentheses to their last character. -/
theorem itemFrom_of_scanned {m : Mode} {depth : Nat} {cs : List Char}
    (h : FunctionCall.Scanned m depth cs) : ItemFrom m (depth + 1) cs := by
  induction h with
  | close => exact .cons (fun _ hdepth => by cases hdepth) .nil
  | closing _ ih => exact .cons (fun _ hdepth => by cases hdepth) ih
  | opening _ ih => exact .cons (fun _ hdepth => by cases hdepth) ih
  | argument hc _ ih =>
    have hopening := ne_of_class hc (show FunctionCall.isArgumentChar '(' = false by decide)
    have hclosing := ne_of_class hc (show FunctionCall.isArgumentChar ')' = false by decide)
    refine .cons (fun _ hdepth => by cases hdepth) ?_
    rw [FunctionCall.next_of_not_isQuote (FunctionCall.isQuote_of_isArgumentChar hc),
      nesting_of_ne hopening hclosing]
    exact ih
  | quote hq _ ih =>
    have hopening := ne_of_class hq (show isQuote '(' = false by decide)
    have hclosing := ne_of_class hq (show isQuote ')' = false by decide)
    refine .cons (fun _ hdepth => by cases hdepth) ?_
    rw [FunctionCall.next_of_isQuote hq, nesting_of_ne hopening hclosing]
    exact ih
  | quoted hm _ ih =>
    refine .cons (fun _ hdepth => by cases hdepth) ?_
    rw [nesting_of_ne_outside hm]
    exact ih

theorem isNeutral_of_isNameChar {c : Char} (h : FunctionCall.isNameChar c = true) :
    isNeutral c = true :=
  isNeutral_of_class ⟨rfl, rfl⟩ ⟨rfl, rfl, rfl⟩ rfl h

/-- A function call is one item, with its commas, blanks and parentheses. -/
theorem isItem_of_isWhole {s : String} (h : FunctionCall.isWhole s = .ok true) : IsItem s := by
  obtain ⟨name, arguments, -, hname, hscanned, hs⟩ := FunctionCall.exists_scanned_of_isWhole h
  unfold IsItem
  rw [hs]
  refine itemFrom_append_of_forall (fun c hc => isNeutral_of_isNameChar (hname c hc)) ?_
  -- the opening parenthesis is the first of the ones that are closed
  exact .cons (fun _ _ => rfl) (itemFrom_of_scanned hscanned)

/-! ## Lists -/

/-- What can follow a list: what ends an item and is no comma. -/
def EndsList (rest : String) : Prop := Ends rest ∧ rest.toList.head? ≠ some ','

theorem endsList_of_head {rest : String}
    (h : rest.toList.head? = some ' ' ∨ rest.toList.head? = some ')') : EndsList rest := by
  rcases h with h | h
  · exact ⟨ends_of_head h rfl, by rw [h]; decide⟩
  · exact ⟨ends_of_head h rfl, by rw [h]; decide⟩

theorem endsList_empty : EndsList "" := by
  refine ⟨fun c hc => ?_, by decide⟩
  cases hc

section Follows

variable {α : Type} {P : α → Prop} {text : α → String} {Follows : String → Prop} {xs ys : List α}
  {r s : String}

/-- A list tells its entries and its end, if its entries tell theirs from what
follows them: a comma, or what follows the list. -/
theorem commaList_unique_of_follow (hP : DelimitedBy Follows P text)
    (hcomma : ∀ t : String, Follows (", " ++ t)) (hxs : ∀ x ∈ xs, P x) (hys : ∀ y ∈ ys, P y)
    (hxne : xs ≠ []) (hyne : ys ≠ []) (hr : Follows r) (hrcomma : r.toList.head? ≠ some ',')
    (hs : Follows s) (hscomma : s.toList.head? ≠ some ',')
    (h : Statement.commaList (xs.map text) ++ r = Statement.commaList (ys.map text) ++ s) :
    xs = ys ∧ r = s := by
  have hhead : ∀ t : String, (", " ++ t).toList.head? = some ',' := fun t => by simp
  unfold Statement.commaList at *
  induction xs generalizing ys with
  | nil => exact absurd rfl hxne
  | cons x xs ih =>
    obtain ⟨y, ys, rfl⟩ := List.exists_cons_of_ne_nil hyne
    have hx : P x := hxs x List.mem_cons_self
    have hy : P y := hys y List.mem_cons_self
    -- both lists end here, one of them does, or both go on
    cases xs with
    | nil =>
      cases ys with
      | nil =>
        simp only [List.map_cons, List.map_nil, String.intercalate_singleton] at h
        obtain ⟨rfl, hrs⟩ := hP hx hy hr hs h
        exact ⟨rfl, hrs⟩
      | cons y' ys =>
        simp only [List.map_cons, List.map_nil, String.intercalate_singleton,
          String.intercalate_cons_cons, String.append_assoc] at h
        obtain ⟨-, hrest⟩ := hP hx hy hr (hcomma _) h
        exact absurd (hrest ▸ hhead _) hrcomma
    | cons x' xs =>
      cases ys with
      | nil =>
        simp only [List.map_cons, List.map_nil, String.intercalate_singleton,
          String.intercalate_cons_cons, String.append_assoc] at h
        obtain ⟨-, hrest⟩ := hP hx hy (hcomma _) hs h
        exact absurd (hrest ▸ hhead _) hscomma
      | cons y' ys =>
        simp only [List.map_cons, String.intercalate_cons_cons, String.append_assoc] at h
        obtain ⟨rfl, hrest⟩ := hP hx hy (hcomma _) (hcomma _) h
        rw [String.append_right_inj] at hrest
        obtain ⟨htail, hrs⟩ := ih (fun z hz => hxs z (List.mem_cons_of_mem x hz))
          (fun z hz => hys z (List.mem_cons_of_mem x hz)) (List.cons_ne_nil _ _)
          (List.cons_ne_nil _ _) hrest
        exact ⟨by rw [htail], hrs⟩

/-- In parentheses a list tells its end whatever follows. -/
theorem parenList_unique_of_follow (hP : DelimitedBy Follows P text)
    (hcomma : ∀ t : String, Follows (", " ++ t)) (hclosing : ∀ t : String, Follows (")" ++ t))
    (hxs : ∀ x ∈ xs, P x) (hys : ∀ y ∈ ys, P y) (hxne : xs ≠ []) (hyne : ys ≠ [])
    (h : Statement.parenList (xs.map text) ++ r = Statement.parenList (ys.map text) ++ s) :
    xs = ys ∧ r = s := by
  have hhead : ∀ t : String, (")" ++ t).toList.head? ≠ some ',' := fun t => by simp
  unfold Statement.parenList at h
  simp only [String.append_assoc, String.append_right_inj] at h
  obtain ⟨hlists, hrest⟩ := commaList_unique_of_follow hP hcomma hxs hys hxne hyne (hclosing r)
    (hhead r) (hclosing s) (hhead s) h
  exact ⟨hlists, (String.append_right_inj _).mp hrest⟩

end Follows

theorem ends_blank (t : String) : Ends (" " ++ t) := ends_of_head (c := ' ') (by simp) rfl

theorem ends_comma (t : String) : Ends (", " ++ t) := ends_of_head (c := ',') (by simp) rfl

theorem ends_closing (t : String) : Ends (")" ++ t) := ends_of_head (c := ')') (by simp) rfl

/-- Entries that tell their end wherever it is tell it in a list. -/
theorem commaList_unique {α : Type} {P : α → Prop} {text : α → String} (hP : Delimited P text)
    {xs ys : List α} (hxs : ∀ x ∈ xs, P x) (hys : ∀ y ∈ ys, P y) (hxne : xs ≠ []) (hyne : ys ≠ [])
    {r s : String} (hr : EndsList r) (hs : EndsList s)
    (h : Statement.commaList (xs.map text) ++ r = Statement.commaList (ys.map text) ++ s) :
    xs = ys ∧ r = s :=
  commaList_unique_of_follow hP ends_comma hxs hys hxne hyne hr.1 hr.2 hs.1 hs.2 h

end SqlBuilder
