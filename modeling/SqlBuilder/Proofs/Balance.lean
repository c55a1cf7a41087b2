import Mathlib.Data.List.Infix
import SqlBuilder.Proofs.CallScan
import SqlBuilder.Proofs.LiteralForm

/-!
# Balanced texts

A text is balanced when it closes every parenthesis that it opens and none
before it is open, quoted segments apart. Balanced texts stay balanced when they
are put together or in parentheses, and a text in parentheses can be taken out
again: the parenthesis in front of it is closed by the one right behind it,
whatever else comes.

* `StaysOpen` — from a number of open parentheses on, none too many is closed;
* `IsBalanced` — balanced texts, with `IsBalanced.append`, `IsBalanced.parens` and
  `IsBalanced.between_iff`;
* `IsLiteral.isBalanced`, `isBalanced_of_isWhole` — literals and function calls;
* `group?` — the group in parentheses at the beginning of a text;
* `group?_parens` — the group is what was put in parentheses.
-/

namespace SqlBuilder

open Quotation FunctionCall

/-! ## Open parentheses along a text -/

/-- With `n` open parentheses in front of it, the text closes at no point more
than are open. -/
def StaysOpen (m : Mode) (n : Int) (cs : List Char) : Prop :=
  ∀ part, part <+: cs → 0 ≤ n + balance m part

namespace StaysOpen

variable {m : Mode} {n : Int} {c : Char} {cs : List Char}

theorem nonneg (h : StaysOpen m n cs) : 0 ≤ n := by
  have hempty := h [] List.nil_prefix
  rw [balance_nil] at hempty
  omega

theorem nil (hn : 0 ≤ n) : StaysOpen m n [] := by
  intro part hpart
  rw [List.prefix_nil.mp hpart, balance_nil]
  omega

theorem cons_iff : StaysOpen m n (c :: cs) ↔ 0 ≤ n ∧ StaysOpen (m.next c) (n + change m c) cs := by
  constructor
  · intro h
    refine ⟨h.nonneg, fun part hpart => ?_⟩
    have hwhole := h (c :: part) ((List.prefix_cons_inj c).mpr hpart)
    rw [balance_cons] at hwhole
    omega
  · rintro ⟨hn, hrest⟩ part hpart
    cases part with
    | nil =>
      rw [balance_nil]
      omega
    | cons d part =>
      obtain ⟨rfl, hpart'⟩ := List.cons_prefix_cons.mp hpart
      have hbehind := hrest part hpart'
      rw [balance_cons]
      omega

/-- One text after the other. -/
theorem append_iff {a b : List Char} :
    StaysOpen m n (a ++ b) ↔
      StaysOpen m n a ∧ StaysOpen (m.after a) (n + balance m a) b := by
  -- along the first text, with the number of open parentheses at each place
  induction a generalizing m n with
  | nil =>
    rw [List.nil_append, balance_nil, Int.add_zero]
    refine ⟨fun h => ⟨nil h.nonneg, h⟩, fun h => h.2⟩
  | cons c a ih =>
    have hcount : n + balance m (c :: a) = n + change m c + balance (m.next c) a := by
      rw [balance_cons]
      omega
    rw [List.cons_append, cons_iff, cons_iff, ih, hcount, after_cons, and_assoc]

end StaysOpen

/-- The balance of a text that begins with a closed one. -/
theorem Quotation.IsClosed.balance_append {a : List Char} (ha : IsClosed a) (b : List Char) :
    balance .outside (a ++ b) = balance .outside a + balance .outside b := by
  rw [FunctionCall.balance_append, ha]

/-! ## Balanced texts -/

/-- A text whose parentheses are balanced outside quotes: every prefix has opened
at least as many as it has closed, and the whole text has closed them all. It
leaves no quote open. -/
structure IsBalanced (t : String) : Prop where
  closed : IsClosed t.toList
  prefixes : ∀ part, part <+: t.toList → 0 ≤ balance .outside part
  whole : balance .outside t.toList = 0

namespace IsBalanced

variable {s t : String}

/-- Whether a text is balanced can be told from its prefixes, which are finitely
many. -/
instance (t : String) : Decidable (IsBalanced t) :=
  decidable_of_iff (IsClosed t.toList ∧ (∀ part ∈ t.toList.inits, 0 ≤ balance .outside part) ∧
      balance .outside t.toList = 0)
    ⟨fun ⟨hclosed, hprefixes, hwhole⟩ =>
      ⟨hclosed, fun part hpart => hprefixes part ((List.mem_inits _ _).mpr hpart), hwhole⟩,
    fun h => ⟨h.closed, fun part hpart => h.prefixes part ((List.mem_inits _ _).mp hpart), h.whole⟩⟩

theorem staysOpen (h : IsBalanced t) {n : Int} (hn : 0 ≤ n) : StaysOpen .outside n t.toList := by
  intro part hpart
  have hprefix := h.prefixes part hpart
  omega

theorem of_staysOpen (hclosed : IsClosed t.toList) (h : StaysOpen .outside 0 t.toList)
    (hwhole : balance .outside t.toList = 0) : IsBalanced t := by
  refine ⟨hclosed, fun part hpart => ?_, hwhole⟩
  have hprefix := h part hpart
  omega

/-- A text without parentheses outside quotes. -/
theorem of_shell (hclosed : IsClosed t.toList)
    (hopening : some '(' ∉ shell .outside t.toList)
    (hclosing : some ')' ∉ shell .outside t.toList) : IsBalanced t := by
  have hzero : ∀ part, part <+: t.toList → balance .outside part = 0 := by
    rintro part ⟨rest, hrest⟩
    rw [← hrest, shell_append, List.mem_append, not_or] at hopening hclosing
    rw [balance, List.count_eq_zero.mpr hopening.1, List.count_eq_zero.mpr hclosing.1]
    rfl
  refine ⟨hclosed, fun part hpart => ?_, hzero _ (List.prefix_refl _)⟩
  have hbalance := hzero part hpart
  omega

/-- A text of characters that are neither quotes nor parentheses. -/
theorem of_forall {p : Char → Bool} (hquotes : p '\'' = false ∧ p '"' = false)
    (hparens : p '(' = false ∧ p ')' = false) (h : ∀ c ∈ t.toList, p c = true) :
    IsBalanced t := by
  have hnone : ∀ c ∈ t.toList, isQuote c = false := fun c hc =>
    isQuote_eq_false hquotes.1 hquotes.2 (h c hc)
  have hnot : ∀ c, p c = false → some c ∉ shell .outside t.toList := by
    intro c hc hmem
    rw [shell_of_forall hnone, List.mem_map] at hmem
    obtain ⟨d, hd, hdc⟩ := hmem
    rw [← Option.some.inj hdc, h d hd] at hc
    cases hc
  exact of_shell (isClosed_of_forall hnone) (hnot '(' hparens.1) (hnot ')' hparens.2)

theorem append (hs : IsBalanced s) (ht : IsBalanced t) : IsBalanced (s ++ t) := by
  refine of_staysOpen ?_ ?_ ?_ <;> rw [String.toList_append]
  · exact hs.closed.append ht.closed
  · rw [StaysOpen.append_iff, hs.closed, hs.whole]
    exact ⟨hs.staysOpen (by omega), ht.staysOpen (by omega)⟩
  · rw [hs.closed.balance_append, hs.whole, ht.whole]
    rfl

/-- Between balanced texts stands a balanced text, or the whole is not balanced. -/
theorem between_iff {x : String} (hs : IsBalanced s) (ht : IsBalanced t)
    (hx : IsClosed x.toList) : IsBalanced (s ++ x ++ t) ↔ IsBalanced x := by
  constructor
  · -- neither end has a parenthesis to offer to the text between them
    intro h
    have hwhole := h.whole
    have hprefixes : StaysOpen .outside 0 (s ++ x ++ t).toList := h.staysOpen (by omega)
    rw [String.toList_append, String.toList_append] at hwhole hprefixes
    rw [(hs.closed.append hx).balance_append, hs.closed.balance_append, hs.whole,
      ht.whole] at hwhole
    rw [StaysOpen.append_iff, StaysOpen.append_iff, hs.closed, hs.whole] at hprefixes
    exact of_staysOpen hx hprefixes.1.2 (by omega)
  · intro h
    exact (hs.append h).append ht

theorem parens (h : IsBalanced t) : IsBalanced ("(" ++ t ++ ")") := by
  have hlist : ("(" ++ t ++ ")").toList = '(' :: (t.toList ++ [')']) := by simp
  have hlast : balance .outside [')'] = -1 := by decide
  refine of_staysOpen ?_ ?_ ?_ <;> rw [hlist]
  · have hrest : IsClosed (t.toList ++ [')']) := h.closed.append (by decide)
    exact hrest
  · -- one parenthesis is open until the last character
    rw [StaysOpen.cons_iff]
    refine ⟨by omega, ?_⟩
    show StaysOpen .outside (0 + 1) (t.toList ++ [')'])
    rw [StaysOpen.append_iff, h.closed, h.whole, StaysOpen.cons_iff]
    exact ⟨h.staysOpen (by omega), by omega, StaysOpen.nil (by decide)⟩
  · rw [balance_cons]
    show 1 + balance .outside (t.toList ++ [')']) = 0
    rw [h.closed.balance_append, h.whole, hlast]
    rfl

end IsBalanced

/-! ## Literals and function calls -/

/-- Literals have no parentheses outside quotes. -/
theorem IsLiteral.isBalanced {family : Family} {t : String} (h : IsLiteral family t) :
    IsBalanced t := by
  cases h with
  | quoted s =>
    have hshell := Encoder.shell_quote family s
    refine .of_shell (IsLiteral.quoted s).isClosed ?_ ?_ <;> rw [hshell] <;> decide
  | word hne hchars => exact .of_forall (p := isWordChar) ⟨rfl, rfl⟩ ⟨rfl, rfl⟩ hchars
  | negative ht hd hchars =>
    exact .of_forall (p := isBareChar) ⟨rfl, rfl⟩ ⟨rfl, rfl⟩
      (isBareChar_of_negative ht hd hchars)

/-- The arguments of a call close all groups that they open, and the parenthesis
of the call at the very end. -/
theorem staysOpen_of_scanned {m : Mode} {depth : Nat} {cs : List Char}
    (h : Scanned m depth cs) :
    StaysOpen m (depth + 1) cs ∧ depth + 1 + balance m cs = 0 := by
  -- one character further, with the number of open parentheses behind it
  have hcons : ∀ {m : Mode} {n n' : Int} {c : Char} {cs : List Char}, 0 ≤ n →
      n + change m c = n' → StaysOpen (m.next c) n' cs ∧ n' + balance (m.next c) cs = 0 →
      StaysOpen m n (c :: cs) ∧ n + balance m (c :: cs) = 0 := by
    rintro m n n' c cs hn rfl ⟨hopen, hwhole⟩
    refine ⟨StaysOpen.cons_iff.mpr ⟨hn, hopen⟩, ?_⟩
    rw [balance_cons]
    omega
  have hneutral : ∀ {c : Char}, c ≠ '(' → c ≠ ')' → change .outside c = 0 := by
    intro c hopening hclosing
    rw [change, if_neg hopening, if_neg hclosing]
  -- `depth` counts the groups, and the parenthesis of the call is one more
  induction h with
  | close => exact hcons (by omega) rfl ⟨.nil (by decide), by decide⟩
  | @closing depth cs _ ih =>
    have hchange : ((depth + 1 : Nat) : Int) + 1 + change .outside ')' = depth + 1 := by
      show ((depth + 1 : Nat) : Int) + 1 + -1 = depth + 1
      omega
    exact hcons (by omega) hchange ih
  | @opening depth cs _ ih =>
    have hchange : (depth : Int) + 1 + change .outside '(' = (depth + 1 : Nat) + 1 := by
      show (depth : Int) + 1 + 1 = (depth + 1 : Nat) + 1
      omega
    exact hcons (by omega) hchange ih
  | @argument depth c cs hc _ ih =>
    obtain ⟨-, hopening, hclosing⟩ := not_delimiter_of_isArgumentChar hc
    have hchange : (depth : Int) + 1 + change .outside c = depth + 1 := by
      rw [hneutral hopening hclosing]
      omega
    rw [← next_of_not_isQuote (isQuote_of_isArgumentChar hc)] at ih
    exact hcons (by omega) hchange ih
  | @quote depth q cs hq _ ih =>
    have hopening : q ≠ '(' := by rintro rfl; cases hq
    have hclosing : q ≠ ')' := by rintro rfl; cases hq
    have hchange : (depth : Int) + 1 + change .outside q = depth + 1 := by
      rw [hneutral hopening hclosing]
      omega
    rw [← next_of_isQuote hq] at ih
    exact hcons (by omega) hchange ih
  | @quoted m depth c cs hm _ ih =>
    have hchange : (depth : Int) + 1 + change m c = depth + 1 := by
      cases m with
      | outside => exact absurd rfl hm
      | inside q | escaped q => exact Int.add_zero _
    exact hcons (by omega) hchange ih

/-- A function call is balanced. -/
theorem isBalanced_of_isWhole {s : String} (h : isWhole s = .ok true) : IsBalanced s := by
  obtain ⟨name, arguments, -, hname, hscanned, hs⟩ := exists_scanned_of_isWhole h
  obtain ⟨hopen, hwhole⟩ := staysOpen_of_scanned hscanned
  -- the name has no parentheses, so the one behind it is the first
  have hbalanced : IsBalanced (String.ofList name) :=
    .of_forall (p := isNameChar) ⟨rfl, rfl⟩ ⟨rfl, rfl⟩ (by rwa [String.toList_ofList])
  have hclosed : IsClosed name := by simpa using hbalanced.closed
  have hzero : balance .outside name = 0 := by simpa using hbalanced.whole
  have hname : StaysOpen .outside 0 name := by simpa using hbalanced.staysOpen (n := 0) (by omega)
  refine .of_staysOpen (isClosed_of_isWhole h) ?_ ?_ <;> rw [hs]
  · rw [StaysOpen.append_iff, hclosed, hzero, StaysOpen.cons_iff]
    exact ⟨hname, by omega, hopen⟩
  · rw [hclosed.balance_append, hzero, balance_cons]
    show 0 + (1 + balance .outside arguments) = 0
    omega

/-! ## Groups in parentheses -/

/-- Where a text closes more parentheses than the `n` that are open: what stands
before that place, and what stands behind it. -/
def closing? : Mode → Int → List Char → Option (List Char × List Char)
  | _, _, [] => none
  | m, n, c :: cs =>
    if n + change m c < 0 then some ([], cs)
    else (closing? (m.next c) (n + change m c) cs).map fun p => (c :: p.1, p.2)

/-- The group at the beginning of a text: what stands between its parenthesis and
the one that closes it, and what comes behind. -/
def group? : List Char → Option (List Char × List Char)
  | '(' :: cs => closing? .outside 0 cs
  | _ => none

/-- A text that closes what it opens is read to its end. -/
theorem closing?_append {m : Mode} {n : Int} {cs : List Char} (h : StaysOpen m n cs)
    (hclosed : m.after cs = .outside) (hwhole : n + balance m cs = 0) (rest : List Char) :
    closing? m n (cs ++ ')' :: rest) = some (cs, rest) := by
  -- only the parenthesis behind the text takes the count below zero
  induction cs generalizing m n with
  | nil =>
    obtain rfl : m = .outside := hclosed
    rw [balance_nil] at hwhole
    have hlast : n + change .outside ')' < 0 := by
      show n + -1 < 0
      omega
    rw [List.nil_append, closing?, if_pos hlast]
  | cons c cs ih =>
    obtain ⟨-, hrest⟩ := StaysOpen.cons_iff.mp h
    have hopen : ¬ n + change m c < 0 := by
      have hnonneg := hrest.nonneg
      omega
    have hwholeRest : n + change m c + balance (m.next c) cs = 0 := by
      rw [balance_cons] at hwhole
      omega
    rw [List.cons_append, closing?, if_neg hopen, ih hrest hclosed hwholeRest]
    rfl

/-- **The parenthesis in front of a balanced text is closed right behind it.** -/
theorem group?_parens {t : String} (h : IsBalanced t) (rest : String) :
    group? ("(" ++ t ++ ")" ++ rest).toList = some (t.toList, rest.toList) := by
  have hlist : ("(" ++ t ++ ")" ++ rest).toList = '(' :: (t.toList ++ ')' :: rest.toList) := by
    simp
  have hopen : StaysOpen .outside 0 t.toList := h.staysOpen (by omega)
  rw [hlist, group?]
  exact closing?_append hopen h.closed (by rw [h.whole]; rfl) rest.toList

end SqlBuilder
