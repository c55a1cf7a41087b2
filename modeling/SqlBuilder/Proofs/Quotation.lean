/-!
# Quoted segments of a text

How a database splits a text into what stands between quotes and what stands
outside. A quote opens a segment, a backslash in a segment takes the character
after it, and the same quote closes the segment. The reader is a machine with
three modes, so that what it makes of a text put together from pieces follows
from what it makes of the pieces.

* `Mode.after` — the mode after a text; `IsClosed` texts lead from outside to
  outside;
* `shell` — a text with one placeholder for every quoted segment;
* `segment?` — the quoted segment at the beginning of a text and the rest;
* `IsClosed.append`, `shell_append` — texts put together;
* `segment?_append` — a segment is read off whatever comes after it.
-/

namespace SqlBuilder.Quotation

/-- Where the reader of a text stands. -/
inductive Mode where
  | outside
  /-- In a segment that the quote `q` opened. -/
  | inside (q : Char)
  /-- In a segment, right after a backslash. -/
  | escaped (q : Char)
  deriving DecidableEq, Repr

/-- The characters that open a segment. -/
def isQuote (c : Char) : Bool := c = '\'' || c = '"'

theorem isQuote_iff {c : Char} : isQuote c = true ↔ c = '\'' ∨ c = '"' := by
  simp [isQuote]

/-- The mode after one character. -/
def Mode.next : Mode → Char → Mode
  | .outside, c => if isQuote c then .inside c else .outside
  | .inside q, c => if c = '\\' then .escaped q else if c = q then .outside else .inside q
  | .escaped q, _ => .inside q

/-- The mode after a text. -/
def Mode.after (m : Mode) (cs : List Char) : Mode := cs.foldl Mode.next m

/-- A text that leaves no segment open. -/
def IsClosed (cs : List Char) : Prop := Mode.after .outside cs = .outside

instance (cs : List Char) : Decidable (IsClosed cs) := inferInstanceAs (Decidable (_ = _))

/-- The text with a placeholder, `none`, for every quoted segment. -/
def shell : Mode → List Char → List (Option Char)
  | _, [] => []
  | .outside, c :: cs =>
    (if isQuote c then none else some c) :: shell (Mode.next .outside c) cs
  | .inside q, c :: cs => shell (Mode.next (.inside q) c) cs
  | .escaped q, c :: cs => shell (Mode.next (.escaped q) c) cs

/-- The characters up to the one that leads outside, and those after it. -/
def leave? : Mode → List Char → Option (List Char × List Char)
  | _, [] => none
  | m, c :: cs =>
    if m.next c = .outside then some ([c], cs)
    else (leave? (m.next c) cs).map fun p => (c :: p.1, p.2)

/-- The quoted segment at the beginning of a text, both quotes included, and
the characters after it. -/
def segment? : List Char → Option (List Char × List Char)
  | [] => none
  | c :: cs =>
    if isQuote c then (leave? (.inside c) cs).map fun p => (c :: p.1, p.2) else none

/-! ## Texts put together -/

theorem after_append (m : Mode) (a b : List Char) :
    m.after (a ++ b) = (m.after a).after b := by
  unfold Mode.after
  exact List.foldl_append

theorem after_cons (m : Mode) (c : Char) (cs : List Char) :
    m.after (c :: cs) = (m.next c).after cs := rfl

theorem shell_append (m : Mode) (a b : List Char) :
    shell m (a ++ b) = shell m a ++ shell (m.after a) b := by
  induction a generalizing m with
  | nil => cases m <;> rfl
  | cons c a ih =>
    rw [List.cons_append, after_cons]
    -- outside, a character or a placeholder comes first; in a segment, nothing does
    cases m with
    | outside =>
      show _ :: shell _ (a ++ b) = _ :: (shell _ a ++ _)
      rw [ih]
    | inside q => exact ih (Mode.next (.inside q) c)
    | escaped q => exact ih (Mode.next (.escaped q) c)

/-- Closed texts can be put together. -/
theorem IsClosed.append {a b : List Char} (ha : IsClosed a) (hb : IsClosed b) :
    IsClosed (a ++ b) := by
  unfold IsClosed at *
  rw [after_append, ha, hb]

/-- After a closed text the reader starts afresh. -/
theorem IsClosed.shell_append {a : List Char} (ha : IsClosed a) (b : List Char) :
    shell .outside (a ++ b) = shell .outside a ++ shell .outside b := by
  rw [Quotation.shell_append, ha]

/-! ## Texts without quotes -/

/-- No quote is among characters that neither quote is among. -/
theorem isQuote_eq_false {p : Char → Bool} (hsingle : p '\'' = false) (hdouble : p '"' = false)
    {c : Char} (h : p c = true) : isQuote c = false := by
  rw [isQuote, Bool.or_eq_false_iff, decide_eq_false_iff_not, decide_eq_false_iff_not]
  constructor
  · rintro rfl
    rw [hsingle] at h
    cases h
  · rintro rfl
    rw [hdouble] at h
    cases h

/-- A text without quotes leads nowhere. -/
theorem isClosed_of_forall {cs : List Char} (h : ∀ c ∈ cs, isQuote c = false) :
    IsClosed cs := by
  induction cs with
  | nil => rfl
  | cons c cs ih =>
    have hc : Mode.next .outside c = .outside := by
      rw [Mode.next, h c List.mem_cons_self]
      rfl
    unfold IsClosed
    rw [after_cons, hc]
    exact ih fun d hd => h d (List.mem_cons_of_mem c hd)

/-- A text without quotes is all shell. -/
theorem shell_of_forall {cs : List Char} (h : ∀ c ∈ cs, isQuote c = false) :
    shell .outside cs = cs.map some := by
  induction cs with
  | nil => rfl
  | cons c cs ih =>
    have hc : isQuote c = false := h c List.mem_cons_self
    have hnext : Mode.next .outside c = .outside := by
      rw [Mode.next, hc]
      rfl
    rw [shell, hnext, hc, ih fun d hd => h d (List.mem_cons_of_mem c hd)]
    rfl

/-! ## Segments -/

/-- The reader leaves at the same place whatever comes after it. -/
theorem leave?_append {m : Mode} {a used rest : List Char} (h : leave? m a = some (used, rest))
    (b : List Char) : leave? m (a ++ b) = some (used, rest ++ b) := by
  induction a generalizing m used rest with
  | nil => simp [leave?] at h
  | cons c a ih =>
    rw [leave?] at h
    rw [List.cons_append, leave?]
    split at h
    · -- the first character leads outside already
      next hout =>
      rw [Option.some.injEq, Prod.mk.injEq] at h
      obtain ⟨rfl, rfl⟩ := h
      rw [if_pos hout]
    · next hin =>
      rw [if_neg hin]
      obtain ⟨p, hp, hpair⟩ := Option.map_eq_some_iff.mp h
      rw [Prod.mk.injEq] at hpair
      obtain ⟨rfl, rfl⟩ := hpair
      rw [ih hp]
      rfl

/-- The segment at the beginning of a text is read off whatever comes after
it. -/
theorem segment?_append {a used rest : List Char} (h : segment? a = some (used, rest))
    (b : List Char) : segment? (a ++ b) = some (used, rest ++ b) := by
  cases a with
  | nil => simp [segment?] at h
  | cons c a =>
    rw [segment?] at h
    rw [List.cons_append, segment?]
    split at h
    · next hc =>
      obtain ⟨p, hp, hpair⟩ := Option.map_eq_some_iff.mp h
      rw [Prod.mk.injEq] at hpair
      obtain ⟨rfl, rfl⟩ := hpair
      rw [if_pos hc, leave?_append hp b]
      rfl
    · simp at h

end SqlBuilder.Quotation
