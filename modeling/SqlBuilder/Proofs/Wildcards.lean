import Mathlib.Data.List.Infix
import SqlBuilder.Filter.Wildcard

/-!
# Wildcards of expressions and of patterns

An expression with anchors and stars is translated to a pattern with percent
signs. Here both are given what they match, and the translation is shown to
keep it: what an expression finds in a text is what its pattern matches as a
whole.

* `Matches` — what a text with wildcards matches, whatever the wildcard is;
* `matches_append_iff`, `matches_starsToPercents_iff` — texts one behind the
  other, and another wildcard;
* `patternOf_anchored` — the pattern of a body with or without anchors;
* `slice?`, `ofRegexBySlices?` — the translation on the bytes of a text, which
  takes slices at byte positions;
* `wildcards_preserve_matching` — the translation keeps what is matched, and
  never slices a text where it must not.
-/

namespace SqlBuilder.Wildcard

/-! ## What is matched -/

/-- What a text matches in which the character `wild` stands for any characters,
and every other character for itself. -/
inductive Matches (wild : Char) : List Char → List Char → Prop
  | nil : Matches wild [] []
  | char {c : Char} {p x : List Char} (hc : c ≠ wild) (h : Matches wild p x) :
    Matches wild (c :: p) (c :: x)
  | any {p x : List Char} (skipped : List Char) (h : Matches wild p x) :
    Matches wild (wild :: p) (skipped ++ x)

variable {wild : Char} {p q w x : List Char}

theorem matches_singleton (wild : Char) (x : List Char) : Matches wild [wild] x := by
  simpa using Matches.any x .nil

/-- Two texts one behind the other match two parts of the subject. -/
theorem matches_append_iff :
    Matches wild (p ++ q) x ↔ ∃ y z, x = y ++ z ∧ Matches wild p y ∧ Matches wild q z := by
  constructor
  · intro h
    induction p generalizing x with
    | nil => exact ⟨[], x, rfl, .nil, h⟩
    | cons c p ih =>
      cases h with
      | char hc h =>
        obtain ⟨y, z, rfl, hp, hq⟩ := ih h
        exact ⟨c :: y, z, rfl, .char hc hp, hq⟩
      | any skipped h =>
        -- what the wildcard skips goes to the first part
        obtain ⟨y, z, rfl, hp, hq⟩ := ih h
        exact ⟨skipped ++ y, z, (List.append_assoc ..).symm, .any skipped hp, hq⟩
  · rintro ⟨y, z, rfl, hp, hq⟩
    induction hp with
    | nil => exact hq
    | char hc _ ih => exact .char hc ih
    | any skipped _ ih =>
      rw [List.append_assoc]
      exact .any skipped ih

/-- A text without percent signs matches the same when percent signs take the
place of its stars. -/
theorem matches_starsToPercents_iff (hw : '%' ∉ w) :
    Matches '%' (starsToPercents w) x ↔ Matches '*' w x := by
  induction w generalizing x with
  | nil => exact ⟨fun | .nil => .nil, fun | .nil => .nil⟩
  | cons c w ih =>
    obtain ⟨hc, hw⟩ := not_or.mp (mt List.mem_cons.mpr hw)
    have hsplit : starsToPercents (c :: w) = (if c = '*' then '%' else c) :: starsToPercents w :=
      rfl
    by_cases hstar : c = '*'
    · rw [hsplit, if_pos hstar, hstar]
      constructor
      · intro h
        cases h with
        | char hne => exact absurd rfl hne
        | any skipped h => exact .any skipped ((ih hw).mp h)
      · intro h
        cases h with
        | char hne => exact absurd rfl hne
        | any skipped h => exact .any skipped ((ih hw).mpr h)
    · -- the character stands for itself on both sides, as it is no percent sign
      rw [hsplit, if_neg hstar]
      constructor
      · intro h
        cases h with
        | char _ h => exact .char hstar ((ih hw).mp h)
        | any => exact absurd rfl hc
      · intro h
        cases h with
        | char _ h => exact .char (Ne.symm hc) ((ih hw).mpr h)
        | any => exact absurd rfl hstar

/-! ## The pattern of a body -/

/-- A body between anchors: no anchor and no percent sign is in it, and no white
space at its ends. -/
structure IsBody (w : List Char) : Prop where
  caret : '^' ∉ w
  dollar : '$' ∉ w
  percent : '%' ∉ w
  head : ∀ c, w.head? = some c → Text.isSpace c = false
  last : ∀ c, w.getLast? = some c → Text.isSpace c = false

/-- The expression of a body with an anchor at its start, at its end or both. -/
def anchored (start stop : Bool) (w : List Char) : List Char :=
  (if start then ['^'] else []) ++ w ++ (if stop then ['$'] else [])

theorem mem_starsToPercents {c : Char} (hc : c ≠ '%') (h : c ∈ starsToPercents w) : c ∈ w := by
  obtain ⟨d, hd, heq⟩ := List.mem_map.mp h
  split at heq
  · exact absurd heq.symm hc
  · exact heq ▸ hd

theorem starsToPercents_anchored (start stop : Bool) (w : List Char) :
    starsToPercents (anchored start stop w) = anchored start stop (starsToPercents w) := by
  cases start <;> cases stop <;> simp [starsToPercents, anchored]

theorem isSpace_starToPercent {c : Char} (h : Text.isSpace c = false) :
    Text.isSpace (if c = '*' then '%' else c) = false := by
  split
  · rfl
  · exact h

namespace IsBody

theorem dropSpace (hw : IsBody w) :
    Text.dropSpace (starsToPercents w) = starsToPercents w := by
  cases w with
  | nil => rfl
  | cons c w => exact Text.dropSpace_cons (isSpace_starToPercent (hw.head c rfl))

theorem dropSpaceEnd (hw : IsBody w) :
    Text.dropSpaceEnd (starsToPercents w) = starsToPercents w := by
  rcases List.eq_nil_or_concat' w with rfl | ⟨w, c, rfl⟩
  · rfl
  · rw [starsToPercents, List.map_append]
    exact Text.dropSpaceEnd_append_singleton
      (isSpace_starToPercent (hw.last c List.getLast?_concat))

theorem caret_starsToPercents (hw : IsBody w) : '^' ∉ starsToPercents w :=
  fun h => hw.caret (mem_starsToPercents (by decide) h)

theorem dollar_starsToPercents (hw : IsBody w) : '$' ∉ starsToPercents w :=
  fun h => hw.dollar (mem_starsToPercents (by decide) h)

end IsBody

theorem anchoredAtEnd_iff {s : List Char} :
    anchoredAtEnd s = true ↔ ∃ t, s = t ++ ['$'] ∧ '$' ∉ t := by
  rw [anchoredAtEnd, Bool.and_eq_true, beq_iff_eq, List.getLast?_eq_some_iff]
  constructor
  · rintro ⟨⟨t, rfl⟩, honly⟩
    exact ⟨t, rfl, by simpa using honly⟩
  · rintro ⟨t, rfl, ht⟩
    exact ⟨⟨t, rfl⟩, by simpa using ht⟩

theorem head?_anchored {start stop : Bool} (hcaret : '^' ∉ w) :
    ((anchored start stop w).head? == some '^') = start := by
  cases start with
  | true => rfl
  | false =>
    rw [beq_eq_false_iff_ne]
    intro h
    -- the caret would be in the body or in the other anchor
    have hmem : '^' ∈ w ++ (if stop then ['$'] else []) := List.mem_of_head? h
    rcases List.mem_append.mp hmem with hmem | hmem
    · exact hcaret hmem
    · cases stop <;> simp at hmem

theorem anchoredAtEnd_anchored {start stop : Bool} (hdollar : '$' ∉ w) :
    anchoredAtEnd (anchored start stop w) = stop := by
  have hbefore : '$' ∉ (if start then ['^'] else []) ++ w := by
    cases start <;> simpa using hdollar
  cases stop with
  | true => exact anchoredAtEnd_iff.mpr ⟨_, rfl, hbefore⟩
  | false =>
    rw [Bool.eq_false_iff]
    intro h
    obtain ⟨t, ht, -⟩ := anchoredAtEnd_iff.mp h
    rw [anchored, if_neg Bool.false_ne_true, List.append_nil] at ht
    exact hbefore (ht ▸ List.mem_append_right t List.mem_cons_self)

/-- **The pattern of a body** has a percent sign at every end without an
anchor. -/
theorem patternOf_anchored (start stop : Bool) (hw : IsBody w) :
    patternOf (anchored start stop w)
      = (if start then [] else ['%']) ++ starsToPercents w ++ (if stop then [] else ['%']) := by
  rw [patternOf, starsToPercents_anchored, head?_anchored hw.caret_starsToPercents,
    anchoredAtEnd_anchored hw.dollar_starsToPercents]
  cases start <;> cases stop
  · have hcaret := hw.caret_starsToPercents
    have hdollar := hw.dollar_starsToPercents
    simp [anchored, hcaret, hdollar]
  · simp [anchored, hw.dropSpace]
  · simp [anchored, hw.dropSpaceEnd]
  · simp [anchored]

theorem matches_end_iff {held : Bool} :
    Matches '%' (if held then [] else ['%']) x ↔ (held = true → x = []) := by
  cases held with
  | true =>
    constructor
    · intro h _
      cases h
      rfl
    · intro h
      rw [h rfl]
      exact .nil
  | false => exact ⟨fun _ => nofun, fun _ => matches_singleton '%' x⟩

/-- **The pattern matches where the body does**: anywhere in the subject, but at
an end of it where there is an anchor. -/
theorem matches_patternOf_anchored {start stop : Bool} (hw : IsBody w) :
    Matches '%' (patternOf (anchored start stop w)) x ↔
      ∃ before y after, x = before ++ y ++ after ∧ (start = true → before = []) ∧
        Matches '*' w y ∧ (stop = true → after = []) := by
  rw [patternOf_anchored start stop hw, matches_append_iff]
  constructor
  · rintro ⟨z, after, rfl, hz, hafter⟩
    obtain ⟨before, y, rfl, hbefore, hy⟩ := matches_append_iff.mp hz
    exact ⟨before, y, after, rfl, matches_end_iff.mp hbefore,
      (matches_starsToPercents_iff hw.percent).mp hy, matches_end_iff.mp hafter⟩
  · rintro ⟨before, y, after, rfl, hbefore, hy, hafter⟩
    refine ⟨before ++ y, after, rfl, ?_, matches_end_iff.mpr hafter⟩
    exact matches_append_iff.mpr ⟨before, y, rfl, matches_end_iff.mpr hbefore,
      (matches_starsToPercents_iff hw.percent).mpr hy⟩

/-! ## The translation on bytes -/

/-- The text between two byte positions of a text. There is none if a position
is beyond the end or inside a character, or if the two are in the wrong order. -/
def slice? (s : String) (start stop : Nat) : Option String :=
  if h : String.Pos.Raw.IsValid s ⟨start⟩ ∧ String.Pos.Raw.IsValid s ⟨stop⟩ ∧ start ≤ stop then
    some (String.extract (s.pos ⟨start⟩ h.1) (s.pos ⟨stop⟩ h.2.1))
  else none

/-- The byte position of the first occurrence of a character. -/
def bytePosition? (c : Char) (s : String) : Option Nat :=
  if c ∈ s.toList then some (String.ofList (s.toList.takeWhile (· ≠ c))).utf8ByteSize else none

/-- The pattern of a regular expression, cut out of the text at byte positions:
an anchor is one byte, and the anchor at the end is the first dollar sign. -/
def ofRegexBySlices? (regex : String) : Option String :=
  let s := String.ofList (starsToPercents regex.toList)
  let size := s.utf8ByteSize
  let starts := s.toList.head? == some '^'
  let ends := s != "" && bytePosition? '$' s == some (size - 1)
  match starts, ends with
  | true, true => slice? s 1 (size - 1)
  | true, false => do
    let rest ← slice? s 1 size
    return Text.trimEnd rest ++ "%"
  | false, true => do
    let rest ← slice? s 0 (size - 1)
    return "%" ++ Text.trimStart rest
  | false, false =>
    if s.toList.contains '^' || s.toList.contains '$' then some s else some ("%" ++ s ++ "%")

theorem extract_toByteArray (before part after : String) :
    (before ++ part ++ after).toByteArray.extract before.utf8ByteSize
      (before ++ part).utf8ByteSize = part.toByteArray := by
  have hwhole : (before ++ part).toByteArray.extract before.utf8ByteSize
      (before ++ part).utf8ByteSize = part.toByteArray := by
    rw [String.toByteArray_append]
    exact ByteArray.extract_append_eq_right String.size_toByteArray.symm
      (by simp [String.utf8ByteSize_append])
  rw [String.toByteArray_append, ByteArray.extract_append, hwhole, String.size_toByteArray]
  simp

/-- The positions around a part of a text give this part. -/
theorem slice?_append (before part after : String) :
    slice? (before ++ part ++ after) before.utf8ByteSize (before ++ part).utf8ByteSize
      = some part := by
  have hfirst : String.Pos.Raw.IsValid (before ++ part ++ after) ⟨before.utf8ByteSize⟩ :=
    String.Pos.Raw.isValid_iff_exists_append.mpr
      ⟨before, part ++ after, String.append_assoc .., rfl⟩
  have hlast : String.Pos.Raw.IsValid (before ++ part ++ after) ⟨(before ++ part).utf8ByteSize⟩ :=
    String.Pos.Raw.isValid_iff_exists_append.mpr ⟨before ++ part, after, rfl, rfl⟩
  have hle : before.utf8ByteSize ≤ (before ++ part).utf8ByteSize := by
    rw [String.utf8ByteSize_append]
    exact Nat.le_add_right ..
  rw [slice?, dif_pos ⟨hfirst, hlast, hle⟩, Option.some.injEq, ← String.toByteArray_inj,
    String.toByteArray_extract]
  exact extract_toByteArray before part after

theorem bytePosition?_ofList {c : Char} {before after : List Char} (hc : c ∉ before) :
    bytePosition? c (String.ofList (before ++ c :: after))
      = some (String.ofList before).utf8ByteSize := by
  have hne : ∀ d ∈ before, (decide (d ≠ c)) = true := by
    intro d hd
    rw [decide_eq_true_eq]
    rintro rfl
    exact hc hd
  have hbefore : (before ++ c :: after).takeWhile (· ≠ c) = before := by
    rw [List.takeWhile_append_of_pos hne]
    simp
  rw [bytePosition?, String.toList_ofList, if_pos (by simp), hbefore]

theorem utf8ByteSize_ofList_append (before after : List Char) :
    (String.ofList (before ++ after)).utf8ByteSize
      = (String.ofList before).utf8ByteSize + (String.ofList after).utf8ByteSize := by
  rw [String.ofList_append, String.utf8ByteSize_append]

/-- The first dollar sign is at the last byte in the texts that are held at their
end. -/
theorem endsAtDollar_eq (cs : List Char) :
    (String.ofList cs != "" &&
      bytePosition? '$' (String.ofList cs) == some ((String.ofList cs).utf8ByteSize - 1))
      = anchoredAtEnd cs := by
  have hone : (String.ofList ['$']).utf8ByteSize = 1 := rfl
  rw [Bool.eq_iff_iff, Bool.and_eq_true, bne_iff_ne, beq_iff_eq, anchoredAtEnd_iff]
  constructor
  · rintro ⟨-, hposition⟩
    by_cases hmem : '$' ∈ cs
    · obtain ⟨before, after, rfl, hbefore⟩ := List.eq_append_cons_of_mem hmem
      rw [bytePosition?_ofList hbefore, Option.some.injEq, utf8ByteSize_ofList_append,
        ← List.singleton_append, utf8ByteSize_ofList_append, hone] at hposition
      -- nothing is left behind the dollar sign
      have hnone : (String.ofList after).utf8ByteSize = 0 := by omega
      have hafter : after = [] := by
        have hempty := String.utf8ByteSize_eq_zero_iff.mp hnone
        simpa using congrArg String.toList hempty
      exact ⟨before, by rw [hafter], hbefore⟩
    · rw [bytePosition?, String.toList_ofList, if_neg hmem] at hposition
      cases hposition
  · rintro ⟨before, rfl, hbefore⟩
    rw [bytePosition?_ofList hbefore, utf8ByteSize_ofList_append, hone, Nat.add_sub_cancel]
    refine ⟨fun hempty => ?_, rfl⟩
    simpa using congrArg String.toList hempty

theorem slice?_ofList (before part after : List Char) :
    slice? (String.ofList (before ++ part ++ after)) (String.ofList before).utf8ByteSize
      (String.ofList (before ++ part)).utf8ByteSize = some (String.ofList part) := by
  rw [String.ofList_append, String.ofList_append]
  exact slice?_append _ _ _

/-- One byte before the end is where the last anchor begins. -/
theorem utf8ByteSize_anchor (before : List Char) :
    (String.ofList (before ++ ['$'])).utf8ByteSize - 1 = (String.ofList before).utf8ByteSize := by
  rw [utf8ByteSize_ofList_append]
  rfl

/-- **The slices are always there**, and give the pattern. -/
theorem ofRegexBySlices?_eq (regex : String) : ofRegexBySlices? regex = some (ofRegex regex) := by
  rw [ofRegexBySlices?, ofRegex, patternOf]
  generalize starsToPercents regex.toList = cs
  rw [endsAtDollar_eq, String.toList_ofList]
  cases hstart : cs.head? == some '^' <;> cases hend : anchoredAtEnd cs
  · -- nothing is cut off
    dsimp only
    split
    · rfl
    · rw [Option.some.injEq, ← String.toList_inj]
      simp
  · -- the last byte is cut off, which is the dollar sign
    obtain ⟨before, rfl, -⟩ := anchoredAtEnd_iff.mp hend
    have hslice : slice? (String.ofList (before ++ ['$'])) 0 (String.ofList before).utf8ByteSize
        = some (String.ofList before) := slice?_ofList [] before ['$']
    dsimp only
    rw [utf8ByteSize_anchor, hslice, List.dropLast_concat]
    simp [Text.trimStart]
  · -- the first byte is cut off, which is the caret
    obtain ⟨rest, rfl⟩ := List.head?_eq_some_iff.mp (beq_iff_eq.mp hstart)
    have hslice := slice?_ofList ['^'] rest []
    rw [List.append_nil, List.singleton_append] at hslice
    have hone : (String.ofList ['^']).utf8ByteSize = 1 := rfl
    rw [hone] at hslice
    dsimp only
    rw [hslice, List.tail_cons]
    simp [Text.trimEnd]
  · -- both are cut off, and they are not the same byte
    obtain ⟨rest, rfl⟩ := List.head?_eq_some_iff.mp (beq_iff_eq.mp hstart)
    obtain ⟨before, hbefore, -⟩ := anchoredAtEnd_iff.mp hend
    cases before with
    | nil => cases hbefore
    | cons c part =>
      obtain ⟨rfl, hrest⟩ := List.cons.inj hbefore
      have hslice : slice? (String.ofList ('^' :: (part ++ ['$']))) 1
          (String.ofList ('^' :: part)).utf8ByteSize = some (String.ofList part) :=
        slice?_ofList ['^'] part ['$']
      have hsize := utf8ByteSize_anchor ('^' :: part)
      rw [List.cons_append] at hsize
      rw [List.append_eq] at hrest
      dsimp only
      rw [hrest, hsize, hslice, List.tail_cons, List.dropLast_concat]

/-! ## The result -/

theorem matches_ofRegex (start stop : Bool) {regex body : String} (hbody : IsBody body.toList)
    (hregex : regex.toList = anchored start stop body.toList) :
    Matches '%' (ofRegex regex).toList x ↔
      ∃ before y after, x = before ++ y ++ after ∧ (start = true → before = []) ∧
        Matches '*' body.toList y ∧ (stop = true → after = []) := by
  rw [ofRegex, String.toList_ofList, hregex]
  exact matches_patternOf_anchored hbody

/-- **The translation keeps what is matched.** Under a pattern, all of a subject
matches exactly if what the anchors of the expression leave of it does under the
body: all of the subject, a prefix, a suffix or any part of it. And whatever the
expression is, the slices that are cut out of it begin and end between
characters, in the right order, and give the pattern. -/
theorem wildcards_preserve_matching :
    (∀ body subject : String, IsBody body.toList →
      (Matches '%' (ofRegex ("^" ++ body ++ "$")).toList subject.toList ↔
        Matches '*' body.toList subject.toList) ∧
      (Matches '%' (ofRegex ("^" ++ body)).toList subject.toList ↔
        ∃ part, part <+: subject.toList ∧ Matches '*' body.toList part) ∧
      (Matches '%' (ofRegex (body ++ "$")).toList subject.toList ↔
        ∃ part, part <:+ subject.toList ∧ Matches '*' body.toList part) ∧
      (Matches '%' (ofRegex body).toList subject.toList ↔
        ∃ part, part <:+: subject.toList ∧ Matches '*' body.toList part)) ∧
    ∀ regex : String, ofRegexBySlices? regex = some (ofRegex regex) := by
  refine ⟨fun body subject hbody => ⟨?_, ?_, ?_, ?_⟩, ofRegexBySlices?_eq⟩
  · rw [matches_ofRegex true true hbody (by simp [anchored])]
    constructor
    · rintro ⟨before, part, after, hsubject, hbefore, hpart, hafter⟩
      rw [hbefore rfl, hafter rfl, List.nil_append, List.append_nil] at hsubject
      exact hsubject ▸ hpart
    · intro h
      exact ⟨[], subject.toList, [], by simp, fun _ => rfl, h, fun _ => rfl⟩
  · rw [matches_ofRegex true false hbody (by simp [anchored])]
    constructor
    · rintro ⟨before, part, after, hsubject, hbefore, hpart, -⟩
      rw [hbefore rfl, List.nil_append] at hsubject
      exact ⟨part, ⟨after, hsubject.symm⟩, hpart⟩
    · rintro ⟨part, ⟨after, hsubject⟩, hpart⟩
      exact ⟨[], part, after, by simp [hsubject], fun _ => rfl, hpart, nofun⟩
  · rw [matches_ofRegex false true hbody (by simp [anchored])]
    constructor
    · rintro ⟨before, part, after, hsubject, -, hpart, hafter⟩
      rw [hafter rfl, List.append_nil] at hsubject
      exact ⟨part, ⟨before, hsubject.symm⟩, hpart⟩
    · rintro ⟨part, ⟨before, hsubject⟩, hpart⟩
      exact ⟨before, part, [], by simp [hsubject], nofun, hpart, fun _ => rfl⟩
  · rw [matches_ofRegex false false hbody (by simp [anchored])]
    constructor
    · rintro ⟨before, part, after, hsubject, -, hpart, -⟩
      exact ⟨part, ⟨before, after, hsubject.symm⟩, hpart⟩
    · rintro ⟨part, ⟨before, after, hsubject⟩, hpart⟩
      exact ⟨before, part, after, hsubject.symm, nofun, hpart, nofun⟩

/-- A body with a star and a blank in it, found inside a subject, and the empty
body between anchors, which matches the empty subject only. -/
theorem wildcards_preserve_matching_blank :
    IsBody "a* c".toList ∧ Matches '%' (ofRegex "a* c").toList "(ab c)".toList ∧
      IsBody "".toList ∧ ¬ Matches '%' (ofRegex ("^" ++ "" ++ "$")).toList "x".toList ∧
      ofRegexBySlices? "^é *$" = some (ofRegex "^é *$") := by
  have hbody : IsBody "a* c".toList :=
    ⟨by decide, by decide, by decide, fun c hc => by cases hc; rfl, fun c hc => by cases hc; rfl⟩
  have hempty : IsBody "".toList := ⟨nofun, nofun, nofun, nofun, nofun⟩
  have hpart : Matches '*' "a* c".toList "ab c".toList :=
    .char (by decide) (.any ['b'] (.char (by decide) (.char (by decide) .nil)))
  refine ⟨hbody, ?_, hempty, ?_, wildcards_preserve_matching.2 _⟩
  · exact (wildcards_preserve_matching.1 "a* c" "(ab c)" hbody).2.2.2.mpr
      ⟨"ab c".toList, ⟨['('], [')'], rfl⟩, hpart⟩
  · intro h
    cases (wildcards_preserve_matching.1 "" "x" hempty).1.mp h

end SqlBuilder.Wildcard
