import SqlBuilder.Toml.Scalar

/-!
# Reading TOML text

A reader for TOML documents, version 1.1. As in the reader for JSON, every step
takes characters from the front of the text and gives back the rest, and values
inside values use up fuel, of which the length of the text is enough. Fuel is no
limit of the format: what a document may nest is bounded by `nestingLimit`.

* `ofText?` — a whole document;
* `readSections` — the headers of a document with the pairs below them;
* `readValue` — one value.
-/

namespace SqlBuilder.Toml

/-- What is left of a text after some of it was read. -/
abbrev Rest := List Char

/-- How deep arrays and inline tables nest, and how many parts a key has, at
most. -/
def nestingLimit : Nat := 80

/-! ## Blanks, comments and ends of lines -/

/-- Whether a character is a blank within a line: a space or a tab. -/
def isBlank (c : Char) : Bool := c = ' ' || c = '\t'

/-- The text after blanks within a line. -/
def skipSpaces (cs : List Char) : Rest := cs.dropWhile isBlank

/-- Whether a character may stand in a comment or between quotes: no control
character but the tab. -/
def isInner (c : Char) : Bool := c = '\t' || (0x20 ≤ c.toNat && c.toNat ≠ 0x7F)

/-- The text after a comment, if there is one. -/
def skipComment : List Char → Rest
  | '#' :: cs => cs.dropWhile isInner
  | cs => cs

/-- The text after the end of a line. -/
def lineEnd? : List Char → Option Rest
  | '\n' :: cs => some cs
  | '\r' :: '\n' :: cs => some cs
  | _ => none

/-- The text after ends of lines and what `skip` takes in front of each. -/
def skipLines (skip : List Char → Rest) : Nat → List Char → Rest
  | 0, cs => cs
  | fuel + 1, cs =>
    match lineEnd? (skip cs) with
    | some rest => skipLines skip fuel rest
    | none => skip cs

/-- The text after blanks, comments and ends of lines: everything that does not
matter between brackets. -/
def skipBetween (cs : List Char) : Rest :=
  skipLines (fun cs => skipComment (skipSpaces cs)) cs.length cs

/-! ## Strings -/

/-- A number of digits in base sixteen as a character. -/
def readCode (count : Nat) (cs : List Char) : Option (Char × Rest) := do
  let ds := cs.take count
  if ds.length = count ∧ ds.all fun c => (Json.hexValue? c).isSome then
    let c ← Json.scalar? (numberIn 16 ds)
    some (c, cs.drop count)
  else none

/-- The character of an escape, after its backslash. -/
def readEscape : List Char → Option (Char × Rest)
  | 'b' :: cs => some ('\x08', cs)
  | 't' :: cs => some ('\t', cs)
  | 'n' :: cs => some ('\n', cs)
  | 'f' :: cs => some ('\x0c', cs)
  | 'r' :: cs => some ('\r', cs)
  | 'e' :: cs => some ('\x1b', cs)
  | '"' :: cs => some ('"', cs)
  | '\\' :: cs => some ('\\', cs)
  | 'x' :: cs => readCode 2 cs
  | 'u' :: cs => readCode 4 cs
  | 'U' :: cs => readCode 8 cs
  | _ => none

/-- The characters of a string on one line between double quotes. -/
def readBasic : Nat → List Char → Option (List Char × Rest)
  | 0, _ => none
  | fuel + 1, cs =>
    match cs with
    | '"' :: rest => some ([], rest)
    | '\\' :: rest => do
      let (c, rest) ← readEscape rest
      let (body, rest) ← readBasic fuel rest
      some (c :: body, rest)
    | c :: rest =>
      if isInner c then do
        let (body, rest) ← readBasic fuel rest
        some (c :: body, rest)
      else none
    | [] => none

/-- The characters of a string on one line between apostrophes. -/
def readLiteral (cs : List Char) : Option (List Char × Rest) :=
  match cs.span fun c => isInner c && c ≠ '\'' with
  | (body, '\'' :: rest) => some (body, rest)
  | _ => none

/-- The quotes at the end of a string on many lines: three close it, and up to
two before them belong to it. -/
def closingQuotes? (q : Char) (cs : List Char) : Option (List Char × Rest) :=
  let quotes := cs.takeWhile (· = q)
  if 3 ≤ quotes.length then
    let inner := min 2 (quotes.length - 3)
    some (List.replicate inner q, cs.drop (inner + 3))
  else none

/-- The text after a backslash at the end of a line: blanks and ends of lines
up to the next other character. -/
def skipContinuation? (cs : List Char) : Option Rest :=
  (lineEnd? (skipSpaces cs)).map fun rest => skipLines skipSpaces rest.length rest

/-- The characters of a string on many lines between triple quotes `q`; only
between double quotes are there escapes. -/
def readLong (q : Char) : Nat → List Char → Option (List Char × Rest)
  | 0, _ => none
  | fuel + 1, cs =>
    -- One or two quotes in a row are text; the run is looked at as a whole, so
    -- that the last three of it close the string.
    match closingQuotes? q cs with
    | some done => some done
    | none =>
      match cs with
      | '\r' :: '\n' :: rest => do
        let (body, rest) ← readLong q fuel rest
        some ('\r' :: '\n' :: body, rest)
      | '\\' :: rest =>
        if q = '"' then
          match skipContinuation? rest with
          | some rest => readLong q fuel rest
          | none => do
            let (c, rest) ← readEscape rest
            let (body, rest) ← readLong q fuel rest
            some (c :: body, rest)
        else do
          let (body, rest) ← readLong q fuel rest
          some ('\\' :: body, rest)
      | c :: rest =>
        if isInner c ∨ c = '\n' then do
          let (body, rest) ← readLong q fuel rest
          some (c :: body, rest)
        else none
      | [] => none

/-- The text after the end of the line on which triple quotes open. -/
def skipFirstLineEnd (cs : List Char) : Rest := (lineEnd? cs).getD cs

/-- A string in one of its four forms. -/
def readText (cs : List Char) : Option (String × Rest) :=
  let read := match cs with
    | '"' :: '"' :: '"' :: rest => some (readLong '"' (rest.length + 1) (skipFirstLineEnd rest))
    | '\'' :: '\'' :: '\'' :: rest => some (readLong '\'' (rest.length + 1) (skipFirstLineEnd rest))
    | '"' :: rest => some (readBasic (rest.length + 1) rest)
    | '\'' :: rest => some (readLiteral rest)
    | _ => none
  read.join.map fun r => (String.ofList r.1, r.2)

/-! ## Keys -/

/-- Whether a character may stand in a key without quotes. -/
def isBareKey (c : Char) : Bool := c.isAlphanum || c = '_' || c = '-'

/-- One part of a key. -/
def readSimpleKey (cs : List Char) : Option (String × Rest) :=
  match cs with
  | '"' :: rest => (readBasic (rest.length + 1) rest).map fun r => (String.ofList r.1, r.2)
  | '\'' :: rest => (readLiteral rest).map fun r => (String.ofList r.1, r.2)
  | _ =>
    let (key, rest) := cs.span isBareKey
    if key = [] then none else some (String.ofList key, rest)

/-- Parts of a key with points between them, and the blanks around them. -/
def readKeyParts : Nat → List Char → Option (List String × Rest)
  | 0, _ => none
  | fuel + 1, cs => do
    let (key, rest) ← readSimpleKey (skipSpaces cs)
    match skipSpaces rest with
    | '.' :: rest =>
      let (keys, rest) ← readKeyParts fuel rest
      some (key :: keys, rest)
    | rest => some ([key], rest)

/-- A key of not too many parts. -/
def readKey (cs : List Char) : Option (List String × Rest) :=
  (readKeyParts cs.length cs).filter fun r => r.1.length ≤ nestingLimit

/-! ## Values -/

/-- Whether a character can stand in a word of a bare value. -/
def isBare (c : Char) : Bool :=
  c ≠ '=' && c ≠ ',' && c ≠ '[' && c ≠ ']' && c ≠ '\x7b' && c ≠ '\x7d' && c ≠ '#' && c ≠ '\r'
    && c ≠ '\n' && !isBlank c

/-- Whether a character can begin a further word of a bare value. -/
def beginsWord (c : Char) : Bool := isBare c && c ≠ '.' && c ≠ '"' && c ≠ '\''

/-- The words of a bare value with the blanks between them. Blanks that no further
word follows do not belong to the value. -/
def spanWords : Nat → List Char → List Char × Rest
  | 0, cs => ([], cs)
  | fuel + 1, cs =>
    let (word, rest) := cs.span isBare
    match rest.span isBlank with
    | (b :: blanks, c :: next) =>
      if beginsWord c then
        let (words, rest) := spanWords fuel (c :: next)
        (word ++ b :: blanks ++ words, rest)
      else (word, rest)
    | _ => (word, rest)

/-- A bare value. Of those with blanks in them only a date with its time, and what
passes for a number, have a meaning. -/
def readBare (cs : List Char) : Option (Toml × Rest) :=
  let (words, rest) := spanWords cs.length cs
  (bare? words).map fun v => (v, rest)

mutual

/-- One value, in which arrays and inline tables nest at most `room` deep. -/
def readValue (room : Nat) : Nat → List Char → Option (Toml × Rest)
  | 0, _ => none
  | fuel + 1, cs =>
    match room, cs with
    | 0, '[' :: _ | 0, '\x7b' :: _ => none
    | room + 1, '[' :: rest =>
      match skipBetween rest with
      | ']' :: rest => some (.array [], rest)
      | rest => (readItems room fuel rest).map fun r => (.array r.1, r.2)
    | room + 1, '\x7b' :: rest =>
      match skipBetween rest with
      | '\x7d' :: rest => some (.table [], rest)
      | rest => do
        let (pairs, rest) ← readPairs room fuel rest
        let v ← ofPairs? pairs
        some (v, rest)
    | _, '"' :: _ | _, '\'' :: _ => (readText cs).map fun r => (.text r.1, r.2)
    | _, _ => readBare cs
termination_by structural fuel => fuel

/-- The items of an array up to its closing bracket; a comma can stand after
the last. -/
def readItems (room : Nat) : Nat → List Char → Option (List Toml × Rest)
  | 0, _ => none
  | fuel + 1, cs => do
    let (item, rest) ← readValue room fuel cs
    match skipBetween rest with
    | ']' :: rest => some ([item], rest)
    | ',' :: rest =>
      -- A comma before the bracket adds no item.
      match skipBetween rest with
      | ']' :: rest => some ([item], rest)
      | rest =>
        let (items, rest) ← readItems room fuel rest
        some (item :: items, rest)
    | _ => none
termination_by structural fuel => fuel

/-- A key with its value, where `skip` takes what does not matter around the
equals sign. -/
def readPair (room : Nat) (skip : List Char → Rest) :
    Nat → List Char → Option ((List String × Toml) × Rest)
  | 0, _ => none
  | fuel + 1, cs => do
    let (key, rest) ← readKey cs
    match skip rest with
    | '=' :: rest =>
      let (v, rest) ← readValue room fuel (skip rest)
      some ((key, v), rest)
    | _ => none
termination_by structural fuel => fuel

/-- The pairs of an inline table up to its closing brace; a comma can stand
after the last. -/
def readPairs (room : Nat) : Nat → List Char → Option (List (List String × Toml) × Rest)
  | 0, _ => none
  | fuel + 1, cs => do
    let (pair, rest) ← readPair room skipBetween fuel cs
    match skipBetween rest with
    | '\x7d' :: rest => some ([pair], rest)
    | ',' :: rest =>
      match skipBetween rest with
      | '\x7d' :: rest => some ([pair], rest)
      | rest =>
        let (pairs, rest) ← readPairs room fuel rest
        some (pair :: pairs, rest)
    | _ => none
termination_by structural fuel => fuel

end

/-! ## Documents -/

/-- The text after the end of a line with nothing more on it, or after the end
of the document. -/
def finishLine? (cs : List Char) : Option Rest :=
  match skipComment (skipSpaces cs) with
  | [] => some []
  | rest => lineEnd? rest

/-- A header after its opening bracket, to the end of its line. -/
def readHeader (cs : List Char) : Option (Header × Rest) := do
  match cs with
  | '[' :: rest =>
    let (path, rest) ← readKey rest
    match rest with
    | ']' :: ']' :: rest =>
      let rest ← finishLine? rest
      some (.double path, rest)
    | _ => none
  | rest =>
    let (path, rest) ← readKey rest
    match rest with
    | ']' :: rest =>
      let rest ← finishLine? rest
      some (.single path, rest)
    | _ => none

/-- The sections of the rest of a document. The pairs of the section that is
being read are given with the last one first. -/
def readSections (header : Header) (pairs : List (List String × Toml)) :
    Nat → List Char → Option (List Section)
  | 0, _ => none
  | fuel + 1, cs =>
    match skipBetween cs with
    | [] => some [⟨header, pairs.reverse⟩]
    | '[' :: rest => do
      let (next, rest) ← readHeader rest
      let sections ← readSections next [] fuel rest
      some (⟨header, pairs.reverse⟩ :: sections)
    | cs => do
      let (pair, rest) ← readPair nestingLimit skipSpaces (cs.length + 1) cs
      let rest ← finishLine? rest
      readSections header (pair :: pairs) fuel rest

/-- Reads a document. A byte order mark can stand in front. -/
def ofText? (s : String) : Option Toml :=
  let cs := match s.toList with
    | '\ufeff' :: cs => cs
    | cs => cs
  (readSections .root [] (cs.length + 1) cs).bind ofSections?

end SqlBuilder.Toml
