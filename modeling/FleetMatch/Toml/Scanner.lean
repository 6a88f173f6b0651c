import FleetMatch.Decimal.Literal
import FleetMatch.Text.Utf8

/-!
# Scanning TOML text

The lexical part of the TOML reader.  Every scan returns what it read and the rest of the text, or
`none` where the text is not TOML.

* `key?`: a bare or quoted key, and `keys?` a dotted sequence of them.
* `basicString?`, `literalString?` and their forms over several lines.
* `scalar?`: a number, a truth value or a time.
-/

namespace FleetMatch.Toml

/-! ## Blanks, comments and line ends -/

/-- A space or a tab. -/
def isBlank (c : Char) : Bool := c == ' ' || c == '\t'

/-- The text after its leading blanks. -/
def skipBlanks (s : List Char) : List Char := s.dropWhile isBlank

/-- The character may not stand in comments and strings. -/
def isControl (c : Char) : Bool := (c.toNat < 0x20 && c != '\t') || c.toNat == 0x7F

/-- The text after a comment, if there is one. -/
def skipComment? (s : List Char) : Option (List Char) :=
  match s with
  | '#' :: rest =>
    let after := rest.dropWhile fun c => !isControl c
    match after with
    | [] => some []
    | '\n' :: _ => some after
    | '\r' :: '\n' :: _ => some after
    | _ => none
  | _ => some s

/-- The text after a line end, if there is one here. -/
def lineEnd? : List Char → Option (List Char)
  | '\n' :: rest => some rest
  | '\r' :: '\n' :: rest => some rest
  | _ => none

/-- The text after the end of the line: blanks, a comment, and a line end or the end of the text. -/
def endOfLine? (s : List Char) : Option (List Char) :=
  match skipComment? (skipBlanks s) with
  | none => none
  | some [] => some []
  | some rest => lineEnd? rest

/-- The text after blanks, comments and line ends; `inComment` tells whether it starts inside a
comment. -/
def skipFrom? (inComment : Bool) : List Char → Option (List Char)
  | [] => some []
  | '\n' :: rest => skipFrom? false rest
  | '\r' :: '\n' :: rest => skipFrom? false rest
  | c :: rest =>
    if inComment then if isControl c then none else skipFrom? true rest
    else if isBlank c then skipFrom? false rest
    else if c = '#' then skipFrom? true rest
    else some (c :: rest)

/-- The text after blanks, comments and line ends. -/
def skipLines? (s : List Char) : Option (List Char) := skipFrom? false s

/-! ## Strings -/

/-- The value of a hexadecimal numeral. -/
def hex? (cs : List Char) : Option Nat :=
  cs.foldl
    (fun acc c => do
      let n ← acc
      if '0' ≤ c && c ≤ '9' then return n * 16 + (c.toNat - 48)
      else if 'a' ≤ c && c ≤ 'f' then return n * 16 + (c.toNat - 87)
      else if 'A' ≤ c && c ≤ 'F' then return n * 16 + (c.toNat - 55)
      else none)
    (some 0)

/-- The character with a code point of so many hexadecimal digits. -/
def codePoint? (width : Nat) (s : List Char) : Option (Char × List Char) :=
  if (s.take width).length < width then none
  else
    (hex? (s.take width)).bind fun n =>
      if n < 0xD800 || (0xDFFF < n && n < 0x110000) then some (Char.ofNat n, s.drop width) else none

/-- The character of an escape, after its backslash. -/
def escape? : List Char → Option (Char × List Char)
  | 'b' :: rest => some ('\x08', rest)
  | 't' :: rest => some ('\t', rest)
  | 'n' :: rest => some ('\n', rest)
  | 'f' :: rest => some ('\x0c', rest)
  | 'r' :: rest => some ('\r', rest)
  | 'e' :: rest => some ('\x1b', rest)
  | '"' :: rest => some ('"', rest)
  | '\\' :: rest => some ('\\', rest)
  | 'x' :: rest => codePoint? 2 rest
  | 'u' :: rest => codePoint? 4 rest
  | 'U' :: rest => codePoint? 8 rest
  | _ => none

/-- The text after a line break that is escaped, with the blanks and line ends after it. -/
def afterFold? (s : List Char) : Option (List Char) :=
  (lineEnd? (skipBlanks s)).map fun rest =>
    rest.dropWhile fun c => isBlank c || c == '\n' || c == '\r'

/-- The characters that a written text with escapes stands for.  Where it may have several lines,
a line break can be escaped.  `fuel` bounds the number of characters. -/
def unescaped? (severalLines : Bool) (fuel : Nat) (s : List Char) : Option (List Char) :=
  match fuel, s with
  | 0, _ => none
  | _, [] => some []
  | fuel + 1, '\\' :: rest =>
    match if severalLines then afterFold? rest else none with
    | some after => unescaped? severalLines fuel after
    | none =>
      (escape? rest).bind fun (c, after) => (unescaped? severalLines fuel after).map (c :: ·)
  | fuel + 1, c :: rest => (unescaped? severalLines fuel rest).map (c :: ·)

/-- What is written up to a double quote that is not escaped, and the text after it. -/
def basicRaw? : List Char → Option (List Char × List Char)
  | [] => none
  | '"' :: rest => some ([], rest)
  | '\\' :: c :: rest => (basicRaw? rest).map fun (cs, rest) => ('\\' :: c :: cs, rest)
  | c :: rest =>
    if isControl c then none else (basicRaw? rest).map fun (cs, rest) => (c :: cs, rest)

/-- A string between double quotes, after the first of them. -/
def basicString? (s : List Char) : Option (List Char × List Char) :=
  (basicRaw? s).bind fun (raw, rest) =>
    (unescaped? false (raw.length + 1) raw).map fun cs => (cs, rest)

/-- A string between single quotes, after the first of them; nothing in it is an escape. -/
def literalString? (s : List Char) : Option (List Char × List Char) :=
  let inside := s.takeWhile fun c => c != '\'' && !isControl c
  match s.drop inside.length with
  | '\'' :: rest => some (inside, rest)
  | _ => none

/-- The number of equal characters at the start of a text, at most six. -/
def runLength (c : Char) (s : List Char) : Nat := ((s.take 6).takeWhile (· == c)).length

/-- What is written in a string over several lines up to the three quotes that close it, and the text
after these.  Line ends stay as they are written.  Up to two quotes right before the closing ones
belong to the string. -/
def manyLinesRaw? (quote : Char) : List Char → Option (List Char × List Char)
  | [] => none
  | c :: rest =>
    if c = quote then
      let run := runLength quote (c :: rest)
      if run < 3 then (manyLinesRaw? quote rest).map fun (cs, rest) => (c :: cs, rest)
      else if 5 < run then none
      else some (List.replicate (run - 3) quote, (c :: rest).drop run)
    else if c = '\\' && quote = '"' then
      match rest with
      | [] => none
      | d :: rest => (manyLinesRaw? quote rest).map fun (cs, rest) => (c :: d :: cs, rest)
    else if isControl c && (lineEnd? (c :: rest)).isNone then none
    else (manyLinesRaw? quote rest).map fun (cs, rest) => (c :: cs, rest)

/-- A string over several lines, after the three quotes that open it.  A line end right after these
does not belong to it. -/
def linesString? (quote : Char) (s : List Char) : Option (List Char × List Char) :=
  (manyLinesRaw? quote ((lineEnd? s).getD s)).bind fun (raw, rest) =>
    if quote = '"' then (unescaped? true (raw.length + 1) raw).map fun cs => (cs, rest)
    else some (raw, rest)

/-- A string in any of its four forms, if there is one here. -/
def string? (s : List Char) : Option (String × List Char) :=
  let named := fun (r : List Char × List Char) => (String.ofList r.1, r.2)
  match s with
  | '"' :: '"' :: '"' :: rest => (linesString? '"' rest).map named
  | '\'' :: '\'' :: '\'' :: rest => (linesString? '\'' rest).map named
  | '"' :: rest => (basicString? rest).map named
  | '\'' :: rest => (literalString? rest).map named
  | _ => none

/-! ## Keys -/

/-- The character may stand in a key without quotes. -/
def isKeyChar (c : Char) : Bool := c.isAlphanum || c == '_' || c == '-'

/-- A single key. -/
def key? (s : List Char) : Option (String × List Char) :=
  match s with
  | '"' :: rest => (basicString? rest).map fun (cs, rest) => (String.ofList cs, rest)
  | '\'' :: rest => (literalString? rest).map fun (cs, rest) => (String.ofList cs, rest)
  | _ =>
    let bare := s.takeWhile isKeyChar
    if bare.isEmpty then none else some (String.ofList bare, s.dropWhile isKeyChar)

/-- Keys with points between them, at most so many. -/
def keysUpTo? (most : Nat) (s : List Char) : Option (List String × List Char) :=
  match most with
  | 0 => none
  | most + 1 =>
    (key? (skipBlanks s)).bind fun (key, rest) =>
      match skipBlanks rest with
      | '.' :: after => (keysUpTo? most after).map fun (more, rest) => (key :: more, rest)
      | after => some ([key], after)

/-- How deep lists, tables and dotted keys may go. -/
def depthLimit : Nat := 80

/-- Keys with points between them. -/
def keys? (s : List Char) : Option (List String × List Char) := keysUpTo? depthLimit s

/-! ## Numbers -/

/-- Digits with single underscores between them, without the underscores. -/
def grouped? (isDigit : Char → Bool) : List Char → Option (List Char)
  | [] => none
  | [c] => if isDigit c then some [c] else none
  | c :: '_' :: rest => if isDigit c then (grouped? isDigit rest).map (c :: ·) else none
  | c :: rest => if isDigit c then (grouped? isDigit rest).map (c :: ·) else none

/-- Decimal digits that do not start with a superfluous zero. -/
def wholeDigits? (cs : List Char) : Option (List Char) :=
  (grouped? Numeral.isDigit cs).bind fun digits =>
    if digits.head? = some '0' && 1 < digits.length then none else some digits

/-- A numeral with its sign taken off. -/
def unsign : List Char → Bool × List Char
  | '-' :: cs => (true, cs)
  | '+' :: cs => (false, cs)
  | cs => (false, cs)

/-- The value of digits of a base, each of them below the base. -/
def baseValue? (base : Nat) (digits : List Char) : Option Nat :=
  digits.foldl
    (fun acc c => do
      let n ← acc
      let d ← hex? [c]
      if d < base then return n * base + d else none)
    (some 0)

/-- An integer of 64 bits. -/
def integer? (token : List Char) : Option Int :=
  let based (base : Nat) (cs : List Char) : Option Int :=
    (grouped? (fun c => (hex? [c]).isSome) cs).bind fun digits =>
      (baseValue? base digits).map fun n => (n : Int)
  let value :=
    match token with
    | '0' :: 'x' :: cs => based 16 cs
    | '0' :: 'o' :: cs => based 8 cs
    | '0' :: 'b' :: cs => based 2 cs
    | _ =>
      let (negative, cs) := unsign token
      (wholeDigits? cs).map fun digits =>
        if negative then -(Numeral.value digits : Int) else (Numeral.value digits : Int)
  value.bind fun n => if Numeral.fitsInt64 n then some n else none

/-- A number with a point or an exponent, or one of the words for what is not finite. -/
def float? (token : List Char) : Option Float :=
  let (negative, cs) := unsign token
  if cs = "inf".toList then some (if negative then -(1.0 / 0.0) else 1.0 / 0.0)
  else if cs = "nan".toList then some (0.0 / 0.0)
  else do
    let isMark := fun c => c == '.' || c == 'e' || c == 'E'
    let whole ← wholeDigits? (cs.takeWhile fun c => !isMark c)
    let rest := cs.dropWhile fun c => !isMark c
    let isExponentMark := fun c => c == 'e' || c == 'E'
    let fraction ←
      if rest.head? = some '.' then
        grouped? Numeral.isDigit (rest.tail.takeWhile fun c => !isExponentMark c)
      else some []
    let exponent ←
      match rest.dropWhile fun c => !isExponentMark c with
      | [] => if fraction.isEmpty then none else some 0
      | _ :: e =>
        let (down, digits) := unsign e
        (grouped? Numeral.isDigit digits).map fun ds =>
          if down then -(Numeral.value ds : Int) else (Numeral.value ds : Int)
    let x := Decimal.ofDecimal negative (Numeral.value (whole ++ fraction))
      (exponent - fraction.length)
    if x.isFinite then return x else none

end FleetMatch.Toml
