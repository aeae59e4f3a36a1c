import OutlineServer.Audit.Timestamp
import OutlineServer.Json.Basic

/-!
# Scalars of a settings file

The settings file is written in TOML 1.0.  Here are its strings in their four forms, its numbers
and its dates and times; each reader answers the value and the rest of the text.  Settings hold no
dates, so a date or time that is valid is kept as the text that wrote it.
-/
namespace OutlineServer.Toml

def isInlineBlank (c : CodePoint) : Bool := c = CodePoint.space || c = CodePoint.tab

def skipBlanks (t : Text) : Text := t.dropWhile isInlineBlank

/-- A control character that may not stand in a line. -/
def isControl (c : CodePoint) : Bool := (c.val < 0x20 && c ≠ CodePoint.tab) || c.val = 0x7F

/-- A control character that may not stand in a text of several lines. -/
def isBlockControl (c : CodePoint) : Bool := isControl c && c ≠ CodePoint.lineFeed

/-! ## Strings -/

def readLiteral (t : Text) : Option (Text × Text) :=
  let isInside : CodePoint → Bool := (· ≠ CodePoint.apostrophe)
  let content := t.takeWhile isInside
  match t.dropWhile isInside with
  | _ :: rest => if content.any isControl then none else some (content, rest)
  | [] => none

/-- Up to two quotes that end a string of several lines belong to its content. -/
def readExtraQuotes (quote : CodePoint) (t : Text) : Text × Text :=
  match t with
  | a :: b :: rest =>
    if a = quote then if b = quote then ([a, b], rest) else ([a], b :: rest) else ([], t)
  | [a] => if a = quote then ([a], []) else ([], t)
  | [] => ([], [])

/-- A line feed directly after the opening quotes is not part of the string. -/
def skipFirstBreak (t : Text) : Text :=
  match t with
  | c :: rest => if c = CodePoint.lineFeed then rest else t
  | [] => t

/-- Reads a literal string of several lines up to its three apostrophes; `done` is what was read so
far, last first. -/
def readLiteralBlock (done : Text) : Text → Option (Text × Text)
  | a :: rest =>
    if a = CodePoint.apostrophe then
      match rest with
      | b :: c :: after =>
        if b = CodePoint.apostrophe ∧ c = CodePoint.apostrophe then
          let (extra, after) := readExtraQuotes CodePoint.apostrophe after
          some (done.reverse ++ extra, after)
        else readLiteralBlock (a :: done) (b :: c :: after)
      | _ => none
    else if isBlockControl a then none
    else readLiteralBlock (a :: done) rest
  | [] => none

def unescape? (letter : CodePoint) : Option CodePoint :=
  if letter = 'b' then some (CodePoint.ofNat 0x08)
  else if letter = 't' then some CodePoint.tab
  else if letter = 'n' then some CodePoint.lineFeed
  else if letter = 'f' then some (CodePoint.ofNat 0x0C)
  else if letter = 'r' then some CodePoint.carriageReturn
  else if letter = CodePoint.quote then some CodePoint.quote
  else if letter = CodePoint.backslash then some CodePoint.backslash
  else none

/-- The character that hexadecimal digits number; surrogates are no characters. -/
def scalar? (digits : Text) : Option CodePoint := do
  let n ← Text.numeral? 16 CodePoint.hexDigit? digits
  if h : n < 0x110000 then
    let c : CodePoint := ⟨n, h⟩
    if c.isSurrogate then none else some c
  else none

/-- Where the reader of a string of several lines stands after a backslash that ends a line. -/
inductive Joining where
  /-- Not joining lines. -/
  | no
  /-- Only blanks may come before the end of the line. -/
  | toBreak
  /-- Blanks and breaks are left out. -/
  | skipping
deriving DecidableEq

/-- Reads a basic string after its opening quotes.  `block` says that it may take several lines,
and `done` is what was read so far, last first. -/
def readBasic (block : Bool) (joining : Joining) (done : Text) : Text → Option (Text × Text)
  | [] => none
  | c :: rest =>
    if joining = .toBreak ∧ isInlineBlank c then readBasic block .toBreak done rest
    else if joining = .toBreak then
      if c = CodePoint.lineFeed then readBasic block .skipping done rest else none
    else if joining = .skipping ∧ (isInlineBlank c ∨ c = CodePoint.lineFeed) then
      readBasic block .skipping done rest
    else if c = CodePoint.quote then
      if block then
        match rest with
        | a :: b :: after =>
          if a = CodePoint.quote ∧ b = CodePoint.quote then
            let (extra, after) := readExtraQuotes CodePoint.quote after
            some (done.reverse ++ extra, after)
          else readBasic block .no (c :: done) (a :: b :: after)
        | _ => none
      else some (done.reverse, rest)
    else if c = CodePoint.backslash then
      match rest with
      | [] => none
      | letter :: rest =>
        if block ∧ isInlineBlank letter then readBasic block .toBreak done rest
        else if block ∧ letter = CodePoint.lineFeed then readBasic block .skipping done rest
        else if letter = 'u' then
          match rest with
          | a :: b :: c :: d :: rest =>
            match scalar? [a, b, c, d] with
            | some c => readBasic block .no (c :: done) rest
            | none => none
          | _ => none
        else if letter = 'U' then
          match rest with
          | a :: b :: c :: d :: e :: f :: g :: h :: rest =>
            match scalar? [a, b, c, d, e, f, g, h] with
            | some c => readBasic block .no (c :: done) rest
            | none => none
          | _ => none
        else
          match unescape? letter with
          | some c => readBasic block .no (c :: done) rest
          | none => none
    else if (if block then isBlockControl c else isControl c) then none
    else readBasic block .no (c :: done) rest

def threeQuotes (quote : CodePoint) : Text := [quote, quote, quote]

def readString (t : Text) : Option (Text × Text) :=
  match t.after? (threeQuotes CodePoint.quote) with
  | some rest => readBasic true .no [] (skipFirstBreak rest)
  | none =>
    match t.after? [CodePoint.quote] with
    | some rest => readBasic false .no [] rest
    | none =>
      match t.after? (threeQuotes CodePoint.apostrophe) with
      | some rest => readLiteralBlock [] (skipFirstBreak rest)
      | none =>
        match t.after? [CodePoint.apostrophe] with
        | some rest => readLiteral rest
        | none => none

/-! ## Numbers -/

/-- Reads the rest of a run of digits in which single low lines may stand between digits. -/
def moreDigits (isDigit : CodePoint → Bool) : Text → Text × Text
  | [] => ([], [])
  | c :: rest =>
    if isDigit c then
      let (digits, rest) := moreDigits isDigit rest
      (c :: digits, rest)
    else
      match rest with
      | d :: after =>
        if c = '_' ∧ isDigit d then
          let (digits, after) := moreDigits isDigit after
          (d :: digits, after)
        else ([], c :: rest)
      | [] => ([], c :: rest)

def readDigits (isDigit : CodePoint → Bool) (t : Text) : Option (Text × Text) :=
  match t with
  | c :: rest =>
    if isDigit c then
      let (digits, rest) := moreDigits isDigit rest
      some (c :: digits, rest)
    else none
  | [] => none

def isHexDigit (c : CodePoint) : Bool := c.hexDigit?.isSome

def isOctalDigit (c : CodePoint) : Bool := 0x30 ≤ c.val && c.val ≤ 0x37

def isBinaryDigit (c : CodePoint) : Bool := c = '0' || c = '1'

def readBased (t : Text) : Option (Json × Text) :=
  let inBase (lead : Text) (base : Nat) (isDigit : CodePoint → Bool) : Option (Json × Text) := do
    let rest ← t.after? lead
    let (digits, rest) ← readDigits isDigit rest
    let n ← Text.numeral? base CodePoint.hexDigit? digits
    return (.nat n, rest)
  inBase "0x" 16 isHexDigit <|> inBase "0b" 2 isBinaryDigit <|> inBase "0o" 8 isOctalDigit

def readSign (t : Text) : Bool × Text :=
  match t with
  | c :: rest => if c = '-' then (true, rest) else if c = '+' then (false, rest) else (false, t)
  | [] => (false, t)

def readFraction (t : Text) : Option Text × Text :=
  match (t.after? ".").bind (readDigits CodePoint.isDigit) with
  | some (digits, rest) => (some digits, rest)
  | none => (none, t)

def readExponent (t : Text) : Option Int × Text :=
  let found : Option (Int × Text) := do
    let rest ← t.after? "e" <|> t.after? "E"
    let (negative, rest) := readSign rest
    let (digits, rest) ← readDigits CodePoint.isDigit rest
    let size : Int := Text.decimalValue digits
    return (if negative then -size else size, rest)
  match found with
  | some (exponent, rest) => (some exponent, rest)
  | none => (none, t)

/-- Reads the whole part of a decimal number: zero alone, or digits that do not begin with it. -/
def readWhole (t : Text) : Option (Text × Text) :=
  match t.after? "0" with
  | some rest => some ("0", rest)
  | none => readDigits CodePoint.isDigit t

/-- Reads a decimal number, which is whole without a fraction and an exponent. -/
def readDecimal (t : Text) : Option (Json × Text) := do
  let (negative, rest) := readSign t
  let (whole, rest) ← readWhole rest
  let (fraction, rest) := readFraction rest
  let (exponent, rest) := readExponent rest
  if fraction.isNone ∧ exponent.isNone then
    let size : Int := Text.decimalValue whole
    return (.int (if negative then -size else size), rest)
  else
    let places := fraction.getD []
    return (.float (Double.ofDecimal negative
      ⟨Text.decimalValue (whole ++ places), exponent.getD 0 - places.length⟩), rest)

def readSpecial (t : Text) : Option (Json × Text) :=
  let (negative, rest) := readSign t
  (rest.after? "inf").map (.float (.infinite negative), ·)
    <|> (rest.after? "nan").map (.float .nan, ·)

def readNumber (t : Text) : Option (Json × Text) := readBased t <|> readDecimal t <|> readSpecial t

/-! ## Dates and times -/

/-- Reads exactly `n` digits as a number between two bounds. -/
def readField (n low high : Nat) (t : Text) : Option (Nat × Text) :=
  let digits := t.take n
  if digits.length = n ∧ digits.all CodePoint.isDigit then
    let value := Text.decimalValue digits
    if low ≤ value ∧ value ≤ high then some (value, t.drop n) else none
  else none

/-- Reads a time of day; a fraction of a second takes at least one digit. -/
def skipTime (t : Text) : Option Text := do
  let (_, rest) ← readField 2 0 23 t
  let (_, rest) ← readField 2 0 59 (← rest.after? ":")
  let (_, rest) ← readField 2 0 59 (← rest.after? ":")
  match rest.after? "." with
  | some places =>
    if (places.takeWhile CodePoint.isDigit).isEmpty then return rest
    else return places.dropWhile CodePoint.isDigit
  | none => return rest

def skipOffset (t : Text) : Text :=
  let found : Option Text :=
    t.after? "Z" <|> t.after? "z" <|> do
      let rest ← t.after? "+" <|> t.after? "-"
      let (_, rest) ← readField 2 0 23 rest
      let (_, rest) ← readField 2 0 59 (← rest.after? ":")
      return rest
  found.getD t

/-- Reads the year, month and day of a date, which need not exist in the calendar. -/
def readDay (t : Text) : Option ((Nat × Nat × Nat) × Text) := do
  let (year, rest) ← readField 4 0 9999 t
  let (month, rest) ← readField 2 1 12 (← rest.after? "-")
  let (day, rest) ← readField 2 1 31 (← rest.after? "-")
  return ((year, month, day), rest)

def dayExists (year month day : Nat) : Bool :=
  year ≠ 0
    && (CalendarDate.monthLengths (CalendarDate.isLeapYear year))[month - 1]?.any (day ≤ ·)

def skipTimeAfterDate (t : Text) : Text :=
  let found : Option Text := do
    let rest ← t.after? "T" <|> t.after? "t" <|> t.after? " "
    let rest ← skipTime rest
    return skipOffset rest
  found.getD t

def consumed (t rest : Text) : Text := t.take (t.length - rest.length)

/-- A date or time at the front of a text: nothing when there is none, and otherwise its rest if it
is one of the calendar. -/
def readMoment (t : Text) : Option (Option (Json × Text)) :=
  match readDay t with
  | some ((year, month, day), rest) =>
    let rest := skipTimeAfterDate rest
    some (if dayExists year month day then some (.str (consumed t rest), rest) else none)
  | none => (skipTime t).map (fun rest => some (.str (consumed t rest), rest))

/-! ## Any scalar -/

def readScalar (t : Text) : Option (Json × Text) :=
  match t with
  | [] => none
  | c :: _ =>
    if c = CodePoint.quote ∨ c = CodePoint.apostrophe then
      (readString t).map (fun (s, rest) => (.str s, rest))
    else
      match t.after? "true" with
      | some rest => some (.bool true, rest)
      | none =>
        match t.after? "false" with
        | some rest => some (.bool false, rest)
        | none => (readMoment t).getD (readNumber t)

end OutlineServer.Toml
