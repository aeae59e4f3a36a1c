import OutlineServer.Json.Basic

/-!
# Reading JSON

A reader takes a text and answers what it read with the rest of the text, or nothing when the text
is no JSON.  The grammar is the standard one with these decisions: `NaN`, `Infinity` and
`-Infinity` are numbers; a number with a fraction or an exponent is a double and any other an
integer of any size; the last of repeated keys stays; an escaped high surrogate directly before an
escaped low one is their joint code point, and any other escaped surrogate stands for itself; a
control character below U+0020 ends a string in error.

Each value, list item and field spends one unit of `fuel` and at least one character, so a fuel of
the text's length is never short.
-/
namespace OutlineServer.Json

/-! ## Tokens -/

def isSpace (c : CodePoint) : Bool :=
  c = CodePoint.space || c = CodePoint.tab || c = CodePoint.lineFeed
    || c = CodePoint.carriageReturn

def skipSpace (t : Text) : Text := t.dropWhile isSpace

/-- The 16-bit unit that four hexadecimal digits spell. -/
def unit? (a b c d : CodePoint) : Option Nat :=
  Text.numeral? 16 CodePoint.hexDigit? [a, b, c, d]

def unescape? (letter : CodePoint) : Option CodePoint :=
  if letter = CodePoint.quote then some CodePoint.quote
  else if letter = CodePoint.backslash then some CodePoint.backslash
  else if letter = '/' then some '/'
  else if letter = 'b' then some (CodePoint.ofNat 0x08)
  else if letter = 'f' then some (CodePoint.ofNat 0x0C)
  else if letter = 'n' then some CodePoint.lineFeed
  else if letter = 'r' then some CodePoint.carriageReturn
  else if letter = 't' then some CodePoint.tab
  else none

def joinSurrogates (high low : Nat) : CodePoint :=
  CodePoint.ofNat (0x10000 + (high - 0xD800) * 0x400 + (low - 0xDC00))

/-- What was read so far, last first, with the escaped high surrogate that was waiting. -/
def settle (high : Option Nat) (done : Text) : Text :=
  match high with
  | none => done
  | some unit => CodePoint.ofNat unit :: done

/-- Reads a string after its opening quote; `done` is what was read so far, last first, and `high`
an escaped high surrogate directly before this place. -/
def readString (high : Option Nat) (done : Text) : Text → Option (Text × Text)
  | [] => none
  | c :: rest =>
    if c = CodePoint.quote then some ((settle high done).reverse, rest)
    else if c = CodePoint.backslash then
      match rest with
      | [] => none
      | letter :: rest =>
        if letter = 'u' then
          match rest with
          | a :: b :: c :: d :: rest =>
            match unit? a b c d with
            | none => none
            | some unit =>
              if (CodePoint.ofNat unit).isHighSurrogate then
                readString (some unit) (settle high done) rest
              else if (CodePoint.ofNat unit).isLowSurrogate then
                match high with
                | some lead => readString none (joinSurrogates lead unit :: done) rest
                | none => readString none (CodePoint.ofNat unit :: done) rest
              else readString none (CodePoint.ofNat unit :: settle high done) rest
          | _ => none
        else
          match unescape? letter with
          | none => none
          | some c => readString none (c :: settle high done) rest
    else if c.val < 0x20 then none
    else readString none (c :: settle high done) rest

/-- Reads `.` and the digits after it; no digits without the point. -/
def readFraction (t : Text) : Option (Option Text × Text) :=
  match t with
  | c :: after =>
    if c = '.' then
      let digits := after.takeWhile CodePoint.isDigit
      if digits.isEmpty then none else some (some digits, after.dropWhile CodePoint.isDigit)
    else some (none, t)
  | [] => some (none, t)

/-- Reads `e` or `E`, a sign or none, and the digits after it; no exponent without the letter. -/
def readExponent (t : Text) : Option (Option Int × Text) :=
  match t with
  | c :: after =>
    if c = 'e' ∨ c = 'E' then
      let (negative, after) :=
        match after with
        | s :: unsigned =>
          if s = '-' then (true, unsigned) else if s = '+' then (false, unsigned) else (false, after)
        | [] => (false, after)
      let digits := after.takeWhile CodePoint.isDigit
      if digits.isEmpty then none
      else
        let size : Int := Text.decimalValue digits
        some (some (if negative then -size else size), after.dropWhile CodePoint.isDigit)
    else some (none, t)
  | [] => some (none, t)

def number (negative : Bool) (whole : Text) (fraction : Option Text) (exponent : Option Int) :
    Json :=
  match fraction, exponent with
  | none, none =>
    let size : Int := whole.decimalValue
    .int (if negative then -size else size)
  | _, _ =>
    let places := fraction.getD []
    .float (Double.ofDecimal negative
      ⟨Text.decimalValue (whole ++ places), exponent.getD 0 - places.length⟩)

/-- Reads a number after its sign.  Digits after a leading zero are no number. -/
def readNumber (negative : Bool) (t : Text) : Option (Json × Text) := do
  let whole := t.takeWhile CodePoint.isDigit
  if whole.isEmpty || (Text.startsWith whole "0" && 1 < whole.length) then none
  let (fraction, rest) ← readFraction (t.dropWhile CodePoint.isDigit)
  let (exponent, rest) ← readExponent rest
  return (number negative whole fraction exponent, rest)

def readScalar (t : Text) : Option (Json × Text) :=
  (t.after? "null").map (.null, ·)
    <|> (t.after? "true").map (.bool true, ·)
    <|> (t.after? "false").map (.bool false, ·)
    <|> (t.after? "NaN").map (.float .nan, ·)
    <|> (t.after? "Infinity").map (.float (.infinite false), ·)
    <|> (t.after? "-Infinity").map (.float (.infinite true), ·)
    <|> match t.after? "-" with
        | some rest => readNumber true rest
        | none => readNumber false t

/-! ## Values -/

mutual

def readValue : (fuel : Nat) → Text → Option (Json × Text)
  | 0, _ => none
  | _, [] => none
  | fuel + 1, c :: rest =>
    if c = CodePoint.quote then (readString none [] rest).map (fun (s, rest) => (.str s, rest))
    else if c = '[' then
      match (skipSpace rest).after? "]" with
      | some rest => some (.arr [], rest)
      | none => readItems fuel [] (skipSpace rest)
    else if c = '{' then
      match (skipSpace rest).after? [CodePoint.ofChar '}'] with
      | some rest => some (.obj [], rest)
      | none => readFields fuel [] (skipSpace rest)
    else readScalar (c :: rest)

/-- Reads the items of a list up to its bracket; `done` is those read so far, last first. -/
def readItems : (fuel : Nat) → (done : List Json) → Text → Option (Json × Text)
  | 0, _, _ => none
  | fuel + 1, done, t =>
    match readValue fuel t with
    | none => none
    | some (item, rest) =>
      match skipSpace rest with
      | [] => none
      | c :: rest =>
        if c = ']' then some (.arr (item :: done).reverse, rest)
        else if c = ',' then readItems fuel (item :: done) (skipSpace rest)
        else none

def readFields : (fuel : Nat) → (done : Fields) → Text → Option (Json × Text)
  | 0, _, _ => none
  | _, _, [] => none
  | fuel + 1, done, c :: t =>
    if c = CodePoint.quote then
      match readString none [] t with
      | none => none
      | some (key, rest) =>
        match (skipSpace rest).after? ":" with
        | none => none
        | some rest =>
          match readValue fuel (skipSpace rest) with
          | none => none
          | some (value, rest) =>
            match skipSpace rest with
            | [] => none
            | c :: rest =>
              if c = '}' then some (.obj (Keyed.insert key value done), rest)
              else if c = ',' then readFields fuel (Keyed.insert key value done) (skipSpace rest)
              else none
    else none

end

/-- The value that a whole text spells, with space around it allowed.  There is no limit on the digits
of an integer and none on the depth of nesting: that an interpreter gives up beyond such limits is left
out. -/
def read? (t : Text) : Option Json :=
  match readValue (t.length + 1) (skipSpace t) with
  | some (value, rest) => if (skipSpace rest).isEmpty then some value else none
  | none => none

end OutlineServer.Json
