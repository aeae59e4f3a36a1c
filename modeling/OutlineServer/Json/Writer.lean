import OutlineServer.Json.Basic

/-!
# Writing JSON

One line of printable ASCII: a comma and a blank between items, a colon and a blank after a key,
and every code point outside the printable ASCII range as an escape, so that the number of
characters written is the number of octets sent.  A code point above U+FFFF is written as the two
escapes of its surrogate pair.
-/
namespace OutlineServer.Json

def hexDigit (n : Nat) : CodePoint := CodePoint.ofNat (if n < 10 then 0x30 + n else 0x57 + n)

def unitEscape (n : Nat) : Text :=
  [CodePoint.backslash, 'u', hexDigit (n / 0x1000 % 16), hexDigit (n / 0x100 % 16),
    hexDigit (n / 0x10 % 16), hexDigit (n % 16)]

def shortEscape? (c : CodePoint) : Option CodePoint :=
  if c = CodePoint.quote then some CodePoint.quote
  else if c = CodePoint.backslash then some CodePoint.backslash
  else if c.val = 0x08 then some 'b'
  else if c.val = 0x09 then some 't'
  else if c.val = 0x0A then some 'n'
  else if c.val = 0x0C then some 'f'
  else if c.val = 0x0D then some 'r'
  else none

def escaped (c : CodePoint) : Text :=
  match shortEscape? c with
  | some letter => [CodePoint.backslash, letter]
  | none =>
    if 0x20 ≤ c.val ∧ c.val < 0x7F then [c]
    else if c.val < 0x10000 then unitEscape c.val
    else
      let offset := c.val - 0x10000
      unitEscape (0xD800 + offset / 0x400) ++ unitEscape (0xDC00 + offset % 0x400)

def quoted (t : Text) : Text := CodePoint.quote :: (t.flatMap escaped ++ [CodePoint.quote])

def floatNames : Double.SpecialNames := { nan := "NaN", infinity := "Infinity" }

mutual

def write : Json → Text
  | .null => "null"
  | .bool true => "true"
  | .bool false => "false"
  | .int value => Text.ofInt value
  | .float value => value.toText floatNames
  | .str value => quoted value
  | .arr items => CodePoint.ofChar '[' :: writeItems items
  | .obj fields => CodePoint.ofChar '{' :: writeFields fields

/-- The items and the closing bracket. -/
def writeItems : List Json → Text
  | [] => "]"
  | [item] => write item ++ ("]" : Text)
  | item :: rest => write item ++ (", " : Text) ++ writeItems rest

/-- The fields and the closing brace. -/
def writeFields : List (Text × Json) → Text
  | [] => [CodePoint.ofChar '}']
  | [(key, value)] => quoted key ++ (": " : Text) ++ write value ++ [CodePoint.ofChar '}']
  | (key, value) :: rest =>
    quoted key ++ (": " : Text) ++ write value ++ (", " : Text) ++ writeFields rest

end

end OutlineServer.Json
