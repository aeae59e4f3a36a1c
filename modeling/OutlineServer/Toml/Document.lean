import OutlineServer.Toml.Scalar

/-!
# The tables of a settings file

A TOML document is a sequence of statements: a header opens a table or adds a table to a list, and
an assignment puts a value under a dotted key of the table that is open.  A table may be opened by
one header only, a table that dotted keys made may not be opened by a header afterwards, and what
an assignment wrote as a list or an inline table is final.  `Draft` keeps, beside the tables built
so far, the keys of those that may not be opened again and of those that are final.

A reader spends one unit of `fuel` a value, item, key part or statement, each of which takes at
least one character, so a fuel of the text's length is never short.
-/
namespace OutlineServer.Toml

abbrev Key := List Text

/-! ## Tables under construction -/

/-- Changes the table at the end of a key, making the tables on the way.  A list on the way stands
for its last table when `throughLists` is set. -/
def changeAt (throughLists : Bool) : Key → (change : Fields → Option Fields) → Fields →
    Option Fields
  | [], change, fields => change fields
  | part :: key, change, fields =>
    match Keyed.get? part fields with
    | none => do
      let inner ← changeAt throughLists key change []
      return Keyed.insert part (.obj inner) fields
    | some (.obj inner) => do
      let inner ← changeAt throughLists key change inner
      return Keyed.insert part (.obj inner) fields
    | some (.arr items) =>
      match throughLists, items.getLast? with
      | true, some (.obj inner) => do
        let inner ← changeAt throughLists key change inner
        return Keyed.insert part (.arr (items.dropLast ++ [.obj inner])) fields
      | _, _ => none
    | some _ => none

def addNew (part : Text) (value : Json) (fields : Fields) : Option Fields :=
  match Keyed.get? part fields with
  | some _ => none
  | none => some (Keyed.insert part value fields)

/-- Adds an empty table to the list under a key, which is made if need be. -/
def addItem (part : Text) (fields : Fields) : Option Fields :=
  match Keyed.get? part fields with
  | none => some (Keyed.insert part (.arr [.obj []]) fields)
  | some (.arr items) => some (Keyed.insert part (.arr (items ++ [.obj []])) fields)
  | some _ => none

def isContainer : Json → Bool
  | .arr _ => true
  | .obj _ => true
  | _ => false

def isFinal (final : List Key) (key : Key) : Bool := final.any (fun f => f.isPrefixOf key)

/-- The tables built so far and what may not be done to them. -/
structure Draft where
  fields : Fields := []
  /-- The tables that no header or dotted key may open. -/
  opened : List Key := []
  /-- The tables that dotted keys made since the last header; they count as opened from the next
  header on. -/
  pending : List Key := []
  /-- The keys of lists and inline tables. -/
  final : List Key := []
  /-- The key of the table that is open. -/
  header : Key := []

namespace Draft

def settle (d : Draft) : Draft := { d with opened := d.pending ++ d.opened, pending := [] }

def openTable (d : Draft) (key : Key) : Option Draft := do
  let d := d.settle
  if d.opened.contains key || isFinal d.final key then none
  let fields ← changeAt true key some d.fields
  return { d with fields, opened := key :: d.opened, header := key }

/-- A header `[[key]]`; what was known of tables below the key belongs to the list's last item and
is forgotten. -/
def openItem (d : Draft) (key : Key) : Option Draft := do
  let d := d.settle
  if isFinal d.final key then none
  let isElsewhere (k : Key) : Bool := !key.isPrefixOf k
  let part ← key.getLast?
  let fields ← changeAt true key.dropLast (addItem part) d.fields
  return { d with
    fields
    opened := key :: d.opened.filter isElsewhere
    final := d.final.filter isElsewhere
    header := key }

def waypoints (d : Draft) (key : Key) : List Key :=
  (List.range (key.length - 1)).map (fun i => d.header ++ key.take (i + 1))

def assign (d : Draft) (key : Key) (value : Json) : Option Draft := do
  let waypoints := d.waypoints key
  if waypoints.any d.opened.contains then none
  let table := d.header ++ key.dropLast
  if isFinal d.final table then none
  let part ← key.getLast?
  let fields ← changeAt true table (addNew part value) d.fields
  return { d with
    fields
    pending := waypoints ++ d.pending
    final := if isContainer value then (d.header ++ key) :: d.final else d.final }

end Draft

/-! ## Keys -/

def isBareKey (c : CodePoint) : Bool :=
  c.isDigit || (0x61 ≤ c.val && c.val ≤ 0x7A) || (0x41 ≤ c.val && c.val ≤ 0x5A)
    || c = '-' || c = '_'

def startsKey (c : CodePoint) : Bool :=
  isBareKey c || c = CodePoint.quote || c = CodePoint.apostrophe

def readKeyPart (t : Text) : Option (Text × Text) :=
  match t with
  | [] => none
  | c :: rest =>
    if isBareKey c then some (t.takeWhile isBareKey, t.dropWhile isBareKey)
    else if c = CodePoint.apostrophe then readLiteral rest
    else if c = CodePoint.quote then readBasic false .no [] rest
    else none

def readKey : (fuel : Nat) → Text → Option (Key × Text)
  | 0, _ => none
  | fuel + 1, t => do
    let (part, rest) ← readKeyPart t
    let rest := skipBlanks rest
    match rest.after? "." with
    | none => return ([part], rest)
    | some rest =>
      let (key, rest) ← readKey fuel (skipBlanks rest)
      return (part :: key, rest)

def readAssigned (fuel : Nat) (t : Text) : Option (Key × Text) := do
  let (key, rest) ← readKey fuel t
  let rest ← rest.after? "="
  return (key, skipBlanks rest)

/-! ## Values -/

/-- Skips blanks, breaks and comments; a comment holds no control character. -/
def skipTrivia (inComment : Bool) : Text → Option Text
  | [] => some []
  | c :: rest =>
    if inComment then
      if c = CodePoint.lineFeed then skipTrivia false rest
      else if isControl c then none
      else skipTrivia true rest
    else if isInlineBlank c || c = CodePoint.lineFeed then skipTrivia false rest
    else if c = '#' then skipTrivia true rest
    else some (c :: rest)

def openBrace : CodePoint := '{'

def closeBrace : CodePoint := '}'

mutual

def readValue : (fuel : Nat) → Text → Option (Json × Text)
  | 0, _ => none
  | _, [] => none
  | fuel + 1, c :: rest =>
    if c = '[' then
      match skipTrivia false rest with
      | none => none
      | some rest =>
        match rest.after? "]" with
        | some rest => some (.arr [], rest)
        | none => readItems fuel [] rest
    else if c = openBrace then
      match (skipBlanks rest).after? [closeBrace] with
      | some rest => some (.obj [], rest)
      | none => readPairs fuel [] [] (skipBlanks rest)
    else readScalar (c :: rest)

/-- Reads the items of a list up to its bracket; `done` is those read so far, last first. -/
def readItems : (fuel : Nat) → (done : List Json) → Text → Option (Json × Text)
  | 0, _, _ => none
  | fuel + 1, done, t =>
    match readValue fuel t with
    | none => none
    | some (item, rest) =>
      match skipTrivia false rest with
      | none => none
      | some rest =>
        match rest.after? "]" with
        | some rest => some (.arr (item :: done).reverse, rest)
        | none =>
          match (rest.after? ",").bind (skipTrivia false) with
          | none => none
          | some rest =>
            match rest.after? "]" with
            | some rest => some (.arr (item :: done).reverse, rest)
            | none => readItems fuel (item :: done) rest

def readPairs : (fuel : Nat) → (fields : Fields) → (final : List Key) → Text →
    Option (Json × Text)
  | 0, _, _, _ => none
  | fuel + 1, fields, final, t =>
    match readAssigned (t.length + 1) t with
    | none => none
    | some (key, rest) =>
      match readValue fuel rest with
      | none => none
      | some (value, rest) =>
        if isFinal final key then none
        else
          let changed := key.getLast?.bind (fun part =>
            changeAt false key.dropLast (addNew part value) fields)
          match changed with
          | none => none
          | some fields =>
            let rest := skipBlanks rest
            match rest.after? [closeBrace] with
            | some rest => some (.obj fields, rest)
            | none =>
              match rest.after? "," with
              | none => none
              | some rest =>
                let final := if isContainer value then key :: final else final
                readPairs fuel fields final (skipBlanks rest)

end

/-! ## Statements -/

def skipLineEnd (t : Text) : Option Text :=
  let t := skipBlanks t
  let t :=
    match t.after? "#" with
    | some comment =>
      let isInside : CodePoint → Bool := (· ≠ CodePoint.lineFeed)
      if (comment.takeWhile isInside).any isControl then none
      else some (comment.dropWhile isInside)
    | none => some t
  match t with
  | none => none
  | some [] => some []
  | some (c :: rest) => if c = CodePoint.lineFeed then some rest else none

def readStatement (d : Draft) (t : Text) : Option (Draft × Text) := do
  let fuel := t.length + 1
  match t.after? "[[" with
  | some rest =>
    let (key, rest) ← readKey fuel (skipBlanks rest)
    let rest ← rest.after? "]]"
    return (← d.openItem key, rest)
  | none =>
    match t.after? "[" with
    | some rest =>
      let (key, rest) ← readKey fuel (skipBlanks rest)
      let rest ← rest.after? "]"
      return (← d.openTable key, rest)
    | none =>
      let (key, rest) ← readAssigned fuel t
      let (value, rest) ← readValue fuel rest
      return (← d.assign key value, rest)

def readStatements : (fuel : Nat) → Draft → Text → Option Draft
  | 0, _, _ => none
  | fuel + 1, d, t =>
    match skipBlanks t with
    | [] => some d
    | c :: rest =>
      if c = '[' || startsKey c then
        match readStatement d (c :: rest) with
        | none => none
        | some (d, rest) =>
          match skipLineEnd rest with
          | none => none
          | some rest => readStatements fuel d rest
      else
        match skipLineEnd (c :: rest) with
        | none => none
        | some rest => readStatements fuel d rest

/-- A carriage return before a line feed is part of the break. -/
def unifyBreaks : Text → Text
  | [] => []
  | c :: rest =>
    if c = CodePoint.carriageReturn ∧ rest.head? = some CodePoint.lineFeed then unifyBreaks rest
    else c :: unifyBreaks rest

def read? (t : Text) : Option Fields :=
  let t := unifyBreaks t
  (readStatements (t.length + 1) {} t).map Draft.fields

end OutlineServer.Toml
