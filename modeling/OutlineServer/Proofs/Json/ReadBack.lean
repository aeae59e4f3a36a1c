import OutlineServer.Proofs.Json.Numbers
import OutlineServer.Proofs.Json.Strings
import OutlineServer.Proofs.Keyed

/-!
# A written value is read back

Every value can be written and what is written can be read, whatever numbers and texts it holds
(`read?_write`).  What is read is the value itself up to two things that writing cannot tell apart: a
high surrogate directly before a low one is read as one code point, and the fields of an object are
read into canonical form (`Json.joined`).

Reading a value uses up fuel for its parts, one part after the other, so the induction is over the
value with the fuel and what follows the value generalised; the length of the text is always enough.
-/
namespace OutlineServer

namespace Json

open Text

/-! ## What is read back -/

mutual

/-- The value with the surrogates of its texts joined and its objects in canonical form. -/
def joined : Json → Json
  | .str value => .str (Text.joined value)
  | .arr items => .arr (joinedItems items)
  | .obj fields => .object (joinedFields fields)
  | value => value

def joinedItems : List Json → List Json
  | [] => []
  | item :: rest => joined item :: joinedItems rest

def joinedFields : List (Text × Json) → List (Text × Json)
  | [] => []
  | (key, value) :: rest => (Text.joined key, joined value) :: joinedFields rest

end

/-! ## How a written value begins -/

/-- The first character of a written value that is no text, list or object. -/
def BeginsScalar (c : CodePoint) : Prop :=
  isSpace c = false ∧ c ≠ ']' ∧ c ≠ CodePoint.quote ∧ c ≠ '[' ∧ c ≠ '{'

instance (c : CodePoint) : Decidable (BeginsScalar c) := by
  unfold BeginsScalar
  infer_instance

theorem beginsScalar_of_isDigit {c : CodePoint} (h : c.isDigit = true) : BeginsScalar c := by
  have hne : ∀ d : CodePoint, d.isDigit = false → c ≠ d := by
    rintro d hd rfl
    rw [h] at hd
    cases hd
  refine ⟨?_, hne _ (by decide), hne _ (by decide), hne _ (by decide), hne _ (by decide)⟩
  simp [isSpace, hne CodePoint.space (by decide), hne CodePoint.tab (by decide),
    hne CodePoint.lineFeed (by decide), hne CodePoint.carriageReturn (by decide)]

theorem write_int_begins (value : Int) :
    ∃ c t, (Json.int value).write = c :: t ∧ BeginsScalar c := by
  rw [write]
  cases value with
  | ofNat n =>
    obtain ⟨c, digits, heq, hc⟩ := exists_digit_ofNat n
    exact ⟨c, digits, heq, beginsScalar_of_isDigit hc⟩
  | negSucc n => exact ⟨_, _, rfl, by decide⟩

theorem write_float_begins (value : Double) :
    ∃ c t, (Json.float value).write = c :: t ∧ BeginsScalar c := by
  rw [write]
  cases value with
  | nan => exact ⟨_, _, rfl, by decide⟩
  | infinite negative => cases negative <;> exact ⟨_, _, rfl, by decide⟩
  | finite negative rank =>
    cases negative with
    | false =>
      obtain ⟨c, digits, heq, hc⟩ := exists_digit_magnitudeText rank
      exact ⟨c, digits, heq, beginsScalar_of_isDigit hc⟩
    | true => exact ⟨_, _, rfl, by decide⟩

theorem write_begins (value : Json) :
    ∃ c t, value.write = c :: t ∧ isSpace c = false ∧ c ≠ ']' := by
  have hscalar : (∃ c t, value.write = c :: t ∧ BeginsScalar c) →
      ∃ c t, value.write = c :: t ∧ isSpace c = false ∧ c ≠ ']' := by
    rintro ⟨c, t, heq, hspace, hbracket, -⟩
    exact ⟨c, t, heq, hspace, hbracket⟩
  cases value with
  | null => exact ⟨_, _, by rw [write]; rfl, by decide, by decide⟩
  | bool value => cases value <;> exact ⟨_, _, by rw [write]; rfl, by decide, by decide⟩
  | int value => exact hscalar (write_int_begins value)
  | float value => exact hscalar (write_float_begins value)
  | str value => exact ⟨_, _, by rw [write]; rfl, by decide, by decide⟩
  | arr items => exact ⟨_, _, by rw [write], by decide, by decide⟩
  | obj fields => exact ⟨_, _, by rw [write], by decide, by decide⟩

/-- What begins like a written value: with no space and with no closing bracket. -/
def BeginsValue : Text → Prop
  | [] => False
  | c :: _ => isSpace c = false ∧ c ≠ ']'

theorem beginsValue_write (value : Json) (rest : Text) : BeginsValue (value.write ++ rest) := by
  obtain ⟨c, t, heq, hbegins⟩ := value.write_begins
  rw [heq]
  exact hbegins

theorem beginsValue_writeItems (item : Json) (items : List Json) (rest : Text) :
    BeginsValue (writeItems (item :: items) ++ rest) := by
  cases items with
  | nil =>
    rw [writeItems, List.append_assoc]
    exact beginsValue_write item _
  | cons next items =>
    rw [writeItems, List.append_assoc, List.append_assoc]
    · exact beginsValue_write item _
    · simp

theorem writeFields_begins (field : Text × Json) (fields : List (Text × Json)) (rest : Text) :
    ∃ t, writeFields (field :: fields) ++ rest = CodePoint.quote :: t := by
  obtain ⟨key, value⟩ := field
  cases fields with
  | nil =>
    rw [writeFields]
    exact ⟨_, rfl⟩
  | cons next fields =>
    rw [writeFields]
    · exact ⟨_, rfl⟩
    · simp

theorem skipSpace_of_beginsValue {t : Text} (h : BeginsValue t) : skipSpace t = t := by
  cases t with
  | nil => cases h
  | cons c t => simp [skipSpace, h.1]

theorem after?_of_beginsValue {t : Text} (h : BeginsValue t) : t.after? "]" = none := by
  cases t with
  | nil => cases h
  | cons c t => exact if_neg h.2

/-! ## One part of a value -/

theorem readValue_of_scalar {value : Json} {t rest : Text}
    (hbegins : ∃ c t', t = c :: t' ∧ BeginsScalar c)
    (hread : readScalar (t ++ rest) = some (value, rest)) {fuel : Nat} (hfuel : t.length ≤ fuel) :
    readValue fuel (t ++ rest) = some (value, rest) := by
  obtain ⟨c, t', rfl, -, -, hquote, hlist, hobject⟩ := hbegins
  cases fuel with
  | zero => cases hfuel
  | succ fuel =>
    rw [List.cons_append] at hread ⊢
    rw [readValue, if_neg hquote, if_neg hlist, if_neg hobject, hread]

theorem readValue_list {t : Text} (h : BeginsValue t) (fuel : Nat) :
    readValue (fuel + 1) (CodePoint.ofChar '[' :: t) = readItems fuel [] t := by
  rw [readValue, if_neg (by decide), if_pos rfl, skipSpace_of_beginsValue h,
    after?_of_beginsValue h]

theorem readValue_object (t : Text) (fuel : Nat) :
    readValue (fuel + 1) (CodePoint.ofChar '{' :: CodePoint.quote :: t)
      = readFields fuel [] (CodePoint.quote :: t) := by
  have hskip : skipSpace (CodePoint.quote :: t) = CodePoint.quote :: t := rfl
  have hafter : Text.after? (CodePoint.quote :: t) [CodePoint.ofChar '}'] = none := rfl
  rw [readValue, if_neg (by decide), if_neg (by decide), if_pos rfl, hskip, hafter]

theorem readItems_last {item : Json} {t rest : Text} {fuel : Nat}
    (h : readValue fuel t = some (item, ("]" : Text) ++ rest)) (done : List Json) :
    readItems (fuel + 1) done t = some (.arr (item :: done).reverse, rest) := by
  rw [readItems, h]
  rfl

theorem readItems_next {item : Json} {t more : Text} {fuel : Nat} (hmore : BeginsValue more)
    (h : readValue fuel t = some (item, (", " : Text) ++ more)) (done : List Json) :
    readItems (fuel + 1) done t = readItems fuel (item :: done) more := by
  have hskip : skipSpace (CodePoint.ofChar ' ' :: more) = more := skipSpace_of_beginsValue hmore
  rw [readItems, h]
  show readItems fuel (item :: done) (skipSpace (CodePoint.ofChar ' ' :: more)) = _
  rw [hskip]

theorem readFields_field {value : Json} {t rest : Text} {fuel : Nat} (ht : BeginsValue t)
    (h : readValue fuel t = some (value, rest)) (done : Fields) (key : Text) :
    readFields (fuel + 1) done (quoted key ++ (": " : Text) ++ t)
      = match skipSpace rest with
        | [] => none
        | c :: rest =>
          if c = '}' then some (.obj (Keyed.insert key.joined value done), rest)
          else if c = ',' then
            readFields fuel (Keyed.insert key.joined value done) (skipSpace rest)
          else none := by
  have hskip : skipSpace (CodePoint.ofChar ' ' :: t) = t := skipSpace_of_beginsValue ht
  have hcolon : (skipSpace ((": " : Text) ++ t)).after? ":" = some (CodePoint.ofChar ' ' :: t) := by
    rw [after?_eq_some]
    rfl
  rw [quoted, List.append_assoc, List.cons_append, readFields, if_pos rfl, readString_quoted]
  dsimp only
  rw [hcolon]
  dsimp only
  rw [hskip]
  split
  · rename_i hnone
    rw [h] at hnone
    cases hnone
  · rename_i hsome
    rw [h] at hsome
    cases hsome
    rfl

theorem readFields_last {value : Json} {t rest : Text} {fuel : Nat} (ht : BeginsValue t)
    (h : readValue fuel t = some (value, [CodePoint.ofChar '}'] ++ rest)) (done : Fields)
    (key : Text) :
    readFields (fuel + 1) done (quoted key ++ (": " : Text) ++ t)
      = some (.obj (Keyed.insert key.joined value done), rest) := by
  rw [readFields_field ht h]
  rfl

theorem readFields_next {value : Json} {t more : Text} {fuel : Nat} (ht : BeginsValue t)
    (h : readValue fuel t = some (value, (", " : Text) ++ CodePoint.quote :: more)) (done : Fields)
    (key : Text) :
    readFields (fuel + 1) done (quoted key ++ (": " : Text) ++ t)
      = readFields fuel (Keyed.insert key.joined value done) (CodePoint.quote :: more) := by
  rw [readFields_field ht h]
  rfl

/-! ## Values -/

theorem endsNumber_bracket (rest : Text) : EndsNumber (("]" : Text) ++ rest) := by
  show CodePoint.isDigit ']' = false ∧ _
  decide

theorem endsNumber_brace (rest : Text) : EndsNumber ([CodePoint.ofChar '}'] ++ rest) := by
  show CodePoint.isDigit '}' = false ∧ _
  decide

theorem endsNumber_comma (rest : Text) : EndsNumber ((", " : Text) ++ rest) := by
  show CodePoint.isDigit ',' = false ∧ _
  decide

-- the induction is on the value; the reader spends one unit of fuel on each value, item and field,
-- and each of them writes at least one character, so the length of the text is enough

mutual

/-- **A written value is read as it is**, its surrogates joined, and what follows it is left. -/
theorem readValue_write : ∀ (value : Json) (fuel : Nat) (rest : Text),
    value.write.length ≤ fuel → EndsNumber rest →
    readValue fuel (value.write ++ rest) = some (value.joined, rest)
  | .null, fuel, rest, hfuel, _ => by
    rw [write] at *
    exact readValue_of_scalar ⟨_, _, rfl, by decide⟩ (readScalar_name rest ("null", _) (by simp)) hfuel
  | .bool true, fuel, rest, hfuel, _ => by
    rw [write] at *
    exact readValue_of_scalar ⟨_, _, rfl, by decide⟩ (readScalar_name rest ("true", _) (by simp)) hfuel
  | .bool false, fuel, rest, hfuel, _ => by
    rw [write] at *
    exact readValue_of_scalar ⟨_, _, rfl, by decide⟩ (readScalar_name rest ("false", _) (by simp)) hfuel
  | .int value, fuel, rest, hfuel, hrest => by
    have hbegins := write_int_begins value
    rw [write] at *
    exact readValue_of_scalar hbegins (readScalar_ofInt value hrest) hfuel
  | .float value, fuel, rest, hfuel, hrest => by
    have hbegins := write_float_begins value
    rw [write] at *
    exact readValue_of_scalar hbegins (readScalar_toText value hrest) hfuel
  | .str value, fuel, rest, hfuel, _ => by
    rw [write, quoted] at *
    cases fuel with
    | zero => cases hfuel
    | succ fuel =>
      rw [List.cons_append, readValue, if_pos rfl, readString_quoted]
      rfl
  | .arr [], fuel, rest, hfuel, _ => by
    rw [write] at *
    cases fuel with
    | zero => cases hfuel
    | succ fuel =>
      have hafter : (skipSpace (("]" : Text) ++ rest)).after? "]" = some rest :=
        after?_eq_some.2 rfl
      rw [writeItems, List.cons_append, readValue, if_neg (by decide), if_pos rfl, hafter]
      rfl
  | .arr (item :: items), fuel, rest, hfuel, _ => by
    rw [write] at *
    cases fuel with
    | zero => cases hfuel
    | succ fuel =>
      rw [List.cons_append, readValue_list (beginsValue_writeItems item items rest)]
      exact readItems_write (item :: items) fuel [] rest (List.cons_ne_nil _ _)
        (Nat.le_of_succ_le_succ hfuel)
  | .obj [], fuel, rest, hfuel, _ => by
    rw [write] at *
    cases fuel with
    | zero => cases hfuel
    | succ fuel =>
      have hafter : (skipSpace ([CodePoint.ofChar '}'] ++ rest)).after? [CodePoint.ofChar '}']
          = some rest := after?_eq_some.2 rfl
      rw [writeFields, List.cons_append, readValue, if_neg (by decide), if_neg (by decide),
        if_pos rfl, hafter]
      rfl
  | .obj (field :: fields), fuel, rest, hfuel, _ => by
    rw [write] at *
    cases fuel with
    | zero => cases hfuel
    | succ fuel =>
      obtain ⟨t, heq⟩ := writeFields_begins field fields rest
      have hread := readFields_write (field :: fields) fuel [] rest (List.cons_ne_nil _ _)
        (Nat.le_of_succ_le_succ hfuel)
      rw [heq] at hread
      rw [List.cons_append, heq, readValue_object]
      exact hread

theorem readItems_write : ∀ (items : List Json) (fuel : Nat) (done : List Json) (rest : Text),
    items ≠ [] → (writeItems items).length ≤ fuel →
    readItems fuel done (writeItems items ++ rest)
      = some (.arr (done.reverse ++ joinedItems items), rest)
  | [], _, _, _, hne, _ => absurd rfl hne
  | [item], fuel, done, rest, _, hfuel => by
    have hlength : (writeItems [item]).length = item.write.length + 1 := by
      rw [writeItems, List.length_append]
      rfl
    obtain ⟨fuel, rfl⟩ : ∃ n, fuel = n + 1 := ⟨fuel - 1, by omega⟩
    have hread := readValue_write item fuel (("]" : Text) ++ rest) (by omega)
      (endsNumber_bracket rest)
    rw [writeItems, List.append_assoc, readItems_last hread, List.reverse_cons]
    rfl
  | item :: next :: items, fuel, done, rest, _, hfuel => by
    have hwrite : writeItems (item :: next :: items)
        = item.write ++ (", " : Text) ++ writeItems (next :: items) := by
      rw [writeItems]
      simp
    have hlength : (writeItems (item :: next :: items)).length
        = item.write.length + 2 + (writeItems (next :: items)).length := by
      rw [hwrite, List.length_append, List.length_append]
      rfl
    obtain ⟨fuel, rfl⟩ : ∃ n, fuel = n + 1 := ⟨fuel - 1, by omega⟩
    have hread := readValue_write item fuel ((", " : Text) ++ (writeItems (next :: items) ++ rest))
      (by omega) (endsNumber_comma _)
    have hnext := readItems_write (next :: items) fuel (item.joined :: done) rest
      (List.cons_ne_nil _ _) (by omega)
    rw [hwrite, List.append_assoc, List.append_assoc,
      readItems_next (beginsValue_writeItems next items rest) hread, hnext, List.reverse_cons,
      List.append_assoc]
    rfl

theorem readFields_write : ∀ (fields : List (Text × Json)) (fuel : Nat) (done : Fields)
    (rest : Text), fields ≠ [] → (writeFields fields).length ≤ fuel →
    readFields fuel done (writeFields fields ++ rest)
      = some (.obj ((joinedFields fields).foldl
          (fun done (key, value) => Keyed.insert key value done) done), rest)
  | [], _, _, _, hne, _ => absurd rfl hne
  | [(key, value)], fuel, done, rest, _, hfuel => by
    have hlength : (writeFields [(key, value)]).length
        = (quoted key).length + 2 + value.write.length + 1 := by
      rw [writeFields, List.length_append, List.length_append, List.length_append]
      rfl
    obtain ⟨fuel, rfl⟩ : ∃ n, fuel = n + 1 := ⟨fuel - 1, by omega⟩
    have hread := readValue_write value fuel ([CodePoint.ofChar '}'] ++ rest) (by omega)
      (endsNumber_brace rest)
    rw [writeFields, List.append_assoc, List.append_assoc _ value.write,
      readFields_last (beginsValue_write _ _) hread]
    rfl
  | (key, value) :: next :: fields, fuel, done, rest, _, hfuel => by
    have hwrite : writeFields ((key, value) :: next :: fields) = quoted key ++ (": " : Text)
        ++ value.write ++ (", " : Text) ++ writeFields (next :: fields) := by
      rw [writeFields]
      simp
    have hlength : (writeFields ((key, value) :: next :: fields)).length
        = (quoted key).length + 2 + value.write.length + 2
          + (writeFields (next :: fields)).length := by
      rw [hwrite, List.length_append, List.length_append, List.length_append, List.length_append]
      rfl
    obtain ⟨t, ht⟩ := writeFields_begins next fields rest
    obtain ⟨fuel, rfl⟩ : ∃ n, fuel = n + 1 := ⟨fuel - 1, by omega⟩
    have hread := readValue_write value fuel ((", " : Text) ++ (writeFields (next :: fields) ++ rest))
      (by omega) (endsNumber_comma _)
    have hnext := readFields_write (next :: fields) fuel
      (Keyed.insert key.joined value.joined done) rest (List.cons_ne_nil _ _) (by omega)
    rw [ht] at hread hnext
    rw [hwrite, List.append_assoc, List.append_assoc, List.append_assoc _ value.write, ht,
      readFields_next (beginsValue_write _ _) hread, hnext]
    rfl

end

/-- **A written value is read back**, whatever it is. -/
theorem read?_write (value : Json) : read? value.write = some value.joined := by
  have hskip := skipSpace_of_beginsValue (beginsValue_write value [])
  have hread := readValue_write value (value.write.length + 1) [] (Nat.le_succ _) trivial
  rw [List.append_nil] at hskip hread
  unfold read?
  rw [hskip, hread]
  rfl

/-! ## Values that are read back as they are -/

theorem joinedItems_eq_map : ∀ items : List Json, joinedItems items = items.map joined
  | [] => rfl
  | item :: items => by rw [joinedItems, joinedItems_eq_map items, List.map_cons]

theorem joinedFields_eq_map : ∀ fields : List (Text × Json),
    joinedFields fields = fields.map (fun field => (field.1.joined, field.2.joined))
  | [] => rfl
  | (key, value) :: fields => by rw [joinedFields, joinedFields_eq_map fields, List.map_cons]

theorem joined_strings {texts : List Text} (h : ∀ t ∈ texts, t.IsJoined) :
    (strings texts).joined = strings texts := by
  unfold strings
  rw [joined, joinedItems_eq_map, List.map_map]
  congr 1
  refine List.map_congr_left (fun t ht => ?_)
  show Json.str t.joined = .str t
  rw [joined_of_isJoined (h t ht)]

/-- An object is read back as it is when its keys and values are: the canonical form was there
already. -/
theorem joined_object {fields : List (Text × Json)} (hkeys : ∀ field ∈ fields, field.1.IsJoined)
    (hvalues : ∀ field ∈ fields, field.2.joined = field.2) :
    (object fields).joined = object fields := by
  have hfields : joinedFields (Keyed.ofList fields) = Keyed.ofList fields := by
    have hsame : ∀ field ∈ Keyed.ofList fields, (field.1.joined, field.2.joined) = field := by
      intro field hfield
      have hmem := Keyed.mem_ofList hfield
      rw [joined_of_isJoined (hkeys field hmem), hvalues field hmem]
    rw [joinedFields_eq_map, List.map_congr_left hsame, List.map_id']
  unfold object
  rw [joined, object, hfields, Keyed.ofList_of_sorted (Keyed.sorted_ofList fields)]

end Json

end OutlineServer
