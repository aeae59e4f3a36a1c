import OutlineServer.Proofs.Json.Joined

/-!
# Values in canonical form

The reader puts the fields of every object in order, however deep it lies, so what is read is
canonical (`isCanonical_read?`).  A canonical value without split pairs is read back as itself
(`joined_of_isCanonical`), which closes the circle: what was read from characters is written and read
back as it is (`joined_read?`).
-/
namespace OutlineServer.Json

/-- Every object in the value has its fields in increasing order of their keys. -/
inductive IsCanonical : Json → Prop
  | null : IsCanonical .null
  | bool (value : Bool) : IsCanonical (.bool value)
  | int (value : Int) : IsCanonical (.int value)
  | float (value : Double) : IsCanonical (.float value)
  | str (value : Text) : IsCanonical (.str value)
  | arr {items : List Json} : (∀ item ∈ items, IsCanonical item) → IsCanonical (.arr items)
  | obj {fields : Fields} : fields.IsSorted → (∀ field ∈ fields, IsCanonical field.2) →
    IsCanonical (.obj fields)

theorem joined_of_isCanonical {value : Json} (hcanonical : value.IsCanonical)
    (hjoined : value.IsJoined) : value.joined = value := by
  induction hcanonical with
  | null => rfl
  | bool => rfl
  | int => rfl
  | float => rfl
  | str => rw [joined, Text.joined_of_isJoined (by cases hjoined; assumption)]
  | @arr items _ ih =>
    cases hjoined with
    | arr hitems =>
      rw [joined, joinedItems_eq_map, List.map_congr_left (fun item h => ih item h (hitems item h)),
        List.map_id']
  | @obj fields hsorted _ ih =>
    cases hjoined with
    | obj hkeys hvalues =>
      have hsame : ∀ field ∈ fields, (field.1.joined, field.2.joined) = field := by
        intro field h
        rw [Text.joined_of_isJoined (hkeys field h), ih field h (hvalues field h)]
      rw [joined, object, joinedFields_eq_map, List.map_congr_left hsame, List.map_id',
        Keyed.ofList_of_sorted hsorted]

/-! ## What is read -/

theorem readNumber_canonical {negative : Bool} {t rest : Text} {value : Json}
    (h : readNumber negative t = some (value, rest)) : value.IsCanonical := by
  unfold readNumber at h
  dsimp only at h
  split at h
  · cases h
  · obtain ⟨_, -, h⟩ := Option.bind_eq_some_iff.1 h
    obtain ⟨_, -, h⟩ := Option.bind_eq_some_iff.1 h
    cases h
    unfold number
    split
    · exact .int _
    · exact .float _

theorem readScalar_canonical {t rest : Text} {value : Json}
    (h : readScalar t = some (value, rest)) : value.IsCanonical := by
  unfold readScalar at h
  simp only [Option.orElse_eq_orElse, Option.orElse_eq_or, Option.or_eq_some_iff,
    Option.map_eq_some_iff, Prod.mk.injEq] at h
  rcases h with ⟨_, -, rfl, -⟩ | ⟨-, ⟨_, -, rfl, -⟩ | ⟨-, ⟨_, -, rfl, -⟩ | ⟨-, ⟨_, -, rfl, -⟩ |
    ⟨-, ⟨_, -, rfl, -⟩ | ⟨-, ⟨_, -, rfl, -⟩ | ⟨-, h⟩⟩⟩⟩⟩⟩
  · exact .null
  · exact .bool true
  · exact .bool false
  · exact .float _
  · exact .float _
  · exact .float _
  · split at h
    · exact readNumber_canonical h
    · exact readNumber_canonical h

def FieldsCanonical (fields : Fields) : Prop :=
  fields.IsSorted ∧ ∀ field ∈ fields, field.2.IsCanonical

theorem FieldsCanonical.insert {fields : Fields} (h : FieldsCanonical fields) (key : Text)
    {value : Json} (hvalue : value.IsCanonical) :
    FieldsCanonical (Keyed.insert key value fields) := by
  refine ⟨Keyed.sorted_insert key value h.1, fun field hfield => ?_⟩
  rcases Keyed.mem_insert hfield with rfl | hfield
  · exact hvalue
  · exact h.2 field hfield

def ReadsCanonical (read : Text → Option (Json × Text)) : Prop :=
  ∀ {t rest : Text} {value : Json}, read t = some (value, rest) → value.IsCanonical

theorem readValue_canonical {fuel : Nat} (hitems : ReadsCanonical (readItems fuel []))
    (hfields : ReadsCanonical (readFields fuel [])) : ReadsCanonical (readValue (fuel + 1)) := by
  intro t rest value h
  cases t with
  | nil => simp [readValue] at h
  | cons c t =>
    rw [readValue] at h
    by_cases hquote : c = CodePoint.quote
    · rw [if_pos hquote] at h
      obtain ⟨_, -, h⟩ := Option.map_eq_some_iff.1 h
      cases h
      exact .str _
    rw [if_neg hquote] at h
    by_cases hbracket : c = '['
    · rw [if_pos hbracket] at h
      split at h
      · cases h
        exact .arr (by simp)
      · exact hitems h
    rw [if_neg hbracket] at h
    split at h
    · split at h
      · cases h
        exact .obj List.Pairwise.nil (by simp)
      · exact hfields h
    · exact readScalar_canonical h

theorem readItems_canonical {fuel : Nat} (hvalue : ReadsCanonical (readValue fuel))
    (hitems : ∀ {done : List Json}, (∀ item ∈ done, item.IsCanonical) →
      ReadsCanonical (readItems fuel done))
    {done : List Json} (hdone : ∀ item ∈ done, item.IsCanonical) :
    ReadsCanonical (readItems (fuel + 1) done) := by
  intro t rest value h
  rw [readItems] at h
  split at h
  · cases h
  rename_i item after hitem
  have hdone : ∀ other ∈ item :: done, other.IsCanonical :=
    List.forall_mem_cons.2 ⟨hvalue hitem, hdone⟩
  split at h
  · cases h
  split at h
  · cases h
    exact .arr (fun other hother => hdone other (List.mem_reverse.1 hother))
  · split at h
    · exact hitems hdone h
    · cases h

theorem readFields_canonical {fuel : Nat} (hvalue : ReadsCanonical (readValue fuel))
    (hfields : ∀ {done : Fields}, FieldsCanonical done → ReadsCanonical (readFields fuel done))
    {done : Fields} (hdone : FieldsCanonical done) :
    ReadsCanonical (readFields (fuel + 1) done) := by
  intro t rest value h
  cases t with
  | nil => simp [readFields] at h
  | cons c t =>
    rw [readFields] at h
    split at h
    · split at h
      · cases h
      rename_i key _ _
      split at h
      · cases h
      split at h
      · cases h
      rename_i hread
      have hdone := hdone.insert key (hvalue hread)
      split at h
      · cases h
      split at h
      · cases h
        exact .obj hdone.1 hdone.2
      · split at h
        · exact hfields hdone h
        · cases h
    · cases h

theorem read_canonical : ∀ fuel : Nat, ReadsCanonical (readValue fuel)
    ∧ (∀ {done : List Json}, (∀ item ∈ done, item.IsCanonical) →
      ReadsCanonical (readItems fuel done))
    ∧ (∀ {done : Fields}, FieldsCanonical done → ReadsCanonical (readFields fuel done))
  | 0 => by
    refine ⟨fun h => ?_, fun _ _ _ _ h => ?_, fun _ _ _ _ h => ?_⟩
    · simp [readValue] at h
    · simp [readItems] at h
    · simp [readFields] at h
  | fuel + 1 => by
    obtain ⟨hvalue, hitems, hfields⟩ := read_canonical fuel
    exact ⟨readValue_canonical (hitems (by simp)) (hfields ⟨List.Pairwise.nil, by simp⟩),
      readItems_canonical hvalue hitems, readFields_canonical hvalue hfields⟩

theorem isCanonical_read? {t : Text} {value : Json} (h : read? t = some value) :
    value.IsCanonical := by
  unfold read? at h
  split at h
  · rename_i hread
    split at h
    · cases h
      exact (read_canonical _).1 hread
    · cases h
  · cases h

/-- **What is read from characters is written and read back as it is.** -/
theorem joined_read? {t : Text} {value : Json} (ht : t.isEncodable = true)
    (h : read? t = some value) : value.joined = value :=
  joined_of_isCanonical (isCanonical_read? h) (isJoined_read? ht h)

end OutlineServer.Json
