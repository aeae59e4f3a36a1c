import Mathlib.Data.List.Basic
import Mathlib.Data.Nat.Bitwise
import OutlineServer.Proofs.Token.Stream

/-!
# Legends that grow

A legend is extended at the end of its tables.  A name that is in a table keeps its place, so what is
sent about it stays the same.  A name that is in no table may get a place of its own, and with it a new
number: the stream of spans is the same under every extension exactly when the legend has all their
names (`stream_kept_by_extensions_iff`).

A mask is known by its bits, which are the places of the modifiers (`testBit_encodeModifiers`).
-/
namespace OutlineServer.Legend

def extend (legend : Legend) (types modifiers : List Text) : Legend where
  types := legend.types ++ types
  modifiers := legend.modifiers ++ modifiers

def Covers (legend : Legend) (span : TokenSpan) : Prop :=
  span.type ∈ legend.types ∧ ∀ modifier ∈ span.modifiers, modifier ∈ legend.modifiers

instance (legend : Legend) : DecidablePred legend.Covers := fun span =>
  inferInstanceAs (Decidable (span.type ∈ legend.types
    ∧ ∀ modifier ∈ span.modifiers, modifier ∈ legend.modifiers))

/-! ## Places -/

section Places

variable {table : List Text} {name : Text}

theorem place?_of_mem (h : name ∈ table) : place? table name = some (table.idxOf name) := by
  unfold place?
  cases hindex : table.idxOf? name with
  | none => exact absurd h (List.idxOf?_eq_none_iff.1 hindex)
  | some index => rw [List.idxOf_eq_getD_idxOf?, hindex, Option.getD_some]

theorem place?_of_not_mem (h : name ∉ table) :
    place? table name = if name = outsideName then some (table.length + 2) else none := by
  unfold place?
  rw [List.idxOf?_eq_none_iff.2 h]

theorem place?_bounds {place : Nat} (h : place? table name = some place) :
    place < table.length ∨ place = table.length + 2 := by
  by_cases hmem : name ∈ table
  · rw [place?_of_mem hmem, Option.some.injEq] at h
    exact .inl (h ▸ List.idxOf_lt_length_iff.2 hmem)
  · rw [place?_of_not_mem hmem] at h
    split at h
    · exact .inr (Option.some.inj h).symm
    · cases h

theorem place?_append_of_mem (h : name ∈ table) (more : List Text) :
    place? (table ++ more) name = place? table name := by
  rw [place?_of_mem h, place?_of_mem (List.mem_append_left _ h), List.idxOf_append_of_mem h]

theorem place?_append_of_not_mem (h : name ∉ table) {more : List Text} (hmore : name ∈ more) :
    place? (table ++ more) name = some (table.length + more.idxOf name) := by
  rw [place?_of_mem (List.mem_append_right _ hmore), List.idxOf_append_of_notMem h]

end Places

/-! ## Types -/

section Types

variable {legend : Legend} {type : Text}

theorem encodeType_of_mem (h : type ∈ legend.types) :
    legend.encodeType type = legend.types.idxOf type := by
  rw [encodeType, place?_of_mem h, Option.getD_some]

/-- **The number of a type is where an editor finds it in the table.** -/
theorem getElem?_encodeType (h : type ∈ legend.types) :
    legend.types[legend.encodeType type]? = some type := by
  rw [encodeType_of_mem h, List.getElem?_idxOf h]

theorem encodeType_inj {other : Text} (h : type ∈ legend.types) (h' : other ∈ legend.types)
    (hsame : legend.encodeType type = legend.encodeType other) : type = other := by
  have hread := getElem?_encodeType h
  rw [hsame, getElem?_encodeType h', Option.some.injEq] at hread
  exact hread.symm

theorem encodeType_extend (h : type ∈ legend.types) (types modifiers : List Text) :
    (legend.extend types modifiers).encodeType type = legend.encodeType type := by
  rw [encodeType, extend, place?_append_of_mem h, encodeType]

/-- **A type that is in no table gets another number in some extension.**  Behind the name of what the
legend lacks it stands neither where an unknown type is sent to nor where that name was sent to. -/
theorem exists_encodeType_extend_ne (h : type ∉ legend.types) :
    ∃ types, ∀ modifiers, (legend.extend types modifiers).encodeType type ≠ legend.encodeType type := by
  refine ⟨[outsideName, type], fun modifiers => ?_⟩
  have hmore : type ∈ [outsideName, type] := List.mem_cons_of_mem _ List.mem_cons_self
  rw [encodeType, encodeType, extend, place?_append_of_not_mem h hmore, place?_of_not_mem h,
    Option.getD_some]
  by_cases hname : type = outsideName
  · rw [if_pos hname, Option.getD_some, List.idxOf_cons_eq _ hname.symm]
    omega
  · rw [if_neg hname, Option.getD_none, List.idxOf_cons_ne _ (Ne.symm hname)]
    omega

end Types

/-! ## Masks -/

section Masks

variable {legend : Legend}

theorem testBit_addModifier (mask : Nat) (modifier : Text) (k : Nat) :
    (legend.addModifier mask modifier).testBit k = true
      ↔ mask.testBit k = true ∨ place? legend.modifiers modifier = some k := by
  unfold addModifier
  cases place? legend.modifiers modifier with
  | none => simp
  | some bit => simp [Nat.testBit_or, Nat.one_shiftLeft, Nat.testBit_two_pow]

theorem testBit_foldl_addModifier : ∀ (modifiers : List Text) (mask k : Nat),
    (modifiers.foldl legend.addModifier mask).testBit k = true
      ↔ mask.testBit k = true
        ∨ ∃ modifier ∈ modifiers, place? legend.modifiers modifier = some k
  | [], mask, k => by simp
  | modifier :: rest, mask, k => by
    rw [List.foldl_cons, testBit_foldl_addModifier rest, testBit_addModifier, or_assoc,
      List.exists_mem_cons_iff]

theorem testBit_encodeModifiers (modifiers : List Text) (k : Nat) :
    (legend.encodeModifiers modifiers).testBit k = true
      ↔ ∃ modifier ∈ modifiers, place? legend.modifiers modifier = some k := by
  rw [encodeModifiers, testBit_foldl_addModifier]
  simp

theorem encodeModifiers_extend {modifiers : List Text}
    (h : ∀ modifier ∈ modifiers, modifier ∈ legend.modifiers) (types more : List Text) :
    (legend.extend types more).encodeModifiers modifiers = legend.encodeModifiers modifiers := by
  refine Nat.eq_of_testBit_eq fun k => Bool.eq_iff_iff.2 ?_
  rw [testBit_encodeModifiers, testBit_encodeModifiers]
  refine exists_congr fun modifier => and_congr_right fun hmem => ?_
  rw [extend, place?_append_of_mem (h modifier hmem)]

/-- **A modifier that is in no table sets another bit once it is**: the bit at the end of the table,
which is set by nothing before. -/
theorem encodeModifiers_extend_ne {modifiers : List Text} {modifier : Text}
    (hmem : modifier ∈ modifiers) (h : modifier ∉ legend.modifiers) (types : List Text) :
    (legend.extend types [modifier]).encodeModifiers modifiers ≠ legend.encodeModifiers modifiers := by
  intro hsame
  have hset : ((legend.extend types [modifier]).encodeModifiers modifiers).testBit
      legend.modifiers.length = true := by
    refine (testBit_encodeModifiers modifiers _).2 ⟨modifier, hmem, ?_⟩
    rw [extend, place?_append_of_not_mem h List.mem_cons_self, List.idxOf_cons_self, Nat.add_zero]
  rw [hsame, testBit_encodeModifiers] at hset
  obtain ⟨other, -, hplace⟩ := hset
  have hbounds := place?_bounds hplace
  omega

end Masks

/-! ## Streams -/

theorem encodeFrom_congr {legend other : Legend} : ∀ (spans : List TokenSpan) (line start : Int),
    (∀ span ∈ spans, legend.sent span = other.sent span) →
      legend.encodeFrom line start spans = other.encodeFrom line start spans
  | [], _, _, _ => rfl
  | span :: rest, line, start, h => by
    obtain ⟨hspan, hrest⟩ := List.forall_mem_cons.1 h
    have htype : (legend.encodeType span.type : Int) = other.encodeType span.type :=
      congrArg SentToken.type hspan
    have hmodifiers :
        (legend.encodeModifiers span.modifiers : Int) = other.encodeModifiers span.modifiers :=
      congrArg SentToken.modifiers hspan
    simp only [encodeFrom, htype, hmodifiers, encodeFrom_congr rest span.line span.start hrest]

/-- **Two legends write the same stream when they send every span alike**, and only then. -/
theorem encode_eq_iff {legend other : Legend} {spans : List TokenSpan} :
    legend.encode spans = other.encode spans ↔ ∀ span ∈ spans, legend.sent span = other.sent span := by
  have hsorted : ∀ span, span ∈ spans.mergeSort TokenSpan.notAfter ↔ span ∈ spans :=
    fun span => List.mem_mergeSort
  constructor
  · intro h span hspan
    have hread := congrArg decode h
    rw [encode, encode, decode, decodeFrom_encodeFrom, decode, decodeFrom_encodeFrom,
      List.map_inj_left] at hread
    exact hread span ((hsorted span).2 hspan)
  · intro h
    exact encodeFrom_congr _ 0 0 (fun span hspan => h span ((hsorted span).1 hspan))

theorem sent_extend {legend : Legend} {span : TokenSpan} (h : legend.Covers span)
    (types modifiers : List Text) : (legend.extend types modifiers).sent span = legend.sent span := by
  simp only [sent, encodeType_extend h.1, encodeModifiers_extend h.2]

/-- **A span is sent alike under every extension only if the legend covers it.** -/
theorem covers_of_sent_extend {legend : Legend} {span : TokenSpan}
    (h : ∀ types modifiers, (legend.extend types modifiers).sent span = legend.sent span) :
    legend.Covers span := by
  constructor
  · by_contra hout
    obtain ⟨types, hne⟩ := exists_encodeType_extend_ne hout
    exact hne [] (Int.ofNat.inj (congrArg SentToken.type (h types [])))
  · intro modifier hmem
    by_contra hout
    exact encodeModifiers_extend_ne hmem hout []
      (Int.ofNat.inj (congrArg SentToken.modifiers (h [] [modifier])))

/-- **A legend that grows keeps the meaning of what it had.**  The stream of spans is the same under every
extension of the legend exactly when the tables have the type and the modifiers of every span, whether
or not an entry is repeated.  No two types of a table have the same number. -/
theorem stream_kept_by_extensions_iff (legend : Legend) :
    (∀ spans : List TokenSpan,
      (∀ types modifiers, (legend.extend types modifiers).encode spans = legend.encode spans)
        ↔ ∀ span ∈ spans, span.type ∈ legend.types
          ∧ ∀ modifier ∈ span.modifiers, modifier ∈ legend.modifiers)
    ∧ ∀ type ∈ legend.types, ∀ other ∈ legend.types,
      type ≠ other → legend.encodeType type ≠ legend.encodeType other := by
  refine ⟨fun spans => ⟨fun hkept span hspan => ?_, fun hcovers types modifiers => ?_⟩, ?_⟩
  · exact covers_of_sent_extend fun types modifiers =>
      encode_eq_iff.1 (hkept types modifiers) span hspan
  · exact encode_eq_iff.2 fun span hspan => sent_extend (hcovers span hspan) types modifiers
  · intro type htype other hother hne hsame
    exact hne (encodeType_inj htype hother hsame)

/-- A table with an entry twice and the name of what a legend lacks in it, and an extension that has
one of its types again.  The name of a modifier that is missing is sent otherwise once it is there. -/
theorem stream_kept_by_extensions_iff_repeated :
    let legend : Legend := ⟨["type", "class", "type", "notInLegend"], ["static", "async"]⟩
    let spans : List TokenSpan :=
      [⟨1, 0, 4, "notInLegend", ["async"]⟩, ⟨0, 2, 3, "type", ["static", "async"]⟩]
    (∀ span ∈ spans, legend.Covers span)
    ∧ (legend.extend ["class", "enum"] ["readonly"]).encode spans = legend.encode spans
    ∧ legend.encodeType "class" ≠ legend.encodeType "notInLegend"
    ∧ ¬ ∀ types modifiers, (legend.extend types modifiers).encode [⟨0, 0, 1, "type", ["readonly"]⟩]
      = legend.encode [⟨0, 0, 1, "type", ["readonly"]⟩] := by
  intro legend spans
  obtain ⟨hkept, hnumbers⟩ := stream_kept_by_extensions_iff legend
  have hcovers : ∀ span ∈ spans, legend.Covers span := by decide
  refine ⟨hcovers, (hkept spans).2 hcovers ["class", "enum"] ["readonly"],
    hnumbers _ (by decide) _ (by decide) (by decide), fun hall => ?_⟩
  exact absurd ((hkept _).1 hall) (by decide)

end OutlineServer.Legend
