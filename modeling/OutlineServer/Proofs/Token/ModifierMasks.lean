import OutlineServer.Proofs.Token.GrowingLegend

/-!
# What a mask of modifiers tells

A legend recognises the entries of its table and the name of what it lacks, and no two of them have one
place (`place?_inj`).  So the bit at the place of a name tells whether the name was among the modifiers
(`testBit_encodeModifiers_place`), and a mask is neither more nor less than the set of recognised names
it was made from (`masks_tell_names`), for a table of any length and with any entries.
-/
namespace OutlineServer.Legend

def Recognises (legend : Legend) (name : Text) : Prop :=
  name ∈ legend.modifiers ∨ name = outsideName

/-! ## Places -/

section Places

variable {table : List Text} {name other : Text}

theorem exists_place?_iff : (∃ k, place? table name = some k) ↔ name ∈ table ∨ name = outsideName := by
  by_cases hmem : name ∈ table
  · exact iff_of_true ⟨_, place?_of_mem hmem⟩ (.inl hmem)
  · rw [place?_of_not_mem hmem]
    by_cases hname : name = outsideName
    · rw [if_pos hname]
      exact iff_of_true ⟨_, rfl⟩ (.inr hname)
    · rw [if_neg hname]
      exact iff_of_false (by rintro ⟨_, ⟨⟩⟩) (not_or.2 ⟨hmem, hname⟩)

theorem place?_inj {k : Nat} (h : place? table name = some k) (h' : place? table other = some k) :
    name = other := by
  by_cases hmem : name ∈ table <;> by_cases hother : other ∈ table
  · rw [place?_of_mem hmem, Option.some.injEq] at h
    rw [place?_of_mem hother, Option.some.injEq] at h'
    exact (List.idxOf_inj hmem).1 (h.trans h'.symm)
  · rw [place?_of_mem hmem, Option.some.injEq] at h
    rw [place?_of_not_mem hother, Option.ite_none_right_eq_some, Option.some.injEq] at h'
    have hlt := List.idxOf_lt_length_iff.2 hmem
    omega
  · rw [place?_of_not_mem hmem, Option.ite_none_right_eq_some, Option.some.injEq] at h
    rw [place?_of_mem hother, Option.some.injEq] at h'
    have hlt := List.idxOf_lt_length_iff.2 hother
    omega
  · rw [place?_of_not_mem hmem, Option.ite_none_right_eq_some] at h
    rw [place?_of_not_mem hother, Option.ite_none_right_eq_some] at h'
    exact h.1.trans h'.1.symm

end Places

/-! ## Masks -/

variable {legend : Legend}

/-- **The bit at the place of a name tells whether the name is there.** -/
theorem testBit_encodeModifiers_place {name : Text} {k : Nat}
    (h : place? legend.modifiers name = some k) (modifiers : List Text) :
    (legend.encodeModifiers modifiers).testBit k = true ↔ name ∈ modifiers := by
  rw [testBit_encodeModifiers]
  constructor
  · rintro ⟨modifier, hmem, hplace⟩
    exact place?_inj hplace h ▸ hmem
  · exact fun hmem => ⟨name, hmem, h⟩

theorem encodeModifiers_eq_iff (modifiers others : List Text) :
    legend.encodeModifiers modifiers = legend.encodeModifiers others
      ↔ ∀ name, legend.Recognises name → (name ∈ modifiers ↔ name ∈ others) := by
  constructor
  · intro hmasks name hname
    obtain ⟨k, hplace⟩ := exists_place?_iff.2 hname
    rw [← testBit_encodeModifiers_place hplace, hmasks, testBit_encodeModifiers_place hplace]
  · intro hnames
    refine Nat.eq_of_testBit_eq fun k => Bool.eq_iff_iff.2 ?_
    rw [testBit_encodeModifiers, testBit_encodeModifiers]
    refine exists_congr fun name => and_congr_left fun hplace => ?_
    exact hnames name (exists_place?_iff.1 ⟨k, hplace⟩)

theorem encodeModifiers_append (modifiers others : List Text) :
    legend.encodeModifiers (modifiers ++ others)
      = legend.encodeModifiers modifiers ||| legend.encodeModifiers others := by
  refine Nat.eq_of_testBit_eq fun k => Bool.eq_iff_iff.2 ?_
  rw [Nat.testBit_or, Bool.or_eq_true, testBit_encodeModifiers, testBit_encodeModifiers,
    testBit_encodeModifiers]
  simp only [List.mem_append, or_and_right, exists_or]

/-- **A mask tells which of the recognised names are among the modifiers**, and nothing else: not their
order, not how often they stand there, and no other names.  The mask of two lists together has the bits
of both.  A bit stands at a place in the table or two past its end. -/
theorem masks_tell_names (legend : Legend) :
    (∀ modifiers others : List Text,
      legend.encodeModifiers modifiers = legend.encodeModifiers others
        ↔ ∀ name, name ∈ legend.modifiers ∨ name = "notInLegend" →
          (name ∈ modifiers ↔ name ∈ others))
    ∧ (∀ modifiers others : List Text,
      legend.encodeModifiers (modifiers ++ others)
        = legend.encodeModifiers modifiers ||| legend.encodeModifiers others)
    ∧ ∀ (modifiers : List Text) (k : Nat), (legend.encodeModifiers modifiers).testBit k = true →
      k < legend.modifiers.length ∨ k = legend.modifiers.length + 2 := by
  refine ⟨encodeModifiers_eq_iff, encodeModifiers_append, fun modifiers k hbit => ?_⟩
  obtain ⟨_, -, hplace⟩ := (testBit_encodeModifiers modifiers k).1 hbit
  exact place?_bounds hplace

/-- A table of a hundred entries.  The bit of what it lacks is none of theirs, and unknown names, order
and repetitions leave no trace. -/
theorem masks_tell_names_hundred :
    let legend : Legend := ⟨[], (List.range 100).map Text.ofNat⟩
    legend.encodeModifiers ["99", "readonly", "notInLegend", "99"]
      = legend.encodeModifiers ["notInLegend", "99"]
    ∧ legend.encodeModifiers ["notInLegend", "99"] = 2 ^ 102 ||| 2 ^ 99
    ∧ legend.encodeModifiers ["notInLegend", "98"] ≠ legend.encodeModifiers ["notInLegend", "99"] := by
  intro legend
  obtain ⟨hnames, hjoined, -⟩ := masks_tell_names legend
  refine ⟨(hnames _ _).2 (fun name hname => ?_), ?_, fun hsame => ?_⟩
  · have hreadonly : ("readonly" : Text) ∉ legend.modifiers := by decide +kernel
    have hunknown : name ≠ "readonly" := by
      rintro rfl
      exact hname.elim hreadonly (by decide)
    simp only [List.mem_cons, List.not_mem_nil, or_false, hunknown, false_or]
    rw [or_left_comm, or_self]
  · have houtside : legend.encodeModifiers ["notInLegend"] = 2 ^ 102 := by decide +kernel
    have hlast : legend.encodeModifiers ["99"] = 2 ^ 99 := by decide +kernel
    rw [← houtside, ← hlast]
    exact hjoined ["notInLegend"] ["99"]
  · have h99 : ("99" : Text) ∈ legend.modifiers := by decide +kernel
    exact absurd ((hnames _ _).1 hsame "99" (.inl h99)) (by decide)

end OutlineServer.Legend
