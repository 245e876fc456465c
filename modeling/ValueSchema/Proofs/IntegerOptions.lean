import ValueSchema.Proofs.Comparison
import ValueSchema.Proofs.Conformance.Equations
import ValueSchema.Proofs.Resolution
import ValueSchema.Proofs.Rounding

/-! # Options that are integers -/

namespace ValueSchema

/-! ## Integers among others -/

namespace Number

/-- An integer that is in a list, or confused with one that is. -/
def CountsAmong (value : Int) (values : List Int) : Prop :=
  value ∈ values ∨ ∃ other ∈ values, Confused other value

/-- Integers that cannot be confused: they are equal, or both in the signed range, or more than
`2048` apart. -/
def ToldApart (a b : Int) : Prop :=
  a = b ∨ a < 9223372036854775808 ∧ b < 9223372036854775808 ∨ 2048 < (a - b).natAbs

instance (a b : Int) : Decidable (ToldApart a b) := inferInstanceAs (Decidable (_ ∨ _ ∨ _))

theorem ToldApart.symm {a b : Int} (h : ToldApart a b) : ToldApart b a := by
  unfold ToldApart at h ⊢
  omega

theorem ToldApart.not_confused {a b : Int} (h : ToldApart a b) (ha : Has64Bits a)
    (hb : Has64Bits b) : ¬Confused a b := by
  intro hconfused
  have hdiffer := hconfused.differ
  have hunsigned := hconfused.unsigned
  have hnear := hconfused.near ha hb
  unfold ToldApart at h
  omega

theorem countsAmong_iff_exists {value : Int} {values : List Int} :
    CountsAmong value values ↔ ∃ other ∈ values, other = value ∨ Confused other value := by
  constructor
  · rintro (hmem | ⟨other, hmem, hconfused⟩)
    · exact ⟨value, hmem, .inl rfl⟩
    · exact ⟨other, hmem, .inr hconfused⟩
  · rintro ⟨other, hmem, rfl | hconfused⟩
    · exact .inl hmem
    · exact .inr ⟨other, hmem, hconfused⟩

theorem countsAmong_iff_mem {value : Int} {values : List Int} (hvalue : Has64Bits value)
    (hvalues : ∀ other ∈ values, Has64Bits other) (h : ∀ other ∈ values, ToldApart other value) :
    CountsAmong value values ↔ value ∈ values := by
  refine or_iff_left ?_
  rintro ⟨other, hmem, hconfused⟩
  exact (h other hmem).not_confused (hvalues other hmem) hvalue hconfused

end Number

open Number

/-! ## Definitions that offer integers -/

/-- The value is the integer `n`. -/
def Json.IsInteger (value : Json) (n : Int) : Prop :=
  ∃ range, value = .number (.integer n range)

theorem Json.IsInteger.valueEq_iff {left right : Json} {a b : Int} (hleft : left.IsInteger a)
    (hright : right.IsInteger b) : left.valueEq right = true ↔ a = b ∨ Confused a b := by
  obtain ⟨ha, rfl⟩ := hleft
  obtain ⟨hb, rfl⟩ := hright
  exact numEq_integer_iff ha hb

namespace Choice

/-- The values of the options are the integers of a list, in its order. -/
def AreIntegers (choices : List Choice) (values : List Int) : Prop :=
  List.Forall₂ (fun choice value => choice.value.IsInteger value) choices values

namespace AreIntegers

variable {choices lefts rights : List Choice} {xs ys : List Int}

theorem has64Bits (h : AreIntegers choices xs) : ∀ x ∈ xs, Has64Bits x :=
  forall_of_forall₂ h fun _ _ _ hvalue => hvalue.1

/-- A test of integers, put to all options. -/
theorem all_iff (h : AreIntegers choices xs) (test : Json → Bool) {passes : Int → Prop}
    (htest : ∀ value x, value.IsInteger x → (test value = true ↔ passes x)) :
    (choices.all fun choice => test choice.value) = true ↔ ∀ x ∈ xs, passes x := by
  induction h with
  | nil => simp
  | cons hchoice _ ih =>
      simp only [List.all_cons, Bool.and_eq_true, htest _ _ hchoice, ih, List.forall_mem_cons]

/-- A test of integers, put to the options until one passes. -/
theorem any_iff (h : AreIntegers choices xs) (test : Json → Bool) {passes : Int → Prop}
    (htest : ∀ value x, value.IsInteger x → (test value = true ↔ passes x)) :
    (choices.any fun choice => test choice.value) = true ↔ ∃ x ∈ xs, passes x := by
  induction h with
  | nil => simp
  | cons hchoice _ ih =>
      simp only [List.any_cons, Bool.or_eq_true, htest _ _ hchoice, ih, List.exists_mem_cons_iff]

theorem any_valueEq_iff (h : AreIntegers choices xs) {value : Json} {n : Int}
    (hvalue : value.IsInteger n) :
    (choices.any fun choice => choice.value.valueEq value) = true ↔ CountsAmong n xs := by
  rw [countsAmong_iff_exists]
  exact h.any_iff (·.valueEq value) fun _ _ hchoice => hchoice.valueEq_iff hvalue

theorem covered_iff (hlefts : AreIntegers lefts xs) (hrights : AreIntegers rights ys) :
    covered lefts rights = true ↔ ∀ x ∈ xs, CountsAmong x ys := by
  refine hlefts.all_iff (fun left => rights.any fun right => left.valueEq right.value) ?_
  intro left x hleft
  rw [hrights.any_iff left.valueEq fun right y hright => hleft.valueEq_iff hright,
    countsAmong_iff_exists]
  simp only [@eq_comm _ x, confused_comm (a := x)]

end AreIntegers

end Choice

namespace TypeDef

/-- A `oneOf` with integers for its options, of which there must be one. -/
structure OffersIntegers (d : TypeDef) (values : List Int) : Prop where
  kind : d.kind = .builtin .oneOf
  options : ∃ choices, d.options = some choices ∧ Choice.AreIntegers choices values
  nonempty : values ≠ []

theorem choices_of_options {d : TypeDef} {choices : List Choice} (h : d.options = some choices)
    (nonempty : choices ≠ []) : d.choices = .ok ⟨choices, nonempty⟩ := by
  cases choices with
  | nil => exact absurd rfl nonempty
  | cons choice rest => rw [TypeDef.choices, h]

namespace OffersIntegers

variable {d e : TypeDef} {xs ys : List Int}

theorem exists_choices (h : d.OffersIntegers xs) :
    ∃ choices, d.choices = .ok choices ∧ Choice.AreIntegers choices.val xs := by
  obtain ⟨choices, hoptions, hvalues⟩ := h.options
  have hnonempty : choices ≠ [] := by
    rintro rfl
    cases hvalues
    exact h.nonempty rfl
  exact ⟨⟨choices, hnonempty⟩, choices_of_options hoptions hnonempty, hvalues⟩

theorem has64Bits (h : d.OffersIntegers xs) : ∀ x ∈ xs, Has64Bits x := by
  obtain ⟨_, _, hvalues⟩ := h.options
  exact hvalues.has64Bits

/-- An integer can be checked, and is valid exactly if it counts among the options. -/
theorem validate (h : d.OffersIntegers xs) (limit : Nat) (registry : Registry) {value : Json}
    {n : Int} (hvalue : value.IsInteger n) :
    ∃ report, value.validate limit registry d = .ok report ∧
      (report.valid = true ↔ CountsAmong n xs) := by
  obtain ⟨choices, hchoices, hvalues⟩ := h.exists_choices
  have hnull : value.isNull = false := by
    obtain ⟨_, rfl⟩ := hvalue
    rfl
  rw [Json.validate, Json.check_of_resolve (resolve_of_builtin h.kind limit registry), hnull,
    Bool.and_false, if_neg Bool.false_ne_true, if_pos rfl, Check.options_of_choices hchoices]
  refine ⟨_, rfl, ?_⟩
  rw [← hvalues.any_valueEq_iff hvalue]
  split
  · next hany => exact iff_of_true rfl hany
  · next hany => exact iff_of_false Bool.false_ne_true hany

/-- Definitions that offer integers can be compared, and are equivalent exactly if the options of
either count among those of the other. -/
theorem equivalent (hd : d.OffersIntegers xs) (he : e.OffersIntegers ys) {limit : Nat}
    (positive : 0 < limit) (registry registry' : Registry) :
    ∃ same, d.equivalent limit registry registry' e = .ok same ∧
      (same = true ↔ (∀ x ∈ xs, CountsAmong x ys) ∧ ∀ y ∈ ys, CountsAmong y xs) := by
  obtain ⟨lefts, hlefts, hxs⟩ := hd.exists_choices
  obtain ⟨rights, hrights, hys⟩ := he.exists_choices
  obtain ⟨depth, rfl⟩ := Nat.exists_eq_succ_of_ne_zero positive.ne'
  refine ⟨Choice.sameValues lefts.val rights.val, ?_, ?_⟩
  · have hkinds : Builtin.equates .oneOf .oneOf = true := by decide
    rw [TypeDef.equivalent, equivalentWithin_succ, resolve_of_builtin hd.kind, ok_bind,
      resolve_of_builtin he.kind, ok_bind, compareLayer, if_pos hkinds]
    dsimp only
    rw [hlefts, ok_bind, hrights, ok_bind]
    rfl
  · rw [Choice.sameValues, Bool.and_eq_true, hxs.covered_iff hys, hys.covered_iff hxs]

end OffersIntegers

end TypeDef

/-! ## Comparison up to confusion -/

/-- How the options of a `oneOf` are compared if they are integers: a value is accepted, and an
option has a counterpart, if it counts among the options. This is membership unless an integer
outside the signed range is near to another one. -/
theorem oneOf_compares_integers {limit : Nat} (positive : 0 < limit)
    (registry registry' : Registry) {d e : TypeDef} {xs ys : List Int}
    (hd : d.OffersIntegers xs) (he : e.OffersIntegers ys) :
    (∀ (value : Json) (n : Int), value.IsInteger n →
      ∃ report, value.validate limit registry d = .ok report ∧
        (report.valid = true ↔ CountsAmong n xs) ∧
        ((∀ x ∈ xs, ToldApart x n) → (report.valid = true ↔ n ∈ xs))) ∧
    ∃ same, d.equivalent limit registry registry' e = .ok same ∧
      (same = true ↔ (∀ x ∈ xs, CountsAmong x ys) ∧ ∀ y ∈ ys, CountsAmong y xs) ∧
      ((∀ x ∈ xs, ∀ y ∈ ys, ToldApart x y) → (same = true ↔ ∀ z, z ∈ xs ↔ z ∈ ys)) := by
  constructor
  · intro value n hvalue
    obtain ⟨report, hreport, hvalid⟩ := hd.validate limit registry hvalue
    refine ⟨report, hreport, hvalid, fun apart => ?_⟩
    rw [hvalid, countsAmong_iff_mem hvalue.1 hd.has64Bits apart]
  · obtain ⟨same, hsame, htrue⟩ := hd.equivalent he positive registry registry'
    refine ⟨same, hsame, htrue, fun apart => ?_⟩
    have hleft : ∀ x ∈ xs, (CountsAmong x ys ↔ x ∈ ys) := fun x hx =>
      countsAmong_iff_mem (hd.has64Bits x hx) he.has64Bits fun y hy => (apart x hx y hy).symm
    have hright : ∀ y ∈ ys, (CountsAmong y xs ↔ y ∈ xs) := fun y hy =>
      countsAmong_iff_mem (he.has64Bits y hy) hd.has64Bits fun x hx => apart x hx y hy
    rw [htrue, forall₂_congr hleft, forall₂_congr hright]
    exact ⟨fun h z => ⟨h.1 z, h.2 z⟩, fun h => ⟨fun x => (h x).mp, fun y => (h y).mpr⟩⟩

section Limits

/-- The last integer of the signed range. -/
def lastSigned : Json := .number (.integer 9223372036854775807 (by decide))

/-- The first integer behind the signed range. -/
def firstUnsigned : Json := .number (.integer 9223372036854775808 (by decide))

def lastUnsigned : Json := .number (.integer 18446744073709551615 (by decide))

theorem oneOf_compares_integers_limits :
    let limits := TypeDef.oneOf [lastSigned, .number .zero, lastUnsigned]
    let limits' := TypeDef.oneOf [lastUnsigned, lastSigned, .number .zero, lastSigned]
    let xs := [9223372036854775807, 0, 18446744073709551615]
    let ys := [18446744073709551615, 9223372036854775807, 0, 9223372036854775807]
    limits.OffersIntegers xs ∧ limits'.OffersIntegers ys ∧
    (∀ x ∈ xs, ∀ y ∈ ys, ToldApart x y) ∧ firstUnsigned.IsInteger 9223372036854775808 ∧
    (∃ report, firstUnsigned.validate 1 ∅ limits = .ok report ∧
      (report.valid = true ↔ CountsAmong 9223372036854775808 xs)) ∧
    ∃ same, limits.equivalent 1 ∅ ∅ limits' = .ok same ∧
      (same = true ↔ ∀ z, z ∈ xs ↔ z ∈ ys) := by
  intro limits limits' xs ys
  have hxs : limits.OffersIntegers xs :=
    ⟨rfl, ⟨_, rfl, .cons ⟨_, rfl⟩ (.cons ⟨_, rfl⟩ (.cons ⟨_, rfl⟩ .nil))⟩, by simp [xs]⟩
  have hys : limits'.OffersIntegers ys :=
    ⟨rfl, ⟨_, rfl, .cons ⟨_, rfl⟩ (.cons ⟨_, rfl⟩ (.cons ⟨_, rfl⟩ (.cons ⟨_, rfl⟩ .nil)))⟩,
      by simp [ys]⟩
  have apart : ∀ x ∈ xs, ∀ y ∈ ys, ToldApart x y := by decide
  have hfirst : firstUnsigned.IsInteger 9223372036854775808 := ⟨_, rfl⟩
  obtain ⟨hvalidate, same, hsame, _, hexact⟩ :=
    oneOf_compares_integers Nat.one_pos ∅ ∅ hxs hys
  obtain ⟨report, hreport, hvalid, _⟩ := hvalidate firstUnsigned _ hfirst
  exact ⟨hxs, hys, apart, hfirst, ⟨report, hreport, hvalid⟩, same, hsame, hexact apart⟩

/-- The last integer of the signed range is taken for the next one. -/
theorem oneOf_confuses_limits :
    let left := TypeDef.oneOf [lastSigned]
    let right := TypeDef.oneOf [firstUnsigned]
    left.OffersIntegers [9223372036854775807] ∧ right.OffersIntegers [9223372036854775808] ∧
    firstUnsigned.validate 64 ∅ left = .ok .success ∧
    left.equivalent 64 ∅ ∅ right = .ok true := by
  refine ⟨⟨rfl, ⟨_, rfl, .cons ⟨_, rfl⟩ .nil⟩, by simp⟩,
    ⟨rfl, ⟨_, rfl, .cons ⟨_, rfl⟩ .nil⟩, by simp⟩, ?_, ?_⟩
  · decide +kernel
  · decide +kernel

end Limits

end ValueSchema
