import ValueSchema.Path
import ValueSchema.Proofs.Record

/-! # Values and their children -/

namespace ValueSchema

theorem Binary64.numEq_self (x : Binary64) : x.numEq x = true := by
  simp [numEq]

namespace Number

theorem same_self (x : Number) : x.same x = true := by
  cases x with
  | integer value range => simp [same]
  | float value => exact value.numEq_self

theorem numEq_self (x : Number) : x.numEq x = true := by
  unfold numEq
  split
  · next a b ha hb =>
      rw [ha] at hb
      simpa using hb
  · exact x.toBinary64.numEq_self

end Number

namespace Json

/-- The results of a function for the children of a value. -/
def childResults {α : Type} (f : Json → α) : Json → Children α
  | .array items => .items (items.map f)
  | .object members => .members (members.map f)
  | _ => .leaf

theorem fold_eq {α : Type} (step : Json → Children α → α) (value : Json) :
    fold step value = step value (value.childResults (fold step)) := by
  cases value with
  | null => rfl
  | bool value => rfl
  | number value => rfl
  | string value => rfl
  | array items => exact fold_array step items
  | object members => exact fold_object step members

/-- A property holds of every value if it holds of a value whenever it holds of its children. -/
theorem child_induction {motive : Json → Prop}
    (value : ∀ value : Json, (∀ (step : Step) (child : Json), value.child? step = some child →
      motive child) → motive value)
    (json : Json) : motive json := by
  have leaf : ∀ json : Json, (∀ step, json.child? step = none) → motive json := by
    intro json hnone
    refine value json fun step child hchild => ?_
    rw [hnone step] at hchild
    cases hchild
  induction json using Json.induction with
  | null => exact leaf _ fun step => rfl
  | bool value => exact leaf _ fun step => rfl
  | number value => exact leaf _ fun step => rfl
  | string value => exact leaf _ fun step => rfl
  | array items ih =>
      refine value _ fun step child hchild => ?_
      cases step with
      | key name => cases hchild
      | index position => exact ih child (List.mem_of_getElem? hchild)
  | object members ih =>
      refine value _ fun step child hchild => ?_
      cases step with
      | key name => exact ih (name, child) (Values.mem_toList_of_get? hchild)
      | index position => cases hchild

@[simp] theorem isNull_iff {value : Json} : value.isNull = true ↔ value = .null := by
  cases value <;> simp [isNull]

theorem isArray_iff {value : Json} : value.isArray = true ↔ ∃ items, value = .array items := by
  cases value <;> simp [isArray]

theorem isObject_iff {value : Json} :
    value.isObject = true ↔ ∃ members, value = .object members := by
  cases value <;> simp [isObject]

/-! ## Values are equal to themselves -/

theorem same_self (value : Json) : value.same value = true := by
  induction value using Json.induction with
  | null => rfl
  | bool value => simp [same, sameLeaf]
  | number value => exact value.same_self
  | string value => simp [same, sameLeaf]
  | array items ih =>
      have hzip : (items.map same).zip items = items.map fun item => (item.same, item) := by
        simpa using List.zip_map' (f := same) (g := id) (l := items)
      have heach : ∀ pair ∈ (items.map same).zip items, pair.1 pair.2 = true := by
        rw [hzip]
        simpa using ih
      rw [same, fold_array]
      simpa [same] using heach
  | object members ih =>
      have heach : ∀ entry ∈ (members.map same).toList,
          (members.get? entry.1).any entry.2 = true := by
        rw [Record.toList_map]
        intro entry hentry
        obtain ⟨⟨name, item⟩, hmem, rfl⟩ := List.mem_map.mp hentry
        simp [Record.get?_eq_some_iff.mpr hmem, ih _ hmem]
      rw [same, fold_object]
      simpa [same, Record.size, Record.map] using heach

theorem valueEq_self (value : Json) : value.valueEq value = true := by
  cases value with
  | number value => exact value.numEq_self
  | _ => exact same_self _

/-! ## Simple values -/

/-- Strings, truth values, `null` and the integers of the signed range. -/
def IsSimple : Json → Prop
  | .null | .bool _ | .string _ => True
  | .number value => value.toSigned?.isSome = true
  | .array _ | .object _ => False

instance : DecidablePred IsSimple
  | .null | .bool _ | .string _ => .isTrue trivial
  | .number value => inferInstanceAs (Decidable (value.toSigned?.isSome = true))
  | .array _ | .object _ => .isFalse id

theorem eq_of_numEq {left right : Number} (hleft : left.toSigned?.isSome = true)
    (hright : right.toSigned?.isSome = true) (h : left.numEq right = true) : left = right := by
  cases left with
  | float value => cases hleft
  | integer value range =>
      cases right with
      | float value' => cases hright
      | integer value' range' =>
          have hsigned : value < 9223372036854775808 := by
            simpa [Number.toSigned?] using hleft
          have hsigned' : value' < 9223372036854775808 := by
            simpa [Number.toSigned?] using hright
          simp only [Number.numEq, Number.toSigned?, hsigned, hsigned', ite_true] at h
          obtain rfl : value = value' := by simpa using h
          rfl

/-- Simple values that pass as equal are equal. -/
theorem eq_of_valueEq {left right : Json} (hleft : left.IsSimple) (hright : right.IsSimple)
    (h : left.valueEq right = true) : left = right := by
  cases left with
  | null => cases right <;> first | rfl | cases h
  | bool value => cases right <;> simp_all [valueEq, same, sameLeaf]
  | string value => cases right <;> simp_all [valueEq, same, sameLeaf]
  | number value =>
      cases right with
      | number value' => rw [eq_of_numEq hleft hright h]
      | null | bool value' | string value' => cases h
      | array items => cases hright
      | object members => cases hright
  | array items => cases hleft
  | object members => cases hleft

end Json

end ValueSchema
