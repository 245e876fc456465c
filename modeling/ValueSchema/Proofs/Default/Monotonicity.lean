import ValueSchema.Default
import ValueSchema.Proofs.Record

/-! # Filling in more

A shape that is filled in passes the demand on to its fields or drops it there, so what is to be
filled in changes from level to level. -/

namespace ValueSchema

/-- The order in which values are filled in: `null` comes before everything, and objects with the
same names in the same order are compared name by name. -/
inductive Json.Below : Json → Json → Prop
  | null (value : Json) : Below .null value
  | refl (value : Json) : Below value value
  | object {members members' : Record Json} (names_eq : members.names = members'.names)
      (each : ∀ name value value', members.get? name = some value →
        members'.get? name = some value' → Below value value') :
      Below (.object members) (.object members')

/-- Whatever the one fills in, the other fills in too. -/
structure Filling.AtMost (filling filling' : Filling) : Prop where
  nonNull : filling.nonNull = true → filling'.nonNull = true
  deepNonNull : filling.deepNonNull = true → filling'.deepNonNull = true

theorem Filling.AtMost.forFields {filling filling' : Filling} (h : filling.AtMost filling') :
    filling.forFields.AtMost filling'.forFields := by
  unfold Filling.forFields
  by_cases hdeep : filling.deepNonNull = true
  · rw [if_pos hdeep, if_pos (h.deepNonNull hdeep)]
    exact ⟨fun hdeep => hdeep, fun hdeep => hdeep⟩
  · rw [if_neg hdeep]
    exact ⟨by simp [nullable], by simp [nullable]⟩

theorem Json.Below.of_related {members members' : Record Json}
    (h : Record.Related (fun value' value => value.Below value') members' members) :
    (Json.object members).Below (.object members') := by
  refine .object h.names_eq.symm fun name value value' hvalue hvalue' => ?_
  obtain ⟨_, hget, hbelow⟩ := h.exists_left hvalue
  cases hvalue'.symm.trans hget
  exact hbelow

/-! ## One level -/

/-- If the first computation returns a value, the second returns one below it. -/
def FillsInLess : Except Failure Json → Except Failure Json → Prop :=
  Refines (fun _ => True) fun value' value => value.Below value'

namespace FillsInLess

theorem refl (outcome : Except Failure Json) : FillsInLess outcome outcome :=
  Refines.refl (fun value => .refl value) outcome

/-- The values that both computations put together from the same intermediate result. -/
theorem bind {α : Type} (first : Except Failure α) {next next' : α → Except Failure Json}
    (h : ∀ a, FillsInLess (next' a) (next a)) : FillsInLess (first >>= next') (first >>= next) :=
  (Refines.refl (fun _ => rfl) first).bind_eq h

/-- What is not filled in is `null`, whether the fuller default can be computed or not. -/
theorem of_filled {filled filled' : Bool} (hfilled : filled = true → filled' = true)
    {outcome outcome' : Except Failure Json} (h : FillsInLess outcome' outcome) :
    FillsInLess (if filled' then outcome' else .ok .null)
      (if filled then outcome else .ok .null) := by
  by_cases hf : filled = true
  · rw [if_pos hf, if_pos (hfilled hf)]
    exact h
  · rw [if_neg hf]
    exact Refines.ok_right (fun value => .null value) _

theorem fields {fill fill' : TypeDef → Except Failure Json}
    (h : ∀ field, FillsInLess (fill' field) (fill field)) (fields : Record TypeDef) :
    FillsInLess (Json.object <$> fields.mapM fill') (Json.object <$> fields.mapM fill) := by
  refine (Record.refines_mapM (Record.Related.refl (fun _ => rfl) fields) ?_).map
    fun members' members hmembers => .of_related hmembers
  rintro field _ rfl
  exact h field

end FillsInLess

/-! ## All levels -/

theorem fillsInLess_defaultWithin {limit depth : Nat} {registry : Registry}
    {filling filling' : Filling} (h : filling.AtMost filling') (d : TypeDef) :
    FillsInLess (d.defaultWithin limit registry depth filling')
      (d.defaultWithin limit registry depth filling) := by
  induction depth generalizing filling filling' d with
  | zero => exact .refl _
  | succ depth ih =>
      rw [TypeDef.defaultWithin, TypeDef.defaultWithin]
      refine .bind _ fun resolved => ?_
      have hfilled : (resolved.definition.isNotNull || filling.nonNull) = true →
          (resolved.definition.isNotNull || filling'.nonNull) = true := by
        simp only [Bool.or_eq_true]
        exact Or.imp_right h.nonNull
      dsimp only
      cases resolved.kind with
      | object | objectOf =>
          simp only [pure_eq_ok, apply_ite Except.ok]
          exact .of_filled hfilled (.refl _)
      | shape =>
          refine .of_filled hfilled ?_
          exact .bind _ fun fields => .fields (ih h.forFields) fields
      | _ => exact .refl _

/-- Whatever is filled in, filling in less gives a default too. It is the same value with some
parts left `null`. -/
theorem defaultValue_below_of_atMost (limit : Nat) (registry : Registry) (d : TypeDef)
    (filling filling' : Filling) (hle : filling.AtMost filling') (value' : Json)
    (h : d.defaultValue limit registry filling' = .ok value') :
    ∃ value, d.defaultValue limit registry filling = .ok value ∧ value.Below value' :=
  (fillsInLess_defaultWithin hle d).exists_eq_ok h

section Subscriber

def postalTypes : Registry := .ofList
  [("address", .shape [("street", .builtin .string), ("notes", .builtin .object)])]

/-- The place of work is filled in on any account, but the notes in it are not. -/
def subscriber : TypeDef := .shape
  [("name", .builtin .string), ("home", .reference "address"),
    ("work", (TypeDef.reference "address").asNotNull), ("tags", .objectOf (.builtin .string))]

def plainSubscriber : Json := .object (.ofList
  [("name", .string ""), ("home", .null),
    ("work", .object (.ofList [("street", .string ""), ("notes", .null)])), ("tags", .null)])

def fullSubscriber : Json :=
  let address := Json.object (.ofList [("street", .string ""), ("notes", .object ∅)])
  .object (.ofList
    [("name", .string ""), ("home", address), ("work", address), ("tags", .object ∅)])

theorem defaultValue_below_of_atMost_subscriber :
    Filling.outermost.AtMost .deep ∧
    subscriber.defaultValue 3 postalTypes .deep = .ok fullSubscriber ∧
    subscriber.defaultValue 3 postalTypes .outermost = .ok plainSubscriber ∧
    plainSubscriber.Below fullSubscriber := by
  have hle : Filling.outermost.AtMost .deep := ⟨fun _ => rfl, fun _ => rfl⟩
  have hfull : subscriber.defaultValue 3 postalTypes .deep = .ok fullSubscriber := rfl
  have hplain : subscriber.defaultValue 3 postalTypes .outermost = .ok plainSubscriber := rfl
  obtain ⟨value, hvalue, hbelow⟩ := defaultValue_below_of_atMost 3 postalTypes subscriber
    .outermost .deep hle fullSubscriber hfull
  cases hplain.symm.trans hvalue
  exact ⟨hle, hfull, hplain, hbelow⟩

end Subscriber

end ValueSchema
