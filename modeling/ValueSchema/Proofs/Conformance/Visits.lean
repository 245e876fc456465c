import ValueSchema.Proofs.Conformance.Equations
import ValueSchema.Proofs.Position

/-! # The check of the parts as a traversal

The kind of a definition decides which parts of a value are visited. What is done at a visit is
the same for all kinds. -/

namespace ValueSchema

/-! ## Visits -/

namespace Json

/-- The steps to the children of a value. -/
def steps : Json → List Step
  | .array items => items.zipIdx.map fun item => .index item.2
  | .object members => members.toList.map fun member => .key member.1
  | _ => []

theorem mem_steps_iff {value : Json} {step : Step} :
    step ∈ value.steps ↔ ∃ child, value.child? step = some child := by
  cases value with
  | array items =>
      cases step with
      | key name => simp [steps, child?]
      | index position => simp [steps, child?, List.mk_mem_zipIdx_iff_getElem?]
  | object members =>
      cases step with
      | key name => simp [steps, child?, Record.get?_eq_some_iff]
      | index position => simp [steps, child?]
  | _ => simp [steps, child?]

end Json

/-- A step into a value and the definition of the part that it leads to. -/
abbrev Visit := Step × TypeDef

namespace Resolved

/-- The visits of a check in their order: to all children or to the declared fields. -/
def visits (resolved : Resolved) (value : Json) : Except Failure (List Visit) :=
  if resolved.kind.admits value then
    match resolved.kind with
    | .arrayOf | .objectOf =>
        (fun element => value.steps.map fun step => (step, element)) <$>
          resolved.definition.element
    | .shape =>
        (fun declared => declared.toList.map fun field => (.key field.1, field.2)) <$>
          resolved.definition.declaredFields
    | _ => .ok []
  else
    .ok []

variable {resolved : Resolved} {value : Json}

theorem visits_of_element (kind : resolved.kind = .arrayOf ∨ resolved.kind = .objectOf)
    (admits : resolved.kind.admits value = true) :
    resolved.visits value =
      (fun element => value.steps.map fun step => (step, element)) <$>
        resolved.definition.element := by
  rw [visits, if_pos admits]
  rcases kind with kind | kind <;> rw [kind]

theorem visits_of_declaredFields (kind : resolved.kind = .shape)
    (admits : resolved.kind.admits value = true) :
    resolved.visits value =
      (fun declared => declared.toList.map fun field => (.key field.1, field.2)) <$>
        resolved.definition.declaredFields := by
  rw [visits, if_pos admits, kind]

end Resolved

/-! ## What a visit finds -/

/-- A required field of a shape that an object lacks. -/
inductive MissingField (resolved : Resolved) : Json → String → Prop
  | intro {members : Record Json} {fields : Record TypeDef} {name : String} {field : TypeDef}
      (kind : resolved.kind = .shape) (hfields : resolved.definition.declaredFields = .ok fields)
      (hfield : fields.get? name = some field) (required : field.isRequired = true)
      (absent : members.get? name = none) : MissingField resolved (.object members) name

/-- One step into a value and the definition that it is checked against. -/
inductive Descent (resolved : Resolved) : Json → Step → Json → TypeDef → Prop
  | item {items : List Json} {position : Nat} {item : Json} {element : TypeDef}
      (kind : resolved.kind = .arrayOf) (helement : resolved.definition.element = .ok element)
      (hitem : items[position]? = some item) :
      Descent resolved (.array items) (.index position) item element
  | member {members : Record Json} {name : String} {item : Json} {element : TypeDef}
      (kind : resolved.kind = .objectOf) (helement : resolved.definition.element = .ok element)
      (hitem : members.get? name = some item) :
      Descent resolved (.object members) (.key name) item element
  | field {members : Record Json} {name : String} {item : Json} {fields : Record TypeDef}
      {field : TypeDef} (kind : resolved.kind = .shape)
      (hfields : resolved.definition.declaredFields = .ok fields)
      (hfield : fields.get? name = some field) (hitem : members.get? name = some item) :
      Descent resolved (.object members) (.key name) item field

section Findings

variable {resolved : Resolved} {value child : Json} {step : Step} {part : TypeDef} {name : String}

theorem MissingField.admits (h : MissingField resolved value name) :
    resolved.kind ≠ .oneOf ∧ resolved.kind.admits value = true := by
  cases h with
  | intro kind hfields hfield required absent =>
      rw [kind]
      exact ⟨by decide, rfl⟩

theorem Descent.admits (h : Descent resolved value step child part) :
    resolved.kind ≠ .oneOf ∧ resolved.kind.admits value = true := by
  cases h with
  | item kind helement hitem | member kind helement hitem | field kind hfields hfield hitem =>
      rw [kind]
      exact ⟨by decide, rfl⟩

theorem descent_iff {limit : Nat} {registry : Registry} {d : TypeDef}
    (resolves : d.resolve limit registry = .ok resolved) :
    Descent resolved value step child part ↔
      value.child? step = some child ∧ d.child limit registry step = .ok part := by
  constructor
  · rintro (⟨kind, helement, hitem⟩ | ⟨kind, helement, hitem⟩ | ⟨kind, hfields, hfield, hitem⟩)
    · exact ⟨hitem, TypeDef.child_arrayOf resolves kind helement _⟩
    · exact ⟨hitem, TypeDef.child_objectOf resolves kind helement _⟩
    · exact ⟨hitem, TypeDef.child_shape resolves kind hfields hfield⟩
  · rintro ⟨hchild, hpart⟩
    rw [TypeDef.child, resolves, ok_bind] at hpart
    split at hpart
    · next name kind =>
        cases value with
        | object members => exact .member kind hpart hchild
        | _ => cases hchild
    · next position kind =>
        cases value with
        | array items => exact .item kind hpart hchild
        | _ => cases hchild
    · next name kind =>
        obtain ⟨fields, hfields, hfield⟩ := bind_eq_ok_iff.mp hpart
        cases value with
        | object members =>
            cases hget : fields.get? name with
            | none => simp [hget, throw_eq_error] at hfield
            | some field =>
                obtain rfl : field = part := by simpa [hget, pure_eq_ok] using hfield
                exact .field kind hfields hget hchild
        | _ => cases hchild
    · cases hpart

theorem Descent.child?_eq (h : Descent resolved value step child part) :
    value.child? step = some child := by
  cases h with
  | item _ _ hitem | member _ _ hitem | field _ _ _ hitem => exact hitem

theorem Descent.of_element (kind : resolved.kind = .arrayOf ∨ resolved.kind = .objectOf)
    (admits : resolved.kind.admits value = true)
    (helement : resolved.definition.element = .ok part) (hchild : value.child? step = some child) :
    Descent resolved value step child part := by
  rcases kind with kind | kind
  · rw [kind] at admits
    obtain ⟨items, rfl⟩ := Json.isArray_iff.mp admits
    cases step with
    | key name => cases hchild
    | index position => exact .item kind helement hchild
  · rw [kind] at admits
    obtain ⟨members, rfl⟩ := Json.isObject_iff.mp admits
    cases step with
    | key name => exact .member kind helement hchild
    | index position => cases hchild

/-- Every descent is a visit. -/
theorem Descent.exists_visits (h : Descent resolved value step child part) :
    ∃ visits, resolved.visits value = .ok visits ∧ (step, part) ∈ visits := by
  have hstep := Json.mem_steps_iff.mpr ⟨child, h.child?_eq⟩
  have admits := h.admits.2
  cases h with
  | item kind helement hitem =>
      rw [Resolved.visits_of_element (.inl kind) admits, helement, Except.map_ok]
      exact ⟨_, rfl, List.mem_map_of_mem hstep⟩
  | member kind helement hitem =>
      rw [Resolved.visits_of_element (.inr kind) admits, helement, Except.map_ok]
      exact ⟨_, rfl, List.mem_map_of_mem hstep⟩
  | field kind hfields hfield hitem =>
      rw [Resolved.visits_of_declaredFields kind admits, hfields, Except.map_ok]
      exact ⟨_, rfl, List.mem_map.mpr ⟨_, Record.get?_eq_some_iff.mp hfield, rfl⟩⟩

/-- A missing field is visited, too. -/
theorem MissingField.exists_visits (h : MissingField resolved value name) :
    ∃ visits part, resolved.visits value = .ok visits ∧ (Step.key name, part) ∈ visits ∧
      value.child? (.key name) = none ∧ part.isRequired = true := by
  have admits := h.admits.2
  cases h with
  | @intro _ fields _ field kind hfields hfield required absent =>
      rw [Resolved.visits_of_declaredFields kind admits, hfields, Except.map_ok]
      refine ⟨_, field, rfl, List.mem_map.mpr ⟨(name, field), ?_, rfl⟩, absent, required⟩
      exact Record.get?_eq_some_iff.mp hfield

/-- What a visit finds: a part of the value, or that a declared field is not there. -/
structure Finds (resolved : Resolved) (value : Json) (visit : Visit) : Prop where
  mem_parts : visit.2 ∈ resolved.parts
  descent : ∀ child, value.child? visit.1 = some child →
    Descent resolved value visit.1 child visit.2
  missing : value.child? visit.1 = none → visit.2.isRequired = true →
    ∃ name, visit.1 = .key name ∧ MissingField resolved value name

theorem finds_of_element (kind : resolved.kind = .arrayOf ∨ resolved.kind = .objectOf)
    (admits : resolved.kind.admits value = true)
    (helement : resolved.definition.element = .ok part) (hstep : step ∈ value.steps) :
    Finds resolved value (step, part) where
  mem_parts := by simp [Resolved.parts_of_element kind helement]
  descent := fun child => .of_element kind admits helement
  missing := by
    intro habsent
    obtain ⟨child, hchild⟩ := Json.mem_steps_iff.mp hstep
    cases hchild.symm.trans habsent

theorem finds_of_declaredFields {members : Record Json} {fields : Record TypeDef}
    (kind : resolved.kind = .shape) (hfields : resolved.definition.declaredFields = .ok fields)
    {field : String × TypeDef} (hmem : field ∈ fields.toList) :
    Finds resolved (.object members) (.key field.1, field.2) where
  mem_parts := by
    rw [Resolved.parts_of_declaredFields kind hfields]
    exact List.mem_map_of_mem hmem
  descent := fun child => .field kind hfields (Record.get?_eq_some_iff.mpr hmem)
  missing := fun habsent required =>
    ⟨_, rfl, .intro kind hfields (Record.get?_eq_some_iff.mpr hmem) required habsent⟩

/-- A definition that lacks what its kind needs leads nowhere. -/
theorem yields_visits (resolved : Resolved) (value : Json) :
    Yields (fun visits => ∀ visit ∈ visits, Finds resolved value visit)
      (fun failure => resolved.Lacks failure ∧ resolved.kind ≠ .oneOf ∧
        resolved.kind.admits value = true)
      (resolved.visits value) := by
  rw [Resolved.visits]
  split
  · next admits =>
      cases kind : resolved.kind with
      | arrayOf | objectOf =>
          have composite : resolved.kind = .arrayOf ∨ resolved.kind = .objectOf := by simp [kind]
          cases helement : resolved.definition.element with
          | error failure =>
              exact ⟨Resolved.lacks_of_element composite helement, by simp, kind ▸ admits⟩
          | ok element =>
              exact List.forall_mem_map.mpr fun step hstep =>
                finds_of_element composite admits helement hstep
      | shape =>
          have form := admits
          rw [kind] at form
          obtain ⟨members, rfl⟩ := Json.isObject_iff.mp form
          cases hfields : resolved.definition.declaredFields with
          | error failure =>
              exact ⟨Resolved.lacks_of_declaredFields kind hfields, by simp, form⟩
          | ok fields =>
              exact List.forall_mem_map.mpr fun field hfield =>
                finds_of_declaredFields kind hfields hfield
      | _ => simp [Yields]
  · simp [Yields]

end Findings

/-! ## The traversal -/

/-- The report on the part that a step leads to. A required part that is not there is missing. -/
def Check.visit (limit : Nat) (registry : Registry) (value : Json) (path : String)
    (visit : Visit) : Except Failure Report :=
  match value.child? visit.1 with
  | some child => child.check limit registry visit.2 (path ++ visit.1.text)
  | none =>
      .ok (if visit.2.isRequired then .single (.missingRequired (path ++ visit.1.text))
        else .success)

section Traversal

variable {limit : Nat} {registry : Registry} {value : Json} {path : String}

theorem Check.visit_of_child {step : Step} {child : Json} {part : TypeDef}
    (h : value.child? step = some child) :
    visit limit registry value path (step, part) =
      child.check limit registry part (path ++ step.text) := by
  simp only [visit, h]

theorem Check.visit_of_absent {step : Step} {part : TypeDef} (h : value.child? step = none) :
    visit limit registry value path (step, part) =
      .ok (if part.isRequired then .single (.missingRequired (path ++ step.text))
        else .success) := by
  simp only [visit, h]

theorem Check.mapM_visit_items (items : List Json) (element : TypeDef) :
    ((Json.array items).steps.map fun step => (step, element)).mapM
        (visit limit registry (.array items) path) =
      items.zipIdx.mapM fun item =>
        item.1.check limit registry element (path ++ (Step.index item.2).text) := by
  rw [Json.steps, List.mapM_map, List.mapM_map]
  refine mapM_eq_of_forall₂ (List.forall₂_same.mpr fun item hitem => ?_)
  have hchild : (Json.array items).child? (.index item.2) = some item.1 :=
    List.mem_zipIdx_iff_getElem?.mp hitem
  exact visit_of_child hchild

theorem Check.mapM_visit_members (members : Record Json) (element : TypeDef) :
    ((Json.object members).steps.map fun step => (step, element)).mapM
        (visit limit registry (.object members) path) =
      members.toList.mapM fun member =>
        member.2.check limit registry element (path ++ (Step.key member.1).text) := by
  rw [Json.steps, List.mapM_map, List.mapM_map]
  refine mapM_eq_of_forall₂ (List.forall₂_same.mpr fun member hmember => ?_)
  have hchild : (Json.object members).child? (.key member.1) = some member.2 :=
    Record.get?_eq_some_iff.mpr hmember
  exact visit_of_child hchild

theorem Check.parts_of_not_admits {resolved : Resolved}
    (h : ¬resolved.kind.admits value = true) (path : String) :
    parts (value.childResults (Json.check limit registry)) resolved path = .ok .success := by
  unfold parts
  split <;> first
    | rfl
    | cases value <;>
        simp_all [Json.childResults, Builtin.admits, Json.isArray, Json.isObject]

/-- The parts of a value are checked one visit after the other. -/
theorem Check.parts_eq_visits (limit : Nat) (registry : Registry) (value : Json)
    (resolved : Resolved) (path : String) :
    parts (value.childResults (Json.check limit registry)) resolved path =
      resolved.visits value >>= fun visits =>
        Report.join <$> visits.mapM (visit limit registry value path) := by
  rw [Resolved.visits]
  split
  · next admits =>
      cases kind : resolved.kind with
      | arrayOf =>
          rw [kind] at admits
          obtain ⟨items, rfl⟩ := Json.isArray_iff.mp admits
          rw [parts_arrayOf kind]
          cases resolved.definition.element with
          | error failure => rfl
          | ok element => simp only [ok_bind, Except.map_ok, mapM_visit_items]
      | objectOf =>
          rw [kind] at admits
          obtain ⟨members, rfl⟩ := Json.isObject_iff.mp admits
          rw [parts_objectOf kind]
          cases resolved.definition.element with
          | error failure => rfl
          | ok element => simp only [ok_bind, Except.map_ok, mapM_visit_members]
      | shape =>
          rw [kind] at admits
          obtain ⟨members, rfl⟩ := Json.isObject_iff.mp admits
          rw [parts_shape kind]
          cases resolved.definition.declaredFields with
          | error failure => rfl
          | ok declared =>
              simp only [ok_bind, Except.map_ok, List.mapM_map]
              rfl
      | _ => simp [parts, kind, pure_eq_ok, Report.join]
  · next hother =>
      rw [parts_of_not_admits hother]
      rfl

end Traversal

end ValueSchema
