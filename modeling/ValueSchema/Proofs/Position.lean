import ValueSchema.Position
import ValueSchema.Proofs.Value

/-! # Definitions at positions -/

namespace ValueSchema

/-- The definitions inside a resolved one that belong to its kind. -/
def Resolved.parts (resolved : Resolved) : List TypeDef :=
  match resolved.kind with
  | .arrayOf | .objectOf => resolved.definition.ofType.toList
  | .shape => resolved.definition.fields.toList.flatMap fun fields => fields.toList.map Prod.snd
  | _ => []

namespace TypeDef

theorem ofType_of_element {d element : TypeDef} (h : d.element = .ok element) :
    d.ofType = some element := by
  rw [TypeDef.element] at h
  split at h
  · next hofType =>
      cases h
      exact hofType
  · cases h

theorem fields_of_declaredFields {d : TypeDef} {fields : Record TypeDef}
    (h : d.declaredFields = .ok fields) : d.fields = some fields := by
  rw [declaredFields] at h
  split at h
  · next hfields =>
      cases h
      exact hfields
  · cases h

theorem options_of_choices {d : TypeDef} {choices : { choices : List Choice // choices ≠ [] }}
    (h : d.choices = .ok choices) : d.options = some choices.val := by
  rw [TypeDef.choices] at h
  split at h
  · next hoptions =>
      cases h
      exact hoptions
  · cases h
  · cases h

end TypeDef

namespace Resolved

variable {resolved : Resolved}

theorem parts_of_element {element : TypeDef}
    (kind : resolved.kind = .arrayOf ∨ resolved.kind = .objectOf)
    (h : resolved.definition.element = .ok element) : resolved.parts = [element] := by
  have hofType := TypeDef.ofType_of_element h
  rcases kind with kind | kind <;> simp [parts, kind, hofType]

theorem parts_of_declaredFields {fields : Record TypeDef} (kind : resolved.kind = .shape)
    (h : resolved.definition.declaredFields = .ok fields) :
    resolved.parts = fields.toList.map Prod.snd := by
  simp [parts, kind, TypeDef.fields_of_declaredFields h]

end Resolved

/-! ## What a definition lacks -/

namespace Resolved

/-- The failure that blames a definition for an attribute that its kind needs. -/
inductive Lacks (resolved : Resolved) : Failure → Prop
  | element (kind : resolved.kind = .arrayOf ∨ resolved.kind = .objectOf)
      (absent : resolved.definition.ofType = none) :
      Lacks resolved (.invalidDefinition (.builtin resolved.kind) .missingElementType)
  | fields (kind : resolved.kind = .shape) (absent : resolved.definition.fields = none) :
      Lacks resolved (.invalidDefinition (.builtin resolved.kind) .missingFields)
  | options (kind : resolved.kind = .oneOf) (absent : resolved.definition.options = none) :
      Lacks resolved (.invalidDefinition (.builtin resolved.kind) .missingOptions)
  | noOptions (kind : resolved.kind = .oneOf) (empty : resolved.definition.options = some []) :
      Lacks resolved (.invalidDefinition (.builtin resolved.kind) .noOptions)

theorem invalid_eq (resolved : Resolved) (defect : Defect) :
    resolved.definition.invalid defect = .invalidDefinition (.builtin resolved.kind) defect := by
  rw [TypeDef.invalid, resolved.kind_eq]

variable {resolved : Resolved}

theorem Lacks.exists_defect {failure : Failure} (h : resolved.Lacks failure) :
    ∃ defect, failure = .invalidDefinition (.builtin resolved.kind) defect := by
  cases h <;> exact ⟨_, rfl⟩

theorem yields_element (kind : resolved.kind = .arrayOf ∨ resolved.kind = .objectOf) :
    Yields (· ∈ resolved.parts) resolved.Lacks resolved.definition.element := by
  cases hofType : resolved.definition.ofType with
  | none =>
      rw [TypeDef.element, hofType, invalid_eq]
      exact .element kind hofType
  | some element =>
      rw [TypeDef.element, hofType]
      rcases kind with kind | kind <;> simp [Yields, parts, kind, hofType]

theorem yields_declaredFields (kind : resolved.kind = .shape) :
    Yields (fun fields => ∀ entry ∈ fields.toList, entry.2 ∈ resolved.parts) resolved.Lacks
      resolved.definition.declaredFields := by
  cases hfields : resolved.definition.fields with
  | none =>
      rw [TypeDef.declaredFields, hfields, invalid_eq]
      exact .fields kind hfields
  | some fields =>
      rw [TypeDef.declaredFields, hfields]
      intro entry hentry
      simp only [parts, kind, hfields]
      simpa using ⟨entry.1, hentry⟩

theorem yields_choices (kind : resolved.kind = .oneOf) :
    Yields (fun _ => True) resolved.Lacks resolved.definition.choices := by
  cases hoptions : resolved.definition.options with
  | none =>
      simp only [TypeDef.choices, hoptions, invalid_eq]
      exact .options kind hoptions
  | some options =>
      cases options with
      | nil =>
          simp only [TypeDef.choices, hoptions, invalid_eq]
          exact .noOptions kind hoptions
      | cons first rest =>
          rw [TypeDef.choices, hoptions]
          trivial

theorem lacks_of_element (kind : resolved.kind = .arrayOf ∨ resolved.kind = .objectOf)
    {failure : Failure} (h : resolved.definition.element = .error failure) :
    resolved.Lacks failure :=
  (yields_element kind).allowed_of_eq_error h

theorem lacks_of_declaredFields (kind : resolved.kind = .shape) {failure : Failure}
    (h : resolved.definition.declaredFields = .error failure) : resolved.Lacks failure :=
  (yields_declaredFields kind).allowed_of_eq_error h

end Resolved

/-! ## Steps -/

namespace TypeDef

section Steps

variable {limit : Nat} {registry : Registry} {d : TypeDef} {resolved : Resolved}

theorem child_arrayOf {element : TypeDef} (resolves : d.resolve limit registry = .ok resolved)
    (kind : resolved.kind = .arrayOf) (helement : resolved.definition.element = .ok element)
    (position : Nat) : d.child limit registry (.index position) = .ok element := by
  simp [child, resolves, kind, helement]

theorem child_objectOf {element : TypeDef} (resolves : d.resolve limit registry = .ok resolved)
    (kind : resolved.kind = .objectOf) (helement : resolved.definition.element = .ok element)
    (name : String) : d.child limit registry (.key name) = .ok element := by
  simp [child, resolves, kind, helement]

theorem child_shape {declared : Record TypeDef} {name : String} {field : TypeDef}
    (resolves : d.resolve limit registry = .ok resolved) (kind : resolved.kind = .shape)
    (hdeclared : resolved.definition.declaredFields = .ok declared)
    (hfield : declared.get? name = some field) :
    d.child limit registry (.key name) = .ok field := by
  simp [child, resolves, kind, hdeclared, hfield, pure_eq_ok]

/-- A step leads to a part. -/
theorem mem_parts_of_child {step : Step} {part : TypeDef}
    (resolves : d.resolve limit registry = .ok resolved)
    (h : d.child limit registry step = .ok part) : part ∈ resolved.parts := by
  rw [child, resolves, ok_bind] at h
  unfold Resolved.parts
  split at h
  · next hkind => simp [hkind, ofType_of_element h]
  · next hkind => simp [hkind, ofType_of_element h]
  · next name hkind =>
      obtain ⟨fields, hfields, hfield⟩ := bind_eq_ok_iff.mp h
      cases hget : fields.get? name with
      | none => simp [hget, throw_eq_error] at hfield
      | some field =>
          obtain rfl : field = part := by simpa [hget, pure_eq_ok] using hfield
          have hmem := Record.get?_eq_some_iff.mp hget
          simpa [hkind, fields_of_declaredFields hfields] using ⟨name, hmem⟩
  · cases h

/-- Every part is reached by a step. -/
theorem exists_child_of_mem_parts {part : TypeDef}
    (resolves : d.resolve limit registry = .ok resolved) (h : part ∈ resolved.parts) :
    ∃ step, d.child limit registry step = .ok part := by
  unfold Resolved.parts at h
  split at h
  · next kind =>
      have helement : resolved.definition.element = .ok part := by
        rw [TypeDef.element, Option.mem_toList.mp h]
      exact ⟨.index 0, child_arrayOf resolves kind helement 0⟩
  · next kind =>
      have helement : resolved.definition.element = .ok part := by
        rw [TypeDef.element, Option.mem_toList.mp h]
      exact ⟨.key "", child_objectOf resolves kind helement ""⟩
  · next kind =>
      obtain ⟨fields, hfields, hpart⟩ := List.mem_flatMap.mp h
      obtain ⟨⟨name, field⟩, hfield, rfl⟩ := List.mem_map.mp hpart
      have hdeclared : resolved.definition.declaredFields = .ok fields := by
        rw [declaredFields, Option.mem_toList.mp hfields]
      exact ⟨.key name, child_shape resolves kind hdeclared (Record.get?_eq_some_iff.mpr hfield)⟩
  · cases h

theorem atPath_cons {step : Step} {part : TypeDef} (h : d.child limit registry step = .ok part)
    (path : List Step) :
    d.atPath limit registry (step :: path) = part.atPath limit registry path := by
  rw [atPath, h, ok_bind]

theorem atPath_append (limit : Nat) (registry : Registry) (d : TypeDef) (path rest : List Step) :
    d.atPath limit registry (path ++ rest) =
      d.atPath limit registry path >>= fun part => part.atPath limit registry rest := by
  induction path generalizing d with
  | nil => rfl
  | cons step path ih =>
      rw [List.cons_append, atPath, atPath]
      cases d.child limit registry step with
      | error failure => rfl
      | ok part => exact ih part

end Steps

/-! ## Properties of all positions -/

/-- Every position of a definition that resolves has a property. -/
def Throughout (limit : Nat) (registry : Registry) (good : Resolved → Prop) (d : TypeDef) : Prop :=
  ∀ (path : List Step) (part : TypeDef) (resolved : Resolved),
    d.atPath limit registry path = .ok part → part.resolve limit registry = .ok resolved →
      good resolved

/-- A property holds throughout a definition if it holds at the top and throughout each part. -/
theorem throughout_iff {limit : Nat} {registry : Registry} {good : Resolved → Prop} {d : TypeDef}
    {resolved : Resolved} (resolves : d.resolve limit registry = .ok resolved) :
    d.Throughout limit registry good ↔
      good resolved ∧ ∀ part ∈ resolved.parts, part.Throughout limit registry good := by
  constructor
  · intro h
    refine ⟨h [] d resolved rfl resolves, fun part hpart path part' resolved' hpath => ?_⟩
    obtain ⟨step, hchild⟩ := exists_child_of_mem_parts resolves hpart
    exact h (step :: path) part' resolved' (by rw [atPath_cons hchild, hpath])
  · rintro ⟨htop, hparts⟩ path part resolved' hpath resolves'
    cases path with
    | nil =>
        cases hpath
        cases resolves.symm.trans resolves'
        exact htop
    | cons step path =>
        rw [atPath] at hpath
        obtain ⟨part', hchild, hrest⟩ := bind_eq_ok_iff.mp hpath
        exact hparts part' (mem_parts_of_child resolves hchild) path part resolved' hrest resolves'

/-! ## Options -/

/-- All options that are reached from a definition are simple values. -/
def SimpleOptions (limit : Nat) (registry : Registry) (d : TypeDef) : Prop :=
  ∀ (path : List Step) (part : TypeDef) (resolved : Resolved)
    (choices : { choices : List Choice // choices ≠ [] }),
    d.atPath limit registry path = .ok part → part.resolve limit registry = .ok resolved →
      resolved.kind = .oneOf → resolved.definition.choices = .ok choices →
        ∀ choice ∈ choices.val, choice.value.IsSimple

theorem SimpleOptions.child {limit : Nat} {registry : Registry} {d part : TypeDef} {step : Step}
    (h : d.SimpleOptions limit registry) (hchild : d.child limit registry step = .ok part) :
    part.SimpleOptions limit registry := by
  intro path part' resolved choices hpath
  exact h (step :: path) part' resolved choices (by rw [atPath_cons hchild, hpath])

theorem SimpleOptions.of_mem_parts {limit : Nat} {registry : Registry} {d part : TypeDef}
    {resolved : Resolved} (h : d.SimpleOptions limit registry)
    (resolves : d.resolve limit registry = .ok resolved) (hpart : part ∈ resolved.parts) :
    part.SimpleOptions limit registry := by
  obtain ⟨step, hchild⟩ := exists_child_of_mem_parts resolves hpart
  exact h.child hchild

/-- Options are simple at every position if they are at the top and inside each part. -/
theorem SimpleOptions.of_parts {limit : Nat} {registry : Registry} {d : TypeDef}
    {resolved : Resolved} (resolves : d.resolve limit registry = .ok resolved)
    (hoptions : ∀ choice ∈ resolved.definition.options.getD [], choice.value.IsSimple)
    (hparts : ∀ part ∈ resolved.parts, part.SimpleOptions limit registry) :
    d.SimpleOptions limit registry := by
  intro path part resolved' choices hpath
  cases path with
  | nil =>
      cases hpath
      intro resolves' _ hchoices choice hchoice
      cases resolves.symm.trans resolves'
      refine hoptions choice ?_
      rw [options_of_choices hchoices]
      exact hchoice
  | cons step path =>
      rw [atPath] at hpath
      obtain ⟨part', hchild, hrest⟩ := bind_eq_ok_iff.mp hpath
      exact hparts part' (mem_parts_of_child resolves hchild) path part resolved' choices hrest

end TypeDef

end ValueSchema
