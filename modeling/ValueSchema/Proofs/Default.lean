import ValueSchema.Default
import ValueSchema.Proofs.Conformance.Equations
import ValueSchema.Proofs.Position

/-! # Default values conform

A default is filled in along the definition, and its check follows the value. The two meet level
by level. -/

namespace ValueSchema

/-- A definition that is reached lacks the element type that its kind needs. -/
inductive MissingElement (limit : Nat) (registry : Registry) (d : TypeDef) : Failure → Prop
  | intro {path : List Step} {part : TypeDef} {resolved : Resolved}
      (reached : d.atPath limit registry path = .ok part)
      (resolves : part.resolve limit registry = .ok resolved)
      (kind : resolved.kind = .arrayOf ∨ resolved.kind = .objectOf)
      (absent : resolved.definition.ofType = none) :
      MissingElement limit registry d
        (.invalidDefinition (.builtin resolved.kind) .missingElementType)

theorem MissingElement.of_child {limit : Nat} {registry : Registry} {d part : TypeDef} {step : Step}
    {failure : Failure} (hchild : d.child limit registry step = .ok part)
    (h : MissingElement limit registry part failure) : MissingElement limit registry d failure := by
  cases h with
  | intro reached resolves kind absent =>
      exact .intro ((TypeDef.atPath_cons hchild _).trans reached) resolves kind absent

/-- The check of a default succeeds, or it fails where an element type is missing. -/
def AcceptsDefault (limit : Nat) (registry : Registry) (d : TypeDef) :
    Except Failure Report → Prop :=
  Yields (· = .success) (MissingElement limit registry d)

/-! ## One level -/

section Level

variable {limit : Nat} {registry : Registry} {d : TypeDef} {resolved : Resolved}
  (resolves : d.resolve limit registry = .ok resolved)

include resolves

theorem yields_element_or_missing (kind : resolved.kind = .arrayOf ∨ resolved.kind = .objectOf) :
    Yields (fun _ => True) (MissingElement limit registry d) resolved.definition.element := by
  have reached : d.atPath limit registry [] = .ok d := rfl
  refine (Resolved.yields_element kind).mono (fun _ _ => trivial) ?_
  intro failure hlacks
  cases hlacks with
  | element kind absent => exact .intro reached resolves kind absent
  | fields kind' absent | options kind' absent | noOptions kind' empty => simp [kind'] at kind

theorem acceptsDefault_plain {value : Json} (plain : resolved.kind.isPlain = true)
    (admits : resolved.kind.admits value = true) (path : String) :
    AcceptsDefault limit registry d (value.check limit registry d path) := by
  rw [Json.check_of_isPlain resolves plain admits]
  rfl

theorem acceptsDefault_null (nullable : resolved.kind.isNullable = true)
    (admitted : resolved.definition.isNotNull = false) (path : String) :
    AcceptsDefault limit registry d (Json.null.check limit registry d path) := by
  rw [Json.check_of_resolve resolves]
  simp [nullable, admitted, Json.isNull, AcceptsDefault, Yields]

theorem acceptsDefault_option {choices : { choices : List Choice // choices ≠ [] }}
    (kind : resolved.kind = .oneOf) (hchoices : resolved.definition.choices = .ok choices)
    (path : String) :
    AcceptsDefault limit registry d
      ((choices.val.head choices.property).value.check limit registry d path) := by
  have hany : (choices.val.any fun choice =>
      choice.value.valueEq (choices.val.head choices.property).value) = true :=
    List.any_eq_true.mpr ⟨_, List.head_mem choices.property, Json.valueEq_self _⟩
  rw [Json.check_of_resolve resolves, Check.options_of_choices hchoices, hany]
  simp [kind, Builtin.isNullable, AcceptsDefault, Yields]

theorem acceptsDefault_emptyArray (kind : resolved.kind = .arrayOf) (path : String) :
    AcceptsDefault limit registry d ((Json.array []).check limit registry d path) := by
  rw [Json.check_of_admits resolves (by simp [kind]) (by rw [kind]; rfl), Check.parts_arrayOf kind]
  exact (yields_element_or_missing resolves (.inl kind)).bind fun element _ => rfl

theorem acceptsDefault_emptyObject (kind : resolved.kind = .objectOf) (path : String) :
    AcceptsDefault limit registry d ((Json.object ∅).check limit registry d path) := by
  rw [Json.check_of_admits resolves (by simp [kind]) (by rw [kind]; rfl), Check.parts_objectOf kind]
  exact (yields_element_or_missing resolves (.inr kind)).bind fun element _ => rfl

/-- A shape with a default for each of its fields lacks none. -/
theorem acceptsDefault_fields {declared : Record TypeDef} {members : Record Json}
    (kind : resolved.kind = .shape) (hdeclared : resolved.definition.declaredFields = .ok declared)
    (hmembers : declared.Related (fun field item => ∀ path,
      AcceptsDefault limit registry field (item.check limit registry field path)) members)
    (path : String) :
    AcceptsDefault limit registry d ((Json.object members).check limit registry d path) := by
  rw [Json.check_of_admits resolves (by simp [kind]) (by rw [kind]; rfl), Check.parts_shape kind,
    hdeclared, ok_bind]
  apply Yields.map
  · apply Yields.mapM
    intro entry hentry
    obtain ⟨item, hitem, haccepts⟩ := hmembers.exists_right hentry
    have hchild : d.child limit registry (.key entry.1) = .ok entry.2 :=
      TypeDef.child_shape resolves kind hdeclared (Record.get?_eq_some_iff.mpr hentry)
    simp only [Record.get?_eq_some_iff.mpr hitem]
    exact (haccepts _).mono (fun _ h => h) fun failure h => h.of_child hchild
  · intro reports hreports
    exact Report.join_eq_success (forall_of_forall₂ hreports fun _ _ _ h => h)

end Level

/-! ## All levels -/

theorem acceptsDefault_of_defaultWithin {limit : Nat} {registry : Registry} {depth : Nat}
    {filling : Filling} {d : TypeDef} {value : Json}
    (h : d.defaultWithin limit registry depth filling = .ok value) (path : String) :
    AcceptsDefault limit registry d (value.check limit registry d path) := by
  induction depth generalizing filling d value path with
  | zero => cases h
  | succ depth ih =>
      rw [TypeDef.defaultWithin] at h
      obtain ⟨resolved, resolves, h⟩ := bind_eq_ok_iff.mp h
      -- A type is left unfilled only if its own definition does not ask for a value.
      have hnull : resolved.kind.isNullable = true →
          ¬(resolved.definition.isNotNull || filling.nonNull) = true →
            AcceptsDefault limit registry d (Json.null.check limit registry d path) := by
        intro nullable hunfilled
        have admitted : resolved.definition.isNotNull = false := by simp_all
        exact acceptsDefault_null resolves nullable admitted path
      cases kind : resolved.kind with
      | string | scalar | bool | int | float | array | func | component =>
          simp only [kind, pure_eq_ok, Except.ok.injEq] at h
          subst h
          exact acceptsDefault_plain resolves (by rw [kind]; rfl) (by rw [kind]; rfl) path
      | oneOf =>
          simp only [kind, bind_eq_ok_iff, pure_eq_ok, Except.ok.injEq] at h
          obtain ⟨choices, hchoices, rfl⟩ := h
          exact acceptsDefault_option resolves kind hchoices path
      | arrayOf =>
          simp only [kind, pure_eq_ok, Except.ok.injEq] at h
          subst h
          exact acceptsDefault_emptyArray resolves kind path
      | object =>
          simp only [kind, pure_eq_ok, Except.ok.injEq] at h
          split at h
          · subst h
            exact acceptsDefault_plain resolves (by rw [kind]; rfl) (by rw [kind]; rfl) path
          · next hunfilled =>
              subst h
              exact hnull (by rw [kind]; rfl) hunfilled
      | objectOf =>
          simp only [kind, pure_eq_ok, Except.ok.injEq] at h
          split at h
          · subst h
            exact acceptsDefault_emptyObject resolves kind path
          · next hunfilled =>
              subst h
              exact hnull (by rw [kind]; rfl) hunfilled
      | shape =>
          simp only [kind] at h
          split at h
          · simp only [bind_eq_ok_iff, map_eq_ok_iff] at h
            obtain ⟨declared, hdeclared, members, hmembers, rfl⟩ := h
            have hrelated : declared.Related (fun field item => ∀ path,
                AcceptsDefault limit registry field (item.check limit registry field path))
                members :=
              (Record.mapM_eq_ok_iff.mp hmembers).imp_of_mem fun _ _ _ hitem => ih hitem
            exact acceptsDefault_fields resolves kind hdeclared hrelated path
          · next hunfilled =>
              cases h
              exact hnull (by rw [kind]; rfl) hunfilled

/-- A default value conforms to its definition, whatever is filled in. Where the check of one
fails, an element type is missing. -/
theorem defaultValue_conforms (limit : Nat) (registry : Registry) (filling : Filling) (d : TypeDef)
    (value : Json) (h : d.defaultValue limit registry filling = .ok value) :
    value.validate limit registry d = .ok .success ∨
      ∃ path part resolved defect, d.atPath limit registry path = .ok part ∧
        part.resolve limit registry = .ok resolved ∧
        (resolved.kind = .arrayOf ∨ resolved.kind = .objectOf) ∧
        resolved.definition.ofType = none ∧ Defect.message defect = "missing ofType" ∧
        value.validate limit registry d =
          .error (.invalidDefinition (.builtin resolved.kind) defect) := by
  have haccepts := acceptsDefault_of_defaultWithin h (pathText [])
  unfold Json.validate
  cases hcheck : value.check limit registry d (pathText []) with
  | ok report =>
      rw [hcheck] at haccepts
      exact .inl (congrArg _ haccepts)
  | error failure =>
      rw [hcheck] at haccepts
      cases haccepts with
      | intro reached resolves kind absent =>
          exact .inr ⟨_, _, _, _, reached, resolves, kind, absent, rfl, rfl⟩

section Node

def negativeZero : Json := .number (.float { Binary64.zero with negative := true })

/-- A node refers to itself, directly and in its children. -/
def nodes : Registry := .ofList
  [("level", .oneOf [negativeZero, .string "top"]),
    ("node", .shape [("level", (TypeDef.reference "level").asRequired),
      ("parent", .reference "node"), ("children", .arrayOf (.reference "node"))])]

def node : TypeDef := (TypeDef.reference "node").asNotNull

/-- The parent is not filled in, so the default of a node ends there. -/
def freshNode : Json := .object (.ofList
  [("level", negativeZero), ("parent", .null), ("children", .array [])])

theorem defaultValue_conforms_node :
    node.defaultValue 3 nodes .nullable = .ok freshNode ∧
    freshNode.validate 3 nodes node = .ok .success := by
  have hdefault : node.defaultValue 3 nodes .nullable = .ok freshNode := rfl
  refine ⟨hdefault, ?_⟩
  rcases defaultValue_conforms 3 nodes .nullable node freshNode hdefault with
    hvalid | ⟨_, _, _, _, -, -, -, -, -, hinvalid⟩
  · exact hvalid
  · cases hinvalid

/-- An empty array is the default even if the type of its items is missing. -/
example : (TypeDef.builtin .arrayOf).defaultValue 3 ∅ .outermost = .ok (.array []) ∧
    (Json.array []).validate 3 ∅ (.builtin .arrayOf) =
      .error (.invalidDefinition (.builtin .arrayOf) .missingElementType) :=
  ⟨rfl, rfl⟩

end Node

end ValueSchema
