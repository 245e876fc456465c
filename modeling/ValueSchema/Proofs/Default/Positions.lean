import ValueSchema.Default
import ValueSchema.Proofs.Position

/-! # Defaults that are filled in throughout -/

namespace ValueSchema

/-! ## One level -/

/-- The default of a resolved definition if everything is filled in, with those of its fields left
to a relation. -/
inductive Resolved.FilledIn (parts : TypeDef → Json → Prop) (resolved : Resolved) : Json → Prop
  | childless {value : Json} (kind : resolved.kind ∉ [.oneOf, .shape, .func, .component])
      (present : value ≠ .null) (childless : ∀ step, value.child? step = none) :
      FilledIn parts resolved value
  | absent (kind : resolved.kind = .func ∨ resolved.kind = .component) :
      FilledIn parts resolved .null
  | option {choices : { choices : List Choice // choices ≠ [] }} (kind : resolved.kind = .oneOf)
      (hchoices : resolved.definition.choices = .ok choices) :
      FilledIn parts resolved (choices.val.head choices.property).value
  | fields {declared : Record TypeDef} {members : Record Json} (kind : resolved.kind = .shape)
      (hdeclared : resolved.definition.declaredFields = .ok declared)
      (each : declared.Related parts members) : FilledIn parts resolved (.object members)

theorem filledIn_of_defaultWithin {limit depth : Nat} {registry : Registry} {d : TypeDef}
    {resolved : Resolved} (resolves : d.resolve limit registry = .ok resolved) {value : Json}
    (h : d.defaultWithin limit registry (depth + 1) .deep = .ok value) :
    resolved.FilledIn
      (fun part value => part.defaultWithin limit registry depth .deep = .ok value) value := by
  rw [TypeDef.defaultWithin, resolves, ok_bind] at h
  dsimp only at h
  cases kind : resolved.kind <;>
    simp only [kind, Filling.deep, Bool.or_true, if_true, pure_eq_ok, Except.ok.injEq] at h
  case oneOf =>
    obtain ⟨choices, hchoices, h⟩ := bind_eq_ok_iff.mp h
    cases h
    exact .option kind hchoices
  case shape =>
    obtain ⟨declared, hdeclared, h⟩ := bind_eq_ok_iff.mp h
    obtain ⟨members, hmembers, rfl⟩ := map_eq_ok_iff.mp h
    exact .fields kind hdeclared (Record.mapM_eq_ok_iff.mp hmembers)
  case func | component =>
    subst h
    exact .absent (by simp [kind])
  all_goals
    subst h
    refine .childless (by simp [kind]) (by simp) fun step => ?_
    cases step <;> rfl

/-- A default is that of a resolved definition, with the defaults of its fields one level below. -/
theorem exists_filledIn_of_defaultWithin {limit depth : Nat} {registry : Registry} {d : TypeDef}
    {value : Json} (h : d.defaultWithin limit registry depth .deep = .ok value) :
    ∃ resolved below, d.resolve limit registry = .ok resolved ∧
      resolved.FilledIn
        (fun part value => part.defaultWithin limit registry below .deep = .ok value) value := by
  cases depth with
  | zero => cases h
  | succ depth =>
      obtain ⟨resolved, resolves, -⟩ := bind_eq_ok_iff.mp h
      exact ⟨resolved, depth, resolves, filledIn_of_defaultWithin resolves h⟩

namespace Resolved.FilledIn

variable {parts : TypeDef → Json → Prop} {resolved : Resolved} {value : Json}

theorem exists_choices (h : FilledIn parts resolved value) (kind : resolved.kind = .oneOf) :
    ∃ choices, resolved.definition.choices = .ok choices ∧
      value = (choices.val.head choices.property).value := by
  cases h with
  | option _ hchoices => exact ⟨_, hchoices, rfl⟩
  | childless kind' | absent kind' | fields kind' => simp [kind] at kind'

theorem exists_fields (h : FilledIn parts resolved value) (kind : resolved.kind = .shape) :
    ∃ declared members, resolved.definition.declaredFields = .ok declared ∧
      value = .object members ∧ declared.Related parts members := by
  cases h with
  | fields _ hdeclared each => exact ⟨_, _, hdeclared, rfl, each⟩
  | childless kind' | absent kind' | option kind' => simp [kind] at kind'

theorem kind_of_null (h : FilledIn parts resolved .null) :
    (resolved.kind = .func ∨ resolved.kind = .component) ∨ resolved.kind = .oneOf := by
  generalize hvalue : Json.null = value at h
  cases h with
  | childless _ present => exact absurd hvalue.symm present
  | absent kind => exact .inl kind
  | option kind => exact .inr kind
  | fields => cases hvalue

/-- A child of a default belongs to an option or is the default of a field. -/
theorem child_cases (h : FilledIn parts resolved value) {limit : Nat} {registry : Registry}
    {d : TypeDef} (resolves : d.resolve limit registry = .ok resolved) {step : Step} {child : Json}
    (hchild : value.child? step = some child) :
    resolved.kind = .oneOf ∨
      ∃ part, d.child limit registry step = .ok part ∧ parts part child := by
  cases h with
  | childless _ _ childless => simp [childless] at hchild
  | absent => cases hchild
  | option kind => exact .inl kind
  | @fields declared members kind hdeclared each =>
      cases step with
      | index position => cases hchild
      | key name =>
          have hmember : members.get? name = some child := hchild
          obtain ⟨field, hfield, hpart⟩ := each.exists_left hmember
          exact .inr ⟨field, TypeDef.child_shape resolves kind hdeclared hfield, hpart⟩

end Resolved.FilledIn

/-! ## All levels -/

/-- A path leads to a definition that resolves to this one. -/
def TypeDef.ResolvesAt (limit : Nat) (registry : Registry) (d : TypeDef) (path : List Step)
    (resolved : Resolved) : Prop :=
  ∃ part, d.atPath limit registry path = .ok part ∧ part.resolve limit registry = .ok resolved

/-- A path leads to an option that is the default at its position, or from there into it. -/
inductive InsideOption (limit : Nat) (registry : Registry) (d : TypeDef) (value : Json) :
    List Step → Prop
  | intro {front : List Step} {resolved : Resolved}
      {choices : { choices : List Choice // choices ≠ [] }}
      (resolves : d.ResolvesAt limit registry front resolved) (kind : resolved.kind = .oneOf)
      (hchoices : resolved.definition.choices = .ok choices)
      (taken : value.at? front = some (choices.val.head choices.property).value)
      (rest : List Step) : InsideOption limit registry d value (front ++ rest)

section Positions

variable {limit depth : Nat} {registry : Registry} {d part : TypeDef} {resolved : Resolved}
  {value child found : Json} {step : Step} {path : List Step}

theorem TypeDef.ResolvesAt.of_child (hpart : d.child limit registry step = .ok part)
    (h : part.ResolvesAt limit registry path resolved) :
    d.ResolvesAt limit registry (step :: path) resolved := by
  obtain ⟨inner, hpath, resolves⟩ := h
  exact ⟨inner, (TypeDef.atPath_cons hpart path).trans hpath, resolves⟩

theorem TypeDef.ResolvesAt.unique {resolved' : Resolved}
    (h : d.ResolvesAt limit registry path resolved)
    (h' : d.ResolvesAt limit registry path resolved') : resolved = resolved' := by
  obtain ⟨part, hpath, resolves⟩ := h
  obtain ⟨part', hpath', resolves'⟩ := h'
  cases hpath.symm.trans hpath'
  exact Except.ok.inj (resolves.symm.trans resolves')

theorem InsideOption.of_child (hchild : value.child? step = some child)
    (hpart : d.child limit registry step = .ok part)
    (h : InsideOption limit registry part child path) :
    InsideOption limit registry d value (step :: path) := by
  cases h with
  | intro resolves kind hchoices taken rest =>
      refine .intro (resolves.of_child hpart) kind hchoices ?_ rest
      rw [Json.at?_cons, hchild, Option.bind_some, taken]

/-- No step leads from a type with options to another, so a path with a definition at its end ends
at the option itself. -/
theorem InsideOption.kind_eq_oneOf (h : InsideOption limit registry d value path)
    (hresolves : d.ResolvesAt limit registry path resolved) : resolved.kind = .oneOf := by
  cases h with
  | intro houter kind hchoices taken rest =>
      cases rest with
      | nil =>
          rw [List.append_nil] at hresolves
          rw [hresolves.unique houter, kind]
      | cons step rest =>
          obtain ⟨part, hpart, resolves⟩ := houter
          obtain ⟨inner, hinner, -⟩ := hresolves
          rw [TypeDef.atPath_append, hpart, ok_bind] at hinner
          obtain ⟨next, hnext, -⟩ := bind_eq_ok_iff.mp hinner
          have hmem := TypeDef.mem_parts_of_child resolves hnext
          simp [Resolved.parts, kind] at hmem

/-- Every part of a default is the default of the definition at its position or belongs to an
option. -/
theorem filledIn_or_insideOption (h : d.defaultWithin limit registry depth .deep = .ok value)
    (hfound : value.at? path = some found) :
    (∃ resolved parts, d.ResolvesAt limit registry path resolved ∧
      resolved.FilledIn parts found) ∨
    InsideOption limit registry d value path := by
  induction path generalizing d value depth with
  | nil =>
      cases hfound
      obtain ⟨resolved, below, resolves, hfilled⟩ := exists_filledIn_of_defaultWithin h
      exact .inl ⟨resolved, _, ⟨d, rfl, resolves⟩, hfilled⟩
  | cons step path ih =>
      obtain ⟨child, hchild, hfound⟩ := Option.bind_eq_some_iff.mp hfound
      obtain ⟨resolved, below, resolves, hfilled⟩ := exists_filledIn_of_defaultWithin h
      rcases hfilled.child_cases resolves hchild with kind | ⟨part, hpart, hdefault⟩
      · obtain ⟨choices, hchoices, rfl⟩ := hfilled.exists_choices kind
        have hresolves : d.ResolvesAt limit registry [] resolved := ⟨d, rfl, resolves⟩
        exact .inr (.intro hresolves kind hchoices rfl (step :: path))
      · rcases ih hdefault hfound with ⟨inner, parts, hinner, hfilled'⟩ | hinside
        · exact .inl ⟨inner, parts, hinner.of_child hpart, hfilled'⟩
        · exact .inr (hinside.of_child hchild hpart)

end Positions

/-- A default in which everything is filled in has `null` only at functions and components and
inside options. At a shape there is an object with the declared names in their order. -/
theorem deepDefault_nulls_unavoidable (limit : Nat) (registry : Registry) (d : TypeDef)
    (value : Json) (h : d.defaultValue limit registry .deep = .ok value) :
    (∀ path, value.at? path = some .null →
      (∃ resolved, d.ResolvesAt limit registry path resolved ∧
        (resolved.kind = .func ∨ resolved.kind = .component)) ∨
      InsideOption limit registry d value path) ∧
    ∀ path resolved found, d.ResolvesAt limit registry path resolved → resolved.kind = .shape →
      value.at? path = some found →
        ∃ declared members, resolved.definition.fields = some declared ∧
          found = .object members ∧ members.names = declared.names := by
  refine ⟨fun path hnull => ?_, fun path resolved found hresolves kind hfound => ?_⟩
  · rcases filledIn_or_insideOption h hnull with ⟨resolved, parts, hresolves, hfilled⟩ | hinside
    · rcases hfilled.kind_of_null with kind | kind
      · exact .inl ⟨resolved, hresolves, kind⟩
      · -- The option itself is `null`.
        obtain ⟨choices, hchoices, hoption⟩ := hfilled.exists_choices kind
        have hinside := InsideOption.intro hresolves kind hchoices (hoption ▸ hnull) []
        exact .inr (List.append_nil path ▸ hinside)
    · exact .inr hinside
  · rcases filledIn_or_insideOption h hfound with ⟨resolved', parts, hresolves', hfilled⟩ | hinside
    · cases hresolves.unique hresolves'
      obtain ⟨declared, members, hdeclared, rfl, each⟩ := hfilled.exists_fields kind
      exact ⟨declared, members, TypeDef.fields_of_declaredFields hdeclared, rfl,
        each.names_eq.symm⟩
    · simp [hinside.kind_eq_oneOf hresolves] at kind

section Widget

/-- The frame of a widget is filled in although it may be `null`. Its children are an empty array,
so the widget ends there. -/
def widgetTypes : Registry := .ofList
  [("handler", .builtin .func), ("margin", .oneOf [.array [.null, .number .zero], .string "auto"]),
    ("frame", (TypeDef.shape
      [("style", .builtin .object), ("margin", .reference "margin")]).asNotNull),
    ("widget", .shape
      [("frame", { TypeDef.reference "frame" with notNull := some false }),
        ("onClick", .reference "handler"), ("children", .arrayOf (.reference "widget"))])]

def widget : TypeDef := .reference "widget"

def freshWidget : Json := .object (.ofList
  [("frame", .object (.ofList
      [("style", .object ∅), ("margin", .array [.null, .number .zero])])),
    ("onClick", .null), ("children", .array [])])

/-- The margin has its `null` from the option that is taken. -/
theorem deepDefault_nulls_unavoidable_widget :
    widget.defaultValue 3 widgetTypes .deep = .ok freshWidget ∧
    freshWidget.at? [.key "frame", .key "margin", .index 0] = some .null ∧
    InsideOption 3 widgetTypes widget freshWidget [.key "frame", .key "margin", .index 0] ∧
    ∃ members, freshWidget.at? [.key "frame"] = some (.object members) ∧
      members.names = ["style", "margin"] := by
  have hdefault : widget.defaultValue 3 widgetTypes .deep = .ok freshWidget := rfl
  have hnull : freshWidget.at? [.key "frame", .key "margin", .index 0] = some .null := rfl
  obtain ⟨hnulls, hshapes⟩ :=
    deepDefault_nulls_unavoidable 3 widgetTypes widget freshWidget hdefault
  refine ⟨hdefault, hnull, ?_, ?_⟩
  · rcases hnulls _ hnull with ⟨resolved, ⟨part, hpart, -⟩, -⟩ | hinside
    · have hstuck : widget.atPath 3 widgetTypes [.key "frame", .key "margin", .index 0] =
          .error (.incompatibleStep .oneOf (.index 0)) := rfl
      cases hstuck.symm.trans hpart
    · exact hinside
  · obtain ⟨declared, members, hdeclared, hmembers, hnames⟩ :=
      hshapes [.key "frame"] _ _ ⟨_, rfl, rfl⟩ rfl rfl
    cases hdeclared
    exact ⟨members, congrArg some hmembers, hnames⟩

end Widget

end ValueSchema
