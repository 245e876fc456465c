import ValueSchema.Proofs.Position
import ValueSchema.Proofs.Resolution
import ValueSchema.Proofs.Simulation.Operations

/-! # Expansion of references

An expansion needs no registry, and no operation tells it from the definition. -/

namespace ValueSchema

/-- The definition with its mark as a field set anew. -/
def TypeDef.withRequired (d : TypeDef) (required : Option Bool) : TypeDef := { d with required }

theorem TypeDef.withRequired_self (d : TypeDef) : d.withRequired d.required = d := by
  cases d
  rfl

namespace Resolved

/-- The resolved definition with other parts. A field stays required or not as it was declared. -/
def replaceParts (resolved : Resolved) (replace : TypeDef → TypeDef) : TypeDef :=
  { resolved.definition with
    ofType :=
      match resolved.kind with
      | .arrayOf | .objectOf => resolved.definition.ofType.map replace
      | _ => resolved.definition.ofType
    fields :=
      match resolved.kind with
      | .shape => resolved.definition.fields.map
          (Record.map fun field => (replace field).withRequired field.required)
      | _ => resolved.definition.fields }

theorem replaceParts_congr {resolved : Resolved} {f g : TypeDef → TypeDef}
    (h : ∀ part ∈ resolved.parts, f part = g part) :
    resolved.replaceParts f = resolved.replaceParts g := by
  have hfields : ∀ fields : Record TypeDef, (∀ entry ∈ fields.toList, f entry.2 = g entry.2) →
      fields.map (fun field => (f field).withRequired field.required) =
        fields.map fun field => (g field).withRequired field.required := by
    intro fields hentries
    apply Record.ext_toList
    rw [Record.toList_map, Record.toList_map]
    refine List.map_congr_left fun entry hentry => ?_
    rw [hentries entry hentry]
  unfold parts at h
  unfold replaceParts
  cases hkind : resolved.kind with
  | arrayOf | objectOf =>
      cases helement : resolved.definition.ofType with
      | none => rfl
      | some element => simp_all
  | shape =>
      cases hdeclared : resolved.definition.fields with
      | none => rfl
      | some declared =>
          rw [hkind] at h
          simp only [Option.map_some]
          rw [hfields declared fun entry hentry => h entry.2 ?_]
          simpa [hdeclared] using ⟨entry.1, hentry⟩
  | _ => rfl

end Resolved

/-- The second definition is the first one with all references resolved, at every level. One
function expands all parts, because a part has no more than one expansion. -/
inductive Expansion (limit : Nat) (registry : Registry) : TypeDef → TypeDef → Prop
  | intro {d : TypeDef} {resolved : Resolved} (resolves : d.resolve limit registry = .ok resolved)
      (expand : TypeDef → TypeDef)
      (parts : ∀ part ∈ resolved.parts, Expansion limit registry part (expand part)) :
      Expansion limit registry d (resolved.replaceParts expand)

theorem Expansion.of_leaf {limit : Nat} {registry : Registry} {d : TypeDef} (resolved : Resolved)
    (resolves : d.resolve limit registry = .ok resolved) (hparts : resolved.parts = []) :
    Expansion limit registry d (resolved.replaceParts id) := by
  refine .intro resolves id fun part hpart => ?_
  rw [hparts] at hpart
  cases hpart

theorem Expansion.of_single {limit : Nat} {registry : Registry} {d part part' : TypeDef}
    (resolved : Resolved) (resolves : d.resolve limit registry = .ok resolved)
    (hparts : resolved.parts = [part]) (h : Expansion limit registry part part') :
    Expansion limit registry d (resolved.replaceParts fun _ => part') := by
  refine .intro resolves _ fun other hother => ?_
  rw [hparts, List.mem_singleton] at hother
  rwa [hother]

theorem Expansion.unique {limit : Nat} {registry : Registry} {d expanded expanded' : TypeDef}
    (h : Expansion limit registry d expanded) (h' : Expansion limit registry d expanded') :
    expanded = expanded' := by
  induction h generalizing expanded' with
  | intro resolves expand hparts ih =>
      cases h' with
      | intro resolves' expand' hparts' =>
          obtain rfl := Except.ok.inj (resolves.symm.trans resolves')
          exact Resolved.replaceParts_congr fun part hpart => ih part hpart (hparts' part hpart)

/-- The expansion of a part, marked as required in any way: a field keeps its own mark. -/
def ExpandsTo (limit : Nat) (registry : Registry) (d d' : TypeDef) : Prop :=
  ∃ expanded required, Expansion limit registry d expanded ∧ d' = expanded.withRequired required

theorem Expansion.expandsTo {limit : Nat} {registry : Registry} {d expanded : TypeDef}
    (h : Expansion limit registry d expanded) : ExpandsTo limit registry d expanded :=
  ⟨expanded, expanded.required, h, expanded.withRequired_self.symm⟩

theorem Similar.of_replaceParts {limit : Nat} {registry : Registry} {resolved : Resolved}
    {expand : TypeDef → TypeDef} (required : Option Bool)
    (hparts : ∀ part ∈ resolved.parts, Expansion limit registry part (expand part)) :
    Similar (ExpandsTo limit registry) resolved
      ⟨resolved.kind, (resolved.replaceParts expand).withRequired required,
        resolved.kind_eq⟩ where
  kind_eq := rfl
  notNull_eq := rfl
  options_eq := rfl
  name_eq := rfl
  ofType := by
    intro kind
    have hofType : ((resolved.replaceParts expand).withRequired required).ofType =
        resolved.definition.ofType.map expand := by
      rcases kind with kind | kind <;>
        simp only [TypeDef.withRequired, Resolved.replaceParts, kind]
    dsimp only
    rw [hofType]
    cases helement : resolved.definition.ofType with
    | none => exact .none
    | some element =>
        refine .some (hparts element ?_).expandsTo
        rcases kind with kind | kind <;> simp [Resolved.parts, kind, helement]
  fields := by
    intro kind
    have hfields : ((resolved.replaceParts expand).withRequired required).fields =
        resolved.definition.fields.map
          (Record.map fun field => (expand field).withRequired field.required) := by
      simp only [TypeDef.withRequired, Resolved.replaceParts, kind]
    dsimp only
    rw [hfields]
    cases hdeclared : resolved.definition.fields with
    | none => exact .none
    | some declared =>
        refine .some ?_
        rw [Record.Related, Record.toList_map, List.forall₂_map_right_iff]
        refine List.forall₂_same.mpr fun entry hentry => ⟨rfl, rfl, ?_⟩
        refine ⟨expand entry.2, entry.2.required, hparts entry.2 ?_, rfl⟩
        simp only [Resolved.parts, kind, hdeclared]
        simpa using ⟨entry.1, hentry⟩

/-- Expansion is a simulation, from any registry to none. -/
theorem isSimulation_expandsTo (aside : Failure → Prop) (limit : Nat) (registry : Registry) :
    IsSimulation aside limit limit registry ∅ (ExpandsTo limit registry) := by
  rintro d _ ⟨_, required, @⟨_, resolved, resolves, expand, hparts⟩, rfl⟩
  have hkind : ((resolved.replaceParts expand).withRequired required).kind =
      .builtin resolved.kind := resolved.kind_eq
  rw [resolves, TypeDef.resolve_of_builtin hkind]
  exact .ok (.of_replaceParts required hparts)

/-- Nothing is lost by expanding the references of a definition and forgetting the registry:
every operation returns the same result or fails alike, whichever of its operands is expanded. -/
theorem operations_of_expansion {limit : Nat} {registry : Registry} {d expanded : TypeDef}
    (h : Expansion limit registry d expanded) :
    (∀ value : Json, value.validate limit ∅ expanded = value.validate limit registry d) ∧
    expanded.signature limit ∅ = d.signature limit registry ∧
    (∀ filling, expanded.defaultValue limit ∅ filling = d.defaultValue limit registry filling) ∧
    ∀ (other : TypeDef) (otherRegistry : Registry),
      expanded.equivalent limit ∅ otherRegistry other =
        d.equivalent limit registry otherRegistry other ∧
      other.equivalent limit otherRegistry ∅ expanded =
        other.equivalent limit otherRegistry registry d ∧
      expanded.compatible limit ∅ otherRegistry other =
        d.compatible limit registry otherRegistry other ∧
      other.compatible limit otherRegistry ∅ expanded =
        other.compatible limit otherRegistry registry d ∧
      ∀ value : Json,
        value.coerce limit ∅ otherRegistry expanded other =
          value.coerce limit registry otherRegistry d other ∧
        value.coerce limit otherRegistry ∅ other expanded =
          value.coerce limit otherRegistry registry other d := by
  have sim := isSimulation_expandsTo (fun _ => False) limit registry
  have hrel := h.expandsTo
  have room : Room (fun _ => False) limit limit limit limit := .alike rfl limit
  refine ⟨?_, ?_, ?_, ?_⟩
  · intro value
    exact (refines_check sim value d expanded _ hrel).eq.symm
  · exact (refines_signatureWithin sim room d expanded hrel).eq.symm
  · intro filling
    exact (refines_defaultWithin sim room filling hrel).eq.symm
  · intro other otherRegistry
    have same := IsSimulation.refl (fun _ => False) limit otherRegistry
    refine ⟨?_, ?_, ?_, ?_, fun value => ⟨?_, ?_⟩⟩
    · exact (refines_equivalentWithin sim same room hrel rfl).eq.symm
    · exact (refines_equivalentWithin same sim room rfl hrel).eq.symm
    · exact (refines_compatibleWithin sim same room hrel rfl).eq.symm
    · exact (refines_compatibleWithin same sim room rfl hrel).eq.symm
    · exact (refines_coerce sim same value d expanded other other hrel rfl).eq.symm
    · exact (refines_coerce same sim value other other d expanded rfl hrel).eq.symm

section Directory

/-- Entries that refer to each other; a tag goes through two of them. -/
def people : Registry := .ofList
  [("identifier", .builtin .int), ("label", .builtin .string), ("tag", .reference "label"),
    ("person", .shape [("id", (TypeDef.reference "identifier").asRequired),
      ("tags", .arrayOf (.reference "tag"))])]

def directory : TypeDef := .objectOf (TypeDef.reference "person").asNotNull

def expandedDirectory : TypeDef :=
  .objectOf (TypeDef.shape [("id", (TypeDef.builtin .int).asRequired),
    ("tags", .arrayOf (.builtin .string))]).asNotNull

theorem expansion_directory : Expansion 4 people directory expandedDirectory := by
  have hid : Expansion 4 people (TypeDef.reference "identifier").asRequired
      (TypeDef.builtin .int).asRequired :=
    .of_leaf ⟨.int, (TypeDef.builtin .int).asRequired, rfl⟩ rfl rfl
  have htag : Expansion 4 people (.reference "tag") (.builtin .string) :=
    .of_leaf ⟨.string, .builtin .string, rfl⟩ rfl rfl
  have htags : Expansion 4 people (.arrayOf (.reference "tag")) (.arrayOf (.builtin .string)) :=
    .of_single ⟨.arrayOf, .arrayOf (.reference "tag"), rfl⟩ rfl rfl htag
  have hperson : Expansion 4 people (TypeDef.reference "person").asNotNull
      (TypeDef.shape [("id", (TypeDef.builtin .int).asRequired),
        ("tags", .arrayOf (.builtin .string))]).asNotNull := by
    -- The reference lays its own attribute over those of the entry.
    have resolves : (TypeDef.reference "person").asNotNull.resolve 4 people =
        .ok ⟨.shape, (TypeDef.shape [("id", (TypeDef.reference "identifier").asRequired),
          ("tags", .arrayOf (.reference "tag"))]).asNotNull, rfl⟩ := rfl
    refine .intro resolves (fun part => if part.ofType.isSome then .arrayOf (.builtin .string)
      else (TypeDef.builtin .int).asRequired) fun part hpart => ?_
    rcases List.mem_pair.mp hpart with rfl | rfl
    · exact hid
    · exact htags
  exact .of_single ⟨.objectOf, directory, rfl⟩ rfl rfl hperson

theorem operations_of_expansion_directory :
    Expansion 4 people directory expandedDirectory ∧
    expandedDirectory.signature 4 ∅ = directory.signature 4 people ∧
    directory.signature 4 people = .ok "objectOf(shape(id*:int, tags:arrayOf(string))!)" ∧
    (Json.array [.null]).validate 4 ∅ expandedDirectory =
      (Json.array [.null]).validate 4 people directory ∧
    directory.compatible 4 people ∅ expandedDirectory = .ok true := by
  obtain ⟨hvalidate, hsignature, -, hpairs⟩ := operations_of_expansion expansion_directory
  refine ⟨expansion_directory, hsignature, ?_, hvalidate _, ?_⟩
  · rw [← hsignature]
    decide +kernel
  · rw [← (hpairs expandedDirectory ∅).2.2.1]
    decide +kernel

end Directory

end ValueSchema
