import ValueSchema.Proofs.Signature.Rules
import ValueSchema.Proofs.Simulation.Growth

/-! # How far a signature reaches -/

namespace ValueSchema

/-! ## Attributes that are there -/

/-- The attribute that the kind needs is there. -/
structure Resolved.IsEquipped (resolved : Resolved) : Prop where
  ofType : resolved.kind = .arrayOf ∨ resolved.kind = .objectOf →
    ∃ element, resolved.definition.ofType = some element
  fields : resolved.kind = .shape → ∃ fields, resolved.definition.fields = some fields
  options : resolved.kind = .oneOf →
    ∃ first rest, resolved.definition.options = some (first :: rest)

namespace Resolved.IsEquipped

variable {resolved : Resolved} (h : resolved.IsEquipped)

include h

theorem exists_element (kind : resolved.kind = .arrayOf ∨ resolved.kind = .objectOf) :
    ∃ element, resolved.definition.element = .ok element := by
  obtain ⟨element, helement⟩ := h.ofType kind
  exact ⟨element, by rw [TypeDef.element, helement]⟩

theorem exists_declaredFields (kind : resolved.kind = .shape) :
    ∃ fields, resolved.definition.declaredFields = .ok fields := by
  obtain ⟨fields, hfields⟩ := h.fields kind
  exact ⟨fields, by rw [TypeDef.declaredFields, hfields]⟩

theorem exists_choices (kind : resolved.kind = .oneOf) :
    ∃ choices, resolved.definition.choices = .ok choices := by
  obtain ⟨first, rest, hoptions⟩ := h.options kind
  exact ⟨⟨first :: rest, by simp⟩, by simp only [TypeDef.choices, hoptions]⟩

end Resolved.IsEquipped

namespace Resolved.Details

variable {parts : TypeDef → String → Prop} {resolved : Resolved} {details : String}

/-- The details of a kind show the attribute that it needs. -/
theorem isEquipped (h : Details parts resolved details) : resolved.IsEquipped where
  ofType kind := by
    obtain ⟨element, -, helement, -⟩ := h.exists_element kind
    exact ⟨element, TypeDef.ofType_of_element helement⟩
  fields kind := by
    obtain ⟨fields, -, hfields, -⟩ := h.exists_fields kind
    exact ⟨fields, TypeDef.fields_of_declaredFields hfields⟩
  options kind := by
    obtain ⟨choices, hchoices, -⟩ := h.exists_choices kind
    obtain ⟨first, rest, hcons⟩ := List.exists_cons_of_ne_nil choices.property
    exact ⟨first, rest, by rw [TypeDef.options_of_choices hchoices, hcons]⟩

theorem exists_of_mem_parts (h : Details parts resolved details) {part : TypeDef}
    (hpart : part ∈ resolved.parts) : ∃ text, parts part text := by
  have hsigned : resolved.kind = .arrayOf ∨ resolved.kind = .objectOf →
      ∃ text, parts part text := by
    intro kind
    obtain ⟨element, text, helement, htext, -⟩ := h.exists_element kind
    rw [parts_of_element kind helement, List.mem_singleton] at hpart
    exact ⟨text, hpart ▸ htext⟩
  cases kind : resolved.kind with
  | arrayOf => exact hsigned (.inl kind)
  | objectOf => exact hsigned (.inr kind)
  | shape =>
      obtain ⟨fields, texts, hfields, each, -⟩ := h.exists_fields kind
      rw [parts_of_declaredFields kind hfields] at hpart
      obtain ⟨field, hfield, rfl⟩ := List.mem_map.mp hpart
      have heach : ∀ field ∈ fields.toList, ∃ text, parts field.2 text := by
        refine forall_of_forall₂ each.flip ?_
        rintro text field - ⟨part, hpart, -⟩
        exact ⟨part, hpart⟩
      exact heach field hfield
  | _ => simp [Resolved.parts, kind] at hpart

end Resolved.Details

/-! ## One level -/

section Level

variable {limit depth : Nat} {registry : Registry} {d : TypeDef} {resolved : Resolved}

/-- What is written of a definition is put together from the signatures of its parts. -/
theorem exists_signatureWithin_of_parts (resolves : d.resolve limit registry = .ok resolved)
    (equipped : resolved.IsEquipped)
    (hparts : ∀ part ∈ resolved.parts,
      ∃ text, part.signatureWithin limit registry depth = .ok text) :
    ∃ text, d.signatureWithin limit registry (depth + 1) = .ok text := by
  rw [TypeDef.signatureWithin, resolves, ok_bind]
  dsimp only
  cases kind : resolved.kind <;> simp only
  case oneOf =>
    obtain ⟨choices, hchoices⟩ := equipped.exists_choices kind
    simp [hchoices, pure_eq_ok]
  case arrayOf | objectOf =>
    obtain ⟨element, helement⟩ := equipped.exists_element (by simp [kind])
    obtain ⟨text, htext⟩ := hparts element (by simp [Resolved.parts_of_element _ helement, kind])
    simp [helement, htext, pure_eq_ok]
  case shape =>
    obtain ⟨fields, hfields⟩ := equipped.exists_declaredFields kind
    rw [Resolved.parts_of_declaredFields kind hfields, List.forall_mem_map] at hparts
    rw [hfields, ok_bind]
    refine Yields.exists_eq_ok (?_ : Yields (fun _ => True) _ _)
    refine (Yields.traverse fun field hfield => ?_).seq fun texts => ?_
    · obtain ⟨text, htext⟩ := hparts field hfield
      rw [htext]
      trivial
    · trivial
  all_goals simp [pure_eq_ok]

/-- A definition has a signature if it has what its kind needs and its parts have signatures one
level below. -/
theorem exists_signatureWithin_succ_iff (resolves : d.resolve limit registry = .ok resolved) :
    (∃ text, d.signatureWithin limit registry (depth + 1) = .ok text) ↔
      resolved.IsEquipped ∧
        ∀ part ∈ resolved.parts, ∃ text, part.signatureWithin limit registry depth = .ok text := by
  constructor
  · rintro ⟨text, htext⟩
    obtain ⟨resolved', details, resolves', hdetails, -⟩ := exists_details_of_signatureWithin htext
    cases resolves.symm.trans resolves'
    exact ⟨hdetails.isEquipped, fun part hpart => hdetails.exists_of_mem_parts hpart⟩
  · rintro ⟨equipped, hparts⟩
    exact exists_signatureWithin_of_parts resolves equipped hparts

end Level

/-! ## All levels -/

namespace TypeDef

/-- Every definition that a path leads to resolves and has what its kind needs, and the path has
fewer than `depth` steps. -/
def FitsWithin (limit : Nat) (registry : Registry) (depth : Nat) (d : TypeDef) : Prop :=
  ∀ (path : List Step) (part : TypeDef), d.atPath limit registry path = .ok part →
    path.length < depth ∧
      ∃ resolved, part.resolve limit registry = .ok resolved ∧ resolved.IsEquipped

section Levels

variable {limit depth : Nat} {registry : Registry} {d : TypeDef} {resolved : Resolved}

theorem FitsWithin.exists_resolve (h : d.FitsWithin limit registry depth) (path : List Step)
    (part : TypeDef) (hpath : d.atPath limit registry path = .ok part) :
    ∃ resolved, part.resolve limit registry = .ok resolved := by
  obtain ⟨-, resolved, resolves, -⟩ := h path part hpath
  exact ⟨resolved, resolves⟩

/-- One step leads one level down. -/
theorem fitsWithin_succ_iff (resolves : d.resolve limit registry = .ok resolved) :
    d.FitsWithin limit registry (depth + 1) ↔
      resolved.IsEquipped ∧ ∀ part ∈ resolved.parts, part.FitsWithin limit registry depth := by
  constructor
  · intro h
    refine ⟨?_, fun part hpart path part' hpath => ?_⟩
    · obtain ⟨-, resolved', resolves', equipped⟩ := h [] d rfl
      cases resolves.symm.trans resolves'
      exact equipped
    · obtain ⟨step, hchild⟩ := exists_child_of_mem_parts resolves hpart
      obtain ⟨hlength, hpart'⟩ := h (step :: path) part' (by rw [atPath_cons hchild, hpath])
      exact ⟨Nat.lt_of_succ_lt_succ hlength, hpart'⟩
  · rintro ⟨equipped, hparts⟩ path part hpath
    cases path with
    | nil =>
        cases hpath
        exact ⟨Nat.succ_pos depth, resolved, resolves, equipped⟩
    | cons step path =>
        obtain ⟨part', hchild, hrest⟩ := bind_eq_ok_iff.mp hpath
        obtain ⟨hlength, hpart⟩ :=
          hparts part' (mem_parts_of_child resolves hchild) path part hrest
        exact ⟨Nat.succ_lt_succ hlength, hpart⟩

theorem exists_signatureWithin_iff_fitsWithin :
    (∃ text, d.signatureWithin limit registry depth = .ok text) ↔
      d.FitsWithin limit registry depth := by
  induction depth generalizing d with
  | zero =>
      refine iff_of_false ?_ fun h => ?_
      · rintro ⟨text, htext⟩
        cases htext
      · exact Nat.not_lt_zero _ (h [] d rfl).1
  | succ depth ih =>
      cases resolves : d.resolve limit registry with
      | error failure =>
          refine iff_of_false ?_ fun h => ?_
          · rintro ⟨text, htext⟩
            simp [signatureWithin, resolves] at htext
          · obtain ⟨resolved, resolves'⟩ := h.exists_resolve [] d rfl
            simp [resolves] at resolves'
      | ok resolved =>
          rw [exists_signatureWithin_succ_iff resolves, fitsWithin_succ_iff resolves]
          simp only [ih]

end Levels

/-! ## Types inside themselves -/

/-- Somewhere in a definition is a type that is found again inside itself. It does not matter
which limit it takes to get there, and the two may be written differently as long as they resolve
to the same. -/
def Recurs (registry : Registry) (d : TypeDef) : Prop :=
  ∃ (limit : Nat) (path lap : List Step) (part inner : TypeDef), lap ≠ [] ∧
    d.atPath limit registry path = .ok part ∧ part.atPath limit registry lap = .ok inner ∧
      inner.resolve limit registry = part.resolve limit registry

section Laps

variable {limit limit' : Nat} {registry : Registry} {d d' part : TypeDef}

theorem child_congr (h : d.resolve limit registry = d'.resolve limit' registry) (step : Step) :
    d.child limit registry step = d'.child limit' registry step := by
  rw [child, child, h]

theorem atPath_congr (h : d.resolve limit registry = d'.resolve limit registry) {path : List Step}
    (hpath : path ≠ []) : d.atPath limit registry path = d'.atPath limit registry path := by
  cases path with
  | nil => exact absurd rfl hpath
  | cons step path => rw [atPath, atPath, child_congr h]

theorem atPath_laps {lap : List Step} (h : d.atPath limit registry lap = .ok d) (n : Nat) :
    d.atPath limit registry (List.replicate n lap).flatten = .ok d := by
  induction n with
  | zero => rfl
  | succ n ih => rw [List.replicate_succ, List.flatten_cons, atPath_append, h, ok_bind, ih]

/-- Two limits under which a definition resolves make no difference. -/
theorem resolve_eq_of_limits {resolved resolved' : Resolved}
    (h : d.resolve limit registry = .ok resolved) (h' : d.resolve limit' registry = .ok resolved') :
    d.resolve limit registry = d.resolve limit' registry := by
  have hcut := cutByLimit_resolve registry d
  rcases Nat.le_total limit limit' with hle | hle
  · exact (hcut.unchanged limit limit' hle (by simp [h])).symm
  · exact hcut.unchanged limit' limit hle (by simp [h'])

/-- What a path leads to under some limit it leads to under every limit for which all definitions
on the way resolve. -/
theorem atPath_of_limits
    (h : ∀ (path : List Step) (part : TypeDef), d.atPath limit registry path = .ok part →
      ∃ resolved, part.resolve limit registry = .ok resolved)
    {path : List Step} (hpath : d.atPath limit' registry path = .ok part) :
    d.atPath limit registry path = .ok part := by
  induction path generalizing d with
  | nil => exact hpath
  | cons step path ih =>
      obtain ⟨next, hnext, hrest⟩ := bind_eq_ok_iff.mp hpath
      obtain ⟨resolved', resolves', -⟩ := bind_eq_ok_iff.mp hnext
      obtain ⟨resolved, resolves⟩ := h [] d rfl
      have hchild : d.child limit registry step = .ok next :=
        (child_congr (resolve_eq_of_limits resolves resolves') step).trans hnext
      rw [atPath_cons hchild]
      refine ih (fun path part hpath => ?_) hrest
      exact h (step :: path) part (by rw [atPath_cons hchild, hpath])

/-- Paths of any length lead into a type that is found inside itself. -/
theorem not_recurs_of_fitsWithin {depth : Nat} (h : d.FitsWithin limit registry depth) :
    ¬d.Recurs registry := by
  rintro ⟨limit', path, lap, part, inner, hlap, hpart, hinner, hsame⟩
  -- The second time round, the lap leads back to where it starts.
  have hround : inner.atPath limit' registry lap = .ok inner :=
    (atPath_congr hsame hlap).trans hinner
  have hreached : d.atPath limit' registry (path ++ (lap ++ (List.replicate depth lap).flatten)) =
      .ok inner := by
    rw [atPath_append, hpart, ok_bind, atPath_append, hinner, ok_bind, atPath_laps hround]
  have hlength := (h _ inner (atPath_of_limits h.exists_resolve hreached)).1
  have hlaps : depth ≤ (List.replicate depth lap).flatten.length := by
    rw [List.length_flatten, List.map_replicate, List.sum_replicate_nat]
    exact Nat.le_mul_of_pos_right depth (List.length_pos_of_ne_nil hlap)
  rw [List.length_append, List.length_append] at hlength
  omega

end Laps

end TypeDef

/-- There is a signature exactly if every definition that a path leads to resolves and has the
attribute that its kind needs, and every such path has fewer steps than the limit. So there is
none under any limit if a type is found inside itself. -/
theorem signature_limit_exact (registry : Registry) (d : TypeDef) :
    (∀ limit, (∃ text, d.signature limit registry = .ok text) ↔
      ∀ (path : List Step) (part : TypeDef), d.atPath limit registry path = .ok part →
        path.length < limit ∧
          ∃ resolved, part.resolve limit registry = .ok resolved ∧ resolved.IsEquipped) ∧
    (d.Recurs registry → ∀ limit text, d.signature limit registry ≠ .ok text) := by
  have hfits : ∀ limit, (∃ text, d.signature limit registry = .ok text) ↔
      d.FitsWithin limit registry limit := fun _ => TypeDef.exists_signatureWithin_iff_fitsWithin
  refine ⟨hfits, fun hrecurs limit text htext => ?_⟩
  exact TypeDef.not_recurs_of_fitsWithin ((hfits limit).mp ⟨text, htext⟩) hrecurs

section Forest

/-- A tree has trees for children. -/
def trees : Registry := .ofList
  [("seedling", .reference "tree"),
    ("tree", .shape [("label", .builtin .string), ("children", .arrayOf (.reference "tree"))])]

def forest : TypeDef := .objectOf (.reference "seedling")

/-- The child of a seedling is not written like a seedling, but it resolves to the same. -/
theorem signature_limit_exact_forest :
    forest.Recurs trees ∧ ∀ limit text, forest.signature limit trees ≠ .ok text := by
  have hrecurs : forest.Recurs trees :=
    ⟨2, [.key "oak"], [.key "children", .index 0], .reference "seedling", .reference "tree",
      by simp, rfl, rfl, rfl⟩
  exact ⟨hrecurs, (signature_limit_exact trees forest).2 hrecurs⟩

end Forest

end ValueSchema
