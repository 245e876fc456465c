import ValueSchema.Proofs.Coercion.Form
import ValueSchema.Proofs.Conformance.Visits

/-! # Coercion position by position -/

namespace ValueSchema

theorem exists_getElem?_of_forall₂ {α β : Type} {rel : α → β → Prop} {xs : List α} {ys : List β}
    (h : List.Forall₂ rel xs ys) {i : Nat} {x : α} (hx : xs[i]? = some x) :
    ∃ y, ys[i]? = some y ∧ rel x y := by
  obtain ⟨hi, rfl⟩ := List.getElem?_eq_some_iff.mp hx
  have hi' : i < ys.length := h.length_eq ▸ hi
  exact ⟨ys[i], List.getElem?_eq_getElem hi', h.get hi hi'⟩

/-! ## One step -/

/-- A type whose values are not looked into has no parts to go to. -/
theorem Descent.not_isPlain_or_oneOf {resolved : Resolved} {value child : Json} {step : Step}
    {part : TypeDef} (h : Descent resolved value step child part) :
    ¬(resolved.kind.isPlain = true ∨ resolved.kind = .oneOf) := by
  cases h with
  | item kind | member kind | field kind => simp [kind, Builtin.isPlain]

/-- A part that both definitions lead to is converted with the definitions that they lead to. -/
theorem Converts.exists_child {parts : TypeDef → TypeDef → Json → Json → Prop}
    {source target : Resolved} {value result child : Json} {step : Step} {part part' : TypeDef}
    (h : Converts parts source target value result)
    (hsource : Descent source value step child part)
    (htarget : Descent target value step child part') :
    ∃ child', result.child? step = some child' ∧ parts part part' child child' := by
  cases h with
  | formal hconversion formal =>
      exact absurd (Conversion.isPlain_or_oneOf hconversion formal) htarget.not_isPlain_or_oneOf
  | items kind kind' helement helement' each =>
      cases hsource with
      | item _ hpart hitem =>
          cases htarget with
          | item _ hpart' _ =>
              cases helement.symm.trans hpart
              cases helement'.symm.trans hpart'
              exact exists_getElem?_of_forall₂ each hitem
  | members kind kind' helement helement' each =>
      cases hsource with
      | field other => simp [kind] at other
      | member _ hpart hitem =>
          cases htarget with
          | field other => simp [kind'] at other
          | member _ hpart' _ =>
              cases helement.symm.trans hpart
              cases helement'.symm.trans hpart'
              obtain ⟨child', hmem, hpart⟩ := each.exists_right (Record.get?_eq_some_iff.mp hitem)
              exact ⟨child', Record.get?_eq_some_iff.mpr hmem, hpart⟩
  | fields kind kind' hfields hfields' convert =>
      cases hsource with
      | member other => simp [kind] at other
      | @field members name _ _ _ _ hdeclared hfield hitem =>
          cases htarget with
          | member other => simp [kind'] at other
          | field _ hdeclared' hfield' _ =>
              cases hfields.symm.trans hdeclared
              cases hfields'.symm.trans hdeclared'
              have hname := convert.mem_names_iff.mpr
                ⟨Record.mem_names_iff.mpr ⟨part, hfield⟩, Record.mem_names_iff.mpr ⟨child, hitem⟩⟩
              obtain ⟨child', hresult⟩ := Record.mem_names_iff.mp hname
              exact ⟨child', hresult,
                convert.each name part part' child child' hfield hfield' hitem hresult⟩
  | notItems kind kind' helement helement' other =>
      cases hsource with
      | item => cases other
      | member kind'' | field kind'' => simp [kind] at kind''
  | notMembers kind kind' helement helement' other =>
      cases hsource with
      | member | field => cases other
      | item kind'' => simp [kind] at kind''
  | notFields kind kind' hfields hfields' names other =>
      cases hsource with
      | member | field => cases other
      | item kind'' => simp [kind] at kind''

theorem exists_child_of_coerce {limit : Nat} {sourceRegistry targetRegistry : Registry}
    {source target part part' : TypeDef} {value result child : Json} {step : Step}
    (h : value.coerce limit sourceRegistry targetRegistry source target = .ok result)
    (hchild : value.child? step = some child)
    (hpart : source.child limit sourceRegistry step = .ok part)
    (hpart' : target.child limit targetRegistry step = .ok part') :
    ∃ child', result.child? step = some child' ∧
      child.coerce limit sourceRegistry targetRegistry part part' = .ok child' := by
  obtain ⟨resolvedSource, resolvedTarget, hsource, htarget, converts⟩ := coerce_eq_ok_iff.mp h
  exact converts.exists_child ((descent_iff hsource).mpr ⟨hchild, hpart⟩)
    ((descent_iff htarget).mpr ⟨hchild, hpart'⟩)

/-! ## Along a path -/

theorem exists_at_of_coerce {limit : Nat} {sourceRegistry targetRegistry : Registry}
    {source target source' target' : TypeDef} {value result part : Json} {path : List Step}
    (h : value.coerce limit sourceRegistry targetRegistry source target = .ok result)
    (hpart : value.at? path = some part)
    (hsource : source.atPath limit sourceRegistry path = .ok source')
    (htarget : target.atPath limit targetRegistry path = .ok target') :
    ∃ part', result.at? path = some part' ∧
      part.coerce limit sourceRegistry targetRegistry source' target' = .ok part' := by
  induction path generalizing source target value result with
  | nil =>
      cases hpart
      cases hsource
      cases htarget
      exact ⟨result, rfl, h⟩
  | cons step path ih =>
      obtain ⟨child, hchild, hpart⟩ := Option.bind_eq_some_iff.mp hpart
      obtain ⟨next, hnext, hsource⟩ := bind_eq_ok_iff.mp hsource
      obtain ⟨next', hnext', htarget⟩ := bind_eq_ok_iff.mp htarget
      obtain ⟨child', hchild', hcoerce⟩ := exists_child_of_coerce h hchild hnext hnext'
      obtain ⟨part', hpart', hresult⟩ := ih hcoerce hpart hsource htarget
      refine ⟨part', ?_, hresult⟩
      rw [Json.at?_cons, hchild', Option.bind_some, hpart']

/-! ## Layout -/

/-- What a coercion keeps of the layout of a composite value. -/
structure KeepsLayout (source target : Resolved) (value result : Json) : Prop where
  items : source.kind = .arrayOf → target.kind = .arrayOf → ∀ items, value = .array items →
    ∃ results, result = .array results ∧ results.length = items.length
  members : source.kind = .objectOf → target.kind = .objectOf → ∀ members, value = .object members →
    ∃ results, result = .object results ∧ results.names = members.names
  fields : source.kind = .shape → target.kind = .shape → ∀ members, value = .object members →
    ∃ fields results, source.definition.declaredFields = .ok fields ∧ result = .object results ∧
      results.names = fields.names.filter fun name => decide (name ∈ members.names)

theorem Converts.keepsLayout {parts : TypeDef → TypeDef → Json → Json → Prop}
    {source target : Resolved} {value result : Json}
    (h : Converts parts source target value result) :
    KeepsLayout source target value result := by
  cases h with
  | formal hconversion formal =>
      have hkind := Conversion.isPlain_or_oneOf hconversion formal
      constructor <;>
        · intro _ kind'
          simp [kind', Builtin.isPlain] at hkind
  | @items items results _ _ kind kind' helement helement' each =>
      refine ⟨?_, by simp [kind], by simp [kind]⟩
      rintro - - _ ⟨⟩
      exact ⟨results, rfl, each.length_eq.symm⟩
  | @members members results _ _ kind kind' helement helement' each =>
      refine ⟨by simp [kind], ?_, by simp [kind]⟩
      rintro - - _ ⟨⟩
      exact ⟨results, rfl, each.names_eq.symm⟩
  | @fields members results fields _ kind kind' hfields hfields' convert =>
      refine ⟨by simp [kind], by simp [kind], ?_⟩
      rintro - - _ ⟨⟩
      exact ⟨fields, results, hfields, rfl, convert.names_eq⟩
  | notItems kind kind' helement helement' other =>
      refine ⟨?_, by simp [kind], by simp [kind]⟩
      rintro - - items rfl
      cases other
  | notMembers kind kind' helement helement' other =>
      refine ⟨by simp [kind], ?_, by simp [kind]⟩
      rintro - - members rfl
      cases other
  | notFields kind kind' hfields hfields' names other =>
      refine ⟨by simp [kind], by simp [kind], ?_⟩
      rintro - - members rfl
      cases other

/-- A coercion acts position by position. Where a path leads to a part of the value and to
definitions of both types, it leads to the coercion of that part in the result, which keeps the
layout of the part. -/
theorem coerce_acts_by_position (limit : Nat) (sourceRegistry targetRegistry : Registry)
    (source target : TypeDef) (value result : Json)
    (h : value.coerce limit sourceRegistry targetRegistry source target = .ok result)
    (path : List Step) (source' target' : TypeDef) (part : Json)
    (hsource : source.atPath limit sourceRegistry path = .ok source')
    (htarget : target.atPath limit targetRegistry path = .ok target')
    (hpart : value.at? path = some part) :
    ∃ (part' : Json) (resolvedSource resolvedTarget : Resolved), result.at? path = some part' ∧
      part.coerce limit sourceRegistry targetRegistry source' target' = .ok part' ∧
      source'.resolve limit sourceRegistry = .ok resolvedSource ∧
      target'.resolve limit targetRegistry = .ok resolvedTarget ∧
      KeepsLayout resolvedSource resolvedTarget part part' := by
  obtain ⟨part', hpart', hcoerce⟩ := exists_at_of_coerce h hpart hsource htarget
  obtain ⟨resolvedSource, resolvedTarget, hresolve, hresolve', converts⟩ :=
    coerce_eq_ok_iff.mp hcoerce
  exact ⟨part', resolvedSource, resolvedTarget, hpart', hcoerce, hresolve, hresolve',
    converts.keepsLayout⟩

section Stock

def stockTypes : Registry := .ofList
  [("lot", .shape [("count", .builtin .int), ("marks", .arrayOf (.builtin .string))])]

/-- The fields of a label stand in the other order. -/
def labelTypes : Registry := .ofList
  [("label", .shape [("marks", .arrayOf (.builtin .bool)), ("count", .builtin .string)])]

def shirts : Json := .object (.ofList
  [("marks", .array [.string "sale", .string ""]), ("note", .null), ("count", .number .zero)])

def labelledShirts : Json := .object (.ofList
  [("count", .string "0"), ("marks", .array [.bool true, .bool false])])

theorem coerce_acts_by_position_stock :
    let value := Json.object (.ofList [("shirts", shirts)])
    let result := Json.object (.ofList [("shirts", labelledShirts)])
    let stock := TypeDef.objectOf (.reference "lot")
    let labels := TypeDef.objectOf (.reference "label")
    value.coerce 4 stockTypes labelTypes stock labels = .ok result ∧
    stock.atPath 4 stockTypes [.key "shirts"] = .ok (.reference "lot") ∧
    labels.atPath 4 labelTypes [.key "shirts"] = .ok (.reference "label") ∧
    value.at? [.key "shirts"] = some shirts ∧
    ∃ (part : Json) (resolvedSource resolvedTarget : Resolved),
      result.at? [.key "shirts"] = some part ∧
      shirts.coerce 4 stockTypes labelTypes (.reference "lot") (.reference "label") = .ok part ∧
      (TypeDef.reference "lot").resolve 4 stockTypes = .ok resolvedSource ∧
      (TypeDef.reference "label").resolve 4 labelTypes = .ok resolvedTarget ∧
      KeepsLayout resolvedSource resolvedTarget shirts part := by
  intro value result stock labels
  have hcoerce : value.coerce 4 stockTypes labelTypes stock labels = .ok result := rfl
  have hsource : stock.atPath 4 stockTypes [.key "shirts"] = .ok (.reference "lot") := rfl
  have htarget : labels.atPath 4 labelTypes [.key "shirts"] = .ok (.reference "label") := rfl
  have hpart : value.at? [.key "shirts"] = some shirts := rfl
  exact ⟨hcoerce, hsource, htarget, hpart,
    coerce_acts_by_position 4 _ _ _ _ _ _ hcoerce _ _ _ _ hsource htarget hpart⟩

end Stock

end ValueSchema
