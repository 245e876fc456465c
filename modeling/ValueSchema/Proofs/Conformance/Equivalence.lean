import ValueSchema.Proofs.Antisymmetry
import ValueSchema.Proofs.Conformance.Rules
import ValueSchema.Proofs.Contract

/-! # Values of equivalent types

A derivation of conformance is carried over rule by rule: what equivalence ignores is not asked by
any rule. -/

namespace ValueSchema

/-! ## Equivalent definitions are intact -/

section Level

variable {flags : Bool → Bool → Bool} {parts : TypeDef → TypeDef → Prop} {source target : Resolved}

/-- A comparison that succeeds has looked at all that the kind needs. -/
theorem Fits.not_lacks (hkind : source.kind = target.kind) (fits : Fits flags parts source target)
    (failure : Failure) : ¬source.Lacks failure := by
  intro hlacks
  cases hlacks with
  | element kind absent =>
      obtain ⟨_, _, hsource, -⟩ := fits.elements_of_elementwise (hkind ▸ kind)
      simp [TypeDef.ofType_of_element hsource] at absent
  | fields kind absent =>
      obtain ⟨_, _, hsource, -⟩ := fits.fields_of_shape (hkind ▸ kind)
      simp [TypeDef.fields_of_declaredFields hsource] at absent
  | options kind absent =>
      obtain ⟨_, _, hsource, -⟩ := fits.choices_of_oneOf (hkind ▸ kind)
      simp [TypeDef.options_of_choices hsource] at absent
  | noOptions kind empty =>
      obtain ⟨choices, _, hsource, -⟩ := fits.choices_of_oneOf (hkind ▸ kind)
      simp [TypeDef.options_of_choices hsource, choices.property] at empty

/-- Each part of the source has a counterpart. -/
theorem Fits.exists_counterpart (hkind : source.kind = target.kind)
    (fits : Fits flags parts source target) {part : TypeDef} (hpart : part ∈ source.parts) :
    ∃ part', parts part part' := by
  unfold Resolved.parts at hpart
  split at hpart
  · next kind =>
      obtain ⟨element, element', hsource, -, hparts⟩ :=
        fits.elements_of_elementwise (.inl (hkind ▸ kind))
      obtain rfl : part = element := by
        simpa [TypeDef.ofType_of_element hsource] using hpart
      exact ⟨element', hparts⟩
  · next kind =>
      obtain ⟨element, element', hsource, -, hparts⟩ :=
        fits.elements_of_elementwise (.inr (hkind ▸ kind))
      obtain rfl : part = element := by
        simpa [TypeDef.ofType_of_element hsource] using hpart
      exact ⟨element', hparts⟩
  · next kind =>
      obtain ⟨fields, fields', hsource, -, hfields⟩ := fits.fields_of_shape (hkind ▸ kind)
      obtain ⟨name, hentry⟩ : ∃ name, (name, part) ∈ fields.toList := by
        simpa [TypeDef.fields_of_declaredFields hsource] using hpart
      obtain ⟨part', -, -, hparts⟩ :=
        hfields.counterpart name part (Record.get?_eq_some_iff.mpr hentry)
      exact ⟨part', hparts⟩
  · cases hpart

end Level

section Levels

variable {limit depth : Nat} {leftRegistry rightRegistry : Registry} {left right : TypeDef}

/-- Equivalent definitions are of one kind and fit, and so do their parts with some depth left. -/
theorem fits_of_equivalentWithin {source : Resolved}
    (resolves : left.resolve limit leftRegistry = .ok source)
    (h : TypeDef.equivalentWithin limit leftRegistry rightRegistry depth left right = .ok true) :
    ∃ target rest, right.resolve limit rightRegistry = .ok target ∧ source.kind = target.kind ∧
      Fits (· == ·) (fun left right => TypeDef.equivalentWithin limit leftRegistry
        rightRegistry rest left right = .ok true) source target := by
  cases depth with
  | zero => cases h
  | succ rest =>
      obtain ⟨_, target, hsource, htarget, hequates, hfits⟩ := equivalentWithin_succ_iff.mp h
      cases resolves.symm.trans hsource
      exact ⟨target, rest, htarget, (Builtin.equates_iff.mp hequates).1, hfits⟩

theorem equivalentWithin_symm
    (h : TypeDef.equivalentWithin limit leftRegistry rightRegistry depth left right = .ok true) :
    TypeDef.equivalentWithin limit rightRegistry leftRegistry depth right left = .ok true := by
  obtain ⟨hforth, hback⟩ := compatibleWithin_of_equivalentWithin h
  exact equivalentWithin_of_compatibleWithin hback hforth

theorem isGuarded_equivalent (limit : Nat) (leftRegistry rightRegistry : Registry) :
    IsGuarded (fun _ => False) limit leftRegistry fun left => ∃ depth right,
      TypeDef.equivalentWithin limit leftRegistry rightRegistry depth left right = .ok true := by
  rintro left ⟨depth, right, h⟩
  cases depth with
  | zero => cases h
  | succ depth =>
      obtain ⟨source, target, hsource, -, hequates, hfits⟩ := equivalentWithin_succ_iff.mp h
      have hkind := (Builtin.equates_iff.mp hequates).1
      rw [hsource]
      refine ⟨hfits.not_lacks hkind, fun part hpart => ?_⟩
      obtain ⟨part', hparts⟩ := hfits.exists_counterpart hkind hpart
      exact ⟨depth, part', hparts⟩

/-- A value can be checked against a definition that is equivalent to another one. -/
theorem exists_check_of_equivalentWithin
    (h : TypeDef.equivalentWithin limit leftRegistry rightRegistry depth left right = .ok true)
    (value : Json) (path : String) :
    ∃ report, value.check limit leftRegistry left path = .ok report :=
  ((isGuarded_equivalent limit leftRegistry rightRegistry).yields_check value left path
    ⟨depth, right, h⟩).exists_eq_ok

end Levels

/-! ## Derivations carry over -/

theorem Conforms.of_equivalentWithin {limit depth : Nat} {leftRegistry rightRegistry : Registry}
    {value : Json} {left right : TypeDef} (conforms : Conforms limit leftRegistry value left)
    (h : TypeDef.equivalentWithin limit leftRegistry rightRegistry depth left right = .ok true)
    (simple : left.SimpleOptions limit leftRegistry)
    (simple' : right.SimpleOptions limit rightRegistry) :
    Conforms limit rightRegistry value right := by
  -- The derivation follows the left side, so the right side and the depth go down with it.
  induction conforms generalizing right depth with
  | null resolves nullable admitted =>
      obtain ⟨target, rest, htarget, hkind, hfits⟩ := fits_of_equivalentWithin resolves h
      have hnull := hfits.null_of_isNullable (hkind ▸ nullable)
      have hadmitted : target.definition.isNotNull = false := by simpa [admitted] using hnull
      exact .null htarget (hkind ▸ nullable) hadmitted
  | @choice value left source choices choice resolves kind hchoices mem equal =>
      obtain ⟨target, rest, htarget, hkind, hfits⟩ := fits_of_equivalentWithin resolves h
      obtain ⟨_, choices', hsource, hchoices', hsame⟩ := hfits.choices_of_oneOf (hkind ▸ kind)
      cases hchoices.symm.trans hsource
      have hsimple := simple [] left source choices rfl resolves kind hchoices
      have hsimple' := simple' [] right target choices' rfl htarget (hkind ▸ kind) hchoices'
      obtain ⟨choice', mem', equal'⟩ := Choice.exists_valueEq hsimple hsimple' hsame mem equal
      exact .choice htarget (hkind ▸ kind) hchoices' mem' equal'
  | plain resolves plain admits =>
      obtain ⟨target, rest, htarget, hkind, -⟩ := fits_of_equivalentWithin resolves h
      exact .plain htarget (hkind ▸ plain) (hkind ▸ admits)
  | items resolves kind helement each ih =>
      obtain ⟨target, rest, htarget, hkind, hfits⟩ := fits_of_equivalentWithin resolves h
      have kind' := hkind.symm.trans kind
      obtain ⟨_, element', hsource, helement', hparts⟩ := hfits.elements_of_elementwise (.inl kind')
      cases helement.symm.trans hsource
      have hsimple := simple.child (TypeDef.child_arrayOf resolves kind helement 0)
      have hsimple' := simple'.child (TypeDef.child_arrayOf htarget kind' helement' 0)
      exact .items htarget kind' helement' fun item hitem => ih item hitem hparts hsimple hsimple'
  | members resolves kind helement each ih =>
      obtain ⟨target, rest, htarget, hkind, hfits⟩ := fits_of_equivalentWithin resolves h
      have kind' := hkind.symm.trans kind
      obtain ⟨_, element', hsource, helement', hparts⟩ := hfits.elements_of_elementwise (.inr kind')
      cases helement.symm.trans hsource
      have hsimple := simple.child (TypeDef.child_objectOf resolves kind helement "")
      have hsimple' := simple'.child (TypeDef.child_objectOf htarget kind' helement' "")
      refine .members htarget kind' helement' fun entry hentry => ?_
      exact ih entry hentry hparts hsimple hsimple'
  | fields resolves kind hdeclared present required ih =>
      obtain ⟨target, rest, htarget, hkind, hfits⟩ := fits_of_equivalentWithin resolves h
      have kind' := hkind.symm.trans kind
      obtain ⟨_, declared', hsource, hdeclared', hfields⟩ := hfits.fields_of_shape kind'
      cases hdeclared.symm.trans hsource
      refine .fields htarget kind' hdeclared' ?_ ?_
      · intro name field' item hfield' hitem
        obtain ⟨field, hfield, -, hparts⟩ := hfields.counterpart_of_target hfield'
        have hsimple := simple.child (TypeDef.child_shape resolves kind hdeclared hfield)
        have hsimple' := simple'.child (TypeDef.child_shape htarget kind' hdeclared' hfield')
        exact ih name field item hfield hitem hparts hsimple hsimple'
      · intro name field' hfield' hrequired
        obtain ⟨field, hfield, hflag, -⟩ := hfields.counterpart_of_target hfield'
        exact required name field hfield (by simpa [hrequired] using hflag)

/-- Equivalent types accept the same values: every value can be checked against both, and
conforms to both or to neither. -/
theorem validate_of_equivalent (limit : Nat) (leftRegistry rightRegistry : Registry)
    (left right : TypeDef) (value : Json)
    (h : TypeDef.equivalent limit leftRegistry rightRegistry left right = .ok true)
    (simple : left.SimpleOptions limit leftRegistry)
    (simple' : right.SimpleOptions limit rightRegistry) :
    ∃ report report', value.validate limit leftRegistry left = .ok report ∧
      value.validate limit rightRegistry right = .ok report' ∧ report.valid = report'.valid := by
  have hback := equivalentWithin_symm h
  obtain ⟨report, hreport⟩ := exists_check_of_equivalentWithin h value (pathText [])
  obtain ⟨report', hreport'⟩ := exists_check_of_equivalentWithin hback value (pathText [])
  have hvalid : report.valid = true ↔ Conforms limit leftRegistry value left := by
    rw [← passes_check_iff, hreport, passes_ok_iff]
  have hvalid' : report'.valid = true ↔ Conforms limit rightRegistry value right := by
    rw [← passes_check_iff, hreport', passes_ok_iff]
  refine ⟨report, report', hreport, hreport', Bool.eq_iff_iff.mpr ?_⟩
  rw [hvalid, hvalid']
  constructor
  · intro conforms
    exact conforms.of_equivalentWithin h simple simple'
  · intro conforms
    exact conforms.of_equivalentWithin hback simple' simple

section Survey

def answers : Registry := .ofList
  [("answer", .oneOf [.string "yes", .string "no"]), ("replies", .arrayOf (.reference "answer"))]

def survey : TypeDef := .shape
  [("id", (TypeDef.builtin .int).asRequired), ("replies", .reference "replies")]

/-- The fields and options stand in another order, and an array is marked as not null. -/
def questionnaire : TypeDef := .shape
  [("replies", (TypeDef.arrayOf (.oneOf [.string "no", .string "yes", .string "no"])).asNotNull),
    ("id", (TypeDef.builtin .int).asRequired)]

def sampleReplies : Json := .object (.ofList
  [("replies", .array [.string "yes", .string "maybe"])])

theorem simpleOptions_survey : survey.SimpleOptions 3 answers := by
  have hid : (TypeDef.builtin .int).asRequired.SimpleOptions 3 answers :=
    .of_parts rfl (by decide) (by simp [Resolved.parts])
  have hanswer : (TypeDef.reference "answer").SimpleOptions 3 answers :=
    .of_parts rfl (by decide) (by simp [Resolved.parts])
  have hreplies : (TypeDef.reference "replies").SimpleOptions 3 answers :=
    .of_parts rfl (by decide) (List.forall_mem_singleton.mpr hanswer)
  refine .of_parts rfl (by decide) (List.forall_mem_cons.mpr ⟨hid, ?_⟩)
  exact List.forall_mem_singleton.mpr hreplies

theorem simpleOptions_questionnaire : questionnaire.SimpleOptions 3 ∅ := by
  have hid : (TypeDef.builtin .int).asRequired.SimpleOptions 3 ∅ :=
    .of_parts rfl (by decide) (by simp [Resolved.parts])
  have hanswer : (TypeDef.oneOf [.string "no", .string "yes", .string "no"]).SimpleOptions 3 ∅ :=
    .of_parts rfl (by decide) (by simp [Resolved.parts])
  refine .of_parts rfl (by decide) (List.forall_mem_cons.mpr ⟨?_, ?_⟩)
  · exact .of_parts rfl (by decide) (List.forall_mem_singleton.mpr hanswer)
  · exact List.forall_mem_singleton.mpr hid

/-- Both reports list the same two violations, each in its own order of the fields. -/
theorem validate_of_equivalent_survey :
    TypeDef.equivalent 3 answers ∅ survey questionnaire = .ok true ∧
    survey.SimpleOptions 3 answers ∧ questionnaire.SimpleOptions 3 ∅ ∧
    sampleReplies.validate 3 answers survey = .ok ⟨false,
      [.missingRequired "$.id", .notAnOption "$.replies[1]" "\"maybe\""]⟩ ∧
    ∃ report, sampleReplies.validate 3 ∅ questionnaire = .ok report ∧ report.valid = false := by
  have h : TypeDef.equivalent 3 answers ∅ survey questionnaire = .ok true := by decide +kernel
  have hsurvey : sampleReplies.validate 3 answers survey = .ok ⟨false,
      [.missingRequired "$.id", .notAnOption "$.replies[1]" "\"maybe\""]⟩ := by decide +kernel
  obtain ⟨report, report', hreport, hreport', hvalid⟩ := validate_of_equivalent 3 answers ∅ survey
    questionnaire sampleReplies h simpleOptions_survey simpleOptions_questionnaire
  cases hsurvey.symm.trans hreport
  exact ⟨h, simpleOptions_survey, simpleOptions_questionnaire, hsurvey, report', hreport',
    hvalid.symm⟩

end Survey

end ValueSchema
