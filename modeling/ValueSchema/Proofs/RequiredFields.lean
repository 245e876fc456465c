import ValueSchema.Proofs.Resolution.Chain
import ValueSchema.Proofs.Signature.Rules

/-! # Required fields

A field has the flag of its declaration and that of the definition it resolves to. They differ for
a field without a flag that refers to a required entry. -/

namespace ValueSchema

namespace Registry

/-- The first definition along a chain that says whether it is required says that it is. -/
inductive Requires (registry : Registry) : TypeDef → Prop
  | stated {d : TypeDef} (flag : d.required = some true) : Requires registry d
  | inherited {d entry : TypeDef} (flag : d.required = none)
      (next : registry.next? d = some entry) (rest : Requires registry entry) :
      Requires registry d

/-- A definition leaves it to the entry that it names whether it is required, and so it is. -/
def InheritsRequired (registry : Registry) (d : TypeDef) : Prop :=
  d.required = none ∧ ∃ entry, registry.next? d = some entry ∧ registry.Requires entry

section Flags

variable {registry : Registry} {d entry : TypeDef}

theorem requires_iff_of_some {flag : Bool} (h : d.required = some flag) :
    registry.Requires d ↔ flag = true := by
  constructor
  · intro hrequires
    cases hrequires with
    | stated htrue => exact Option.some.inj (h.symm.trans htrue)
    | inherited hnone => simp [h] at hnone
  · intro htrue
    exact .stated (h.trans (congrArg some htrue))

theorem requires_iff_of_none (h : d.required = none) :
    registry.Requires d ↔ ∃ entry, registry.next? d = some entry ∧ registry.Requires entry := by
  constructor
  · intro hrequires
    cases hrequires with
    | stated htrue => simp [h] at htrue
    | inherited _ hnext hrest => exact ⟨_, hnext, hrest⟩
  · rintro ⟨entry, hnext, hrest⟩
    exact .inherited h hnext hrest

/-- Laying a reference over its entry does not change which definition decides. -/
theorem requires_overlay_iff (hnext : registry.next? d = some entry) :
    registry.Requires (d.overlay entry) ↔ registry.Requires d := by
  cases hflag : d.required with
  | some flag =>
      have hoverlay : (d.overlay entry).required = some flag := by simp [TypeDef.overlay, hflag]
      rw [requires_iff_of_some hoverlay, requires_iff_of_some hflag]
  | none =>
      have hoverlay : (d.overlay entry).required = entry.required := by
        simp [TypeDef.overlay, hflag]
      have hentry : registry.Requires d ↔ registry.Requires entry := by
        simp [requires_iff_of_none hflag, hnext]
      rw [hentry]
      cases hflag' : entry.required with
      | some flag => rw [requires_iff_of_some (hoverlay.trans hflag'), requires_iff_of_some hflag']
      | none =>
          rw [requires_iff_of_none (hoverlay.trans hflag'), requires_iff_of_none hflag']
          rfl

theorem requires_iff : registry.Requires d ↔ d.isRequired = true ∨ registry.InheritsRequired d := by
  cases hflag : d.required with
  | some flag => simp [requires_iff_of_some hflag, TypeDef.isRequired, InheritsRequired, hflag]
  | none => simp [requires_iff_of_none hflag, TypeDef.isRequired, InheritsRequired, hflag]

end Flags

end Registry

namespace TypeDef

variable {limit hops : Nat} {registry : Registry} {d : TypeDef} {resolved : Resolved}

/-- The flag of a resolved definition is the first one along the chain. -/
theorem isRequired_iff_requires (h : d.resolveWithin limit registry hops = .ok resolved) :
    resolved.definition.isRequired = true ↔ registry.Requires d := by
  -- A step keeps which definition decides, and the last definition has no entry behind it.
  have hkept : registry.Requires resolved.definition ↔ registry.Requires d := by
    refine resolveWithin_induction (motive := fun e => registry.Requires e ↔ registry.Requires d)
      ?_ h Iff.rfl
    intro e name entry ih hkind hentry
    rw [Registry.requires_overlay_iff ((Registry.next?_of_reference hkind).trans hentry), ih]
  have hlast : registry.next? resolved.definition = none := by
    rw [Registry.next?, resolved.kind_eq]
  rw [← hkept, Registry.requires_iff, Registry.InheritsRequired, hlast]
  simp

/-- A field and the definition that it resolves to are required alike, unless the field takes
this from an entry. -/
theorem isRequired_eq_iff (resolves : d.resolve limit registry = .ok resolved) :
    d.isRequired = resolved.definition.isRequired ↔ ¬registry.InheritsRequired d := by
  have hresolved := (isRequired_iff_requires resolves).trans Registry.requires_iff
  rw [Bool.eq_iff_iff, hresolved]
  constructor
  · intro hsame hinherits
    have hflag := hsame.mpr (.inr hinherits)
    simp [isRequired, hinherits.1] at hflag
  · intro hown
    simp [hown]

end TypeDef

/-! ## Reports field by field -/

section Reports

variable {ε α : Type}

theorem Report.join_append (front back : List Report) :
    Report.join (front ++ back) = (Report.join front).merge (Report.join back) := by
  induction front with
  | nil => rfl
  | cons report front ih => rw [List.cons_append, Report.join, Report.join, ih, Report.merge_assoc]

theorem join_mapM_append (f : α → Except ε Report) (front back : List α) :
    Report.join <$> (front ++ back).mapM f = do
      let before ← Report.join <$> front.mapM f
      let after ← Report.join <$> back.mapM f
      return before.merge after := by
  rw [List.mapM_append]
  cases front.mapM f with
  | error e => rfl
  | ok before =>
      cases back.mapM f with
      | error e => rfl
      | ok after => exact congrArg Except.ok (Report.join_append before after)

theorem join_mapM_cons (f : α → Except ε Report) (x : α) (xs : List α) {report : Report}
    (h : f x = .ok report) :
    Report.join <$> (x :: xs).mapM f = report.merge <$> (Report.join <$> xs.mapM f) := by
  rw [List.mapM_cons, h]
  cases xs.mapM f <;> rfl

variable {limit : Nat} {registry : Registry} {members : Record Json}

/-- What is reported for a field that an object does not have. -/
def absenceReport (name : String) (required : Bool) : Report :=
  if required then .single (.missingRequired (pathText [.key name])) else .success

/-- What is reported for a declared field. -/
def fieldReport (limit : Nat) (registry : Registry) (members : Record Json)
    (field : String × TypeDef) : Except Failure Report :=
  match members.get? field.1 with
  | some item => item.check limit registry field.2 (pathText [.key field.1])
  | none => .ok (absenceReport field.1 field.2.isRequired)

theorem validate_of_shape {d : TypeDef} {resolved : Resolved} {fields : Record TypeDef}
    (resolves : d.resolve limit registry = .ok resolved) (kind : resolved.kind = .shape)
    (hfields : resolved.definition.declaredFields = .ok fields) :
    (Json.object members).validate limit registry d =
      Report.join <$> fields.toList.mapM (fieldReport limit registry members) := by
  have hoptions : resolved.kind ≠ .oneOf := by simp [kind]
  have hadmits : resolved.kind.admits (Json.object members) = true := by rw [kind]; rfl
  rw [Json.validate, Json.check_of_admits resolves hoptions hadmits, Check.parts_shape kind,
    hfields, ok_bind]
  rfl

theorem validate_shape {entries : List (String × TypeDef)}
    (nodup : (entries.map Prod.fst).Nodup) :
    (Json.object members).validate limit registry (.shape entries) =
      Report.join <$> entries.mapM (fieldReport limit registry members) := by
  have resolves : (TypeDef.shape entries).resolve limit registry =
      .ok ⟨.shape, .shape entries, rfl⟩ := TypeDef.resolve_of_builtin rfl limit registry
  rw [validate_of_shape resolves rfl rfl, Record.toList_ofList entries nodup]

end Reports

/-! ## Texts field by field -/

/-- The texts of fields in a signature. Each is the label of a field and the signature of its
type, which is one level below. -/
def FieldTexts (limit : Nat) (registry : Registry) (fields : List (String × TypeDef))
    (texts : List String) : Prop :=
  List.Forall₂ (fun field text => ∃ part,
    field.2.signatureWithin limit registry (limit - 1) = .ok part ∧ fieldLabel field ++ part = text)
    fields texts

section Texts

variable {limit : Nat} {registry : Registry} {text : String}

theorem exists_fieldTexts_of_signature {d : TypeDef} {resolved : Resolved}
    {fields : Record TypeDef} (resolves : d.resolve limit registry = .ok resolved)
    (kind : resolved.kind = .shape) (hfields : resolved.definition.declaredFields = .ok fields)
    (h : d.signature limit registry = .ok text) :
    ∃ texts, FieldTexts limit registry fields.toList texts ∧
      text = "shape" ++ enclosed texts ++ resolved.nullMark := by
  cases limit with
  | zero => cases h
  | succ depth =>
      obtain ⟨resolved', details, resolves', hdetails, rfl⟩ := exists_details_of_signatureWithin h
      obtain rfl := Except.ok.inj (resolves.symm.trans resolves')
      obtain ⟨fields', texts, hfields', htexts, rfl⟩ := hdetails.exists_fields kind
      obtain rfl := Except.ok.inj (hfields.symm.trans hfields')
      refine ⟨texts, htexts, ?_⟩
      rw [kind]
      rfl

theorem FieldTexts.exists_split {earlier later : List (String × TypeDef)}
    {field : String × TypeDef} {texts : List String}
    (h : FieldTexts limit registry (earlier ++ field :: later) texts) :
    ∃ before part after, FieldTexts limit registry earlier before ∧
      field.2.signatureWithin limit registry (limit - 1) = .ok part ∧
      FieldTexts limit registry later after ∧
      texts = before ++ (fieldLabel field ++ part) :: after := by
  have hfront := (List.forall₂_take_append _ _ _ h.flip).flip
  have hback := (List.forall₂_drop_append _ _ _ h.flip).flip
  obtain ⟨_, after, ⟨part, hpart, rfl⟩, hafter, hdrop⟩ := List.forall₂_cons_left_iff.mp hback
  refine ⟨_, part, after, hfront, hpart, hafter, ?_⟩
  rw [← hdrop, List.take_append_drop]

end Texts

/-! ## The flag that is read -/

/-- A shape reads the flag of a field as it is declared. For an object without the field, the
report on the fields before it is followed by a missing field if the declared flag is set, and
then by the report on the fields behind it. In a signature this flag decides about the star. The
flag of the definition that the field resolves to is the same, unless it comes from an entry. -/
theorem shape_reads_declared_flag {limit : Nat} {registry : Registry} {d : TypeDef}
    {resolved : Resolved} {fields : Record TypeDef} {name : String} {field : TypeDef}
    {resolvedField : Resolved} {members : Record Json}
    (resolves : d.resolve limit registry = .ok resolved) (kind : resolved.kind = .shape)
    (hfields : resolved.definition.declaredFields = .ok fields)
    (declared : fields.get? name = some field)
    (hfield : field.resolve limit registry = .ok resolvedField)
    (absent : members.get? name = none) :
    ∃ earlier later, fields.toList = earlier ++ (name, field) :: later ∧
    (Json.object members).validate limit registry d = (do
      let before ← (Json.object members).validate limit registry (.shape earlier)
      let after ← (Json.object members).validate limit registry (.shape later)
      return before.merge ((absenceReport name field.isRequired).merge after)) ∧
    (∀ text, d.signature limit registry = .ok text →
      ∃ before part after, FieldTexts limit registry earlier before ∧
        field.signatureWithin limit registry (limit - 1) = .ok part ∧
        FieldTexts limit registry later after ∧
        text = "shape" ++ enclosed
          (before ++ (name ++ (if field.isRequired then "*:" else ":") ++ part) :: after) ++
          resolved.nullMark) ∧
    (field.isRequired = resolvedField.definition.isRequired ↔
      ¬registry.InheritsRequired field) := by
  obtain ⟨earlier, later, hsplit⟩ := List.append_of_mem (Record.get?_eq_some_iff.mp declared)
  have hnames : ((earlier ++ (name, field) :: later).map Prod.fst).Nodup := by
    rw [← hsplit, Record.map_fst_toList]
    exact fields.nodup
  rw [List.map_append, List.nodup_append, List.map_cons, List.nodup_cons] at hnames
  have hown : fieldReport limit registry members (name, field) =
      .ok (absenceReport name field.isRequired) := by
    simp only [fieldReport, absent]
  refine ⟨earlier, later, hsplit, ?_, ?_, TypeDef.isRequired_eq_iff hfield⟩
  · rw [validate_of_shape resolves kind hfields, hsplit, join_mapM_append,
      join_mapM_cons _ _ _ hown, validate_shape hnames.1, validate_shape hnames.2.1.2]
    simp only [bind_map_left]
  · intro text htext
    obtain ⟨texts, htexts, rfl⟩ := exists_fieldTexts_of_signature resolves kind hfields htext
    rw [hsplit] at htexts
    obtain ⟨before, part, after, hbefore, hpart, hafter, rfl⟩ := htexts.exists_split
    exact ⟨before, part, after, hbefore, hpart, hafter, rfl⟩

section Badges

/-- An identifier is required wherever it is used, a label only where a field says so. -/
def badgeTypes : Registry := .ofList
  [("Id", .asRequired (.builtin .int)),
   ("Label", { TypeDef.builtin .string with required := some false })]

def badgeFields : List (String × TypeDef) :=
  [("floors", .arrayOf (.builtin .int)), ("id", .reference "Id"),
   ("holder", .asRequired (.reference "Label"))]

theorem shape_reads_declared_flag_badge :
    let members : Record Json := .ofList [("floors", .array [.string "two"])]
    (TypeDef.reference "Label").asRequired.resolve 4 badgeTypes =
      .ok ⟨.string, .asRequired (.builtin .string), rfl⟩ ∧
    members.get? "holder" = none ∧
    ∃ earlier later,
      badgeFields = earlier ++ ("holder", .asRequired (.reference "Label")) :: later ∧
      (Json.object members).validate 4 badgeTypes (.shape badgeFields) = (do
        let before ← (Json.object members).validate 4 badgeTypes (.shape earlier)
        let after ← (Json.object members).validate 4 badgeTypes (.shape later)
        return before.merge ((absenceReport "holder" true).merge after)) ∧
      ¬badgeTypes.InheritsRequired (.asRequired (.reference "Label")) := by
  intro members
  have resolves : (TypeDef.shape badgeFields).resolve 4 badgeTypes =
      .ok ⟨.shape, .shape badgeFields, rfl⟩ := rfl
  have declared : (Record.ofList badgeFields).get? "holder" =
      some (.asRequired (.reference "Label")) := rfl
  have hfield : (TypeDef.reference "Label").asRequired.resolve 4 badgeTypes =
      .ok ⟨.string, .asRequired (.builtin .string), rfl⟩ := rfl
  have absent : members.get? "holder" = none := rfl
  obtain ⟨earlier, later, hsplit, hreport, -, hflag⟩ :=
    shape_reads_declared_flag resolves rfl rfl declared hfield absent
  exact ⟨hfield, absent, earlier, later, hsplit, hreport, hflag.mp rfl⟩

/-- A field that refers to a required entry resolves to a required definition, and neither a report
nor a signature shows it. -/
theorem inherited_flag_unread :
    let registry := Registry.ofList [("Id", .asRequired (.builtin .int))]
    let d := TypeDef.shape [("x", .reference "Id")]
    registry.InheritsRequired (.reference "Id") ∧
    (∃ resolved, (TypeDef.reference "Id").resolve 64 registry = .ok resolved ∧
      resolved.definition.isRequired = true) ∧
    (Json.object ∅).validate 64 registry d = .ok .success ∧
    d.signature 64 registry = .ok "shape(x:int)" := by
  refine ⟨⟨rfl, _, rfl, .stated rfl⟩, ⟨_, rfl, rfl⟩, rfl, ?_⟩
  decide +kernel

end Badges

end ValueSchema
