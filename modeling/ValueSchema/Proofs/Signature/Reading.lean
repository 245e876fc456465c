import ValueSchema.Proofs.Signature.Reflexivity
import ValueSchema.Proofs.Signature.Text

/-! # Signatures are unambiguous

A tag ends at the first punctuation, details end at a closing parenthesis or with a name, and each
part is followed by a comma or a parenthesis. -/

namespace ValueSchema

/-- The names of a resolved definition contain no punctuation, and its options are literals. -/
structure Resolved.Legible (resolved : Resolved) : Prop where
  name : resolved.kind = .scalar → ∀ name, resolved.definition.name = some name →
    Undelimited name.toList
  fields : resolved.kind = .shape → ∀ fields, resolved.definition.fields = some fields →
    ∀ name ∈ fields.names, Undelimited name.toList
  options : resolved.kind = .oneOf → ∀ options, resolved.definition.options = some options →
    ∀ choice ∈ options, choice.value.IsLiteral

/-! ## Tags and marks -/

theorem startsDelimited_append {text rest : List Char} (htext : StartsDelimited text)
    (hrest : StartsDelimited rest) : StartsDelimited (text ++ rest) := by
  cases text with
  | nil => exact hrest
  | cons c text => exact htext

theorem Builtin.undelimited_tag (kind : Builtin) : Undelimited kind.tag.toList := by
  cases kind <;> simp [tag, Undelimited, delimiters]

namespace Resolved

variable {resolved resolved' : Resolved} {rest rest' : List Char}

theorem startsDelimited_nameText (resolved : Resolved) :
    StartsDelimited resolved.nameText.toList := by
  unfold nameText
  split
  · cases resolved.definition.name <;> simp [StartsDelimited, delimiters]
  · simp [StartsDelimited]

theorem startsDelimited_nullMark (resolved : Resolved) :
    StartsDelimited resolved.nullMark.toList := by
  unfold nullMark
  split <;> simp [StartsDelimited, delimiters]

theorem Details.startsDelimited {signed : TypeDef → String → Prop} {details : String}
    (h : resolved.Details signed details) : StartsDelimited details.toList := by
  have henclosed : ∀ texts, StartsDelimited (enclosed texts).toList := by
    simp [enclosed, StartsDelimited, delimiters]
  cases h with
  | plain plain => exact resolved.startsDelimited_nameText
  | choices | element | fields => exact henclosed _

/-- A mark is not mistaken for the end of an item. -/
theorem null_of_nullMark_append (kind_eq : resolved.kind = resolved'.kind) (hrest : EndsItem rest)
    (hrest' : EndsItem rest')
    (h : resolved.nullMark.toList ++ rest = resolved'.nullMark.toList ++ rest') :
    (resolved.kind.isNullable = true →
      (resolved.definition.isNotNull == resolved'.definition.isNotNull) = true) ∧
      rest = rest' := by
  unfold nullMark at h
  rw [← kind_eq] at h
  cases hnullable : resolved.kind.isNullable with
  | false => simpa [hnullable] using h
  | true =>
      cases hnull : resolved.definition.isNotNull <;>
        cases hnull' : resolved'.definition.isNotNull <;>
        simp [hnullable, hnull, hnull'] at h ⊢
      · exact h
      · exact absurd h (hrest.ne_cons (by simp) (by simp))
      · exact absurd h.symm (hrest'.ne_cons (by simp) (by simp))
      · exact h

/-! ## Details -/

/-- The names of two scalars are the same if they are written alike. -/
theorem name_eq_of_nameText_append (legible : resolved.Legible) (legible' : resolved'.Legible)
    (kind : resolved.kind = .scalar) (kind' : resolved'.kind = .scalar) (hrest : EndsItem rest)
    (hrest' : EndsItem rest')
    (h : resolved.nameText.toList ++ rest = resolved'.nameText.toList ++ rest') :
    resolved.definition.name = resolved'.definition.name ∧ rest = rest' := by
  simp only [nameText, kind, kind'] at h
  cases hname : resolved.definition.name with
  | none =>
      cases hname' : resolved'.definition.name with
      | none => exact ⟨rfl, by simpa [hname, hname'] using h⟩
      | some name' =>
          have hcolon : rest = ':' :: (name'.toList ++ rest') := by simpa [hname, hname'] using h
          exact absurd hcolon (hrest.ne_cons (by simp) (by simp))
  | some name =>
      cases hname' : resolved'.definition.name with
      | none =>
          have hcolon : rest' = ':' :: (name.toList ++ rest) := by
            simpa [hname, hname'] using h.symm
          exact absurd hcolon (hrest'.ne_cons (by simp) (by simp))
      | some name' =>
          have hnames : name.toList ++ rest = name'.toList ++ rest' := by
            simpa [hname, hname'] using h
          have hread := (legible.name kind name hname).eq_of_append_eq
            (legible'.name kind' name' hname') hrest.startsDelimited hrest'.startsDelimited hnames
          exact ⟨by rw [String.toList_injective hread.1], hread.2⟩

end Resolved

section Field

variable {field field' : String × TypeDef} {part part' : String} {same : Prop}

theorem toList_fieldLabel (field : String × TypeDef) (rest : List Char) :
    (fieldLabel field).toList ++ rest =
      field.1.toList ++ if field.2.isRequired then '*' :: ':' :: rest else ':' :: rest := by
  unfold fieldLabel
  cases field.2.isRequired <;> simp

theorem opensItem_field (hname : Undelimited field.1.toList) :
    OpensItem (fieldLabel field ++ part) := by
  have hparen : ')' ∈ delimiters := by simp [delimiters]
  unfold OpensItem
  rw [String.toList_append, toList_fieldLabel]
  cases hlist : field.1.toList with
  | nil => split <;> exact ⟨_, _, rfl, by simp⟩
  | cons c rest =>
      refine ⟨c, _, rfl, ?_⟩
      rintro rfl
      exact hname ')' (hlist ▸ List.mem_cons_self ..) hparen

/-- A label ends at its colon, so a field is read in two steps. -/
theorem unambiguous_field (hname : Undelimited field.1.toList)
    (hname' : Undelimited field'.1.toList) (h : Unambiguous part part' same) :
    Unambiguous (fieldLabel field ++ part) (fieldLabel field' ++ part')
      (field.1 = field'.1 ∧ field.2.isRequired = field'.2.isRequired ∧ same) := by
  intro rest rest' hrest hrest' heq
  rw [String.toList_append, String.toList_append, List.append_assoc, List.append_assoc,
    toList_fieldLabel, toList_fieldLabel] at heq
  have hstart : ∀ (flag : Bool) (text : List Char),
      StartsDelimited (if flag then '*' :: ':' :: text else ':' :: text) := by
    intro flag text
    cases flag <;> simp [StartsDelimited, delimiters]
  have hnames := hname.eq_of_append_eq hname' (hstart _ _) (hstart _ _) heq
  have hparts : field.2.isRequired = field'.2.isRequired ∧
      part.toList ++ rest = part'.toList ++ rest' := by
    have hmarks := hnames.2
    cases hflag : field.2.isRequired <;> cases hflag' : field'.2.isRequired <;>
      simp [hflag, hflag'] at hmarks ⊢ <;> exact hmarks
  have hsame := h rest rest' hrest hrest' hparts.2
  exact ⟨⟨String.toList_injective hnames.1, hparts.1, hsame.1⟩, hsame.2⟩

end Field

section Layer

variable {signed signed' : TypeDef → String → Prop} {same : TypeDef → TypeDef → Prop}
  {resolved resolved' : Resolved} {details details' : String} {rest rest' : List Char}

theorem Resolved.fits_of_plain (plain : resolved.kind.isPlain = true) (legible : resolved.Legible)
    (legible' : resolved'.Legible) (kind_eq : resolved.kind = resolved'.kind)
    (hrest : EndsItem rest) (hrest' : EndsItem rest')
    (heq : resolved.nameText.toList ++ (resolved.nullMark.toList ++ rest) =
      resolved'.nameText.toList ++ (resolved'.nullMark.toList ++ rest')) :
    (resolved.kind ≠ .func → Fits (· == ·) same resolved resolved') ∧ rest = rest' := by
  by_cases kind : resolved.kind = .scalar
  · have kind' : resolved'.kind = .scalar := kind_eq ▸ kind
    have hmark : resolved.nullMark = "" := by simp [nullMark, kind, Builtin.isNullable]
    have hmark' : resolved'.nullMark = "" := by simp [nullMark, kind', Builtin.isNullable]
    rw [hmark, hmark'] at heq
    have hnames := name_eq_of_nameText_append legible legible' kind kind' hrest hrest' heq
    exact ⟨fun _ => .scalar kind' hnames.1, hnames.2⟩
  · have hname : resolved.nameText = "" := by simp [nameText]
    have hname' : resolved'.nameText = "" := by simp [nameText, ← kind_eq]
    rw [hname, hname'] at heq
    have hnull := null_of_nullMark_append kind_eq hrest hrest' heq
    refine ⟨fun hfunc => ?_, hnull.2⟩
    by_cases object : resolved.kind = .object
    · exact .object (kind_eq ▸ object) (hnull.1 (by simp [object, Builtin.isNullable]))
    · exact .bare (kind_eq ▸ Builtin.isBare_of_isPlain plain kind object hfunc)

theorem sameValues_of_enclosed {choices choices' : List Choice}
    (literal : ∀ choice ∈ choices, choice.value.IsLiteral)
    (literal' : ∀ choice ∈ choices', choice.value.IsLiteral)
    (heq : (enclosed (choices.map fun choice => choice.value.text)).toList ++ rest =
      (enclosed (choices'.map fun choice => choice.value.text)).toList ++ rest') :
    Choice.sameValues choices choices' = true ∧ rest = rest' := by
  have htexts : ∀ choices : List Choice, (∀ choice ∈ choices, choice.value.IsLiteral) →
      List.Forall₂ (fun choice text => choice.value.IsLiteral ∧ choice.value.text = text) choices
        (choices.map fun choice => choice.value.text) := by
    intro choices literal
    rw [List.forall₂_map_right_iff]
    exact List.forall₂_same.mpr fun choice hchoice => ⟨literal choice hchoice, rfl⟩
  have hvalues :
      List.Forall₂ (fun choice choice' => choice.value = choice'.value) choices choices' ∧
        rest = rest' := by
    refine forall₂_of_enclosed ?_ (htexts choices literal) (htexts choices' literal') ?_ ?_ heq
    · rintro choice _ choice' _ ⟨hliteral, rfl⟩ ⟨hliteral', rfl⟩
      exact hliteral.unambiguous_text hliteral'
    · rintro choice _ ⟨hliteral, rfl⟩
      exact hliteral.opensItem_text
    · rintro choice _ ⟨hliteral, rfl⟩
      exact hliteral.opensItem_text
  exact hvalues.imp_left Choice.sameValues_of_forall₂

theorem fieldsFit_of_enclosed {fields fields' : Record TypeDef} {texts texts' : List String}
    (hnames : ∀ name ∈ fields.names, Undelimited name.toList)
    (hnames' : ∀ name ∈ fields'.names, Undelimited name.toList)
    (hparts : ∀ field ∈ fields.toList, ∀ field' ∈ fields'.toList, ∀ text text',
      signed field.2 text → signed' field'.2 text' →
        Unambiguous text text' (same field.2 field'.2))
    (each : List.Forall₂ (fun field text => ∃ part, signed field.2 part ∧
      fieldLabel field ++ part = text) fields.toList texts)
    (each' : List.Forall₂ (fun field text => ∃ part, signed' field.2 part ∧
      fieldLabel field ++ part = text) fields'.toList texts')
    (heq : (enclosed texts).toList ++ rest = (enclosed texts').toList ++ rest') :
    FieldsFit (· == ·) same fields fields' ∧ rest = rest' := by
  have hname : ∀ field ∈ fields.toList, Undelimited field.1.toList := fun field hfield =>
    hnames field.1 (fields.map_fst_toList ▸ List.mem_map_of_mem hfield)
  have hname' : ∀ field ∈ fields'.toList, Undelimited field.1.toList := fun field hfield =>
    hnames' field.1 (fields'.map_fst_toList ▸ List.mem_map_of_mem hfield)
  have hrelated : Record.Related (fun field field' =>
      (field.isRequired == field'.isRequired) = true ∧ same field field') fields fields' ∧
      rest = rest' := by
    refine forall₂_of_enclosed ?_
      (forall₂_imp_of_mem each fun field hfield text htext => And.intro hfield htext)
      (forall₂_imp_of_mem each' fun field hfield text htext => And.intro hfield htext) ?_ ?_ heq
    · rintro field _ field' _ ⟨hfield, part, hpart, rfl⟩ ⟨hfield', part', hpart', rfl⟩
      have hread := unambiguous_field (hname field hfield) (hname' field' hfield')
        (hparts field hfield field' hfield' part part' hpart hpart')
      exact hread.imp fun h => ⟨h.1, beq_iff_eq.mpr h.2.1, h.2.2⟩
    · rintro field _ ⟨hfield, part, -, rfl⟩
      exact opensItem_field (hname field hfield)
    · rintro field _ ⟨hfield, part, -, rfl⟩
      exact opensItem_field (hname' field hfield)
  exact hrelated.imp_left FieldsFit.of_related

/-- Details that are read alike belong to definitions that fit. -/
theorem Resolved.Details.fits_of_append (h : resolved.Details signed details)
    (h' : resolved'.Details signed' details') (legible : resolved.Legible)
    (legible' : resolved'.Legible) (kind_eq : resolved.kind = resolved'.kind)
    (hparts : ∀ part ∈ resolved.parts, ∀ part' ∈ resolved'.parts, ∀ text text',
      signed part text → signed' part' text' → Unambiguous text text' (same part part'))
    (hrest : EndsItem rest) (hrest' : EndsItem rest')
    (heq : details.toList ++ (resolved.nullMark.toList ++ rest) =
      details'.toList ++ (resolved'.nullMark.toList ++ rest')) :
    (resolved.kind ≠ .func → Fits (· == ·) same resolved resolved') ∧ rest = rest' := by
  -- Equal kinds have details of the same form.
  cases h with
  | plain plain =>
      obtain rfl := h'.eq_nameText (kind_eq ▸ plain)
      exact fits_of_plain plain legible legible' kind_eq hrest hrest' heq
  | choices kind hchoices =>
      have kind' : resolved'.kind = .oneOf := kind_eq ▸ kind
      obtain ⟨choices', hchoices', rfl⟩ := h'.exists_choices kind'
      have hvalues := sameValues_of_enclosed
        (legible.options kind _ (TypeDef.options_of_choices hchoices))
        (legible'.options kind' _ (TypeDef.options_of_choices hchoices')) heq
      have hnull := null_of_nullMark_append kind_eq hrest hrest' hvalues.2
      exact ⟨fun _ => .oneOf kind' hchoices hchoices' hvalues.1, hnull.2⟩
  | @element element text kind helement hpart =>
      obtain ⟨element', text', helement', hpart', rfl⟩ := h'.exists_element (kind_eq ▸ kind)
      have hread : Unambiguous text text' (same element element') :=
        hparts element (by simp [parts_of_element kind helement]) element'
          (by simp [parts_of_element (kind_eq ▸ kind) helement']) text text' hpart hpart'
      rw [toList_enclosed_cons, toList_enclosed_cons, List.cons.injEq] at heq
      have hsame := hread _ _ (endsItem_restOfItems _ _) (endsItem_restOfItems _ _) heq.2
      have hnull := null_of_nullMark_append kind_eq hrest hrest' (List.cons.inj hsame.2).2
      refine ⟨fun _ => ?_, hnull.2⟩
      rcases kind with kind | kind
      · exact .arrayOf (kind_eq ▸ kind) helement helement' hsame.1
      · have null := hnull.1 (by simp [kind, Builtin.isNullable])
        exact .objectOf (kind_eq ▸ kind) null helement helement' hsame.1
  | @fields fields texts kind hfields each =>
      have kind' : resolved'.kind = .shape := kind_eq ▸ kind
      obtain ⟨fields', texts', hfields', each', rfl⟩ := h'.exists_fields kind'
      rw [parts_of_declaredFields kind hfields, parts_of_declaredFields kind' hfields'] at hparts
      simp only [List.forall_mem_map] at hparts
      have hfit := fieldsFit_of_enclosed
        (legible.fields kind _ (TypeDef.fields_of_declaredFields hfields))
        (legible'.fields kind' _ (TypeDef.fields_of_declaredFields hfields'))
        hparts each each' heq
      have hnull := null_of_nullMark_append kind_eq hrest hrest' hfit.2
      have null := hnull.1 (by simp [kind, Builtin.isNullable])
      exact ⟨fun _ => .shape kind' null hfields hfields' hfit.1, hnull.2⟩

end Layer

theorem unambiguous_signatureWithin {limit depth : Nat} {registry registry' : Registry}
    {d d' : TypeDef} {text text' : String}
    (h : d.signatureWithin limit registry depth = .ok text)
    (h' : d'.signatureWithin limit registry' depth = .ok text')
    (legible : d.Throughout limit registry Resolved.Legible)
    (legible' : d'.Throughout limit registry' Resolved.Legible) :
    Unambiguous text text' (Matched limit registry registry' depth d d') := by
  induction depth generalizing d d' text text' with
  | zero => cases h
  | succ depth ih =>
      obtain ⟨resolved, details, resolves, hdetails, rfl⟩ := exists_details_of_signatureWithin h
      obtain ⟨resolved', details', resolves', hdetails', rfl⟩ :=
        exists_details_of_signatureWithin h'
      rw [TypeDef.throughout_iff resolves] at legible
      rw [TypeDef.throughout_iff resolves'] at legible'
      intro rest rest' hrest hrest' heq
      simp only [String.toList_append, List.append_assoc] at heq
      -- The tag comes first and is followed by punctuation.
      have htags := resolved.kind.undelimited_tag.eq_of_append_eq resolved'.kind.undelimited_tag
        (startsDelimited_append hdetails.startsDelimited
          (startsDelimited_append resolved.startsDelimited_nullMark hrest.startsDelimited))
        (startsDelimited_append hdetails'.startsDelimited
          (startsDelimited_append resolved'.startsDelimited_nullMark hrest'.startsDelimited)) heq
      have hkind : resolved.kind = resolved'.kind :=
        Builtin.tag_injective (String.toList_injective htags.1)
      have hfits := hdetails.fits_of_append hdetails' legible.1 legible'.1 hkind
        (fun part hpart part' hpart' text text' hsigned hsigned' =>
          ih hsigned hsigned' (legible.2 part hpart) (legible'.2 part' hpart'))
        hrest hrest' htags.2
      exact ⟨⟨resolved, resolved', resolves, resolves', hkind, hfits.1⟩, hfits.2⟩

/-- Types with the same signature can be compared, and are equivalent unless one of their
positions is a function type. -/
theorem equivalent_of_signature_eq {limit : Nat} {registry registry' : Registry} {d d' : TypeDef}
    {text : String} (h : d.signature limit registry = .ok text)
    (h' : d'.signature limit registry' = .ok text)
    (legible : d.Throughout limit registry Resolved.Legible)
    (legible' : d'.Throughout limit registry' Resolved.Legible) :
    ∃ answer, TypeDef.equivalent limit registry registry' d d' = .ok answer ∧
      (answer = true ↔ d.FunctionFree limit registry) :=
  (unambiguous_signatureWithin h h' legible legible').same.answers_equivalentWithin

section Parcel

def stages : Registry := .ofList [("stage", .oneOf [.string "), id*:int(", .null])]

/-- A parcel with an option that looks like the end of it. -/
def parcel : TypeDef := .shape
  [("id", ((TypeDef.builtin .scalar).named "uuid").asRequired), ("stage", .reference "stage")]

def inlineParcel : TypeDef := .shape
  [("id", ((TypeDef.builtin .scalar).named "uuid").asRequired),
    ("stage", .oneOf [.string "), id*:int(", .null])]

theorem equivalent_of_signature_eq_parcel :
    parcel.signature 2 stages =
      .ok "shape(id*:scalar:uuid, stage:oneOf(\"), id*:int(\", null))" ∧
    parcel.signature 2 stages = inlineParcel.signature 2 ∅ ∧
    parcel.equivalent 2 stages ∅ inlineParcel = .ok true ∧ parcel.FunctionFree 2 stages := by
  have hsignature : parcel.signature 2 stages =
      .ok "shape(id*:scalar:uuid, stage:oneOf(\"), id*:int(\", null))" := by decide +kernel
  have hsignature' : inlineParcel.signature 2 ∅ =
      .ok "shape(id*:scalar:uuid, stage:oneOf(\"), id*:int(\", null))" := by decide +kernel
  have htrue : parcel.equivalent 2 stages ∅ inlineParcel = .ok true := by decide +kernel
  have hid : ∀ registry, (((TypeDef.builtin .scalar).named "uuid").asRequired).Throughout 2
      registry Resolved.Legible := by
    intro registry
    refine (TypeDef.throughout_iff rfl).mpr ⟨⟨?_, by simp, by simp⟩, by simp [Resolved.parts]⟩
    rintro - name hname
    cases hname
    simp [Undelimited, delimiters]
  have hoptions : ∀ registry, (TypeDef.oneOf [.string "), id*:int(", .null]).Throughout 2 registry
      Resolved.Legible := by
    intro registry
    refine (TypeDef.throughout_iff rfl).mpr ⟨⟨by simp, by simp, ?_⟩, by simp [Resolved.parts]⟩
    rintro - options hoptions
    cases hoptions
    simp [Json.IsLiteral.string, Json.IsLiteral.bare .null]
  have hshape : ∀ registry stage, stage.Throughout 2 registry Resolved.Legible →
      (TypeDef.shape [("id", ((TypeDef.builtin .scalar).named "uuid").asRequired),
        ("stage", stage)]).Throughout 2 registry Resolved.Legible := by
    intro registry stage hstage
    refine (TypeDef.throughout_iff rfl).mpr ⟨⟨by simp, ?_, by simp⟩, ?_⟩
    · rintro - fields hfields
      cases hfields
      exact List.forall_mem_cons.mpr
        ⟨by simp [Undelimited, delimiters], by simp [Undelimited, delimiters]⟩
    · exact List.forall_mem_cons.mpr ⟨hid registry, List.forall_mem_singleton.mpr hstage⟩
  have hreference : (TypeDef.reference "stage").Throughout 2 stages Resolved.Legible :=
    (TypeDef.throughout_iff rfl).mpr ((TypeDef.throughout_iff rfl).mp (hoptions stages))
  obtain ⟨_, hequivalent, hanswer⟩ :=
    equivalent_of_signature_eq hsignature hsignature' (hshape _ _ hreference)
      (hshape _ _ (hoptions ∅))
  cases htrue.symm.trans hequivalent
  exact ⟨hsignature, hsignature.trans hsignature'.symm, htrue, hanswer.mp rfl⟩

end Parcel

end ValueSchema
