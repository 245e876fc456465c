import ValueSchema.Proofs.Antisymmetry
import ValueSchema.Proofs.Signature.Rules

/-! # Types are equivalent to themselves

A comparison of a type with itself visits no more than its signature shows. -/

namespace ValueSchema

/-! ## Common structure -/

/-- Definitions that resolve to the same structure on a number of levels. Function types match
here, which is all that distinguishes it from equivalence. -/
def Matched (limit : Nat) (leftRegistry rightRegistry : Registry) : Nat → TypeDef → TypeDef → Prop
  | 0, _, _ => False
  | depth + 1, left, right => ∃ source target,
      left.resolve limit leftRegistry = .ok source ∧
      right.resolve limit rightRegistry = .ok target ∧ source.kind = target.kind ∧
      (source.kind ≠ .func →
        Fits (· == ·) (Matched limit leftRegistry rightRegistry depth) source target)

/-- A type in which no function type is found. -/
def TypeDef.FunctionFree (limit : Nat) (registry : Registry) : TypeDef → Prop :=
  TypeDef.Throughout limit registry fun resolved => resolved.kind ≠ .func

/-- A test that ends with an answer, which is `true` under a condition. -/
def Answers (test : Except Failure Bool) (condition : Prop) : Prop :=
  ∃ answer, test = .ok answer ∧ (answer = true ↔ condition)

theorem Answers.congr {test : Except Failure Bool} {condition condition' : Prop}
    (h : Answers test condition) (hiff : condition ↔ condition') : Answers test condition' := by
  obtain ⟨answer, htest, hanswer⟩ := h
  exact ⟨answer, htest, hanswer.trans hiff⟩

section Layer

variable {kinds : Builtin → Builtin → Bool} {flags : Bool → Bool → Bool}
  {parts : TypeDef → TypeDef → Except Failure Bool} {good : TypeDef → Prop}

theorem FieldsFit.answers {fields fields' : Record TypeDef}
    (h : FieldsFit flags (fun d d' => Answers (parts d d') (good d)) fields fields') :
    Answers
      (matchFields (fun field field' =>
        if flags field.isRequired field'.isRequired then parts field field' else pure false)
        fields fields')
      (∀ entry ∈ fields.toList, good entry.2) := by
  rw [matchFields, if_pos h.size_eq]
  -- The loop stops at the first `false`, so the entries that are left need not be visited.
  have hgo : ∀ entries ⊆ fields.toList,
      Answers (matchFields.go (fun field field' =>
        if flags field.isRequired field'.isRequired then parts field field' else pure false)
        fields' entries) (∀ entry ∈ entries, good entry.2) := by
    intro entries hentries
    induction entries with
    | nil => exact ⟨true, rfl, by simp⟩
    | cons entry entries ih =>
        rw [List.cons_subset] at hentries
        obtain ⟨field', hfield', hflags, answer, hparts, hanswer⟩ :=
          h.counterpart entry.1 entry.2 (Record.get?_eq_some_iff.mpr hentries.1)
        rw [matchFields.go]
        simp only [hfield', hflags, if_true, hparts, ok_bind, List.forall_mem_cons, ← hanswer]
        cases answer with
        | false => exact ⟨false, rfl, by simp⟩
        | true => simpa using ih hentries.2
  exact hgo _ (List.Subset.refl _)

/-- One level of a comparison has an answer if the comparison of its parts has, and it is `true`
if all of theirs are. -/
theorem Fits.answers {source target : Resolved} (hkinds : kinds source.kind target.kind = true)
    (hkind : source.kind = target.kind)
    (h : Fits flags (fun d d' => Answers (parts d d') (good d)) source target) :
    Answers (ValueSchema.compareLayer kinds flags parts source target)
      (∀ part ∈ source.parts, good part) := by
  have hleaf : source.parts = [] → ∀ test : Except Failure Bool, test = .ok true →
      Answers test (∀ part ∈ source.parts, good part) := by
    intro hparts test htest
    exact ⟨true, htest, by simp [hparts]⟩
  unfold ValueSchema.compareLayer
  rw [if_pos hkinds]
  cases h with
  | bare kind =>
      have hparts : source.parts = [] := by
        unfold Resolved.parts
        rw [hkind]
        cases hkind' : target.kind <;> simp_all [Builtin.isBare]
      refine hleaf hparts _ ?_
      cases hkind' : target.kind <;> simp_all [Builtin.isBare, pure_eq_ok]
  | scalar kind name_eq =>
      refine hleaf (by simp [Resolved.parts, hkind, kind]) _ ?_
      simp [kind, name_eq, pure_eq_ok]
  | oneOf kind hchoices hchoices' same =>
      refine hleaf (by simp [Resolved.parts, hkind, kind]) _ ?_
      simp [kind, hchoices, hchoices', same, pure_eq_ok]
  | object kind null =>
      refine hleaf (by simp [Resolved.parts, hkind, kind]) _ ?_
      simp [kind, null, pure_eq_ok]
  | arrayOf kind helement helement' fits =>
      rw [Resolved.parts_of_element (.inl (hkind.trans kind)) helement]
      simpa [kind, helement, helement'] using fits
  | objectOf kind null helement helement' fits =>
      rw [Resolved.parts_of_element (.inr (hkind.trans kind)) helement]
      simpa [kind, null, helement, helement'] using fits
  | shape kind null hfields hfields' fits =>
      rw [Resolved.parts_of_declaredFields (hkind.trans kind) hfields, List.forall_mem_map]
      simpa only [kind, null, hfields, hfields', ok_bind, if_true] using fits.answers

end Layer

section Levels

variable {limit : Nat} {leftRegistry rightRegistry : Registry}

/-- A comparison that lets every kind through but functions, and equal flags, has an answer on
definitions of the same structure. -/
theorem Matched.answers {kinds : Builtin → Builtin → Bool} {flags : Bool → Bool → Bool}
    (hkinds : ∀ kind, kinds kind kind = true ↔ kind ≠ .func)
    (hflags : ∀ a b, (a == b) = true → flags a b = true)
    {compare : Nat → TypeDef → TypeDef → Except Failure Bool}
    (succ : ∀ depth left right, compare (depth + 1) left right =
      left.resolve limit leftRegistry >>= fun source =>
        right.resolve limit rightRegistry >>= fun target =>
          compareLayer kinds flags (compare depth) source target)
    {depth : Nat} {left right : TypeDef}
    (h : Matched limit leftRegistry rightRegistry depth left right) :
    Answers (compare depth left right) (left.FunctionFree limit leftRegistry) := by
  induction depth generalizing left right with
  | zero => exact h.elim
  | succ depth ih =>
      obtain ⟨source, target, hsource, htarget, hkind, hfits⟩ := h
      rw [succ, hsource, htarget, ok_bind, ok_bind]
      refine Answers.congr ?_ (TypeDef.throughout_iff hsource).symm
      by_cases hfunc : source.kind = .func
      · have hstops : kinds source.kind target.kind = false := by
          rw [← hkind]
          simpa [hfunc] using hkinds source.kind
        refine ⟨false, ?_, by simp [hfunc]⟩
        simp [compareLayer, hstops, pure_eq_ok]
      · have hpasses : kinds source.kind target.kind = true := by
          rw [← hkind]
          exact (hkinds source.kind).mpr hfunc
        have hparts := (hfits hfunc).mono hflags fun _ _ hmatched => ih hmatched
        refine (hparts.answers hpasses hkind).congr ?_
        simp [hfunc, TypeDef.FunctionFree]

theorem Matched.answers_equivalentWithin {depth : Nat} {left right : TypeDef}
    (h : Matched limit leftRegistry rightRegistry depth left right) :
    Answers (TypeDef.equivalentWithin limit leftRegistry rightRegistry depth left right)
      (left.FunctionFree limit leftRegistry) := by
  refine h.answers ?_ ?_ (equivalentWithin_succ limit leftRegistry rightRegistry)
  · exact fun kind => by simp [Builtin.equates]
  · exact fun _ _ hflags => hflags

theorem Matched.answers_compatibleWithin {depth : Nat} {left right : TypeDef}
    (h : Matched limit leftRegistry rightRegistry depth left right) :
    Answers (TypeDef.compatibleWithin limit leftRegistry rightRegistry depth left right)
      (left.FunctionFree limit leftRegistry) := by
  refine h.answers ?_ ?_ (compatibleWithin_succ limit leftRegistry rightRegistry)
  · exact fun kind => Builtin.widensTo_self_iff
  · decide

end Levels

/-! ## Types with a signature -/

theorem Choice.sameValues_of_forall₂ {choices choices' : List Choice}
    (h : List.Forall₂ (fun choice choice' => choice.value = choice'.value) choices choices') :
    sameValues choices choices' = true := by
  have hcovered : covered choices choices' = true := by
    refine List.all_eq_true.mpr (forall_of_forall₂ h.flip fun choice' choice hmem hvalue => ?_)
    exact List.any_eq_true.mpr ⟨choice', hmem, hvalue ▸ choice.value.valueEq_self⟩
  have hcovered' : covered choices' choices = true := by
    refine List.all_eq_true.mpr (forall_of_forall₂ h fun choice choice' hmem hvalue => ?_)
    exact List.any_eq_true.mpr ⟨choice, hmem, hvalue ▸ choice.value.valueEq_self⟩
  rw [sameValues, hcovered, hcovered', Bool.and_self]

theorem Builtin.isBare_of_isPlain {kind : Builtin} (plain : kind.isPlain = true)
    (scalar : kind ≠ .scalar) (object : kind ≠ .object) (func : kind ≠ .func) :
    kind.isBare = true := by
  cases kind <;> simp_all [isPlain, isBare]

theorem FieldsFit.of_related {flags : Bool → Bool → Bool} {same : TypeDef → TypeDef → Prop}
    {fields fields' : Record TypeDef}
    (h : Record.Related (fun field field' =>
      flags field.isRequired field'.isRequired = true ∧ same field field') fields fields') :
    FieldsFit flags same fields fields' := by
  refine ⟨congrArg List.length h.names_eq, fun name field hfield => ?_⟩
  obtain ⟨field', hfield', hrel⟩ := h.exists_right (Record.get?_eq_some_iff.mp hfield)
  exact ⟨field', Record.get?_eq_some_iff.mpr hfield', hrel⟩

/-- A definition whose details can be written fits itself if its parts do. -/
theorem Resolved.Details.fits_self {signed : TypeDef → String → Prop}
    {parts : TypeDef → TypeDef → Prop} {resolved : Resolved} {text : String}
    (h : resolved.Details signed text) (hfunc : resolved.kind ≠ .func)
    (hparts : ∀ part text, signed part text → parts part part) :
    Fits (· == ·) parts resolved resolved := by
  cases h with
  | plain plain =>
      by_cases scalar : resolved.kind = .scalar
      · exact .scalar scalar rfl
      · by_cases object : resolved.kind = .object
        · exact .object object (by simp)
        · exact .bare (Builtin.isBare_of_isPlain plain scalar object hfunc)
  | choices kind hchoices =>
      refine .oneOf kind hchoices hchoices (Choice.sameValues_of_forall₂ ?_)
      exact List.forall₂_same.mpr fun _ _ => rfl
  | element kind helement part =>
      rcases kind with kind | kind
      · exact .arrayOf kind helement helement (hparts _ _ part)
      · exact .objectOf kind (by simp) helement helement (hparts _ _ part)
  | @fields fields texts kind hfields each =>
      have hfield : ∀ field ∈ fields.toList, parts field.2 field.2 := by
        refine forall_of_forall₂ (List.Forall₂.flip each) ?_
        rintro text field - ⟨part, hpart, -⟩
        exact hparts field.2 part hpart
      refine .shape kind (by simp) hfields hfields (.of_related ?_)
      exact List.forall₂_same.mpr fun field hmem => ⟨rfl, by simp, hfield field hmem⟩

theorem matched_self_of_signatureWithin {limit depth : Nat} {registry : Registry} {d : TypeDef}
    {text : String} (h : d.signatureWithin limit registry depth = .ok text) :
    Matched limit registry registry depth d d := by
  induction depth generalizing d text with
  | zero => cases h
  | succ depth ih =>
      obtain ⟨resolved, details, resolves, hdetails, -⟩ := exists_details_of_signatureWithin h
      refine ⟨resolved, resolved, resolves, resolves, rfl, fun hfunc => ?_⟩
      exact hdetails.fits_self hfunc fun part text hpart => ih hpart

/-- A type with a signature is equivalent to itself and compatible with itself, unless one of its
positions is a function type. In either case both comparisons end with the same answer. -/
theorem equivalent_self_of_signature {limit : Nat} {registry : Registry} {d : TypeDef}
    {text : String} (h : d.signature limit registry = .ok text) :
    ∃ answer, d.equivalent limit registry registry d = .ok answer ∧
      d.compatible limit registry registry d = .ok answer ∧
      (answer = true ↔ d.FunctionFree limit registry) := by
  have hmatched := matched_self_of_signatureWithin h
  obtain ⟨answer, hequivalent, hanswer⟩ := hmatched.answers_equivalentWithin
  obtain ⟨answer', hcompatible, hanswer'⟩ := hmatched.answers_compatibleWithin
  obtain rfl : answer = answer' := Bool.eq_iff_iff.mpr (hanswer.trans hanswer'.symm)
  exact ⟨answer, hequivalent, hcompatible, hanswer⟩

section Plugin

def plugins : Registry := .ofList
  [("hook", .builtin .func), ("level", .oneOf [.string "low", .number .zero, .string "low"])]

/-- A repeated option does no harm, a hook inside an array does. -/
def plugin : TypeDef := .shape
  [("level", (TypeDef.reference "level").asRequired), ("hooks", .arrayOf (.reference "hook"))]

theorem equivalent_self_of_signature_plugin :
    plugin.signature 3 plugins =
      .ok "shape(level*:oneOf(\"low\", 0, \"low\"), hooks:arrayOf(func))" ∧
    plugin.equivalent 3 plugins plugins plugin = .ok false ∧
    plugin.compatible 3 plugins plugins plugin = .ok false ∧
    ¬plugin.FunctionFree 3 plugins ∧ (TypeDef.reference "level").FunctionFree 3 plugins := by
  have hsignature : plugin.signature 3 plugins =
      .ok "shape(level*:oneOf(\"low\", 0, \"low\"), hooks:arrayOf(func))" := by decide +kernel
  have hlevel : (TypeDef.reference "level").signature 3 plugins =
      .ok "oneOf(\"low\", 0, \"low\")" := by decide +kernel
  have hfalse : plugin.equivalent 3 plugins plugins plugin = .ok false := by decide +kernel
  have htrue : (TypeDef.reference "level").equivalent 3 plugins plugins (.reference "level") =
      .ok true := by decide +kernel
  obtain ⟨_, hequivalent, hcompatible, hanswer⟩ := equivalent_self_of_signature hsignature
  obtain ⟨_, hequivalent', -, hanswer'⟩ := equivalent_self_of_signature hlevel
  cases hfalse.symm.trans hequivalent
  cases htrue.symm.trans hequivalent'
  exact ⟨hsignature, hfalse, hcompatible, by simpa using hanswer, by simpa using hanswer'⟩

end Plugin

end ValueSchema
