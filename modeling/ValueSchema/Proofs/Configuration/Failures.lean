import ValueSchema.Proofs.Configuration.Basic
import ValueSchema.Proofs.Contract

/-! # Failures of well-configured definitions -/

namespace ValueSchema

/-- Well-configured definitions resolve and lack nothing, so no failure has to be allowed. -/
theorem isGuarded_wellConfigured (allowed : Failure → Prop) (limit : Nat) (registry : Registry) :
    IsGuarded allowed limit registry (WellConfigured limit registry) := by
  intro d h
  obtain ⟨resolved, resolves⟩ := h.resolves.exists_resolve
  have hdefinition := h.definition resolves
  rw [resolves]
  refine ⟨fun failure hlacks => ?_, fun part => hdefinition.of_mem_parts⟩
  exact (hdefinition.isComplete.not_lacks failure hlacks).elim

/-- Operations on well-configured definitions. Checks always have a report, and a path fails only
where a step does not apply. What follows a definition fails only if it is nested too deeply, and
a coercion only if the types do not fit together. -/
theorem wellConfigured_failures (limit : Nat) (registry : Registry) (d : TypeDef)
    (h : WellConfigured limit registry d) :
    (∀ value : Json, ∃ report, value.validate limit registry d = .ok report) ∧
    (∀ path failure, d.atPath limit registry path = .error failure →
      ∃ kind step, failure = .incompatibleStep kind step) ∧
    (∀ failure, d.signature limit registry = .error failure → failure = .recursionLimit limit) ∧
    (∀ filling failure, d.defaultValue limit registry filling = .error failure →
      failure = .recursionLimit limit) ∧
    ∀ (other : TypeDef) (otherRegistry : Registry), WellConfigured limit otherRegistry other →
      (∀ failure, d.equivalent limit registry otherRegistry other = .error failure →
        failure = .recursionLimit limit) ∧
      (∀ failure, d.compatible limit registry otherRegistry other = .error failure →
        failure = .recursionLimit limit) ∧
      ∀ (value : Json) (failure : Failure),
        value.coerce limit registry otherRegistry d other = .error failure →
          (∃ kind kind', failure = .uncoercible kind kind') ∨
            ∃ name, failure = .missingTargetField name := by
  -- Each operation is allowed its own failures and no others.
  have guarded (registry : Registry) (allowed : Failure → Prop) :=
    isGuarded_wellConfigured allowed limit registry
  have cut := guarded registry (· = .recursionLimit limit)
  refine ⟨?_, ?_, ?_, ?_, ?_⟩
  · intro value
    exact ((guarded registry _).yields_check value d _ h).exists_eq_ok
  · intro path failure
    let misstep : Failure → Prop := fun failure =>
      ∃ kind step, failure = .incompatibleStep kind step
    have hsteps : ∀ kind step, misstep (.incompatibleStep kind step) :=
      fun kind step => ⟨kind, step, rfl⟩
    exact ((guarded registry misstep).yields_atPath hsteps h path).allowed_of_eq_error
  · intro failure
    exact (cut.yields_signatureWithin rfl limit h).allowed_of_eq_error
  · intro filling failure
    exact (cut.yields_defaultWithin rfl limit filling h).allowed_of_eq_error
  · intro other otherRegistry h'
    have cut' := guarded otherRegistry (· = .recursionLimit limit)
    refine ⟨?_, ?_, ?_⟩
    · intro failure
      exact (cut.yields_equivalentWithin cut' rfl limit h h').allowed_of_eq_error
    · intro failure
      exact (cut.yields_compatibleWithin cut' rfl limit h h').allowed_of_eq_error
    · intro value failure
      let misfit : Failure → Prop := fun failure =>
        (∃ kind kind', failure = .uncoercible kind kind') ∨
          ∃ name, failure = .missingTargetField name
      have hkinds : ∀ kind kind', misfit (.uncoercible kind kind') :=
        fun kind kind' => .inl ⟨kind, kind', rfl⟩
      have hnames : ∀ name, misfit (.missingTargetField name) := fun name => .inr ⟨name, rfl⟩
      exact ((guarded registry misfit).yields_coerce (guarded otherRegistry misfit) hkinds hnames
        value h h').allowed_of_eq_error

section Thread

/-- Comments have replies, which are comments in turn. -/
def comments : Registry := .ofList
  [("author", .oneOf [.string "anna", .string "ben"]),
    ("comment", .shape [("author", (TypeDef.reference "author").asRequired),
      ("replies", .reference "replies")]),
    ("replies", .arrayOf (.reference "comment"))]

/-- The scores are an array like the replies, but one of numbers. -/
def thread : TypeDef := .shape [("top", .reference "comment"),
  ("scores", { TypeDef.reference "replies" with ofType := some (.builtin .int) })]

/-- The definition never ends, so it has no signature, but every value can be checked. -/
theorem wellConfigured_failures_thread :
    WellConfigured 3 comments thread ∧
    (∀ value : Json, ∃ report, value.validate 3 comments thread = .ok report) ∧
    thread.signature 3 comments = .error (.recursionLimit 3) ∧
    thread.compatible 3 comments comments thread = .error (.recursionLimit 3) := by
  have h : WellConfigured 3 comments thread := by decide +kernel
  obtain ⟨hvalidate, -, hsignature, -, hpairs⟩ := wellConfigured_failures 3 comments thread h
  obtain ⟨-, hcompatible, -⟩ := hpairs thread comments h
  refine ⟨h, hvalidate, ?_, ?_⟩
  · obtain ⟨failure, hfails⟩ : ∃ failure, thread.signature 3 comments = .error failure := ⟨_, rfl⟩
    rw [hfails, hsignature failure hfails]
  · obtain ⟨failure, hfails⟩ : ∃ failure,
        thread.compatible 3 comments comments thread = .error failure := ⟨_, rfl⟩
    rw [hfails, hcompatible failure hfails]

end Thread

end ValueSchema
