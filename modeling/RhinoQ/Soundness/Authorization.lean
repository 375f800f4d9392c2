import RhinoQ.Model.Authz

/-! # Authorization is no oracle

A target that the subject cannot reach is turned away before the role is looked at, with an answer that says nothing about
the target.
-/

namespace RhinoQ.Model.Authz

variable {subject : Subject} {permission : Permission} {target : Target}

/-- The target is in another tenant, or outside the owner scope. -/
def Subject.Unreachable (subject : Subject) (target : Target) : Prop :=
  target.tenantID ≠ subject.tenantID ∨ subject.tenantWide = false ∧ target.ownerID ≠ subject.ownerScope

/-- The subject gets as far as the gates that look at the target. -/
def Subject.Entitled (subject : Subject) (permission : Permission) : Prop :=
  permission.valid = true ∧ subject.principalID ≠ "" ∧ subject.tenantID ≠ "" ∧ subject.role.valid = true ∧
    subject.disabled = false ∧
    (subject.tenantStatus = .suspended → permission.action = .read)

/-- The target passes the gates that look at it, and the role the last one. -/
structure Passed (subject : Subject) (permission : Permission) (target : Target) : Prop where
  enabled : subject.disabled = false
  suspended : subject.tenantStatus = .suspended → permission.action = .read
  tenant : target.tenantID = subject.tenantID ∨ target.tenantID = "" ∧ target.creating = true
  scope : subject.tenantWide = false → target.ownerID = subject.ownerScope
  role : subject.role.grants permission = true

theorem Passed.of_allowed (allowed : (authorize subject permission target).allowed = true) :
    Passed subject permission target := by
  unfold authorize at allowed
  split_ifs at allowed with malformed unbound disabled suspended mismatch outside lacks
  refine ⟨by simpa using disabled, by simpa using suspended, ?_, ?_, by simpa using lacks⟩
  · by_cases empty : target.tenantID = ""
    · exact .inr ⟨empty, by simpa [empty] using unbound⟩
    · exact .inl (not_not.mp fun elsewhere => mismatch ⟨empty, elsewhere⟩)
  · exact fun narrow => not_not.mp fun other => outside ⟨by simp [narrow], .inr other⟩

theorem conceal_unreachable (bound : target.tenantID ≠ "") (far : subject.Unreachable target) :
    (authorize subject permission target).conceal = true ↔ subject.Entitled permission := by
  unfold authorize Decision.conceal Subject.Entitled
  split_ifs with malformed unbound disabled suspended mismatch outside
  · simp only [Bool.not_eq_true'] at malformed
    grind
  · exact absurd unbound.1 bound
  · simp [disabled]
  · simp [suspended]
  all_goals grind [Subject.Unreachable]

/-- What is told about targets that cannot be reached depends neither on the target nor on the role, and whatever is allowed
passes every gate. -/
theorem authorization_no_oracle (permission : Permission) :
    (∀ (subject : Subject) (role : Role) (first second : Target),
      (role = subject.role ∨ role.valid = true ∧ subject.role.valid = true) →
      first.tenantID ≠ "" → second.tenantID ≠ "" → subject.Unreachable first → subject.Unreachable second →
        (authorize subject permission first).allowed = (authorize { subject with role } permission second).allowed ∧
          (authorize subject permission first).conceal = (authorize { subject with role } permission second).conceal) ∧
    ∀ subject target, (authorize subject permission target).allowed = true → Passed subject permission target := by
  refine ⟨fun subject role first second roles bound bound' far other => ?_, fun subject target => .of_allowed⟩
  have far' : Subject.Unreachable { subject with role } second := other
  constructor
  · have denied {subject : Subject} {target : Target} (bound : target.tenantID ≠ "") (far : subject.Unreachable target) :
        (authorize subject permission target).allowed = false := by
      by_contra allowed
      have passed := Passed.of_allowed (Bool.not_eq_false _ ▸ allowed)
      exact far.elim (fun elsewhere => bound (passed.tenant.resolve_left elsewhere).1) fun outside =>
        outside.2 (passed.scope outside.1)
    rw [denied bound far, denied bound' far']
  · rw [Bool.eq_iff_iff, conceal_unreachable bound far, conceal_unreachable bound' far']
    rcases roles with rfl | ⟨valid, valid'⟩
    · rfl
    · simp only [Subject.Entitled, valid, valid']

def dana : Subject := { principalID := "dana", tenantID := "a", role := .viewer, ownerScope := "o-1" }

/-- A task of another tenant and one of another owner look the same, to a viewer and to the owner of the tenant. -/
theorem dana_sees_no_difference : (authorize dana ⟨.task, .read⟩ { tenantID := "b", ownerID := "o-1" }).conceal =
        (authorize { dana with role := .owner } ⟨.task, .read⟩ { tenantID := "a", ownerID := "o-2" }).conceal ∧
      dana.role.grants ⟨.task, .read⟩ = true := by
  have ⟨hidden, sound⟩ := authorization_no_oracle ⟨.task, .read⟩
  refine ⟨(hidden dana .owner _ _ (.inr (by decide)) (by decide) (by decide) (.inl (by decide)) (.inr (by decide))).2, ?_⟩
  exact (sound dana { tenantID := "a", ownerID := "o-1" } (by decide)).role

end RhinoQ.Model.Authz
