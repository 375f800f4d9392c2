import RhinoQ.Model.Basic

/-! # Authorization

Every request is decided from its subject, a permission and a target. No gate reads the kind of a principal, which is left
out. Names that are none of the built-in ones are kept as they are.
-/

namespace RhinoQ.Model.Authz

inductive Resource
  | task | job | finding | rule | repair | providerOperation | queue | membership | tenant
  | other (text : String)
  deriving DecidableEq

inductive Action
  | read | write | operate | approve | administer
  | other (text : String)
  deriving DecidableEq

structure Permission where
  resource : Resource
  action : Action
  deriving DecidableEq

def resources : List Resource := [.task, .job, .finding, .rule, .repair, .providerOperation, .queue, .membership, .tenant]

def actions : List Action := [.read, .write, .operate, .approve, .administer]

def Permission.valid (p : Permission) : Bool := resources.contains p.resource && actions.contains p.action

inductive Role
  | owner | admin | operator | developer | viewer | taskOwner
  | other (text : String)

def everyPermission : List Permission := resources.flatMap fun resource => actions.map (⟨resource, ·⟩)

def adminPermissions : List Permission :=
  everyPermission.filter fun p => !(p.resource == .tenant && p.action == .administer)

def viewerPermissions : List Permission := (resources.filter (· != .membership)).map (⟨·, .read⟩)

def operatorPermissions : List Permission :=
  viewerPermissions ++ [.task, .job, .finding, .rule, .repair, .providerOperation, .queue].flatMap
    (fun resource => [⟨resource, .write⟩, ⟨resource, .operate⟩]) ++ [⟨.repair, .approve⟩]

def developerPermissions : List Permission :=
  viewerPermissions ++ [.task, .job, .rule, .providerOperation].map (⟨·, .write⟩) ++ [⟨.finding, .write⟩]

def rolePermissions : Role → Option (List Permission)
  | .owner => some everyPermission
  | .admin => some adminPermissions
  | .operator => some operatorPermissions
  | .developer => some developerPermissions
  | .viewer => some viewerPermissions
  | .taskOwner => some [⟨.task, .read⟩, ⟨.task, .write⟩]
  | .other _ => none

def Role.valid (r : Role) : Bool := (rolePermissions r).isSome

def Role.grants (r : Role) (p : Permission) : Bool := ((rolePermissions r).getD []).contains p

inductive TenantStatus
  | active | suspended
  | other (text : String)
  deriving DecidableEq

structure Subject where
  principalID : String
  tenantID : String
  role : Role
  ownerScope : String := ""
  tenantStatus : TenantStatus := .active
  disabled : Bool := false

def Subject.tenantWide (s : Subject) : Bool := Text.trimSpace s.ownerScope == ""

/-- The tenant is empty for a creation only, and the owner for what has none. -/
structure Target where
  tenantID : String := ""
  ownerID : String := ""
  creating : Bool := false

inductive Reason
  | allowed | principalRevoked | tenantSuspended | tenantMismatch | outOfScope | roleLacks | malformed
  deriving DecidableEq

structure Decision where
  allowed : Bool := false
  reason : Reason
  permission : Permission
  subject : Subject
  target : Target

/-- The caller must answer as though the resource did not exist. -/
def Decision.conceal (d : Decision) : Bool := !d.allowed && (d.reason == .tenantMismatch || d.reason == .outOfScope)

def authorize (subject : Subject) (permission : Permission) (target : Target) : Decision :=
  let deny (reason : Reason) : Decision := { reason, permission, subject, target }
  if !permission.valid ∨ subject.principalID = "" ∨ subject.tenantID = "" ∨ !subject.role.valid then deny .malformed
  else if target.tenantID = "" ∧ !target.creating then deny .malformed
  else if subject.disabled then deny .principalRevoked
  else if subject.tenantStatus = .suspended ∧ permission.action ≠ .read then deny .tenantSuspended
  else if target.tenantID ≠ "" ∧ target.tenantID ≠ subject.tenantID then deny .tenantMismatch
  else if !subject.tenantWide ∧ (target.ownerID = "" ∨ target.ownerID ≠ subject.ownerScope) then deny .outOfScope
  else if !subject.role.grants permission then deny .roleLacks
  else { allowed := true, reason := .allowed, permission, subject, target }

end RhinoQ.Model.Authz
