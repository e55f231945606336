import StorageCluster.Fault

/-!
# Access control

An access policy answers whether an identity may use an object in a certain way. Without rules all
is granted; a list of rules restricts the identities and kinds of object that it names.
-/
namespace StorageCluster

inductive Role
  | system
  | admin
  | user
  | anyone
  deriving DecidableEq, Repr, Inhabited

def Role.names : List (String × Role) :=
  [("system", .system), ("admin", .admin), ("user", .user), ("public", .anyone)]

structure AccessContext where
  identity : String
  role : Role
  deriving DecidableEq, Inhabited

namespace AccessContext

def system : AccessContext := ⟨"SYSTEM", .system⟩

def anyone : AccessContext := ⟨"PUBLIC", .anyone⟩

end AccessContext

/-- From the weakest to the strongest. -/
inductive AccessType
  | view
  | use
  | change
  | control
  deriving DecidableEq, Repr, Inhabited

namespace AccessType

def rank : AccessType → Nat
  | .view => 0
  | .use => 1
  | .change => 2
  | .control => 3

def label : AccessType → String
  | .view => "VIEW"
  | .use => "USE"
  | .change => "CHANGE"
  | .control => "CONTROL"

def names : List (String × AccessType) :=
  [("View", .view), ("Use", .use), ("Change", .change), ("Control", .control)]

end AccessType

inductive ObjectKind
  | node
  | group
  | definition
  | resource
  | pool
  | controller
  deriving DecidableEq, Repr, Inhabited

namespace ObjectKind

def label : ObjectKind → String
  | .node => "node"
  | .group => "resource group"
  | .definition => "resource definition"
  | .resource => "resource"
  | .pool => "storage pool"
  | .controller => "controller configuration"

def deniedCode : ObjectKind → UInt64
  | .node | .pool => Code.deniedNode
  | .resource => Code.deniedResource
  | .group | .definition | .controller => Code.deniedDefinition

def names : List (String × ObjectKind) :=
  [("Node", .node), ("ResourceGroup", .group), ("ResourceDefinition", .definition),
    ("Resource", .resource), ("StorPool", .pool), ("ControllerConfig", .controller)]

end ObjectKind

/-- The most that an identity may do with objects of a kind, or with the one of them that is named;
`none` is nothing at all. -/
structure AccessRule where
  identity : String
  kind : ObjectKind
  objectName : Option String
  maxAccess : Option AccessType
  deriving DecidableEq, Inhabited

def AccessPolicy := AccessContext → ObjectKind → String → AccessType → Bool

namespace AccessPolicy

def permissive : AccessPolicy := fun _ _ _ _ => true

def appliesTo (rule : AccessRule) (who : AccessContext) (kind : ObjectKind) (name : String) :
    Bool :=
  rule.identity == who.identity && rule.kind == kind &&
    rule.objectName.all fun object => sameIgnoringCase object name

/-- Every rule that applies has to allow the access. -/
def ofRules (rules : List AccessRule) : AccessPolicy := fun who kind name access =>
  rules.all fun rule =>
    !appliesTo rule who kind name || rule.maxAccess.any fun most => access.rank ≤ most.rank

def require (policy : AccessPolicy) (who : AccessContext) (kind : ObjectKind) (name : String)
    (access : AccessType) : Except Fault Unit :=
  if policy who kind name access then .ok ()
  else .error (.accessDenied
    (who.identity ++ " is not granted " ++ access.label ++ " access to " ++ kind.label ++
      " '" ++ name ++ "'") kind.deniedCode)

end AccessPolicy

end StorageCluster
