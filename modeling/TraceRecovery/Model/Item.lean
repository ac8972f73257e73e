/-!
# Architecture items

The building blocks of an architecture that trace links start from: components and interfaces.
-/

namespace TraceRecovery

/-- What kind of building block an item is. -/
inductive ItemKind where
  /-- A component, with its type in the architecture's own terms if that is known. -/
  | component (componentType : Option String)
  /-- An interface, with the signatures of its methods. -/
  | interface (signatures : List String)
deriving DecidableEq, Repr

/-- A component or an interface. -/
structure Item where
  id : String
  name : String
  kind : ItemKind
deriving DecidableEq, Repr

namespace Item

/-- A component without a declared type. -/
def component (id name : String) : Item := ⟨id, name, .component none⟩

/-- An interface with method signatures. -/
def interface (id name : String) (signatures : List String) : Item :=
  ⟨id, name, .interface signatures⟩

/-- A component with the given type. An interface has no type and stays as it is. -/
def withComponentType (item : Item) (type : String) : Item :=
  match item.kind with
  | .component _ => { item with kind := .component (some type) }
  | .interface _ => item

def isComponent (item : Item) : Bool :=
  match item.kind with
  | .component _ => true
  | .interface _ => false

def isInterface (item : Item) : Bool :=
  match item.kind with
  | .component _ => false
  | .interface _ => true

/-- The declared type of a component. -/
def componentType (item : Item) : Option String :=
  match item.kind with
  | .component type => type
  | .interface _ => none

/-- The method signatures of an interface; a component has none. -/
def signatures (item : Item) : List String :=
  match item.kind with
  | .component _ => []
  | .interface signatures => signatures

/-- Whether the item is an interface that declares methods. -/
def hasSignatures (item : Item) : Bool := !item.signatures.isEmpty

/-- The text of an item in messages. -/
def render (item : Item) : String :=
  match item.kind with
  | .component _ => "Component: " ++ item.name
  | .interface _ => "Interface: " ++ item.name

end Item

end TraceRecovery
