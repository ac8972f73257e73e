import TraceRecovery.Text.Pieces

/-!
# Compilation units

The files of a code base that trace links end at, with the data types they declare and the place
they have among directories and packages.
-/

namespace TraceRecovery

/-- What kind of named part of the code something is. -/
inductive CodeKind where
  | compilationUnit
  | classType
  | interfaceType
  | enumType
  | recordType
  | other
deriving DecidableEq, Repr

namespace CodeKind

/-- The name of a kind in documents. -/
def name : CodeKind → String
  | compilationUnit => "compilation_unit"
  | classType => "class"
  | interfaceType => "interface"
  | enumType => "enum"
  | recordType => "record"
  | other => "other"

/-- The kind with a name. -/
def ofName? : String → Option CodeKind
  | "compilation_unit" => some compilationUnit
  | "class" => some classType
  | "interface" => some interfaceType
  | "enum" => some enumType
  | "record" => some recordType
  | "other" => some other
  | _ => none

theorem ofName?_name (k : CodeKind) : ofName? k.name = some k := by cases k <;> rfl

end CodeKind

/-- A data type with the names of the types it extends or implements. -/
structure DataType where
  name : String
  kind : CodeKind
  supertypes : List String
deriving DecidableEq, Repr

/-- The data type that also extends or implements another one. -/
def DataType.extending (t : DataType) (supertype : String) : DataType :=
  { t with supertypes := t.supertypes ++ [supertype] }

/-- A package of the code, such as a namespace. -/
structure Package where
  id : String
  name : String
deriving DecidableEq, Repr

/-- A file of the code. -/
structure CodeUnit where
  id : String
  name : String
  /-- The directories that hold the unit, outermost first. -/
  path : List String
  /-- The id of the package that holds the unit, if there is one. -/
  package : Option String
  dataTypes : List DataType
deriving DecidableEq, Repr

/-- A named part of a unit, as heuristics compare it. -/
structure CodeName where
  name : String
  kind : CodeKind
deriving DecidableEq, Repr

namespace CodeUnit

/-- A unit without path, package and types. -/
def named (id name : String) : CodeUnit := ⟨id, name, [], none, []⟩

/-- The unit with another path. -/
def withPath (u : CodeUnit) (path : List String) : CodeUnit := { u with path }

/-- The unit in a package. -/
def inPackage (u : CodeUnit) (package : String) : CodeUnit := { u with package := some package }

/-- The unit with one more data type behind the others. -/
def withType (u : CodeUnit) (t : DataType) : CodeUnit := { u with dataTypes := u.dataTypes ++ [t] }

/-- Whether the unit is in a package. -/
def hasPackage (u : CodeUnit) : Bool := u.package.isSome

/-- The unit's own name, followed by those of its data types. -/
def codeNames (u : CodeUnit) : List CodeName :=
  ⟨u.name, .compilationUnit⟩ :: u.dataTypes.map fun t => ⟨t.name, t.kind⟩

/-- Whether two units are in the same package, or both in none. -/
def samePackage (u v : CodeUnit) : Bool := u.package == v.package

/-- Whether a type of `u` extends or implements a type that `v` declares. -/
def inheritsFrom (u v : CodeUnit) : Bool :=
  u.dataTypes.any fun t => t.supertypes.any fun s => v.dataTypes.any fun o => o.name == s

/-- The text of a unit in messages: its name behind its path. -/
def render (u : CodeUnit) : String :=
  if u.path.isEmpty then u.name else Text.join "/" u.path ++ "/" ++ u.name

end CodeUnit

end TraceRecovery
