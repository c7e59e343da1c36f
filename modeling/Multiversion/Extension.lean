import Multiversion.SourceFile

/-! Remaps by name.

A remap is named by a module and a member of it, as in `module:function`. The
modules are given by a library of extensions; the names of nested modules are
joined by dots, and a module is only looked for inside of one that is there. -/
namespace Multiversion

namespace Extension

/-- What a module offers under a name. -/
inductive Member where
  | callback (remap : Remap)
  | value

end Extension

/-- A module with its members. -/
structure Extension where
  name : Text
  members : List (Text × Extension.Member)

namespace Extension

/-- Why a name leads to no remap. -/
inductive Problem where
  /-- The name is not of the form `module:function`. -/
  | noTarget (target : Text)
  /-- There is no such module. -/
  | noModule (target module : Text)
  /-- The module that should hold another one does not. -/
  | notPackage (target module outer : Text)
  /-- The module has no such member. -/
  | noMember (target module member : Text)
  /-- The member is no function. -/
  | notCallable (target : Text)

/-- The wording of a problem. -/
def Problem.message : Problem → Text
  | noTarget target => "Expected --remap module:function, got ".toText ++ Text.quoted target
  | noModule target module => cannotLoad target ++ "No module named ".toText ++ Text.quoted module
  | notPackage target module outer =>
    cannotLoad target ++ "No module named ".toText ++ Text.quoted module ++ "; ".toText ++
      Text.quoted outer ++ " is not a package".toText
  | noMember target module member =>
    cannotLoad target ++ "module '".toText ++ module ++ "' has no attribute '".toText ++
      member ++ "'".toText
  | notCallable target => target ++ " is not callable".toText
where
  cannotLoad (target : Text) : Text :=
    "Cannot load remap function ".toText ++ target ++ ": ".toText

/-- What stops the search for a remap. -/
inductive Error where
  | problem (problem : Problem)
  /-- The name of the module is relative to nothing. -/
  | relativeName (module : Text)

/-- The wording of an error. -/
def Error.message : Error → Text
  | problem p => p.message
  | relativeName module =>
    "the 'package' argument is required to perform a relative import for ".toText ++
      Text.quoted module

/-- The module of a name. -/
def find? (library : List Extension) (name : Text) : Option Extension :=
  library.find? fun e => e.name = name

/-- The module that further names lead to from a module. -/
def descend (library : List Extension) (target : Text) (outer : Extension) :
    List Text → Except Problem Extension
  | [] => .ok outer
  | name :: rest =>
    let full := outer.name ++ ".".toText ++ name
    match find? library full with
    | some inner => descend library target inner rest
    | none => .error (.notPackage target full outer.name)

/-- The module of a dotted name. -/
def require (library : List Extension) (target module : Text) : Except Problem Extension :=
  match Text.splitOn '.' module with
  | [] => .error (.noModule target module)
  | first :: rest =>
    match find? library first with
    | some outer => descend library target outer rest
    | none => .error (.noModule target first)

/-- The remap that a target names. -/
def load (library : List Extension) (target : Text) : Except Error Remap :=
  match Text.cut? ':' target with
  | none => .error (.problem (.noTarget target))
  | some (module, member) =>
    if module = [] ∨ member = [] then .error (.problem (.noTarget target))
    else if module.head? = some '.' then .error (.relativeName module)
    else
      match require library target module with
      | .error p => .error (.problem p)
      | .ok extension =>
        match extension.members.lookup member with
        | none => .error (.problem (.noMember target extension.name member))
        | some .value => .error (.problem (.notCallable target))
        | some (.callback remap) => .ok remap

end Extension

end Multiversion
