import Lineage.ClassDecl
import Lineage.Json.Record
import Lineage.Json.Reader

/-!
# Class records

Class declarations as JSON, for scans that take records instead of sources. Only names are required
when reading; every other field has a default. Writing leaves out an unknown location and an
unknown line and spells out all the rest.
-/
namespace Lineage

namespace TypeRef

def toJson : TypeRef → Json
  | scalar t => .object [("scalar", .string t)]
  | qualified segs => .object [("qualified", .strings segs)]

/-- A type is an object with one member, named for its form. -/
def ofJson? : Json → Option TypeRef
  | .object [("scalar", .string t)] => some (scalar t)
  | .object [("qualified", v)] => (v.list? Json.string?).map qualified
  | _ => none

end TypeRef

namespace SourceLocation

def toJson (l : SourceLocation) : Json :=
  .object [("file", .string l.file), ("line", .natural l.line)]

def ofJson? (v : Json) : Option SourceLocation :=
  match v.record? ["file", "line"] 2 with
  | some [file, line] => do
    return { file := ← Json.required Json.string? file, line := ← Json.required Json.word64? line }
  | _ => none

end SourceLocation

namespace Parameter

def toJson (p : Parameter) : Json :=
  .object [("name", .string p.name), ("by_reference", .bool p.byReference),
    ("type", .ofOption TypeRef.toJson p.type), ("has_default", .bool p.hasDefault)]

def ofJson? (v : Json) : Option Parameter :=
  match v.record? ["name", "by_reference", "type", "has_default"] 1 with
  | some [name, byReference, type, hasDefault] => do
    return {
      name := ← Json.required Json.string? name
      byReference := ← Json.defaulted false Json.bool? byReference
      type := ← Json.optional TypeRef.ofJson? type
      hasDefault := ← Json.defaulted false Json.bool? hasDefault }
  | _ => none

end Parameter

namespace Method

def toJson (m : Method) : Json :=
  .object ([("name", .string m.name), ("by_reference", .bool m.byReference),
    ("return_type", .ofOption TypeRef.toJson m.returnType),
    ("parameters", .array (m.parameters.map Parameter.toJson))] ++
    m.line.toList.map fun n => ("line", .natural n))

def ofJson? (v : Json) : Option Method :=
  match v.record? ["name", "by_reference", "return_type", "parameters", "line"] 1 with
  | some [name, byReference, returnType, parameters, line] => do
    return {
      name := ← Json.required Json.string? name
      byReference := ← Json.defaulted false Json.bool? byReference
      returnType := ← Json.optional TypeRef.ofJson? returnType
      parameters := ← Json.defaulted [] (Json.list? Parameter.ofJson?) parameters
      line := ← Json.optional Json.word64? line }
  | _ => none

end Method

namespace ClassDecl

def toJson (c : ClassDecl) : Json :=
  .object ([("name", .string c.name), ("parent_name", .ofOption .string c.parentName),
    ("methods", .array (c.methods.map Method.toJson))] ++
    c.location.toList.map fun l => ("location", l.toJson))

def ofJson? (v : Json) : Option ClassDecl :=
  match v.record? ["name", "parent_name", "methods", "location"] 1 with
  | some [name, parentName, methods, location] => do
    return {
      name := ← Json.required Json.string? name
      parentName := ← Json.optional Json.string? parentName
      methods := ← Json.defaulted [] (Json.list? Method.ofJson?) methods
      location := ← Json.optional SourceLocation.ofJson? location }
  | _ => none

/-- The class records that the JSON text `s` lists. -/
def listOfText? (s : String) : Option (List ClassDecl) :=
  (Json.read? s).bind (Json.list? ofJson?)

end ClassDecl

end Lineage
