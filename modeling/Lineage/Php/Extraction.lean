import Lineage.ClassDecl
import Lineage.Failure
import Lineage.Php.Program

/-!
# Classes of a source

`extract` lists the named classes of a PHP source in source order. Interfaces, traits, enumerations
and classes without a name are passed over, but searched: a class may be declared inside one of
their methods. The body of a named class is not searched. A source with any fault yields no class,
but the line of its first fault.

`mayDeclareClass` is a cheap test on the bytes: a source that never mentions `class` declares none.
-/
namespace Lineage.Php

/-- The bytes of the word `class` in small letters. -/
def classWord : List UInt8 := [99, 108, 97, 115, 115]

/-- A byte with an ASCII capital made small. -/
def lowerByte (b : UInt8) : UInt8 := if 65 ≤ b && b ≤ 90 then b + 32 else b

/-- Do the bytes start with the word `class`, in capitals or small letters? -/
def startsWithClass (bytes : List UInt8) : Bool :=
  (bytes.take classWord.length).map lowerByte == classWord

/-- Does the word `class` occur in the bytes, in capitals or small letters? -/
def mayDeclareClass : List UInt8 → Bool
  | [] => false
  | b :: bytes => startsWithClass (b :: bytes) || mayDeclareClass bytes

namespace SyntaxTree

/-- Is the node a part of the source? -/
def isWithin (source : List UInt8) (t : SyntaxTree) : Bool :=
  t.span.start ≤ t.span.stop && t.span.stop ≤ source.length

/-- The bytes of the node. -/
def bytes (source : List UInt8) (t : SyntaxTree) : List UInt8 :=
  (source.drop t.span.start).take (t.span.stop - t.span.start)

/-- The source text of the node, if it is a part of the source; bytes that are not UTF-8 are
replaced. -/
def text? (source : List UInt8) (t : SyntaxTree) : Option String :=
  if t.isWithin source then some (Text.Utf8.lossy (t.bytes source)) else none

/-- The text of the name of the node, if it has one. -/
def nameText? (source : List UInt8) (t : SyntaxTree) : Option String :=
  (t.childInRole? .name).bind (text? source)

def hasReferenceModifier (t : SyntaxTree) : Bool :=
  (t.childInRole? .referenceModifier).isSome || (t.childOfKind? .referenceModifier).isSome

/-- The type kept as text without blanks. -/
def typeAsWritten? (source : List UInt8) (t : SyntaxTree) : Option TypeRef :=
  (t.text? source).map fun text => .scalar (String.ofList (Text.squeeze text.toList))

mutual

/-- The type that a node stands for, if it has a text. Primitive names and composite types are kept
as text, class names as paths; a group around a single type is that type. -/
def typeRef? (source : List UInt8) : SyntaxTree → Option TypeRef
  | node k r m s cs =>
    let here := node k r m s cs
    match k with
    | .primitiveType | .bottomType => (here.text? source).map .scalar
    | .namedType | .name | .qualifiedName => (here.text? source).map .ofPath
    | .unionType | .intersectionType | .disjunctiveType =>
      if (cs.filter isNamed).length = 1 then firstNamedTypeRef? source cs
      else here.typeAsWritten? source
    | _ => here.typeAsWritten? source

def firstNamedTypeRef? (source : List UInt8) : List SyntaxTree → Option TypeRef
  | [] => none
  | t :: ts => if t.isNamed then typeRef? source t else firstNamedTypeRef? source ts

end

/-- The parameter that a child of a parameter list stands for, if it is one. -/
def parameter? (source : List UInt8) (t : SyntaxTree) : Option Parameter :=
  let read (variadic : Bool) : Parameter :=
    { name := String.ofList (((t.nameText? source).getD "").toList.dropWhile (· == '$'))
      byReference := t.hasReferenceModifier
      type := (t.childInRole? .type).bind (typeRef? source)
      hasDefault := !variadic && (t.childInRole? .defaultValue).isSome }
  match t.kind with
  | .simpleParameter | .promotedParameter => some (read false)
  | .variadicParameter => some (read true)
  | _ => none

def method? (source : List UInt8) (t : SyntaxTree) : Option Method :=
  (t.nameText? source).map fun name =>
    let list := (t.childInRole? .parameters).or (t.childOfKind? .formalParameters)
    { name := name
      byReference := t.hasReferenceModifier
      returnType := (t.childInRole? .returnType).bind (typeRef? source)
      parameters := (list.map fun l => l.namedChildren.filterMap (parameter? source)).getD []
      line := some t.line }

/-- The last segment of a class name that is not blank. -/
def lastSegment? (name : String) : Option String :=
  (((Text.split '\\' name.toList).map Text.trim).reverse.find? fun s => !s.isEmpty).map
    String.ofList

/-- The short name of the class extended: namespaces are not resolved, so `\App\Base` and `Base`
name the same parent. -/
def parentName? (source : List UInt8) (t : SyntaxTree) : Option String := do
  let clause ← t.childOfKind? .baseClause
  let target ← clause.namedChildren.find? fun c => c.kind == .name || c.kind == .qualifiedName
  lastSegment? (← target.text? source)

def classDecl? (source : List UInt8) (file : String) (t : SyntaxTree) : Option ClassDecl :=
  (t.nameText? source).map fun name =>
    let body := (t.childInRole? .body).or (t.childOfKind? .declarationList)
    let methods := (body.map fun b => b.namedChildren.filter (·.kind == .methodDeclaration)).getD []
    { name := name
      parentName := t.parentName? source
      methods := methods.filterMap (method? source)
      location := some { file := file, line := t.line } }

mutual

/-- The named classes of a tree that are not inside another one, in source order. -/
def classes (source : List UInt8) (file : String) : SyntaxTree → List ClassDecl
  | node k r m s cs =>
    if k = .classDeclaration then (classDecl? source file (node k r m s cs)).toList
    else classesOfAll source file cs

def classesOfAll (source : List UInt8) (file : String) : List SyntaxTree → List ClassDecl
  | [] => []
  | t :: ts =>
    (if t.isNamed then classes source file t else []) ++ classesOfAll source file ts

end

/-- The classes of a tree, unless it has a fault. -/
def extract (source : List UInt8) (file : String) (t : SyntaxTree) :
    Except Failure (List ClassDecl) :=
  if t.hasError then
    .error (.unparsable file ("syntax error near line " ++ toString ((t.firstErrorLine?).getD 1)))
  else .ok (t.classes source file)

end SyntaxTree

/-- The classes of the source `bytes` of `file`. -/
def extract (file : String) (bytes : List UInt8) : Except Failure (List ClassDecl) :=
  (parse bytes).extract bytes file

end Lineage.Php
