import Lineage.Php.Grammar.Basic

/-!
# Names, types and parameters

A type is a single type, a union of them, an intersection of them, or a union some of whose members
are intersections in parentheses. The words that are types of their own are so in small letters
only, `callable` apart.
-/
namespace Lineage.Php.Grammar

open Form

/-- One more segment of a qualified name. -/
def segment : Form := .seq [symbol "\\", name]

def nameRules : List Production := [
  node .reservedName .name [oneWord ["self", "parent", "static"]],
  node .namespaceName .name [.optional (symbol "\\"), name, .many segment],
  node .qualifiedName .qualifiedName
    [.choice [segment, .seq [name, segment]], .many segment],
  piece .path (.choice [name, .part .qualifiedName]),
  piece .scopeName (.choice [.part .path, .part .reservedName])]

/-- Two or more single types with `sep` between them. -/
def typesWith (sep : String) : Form :=
  .seq [.part .singleType, .oneOrMore (.seq [symbol sep, .part .singleType])]

def typeRules : List Production := [
  node .primitiveType .primitiveType
    [.choice (word "callable" ::
      ["array", "iterable", "bool", "float", "int", "string", "void", "mixed", "false", "null",
        "true"].map fun w => .token (.exactWord w))],
  node .namedType .namedType [.part .path],
  node .optionalType .optionalType
    [symbol "?", .choice [.part .namedType, .part .primitiveType]],
  oneOfParts .singleType [.namedType, .primitiveType, .optionalType],
  node .unionType .unionType [typesWith "|"],
  node .intersectionType .intersectionType [typesWith "&"],
  node .intersectionGroup .intersectionType [.separated (symbol "&") (.part .singleType)],
  node .disjunctiveType .disjunctiveType
    [.many (.seq [.part .singleType, symbol "|"]), group,
      .many (.seq [symbol "|", .choice [group, .part .singleType]])],
  oneOfParts .type [.singleType, .unionType, .intersectionType, .disjunctiveType],
  node .bottomType .bottomType [.token (.exactWord "never")],
  piece .returnType (.seq [symbol ":", .inRole .returnType
    (.choice [.part .type, .part .bottomType])])]
where
  group : Form := inParentheses (.part .intersectionGroup)

/-- The part, or nothing. -/
def maybe (p : Part) : Form := .optional (.part p)

def maybeType : Form := .optional (.inRole .type (.part .type))

def parameterRules : List Production := [
  node .referenceModifier .referenceModifier [symbol "&"],
  node .visibility .modifier
    [oneWord ["public", "protected", "private"],
      .optional (.seq [.token (.attached "("), name, .token (.attached ")")])],
  node .modifier .modifier
    [.choice [.part .visibility, oneWord ["var", "static", "final", "abstract", "readonly"]]],
  node .attributes .attributeList
    [.oneOrMore (.seq [symbol "#[", trailedList (.part .attribute), symbol "]"])],
  node .attribute .clause [.part .scopeName, maybe .arguments],
  node .parameters .formalParameters
    [inParentheses (looseList (.choice
      [.part .simpleParameter, .part .variadicParameter, .part .promotedParameter]))],
  node .simpleParameter .simpleParameter
    [maybe .attributes, maybeType,
      .optional (.inRole .referenceModifier (.part .referenceModifier)),
      .inRole .name (.part .variableName), maybe .parameterValue],
  node .variadicParameter .variadicParameter
    [maybe .attributes, maybeType,
      .optional (.inRole .referenceModifier (.part .referenceModifier)), symbol "...",
      .inRole .name (.part .variableName)],
  node .promotedParameter .promotedParameter
    [maybe .attributes, .part .visibility, .optional (word "readonly"), maybeType,
      .inRole .name (.choice [.part .byReference, .part .variableName]), maybe .parameterValue,
      maybe .propertyHooks],
  piece .parameterValue (.seq [symbol "=", .inRole .defaultValue (.part .expression)]),
  node .arguments .arguments
    [inParentheses (.choice [.optional (trailedList (.part .argument)), symbol "..."])],
  node .argument .clause
    [.optional (.seq [.part .argumentName, symbol ":"]), maybe .referenceModifier,
      .choice [.part .reservedName, .part .spread, .part .expression]],
  piece .argumentName (.choice [name, .part .reservedName,
    oneWord ["array", "fn", "function", "match", "namespace", "null", "throw", "true", "false"]])]

end Lineage.Php.Grammar
