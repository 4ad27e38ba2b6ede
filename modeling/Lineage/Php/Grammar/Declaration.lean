import Lineage.Php.Grammar.Type

/-!
# Functions, classes and their members

The declarations that have a name. Attributes and modifiers belong to the declaration that they
stand before, so a declaration starts where they do.
-/
namespace Lineage.Php.Grammar

open Form

/-- The name of what is declared. -/
def declaredName : Form := .inRole .name name

/-- Attributes and modifiers. -/
def lead : Form := .seq [maybe .attributes, .many (.part .modifier)]

def body (p : Part) : Form := .inRole .body (.part p)

def classRules : List Production := [
  piece .functionHeader (.seq
    [word "function", .optional (.inRole .referenceModifier (.part .referenceModifier)),
      .inRole .name (.choice [name, .part .reservedName]),
      .inRole .parameters (.part .parameters), maybe .returnType]),
  node .functionDefinition .functionDefinition
    [maybe .attributes, .part .functionHeader, body .block],
  node .baseClause .baseClause [word "extends", commaList (.part .scopeName)],
  node .interfaceClause .interfaceClause [word "implements", commaList (.part .scopeName)],
  node .classDeclaration .classDeclaration
    [lead, word "class", declaredName, maybe .baseClause, maybe .interfaceClause,
      body .declarationList],
  node .interfaceDeclaration .interfaceDeclaration
    [maybe .attributes, word "interface", declaredName, maybe .baseClause, body .declarationList],
  node .traitDeclaration .traitDeclaration
    [maybe .attributes, word "trait", declaredName, body .declarationList],
  node .enumDeclaration .enumDeclaration
    [maybe .attributes, word "enum", declaredName,
      .optional (.seq
        [symbol ":", .choice [.token (.exactWord "string"), .token (.exactWord "int")]]),
      maybe .interfaceClause, body .enumList]]

def memberRules : List Production := [
  node .declarationList .declarationList
    [inBraces (.many (.choice
      [.part .classConstDeclaration, .part .propertyDeclaration, .part .methodDeclaration,
        .part .traitUse]))],
  node .enumList .declarationList
    [inBraces (.many (.choice [.part .enumCase, .part .methodDeclaration, .part .traitUse]))],
  node .enumCase .enumCase
    [maybe .attributes, word "case", name, .optional (.seq [symbol "=", .part .expression]),
      semicolon],
  node .methodDeclaration .methodDeclaration
    [lead, .part .functionHeader, .choice [body .block, semicolon]],
  node .constDeclaration .constDeclaration [.many (.part .modifier), .part .constList],
  node .classConstDeclaration .constDeclaration [lead, .part .constList],
  piece .constList (.seq
    [word "const", maybeType, commaList (.part .constElement), semicolon]),
  node .constElement .clause
    [.choice [name, .part .reservedName], symbol "=", .part .expression],
  node .propertyDeclaration .propertyDeclaration
    [maybe .attributes, .oneOrMore (.part .modifier), maybeType,
      commaList (.part .propertyElement), .choice [semicolon, .part .propertyHooks]],
  node .propertyElement .clause
    [.part .variableName, .optional (.seq [symbol "=", .part .expression])],
  node .propertyHooks .clause [inBraces (.many (.part .propertyHook))],
  node .propertyHook .propertyHook
    [maybe .attributes, .optional (word "final"), maybe .referenceModifier, name,
      maybe .parameters,
      .choice [.seq [symbol "=>", .part .expression, semicolon], .part .block, semicolon]],
  node .traitUse .traitUse
    [word "use", commaList (.part .scopeName),
      .choice [inBraces (.many (.seq [.part .traitRule, semicolon])), semicolon]],
  node .traitRule .clause
    [.choice [.part .classConstant, name],
      .choice
        [.seq [word "insteadof", name],
          .seq [word "as",
            .choice
              [.seq [maybe .visibility, name], .seq [.part .visibility, .optional name]]]]]]

end Lineage.Php.Grammar
