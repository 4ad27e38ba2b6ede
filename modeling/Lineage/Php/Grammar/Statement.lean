import Lineage.Php.Grammar.Type

/-!
# Statements

Most compound statements have two forms: one with a statement or a block as body, and one with a
colon and a closing word.
-/
namespace Lineage.Php.Grammar

open Form

/-- Statements up to a closing word. -/
def upToWord (closing : String) : Form :=
  .seq [.part .colonBlock, word closing, semicolon]

def expressionOrNone : Form := maybe .expression

def controlRules : List Production := [
  oneOfParts .statement
    [.emptyStatement, .block, .label, .expressionStatement, .ifStatement, .switchStatement,
      .whileStatement, .doStatement, .forStatement, .foreachStatement, .gotoStatement,
      .jumpStatement, .tryStatement, .declareStatement, .echoStatement, .exitStatement,
      .unsetStatement, .globalStatement, .staticStatement, .namespaceStatement, .useStatement,
      .constDeclaration, .functionDefinition, .classDeclaration, .interfaceDeclaration,
      .traitDeclaration, .enumDeclaration],
  node .block .block [inBraces (.many (.part .statement))],
  node .emptyStatement .statement [symbol ";"],
  node .label .statement [name, symbol ":"],
  node .expressionStatement .statement [.part .expression, semicolon],
  node .colonBlock .block [symbol ":", .many (.part .statement)],
  node .ifStatement .statement
    [word "if", .part .parenthesized,
      .choice
        [.seq
          [.part .statement, .many (.part .elseIfClause),
            .optional (.seq [word "else", .part .statement])],
          .seq
          [.part .colonBlock, .many (.part .colonElseIfClause),
            .optional (.seq [word "else", .part .colonBlock]), word "endif", semicolon]]],
  node .elseIfClause .clause [word "elseif", .part .parenthesized, .part .statement],
  node .colonElseIfClause .clause [word "elseif", .part .parenthesized, .part .colonBlock],
  node .switchStatement .statement
    [word "switch", .part .parenthesized,
      .choice
        [inBraces (.many (.part .switchCase)),
          .seq [symbol ":", .many (.part .switchCase), word "endswitch", semicolon]]],
  node .switchCase .statement
    [.choice [.seq [word "case", .part .expression], word "default"],
      .choice [symbol ":", semicolon], .many (.part .statement)],
  node .whileStatement .statement
    [word "while", .part .parenthesized, .choice [.part .statement, upToWord "endwhile"]],
  node .doStatement .statement
    [word "do", .part .statement, word "while", .part .parenthesized, semicolon],
  node .forStatement .statement
    [word "for",
      inParentheses (.seq
        [maybe .expressions, symbol ";", maybe .expressions, symbol ";", maybe .expressions]),
      .choice [semicolon, .part .statement, upToWord "endfor"]],
  node .expressions .expression [commaList (.part .expression)],
  node .foreachStatement .statement
    [word "foreach",
      inParentheses (.seq
        [.part .expression, word "as",
          .optional (.seq [.part .expression, symbol "=>"]), .part .foreachValue]),
      .choice [semicolon, .part .statement, upToWord "endforeach"]],
  oneOfParts .foreachValue [.byReference, .expression, .listLiteral]]

def simpleRules : List Production := [
  node .gotoStatement .statement [word "goto", name, semicolon],
  node .jumpStatement .statement
    [oneWord ["continue", "break", "return"], expressionOrNone, semicolon],
  node .tryStatement .statement
    [word "try", .part .block,
      .oneOrMore (.choice [.part .catchClause, .part .finallyClause])],
  node .catchClause .clause
    [word "catch",
      inParentheses (.seq [.separated (symbol "|") (.part .namedType), maybe .variableName]),
      .part .block],
  node .finallyClause .clause [word "finally", .part .block],
  node .declareStatement .statement
    [word "declare", inParentheses (.part .declareDirective),
      .choice [semicolon, .part .statement, upToWord "enddeclare"]],
  node .declareDirective .clause
    [.choice (["ticks", "encoding", "strict_types"].map fun w => .token (.exactWord w)),
      symbol "=", .part .literal],
  node .echoStatement .statement [word "echo", .part .expressions, semicolon],
  node .exitStatement .statement
    [word "exit", .optional (inParentheses expressionOrNone), semicolon],
  node .unsetStatement .statement
    [.token (.exactWord "unset"), inParentheses (trailedList (.part .variable)), semicolon],
  node .globalStatement .statement
    [word "global", commaList (.part .simpleVariable), semicolon],
  node .staticStatement .statement
    [word "static", commaList (.part .staticVariable), semicolon],
  node .staticVariable .clause
    [.part .variableName, .optional (.seq [symbol "=", .part .expression])]]

/-- The word that says what is imported. -/
def importKind : Form := .optional (oneWord ["function", "const"])

def importAlias : Form := .optional (.seq [word "as", name])

def namespaceRules : List Production := [
  node .namespaceStatement .statement
    [word "namespace",
      .choice
        [.seq [.part .namespaceName, semicolon],
          .seq [maybe .namespaceName, .part .block]]],
  node .useStatement .statement
    [word "use", importKind, .choice [commaList (.part .importClause), .part .importGroup],
      semicolon],
  node .importClause .clause [.part .scopeName, importAlias],
  piece .importGroup (.seq
    [.part .namespaceName, symbol "\\",
      inBraces (commaList (.seq [importKind, .part .namespaceName, importAlias]))])]

end Lineage.Php.Grammar
