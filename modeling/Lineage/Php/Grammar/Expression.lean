import Lineage.Php.Grammar.Type

/-!
# Variables and expressions

An expression is a chain of operands with operators between them; how tightly the operators bind
does not matter here. What stands before an operand, such as a sign, a cast or the target of an
assignment, belongs to the operand.

The operands that can stand before `instanceof` are the unary ones, and those behind `clone` are the
primary ones.
-/
namespace Lineage.Php.Grammar

open Form

/-! ## Variables -/

def variableRules : List Production := [
  node .variableName .variableName [symbol "$", name],
  node .dynamicVariable .expression
    [symbol "$", .choice [.part .simpleVariable, inBraces (.part .expression)]],
  oneOfParts .simpleVariable [.variableName, .dynamicVariable],
  node .byReference .byReference
    [symbol "&", .choice [.part .callableVariable, .part .memberAccess]],
  piece .castHead (inParentheses (oneWord
    ["array", "binary", "bool", "boolean", "double", "int", "integer", "float", "object", "string",
      "unset"])),
  piece .memberName (.choice
    [name, .part .reservedName, .part .simpleVariable, inBraces (.part .expression)]),
  oneOfParts .callableVariable
    [.simpleVariable, .subscript, .memberCall, .scopedCall, .functionCall],
  piece .variable (.choice
    [.seq [.part .castHead, .part .variable], .part .callableVariable, .part .scopedProperty,
      .part .memberAccess]),
  oneOfParts .base
    [.variable, .newWithArguments, .classConstant, .parenthesized, .arrayLiteral, .string, .path],
  oneOfParts .scope [.base, .reservedName],
  node .subscript .expression [.part .base, inBrackets (maybe .expression)],
  node .memberAccess .expression [.part .base, oneOf ["->", "?->"], .part .memberName],
  node .memberCall .expression
    [.part .base, oneOf ["->", "?->"], .part .memberName, .part .arguments],
  node .scopedCall .expression [.part .scope, symbol "::", .part .memberName, .part .arguments],
  node .scopedProperty .expression [.part .scope, symbol "::", .part .simpleVariable],
  node .classConstant .expression
    [.part .scope, symbol "::",
      .choice [name, .part .reservedName, inBraces (.part .expression)]],
  node .functionCall .expression
    [.choice [.part .scopeName, .part .callableVariable, .part .newWithArguments,
      .part .parenthesized, .part .arrayLiteral, .part .string], .part .arguments]]

/-! ## Operands -/

/-- An operand with `f` before it. -/
def before (f : Form) : List Form := [f, .part .operand]

def operandRules : List Production := [
  node .expression .expression
    [.part .operand, .many (.seq [.part .infixOperator, .part .operand])],
  piece .infixOperator (.choice
    [oneOf ["&&", "||", "|", "^", "&", "==", "!=", "<>", "===", "!==", "<", ">", "<=", ">=", "<=>",
      "<<", ">>", "+", "-", ".", "*", "/", "%", "**", "??"],
      oneWord ["and", "or", "xor"], .seq [symbol "?", maybe .expression, symbol ":"]]),
  piece .operand (.choice
    [.seq [.part .unary, .optional (.seq [word "instanceof", .part .classReference])],
      .part .assignment, .part .errorSuppression, .part .includeFile, .part .includeFileOnce,
      .part .requireFile, .part .requireFileOnce, .part .matchExpression, .part .yieldExpression]),
  oneOfParts .unary [.primary, .clone, .cast, .sign],
  oneOfParts .primary
    [.variable, .literal, .classConstant, .path, .arrayLiteral, .printExpression, .closure,
      .arrowFunction, .objectCreation, .update, .shellCommand, .parenthesized, .throwExpression],
  node .clone .expression [word "clone", .part .primary],
  node .cast .expression
    [.part .castHead,
      .choice [.part .unary, .part .errorSuppression, .part .includeFile, .part .includeFileOnce]],
  node .sign .expression (before (oneOf ["+", "-", "~", "!"])),
  piece .printExpression (.seq (before (word "print"))),
  piece .throwExpression (.seq (before (word "throw"))),
  node .errorSuppression .expression (before (symbol "@")),
  piece .includeFile (.seq (before (word "include"))),
  piece .includeFileOnce (.seq (before (word "include_once"))),
  piece .requireFile (.seq (before (word "require"))),
  piece .requireFileOnce (.seq (before (word "require_once"))),
  piece .assignment (.seq
    [.choice
      [.seq [.choice [.part .variable, .part .listLiteral], symbol "=", maybe .referenceModifier],
        .seq [.part .variable, oneOf
          ["**=", "*=", "/=", "%=", "+=", "-=", ".=", "<<=", ">>=", "&=", "^=", "|=", "??="]]],
      .part .operand]),
  node .update .expression
    [.choice
      [.seq [.part .variable, oneOf ["++", "--"]], .seq [oneOf ["++", "--"], .part .variable]]],
  node .parenthesized .expression [inParentheses (.part .expression)]]

/-! ## Arrays and lists -/

/-- `target`, possibly with a key before it. -/
def keyed (target : Form) : Form :=
  .choice [target, .seq [.part .expression, symbol "=>", target]]

/-- An expression or a reference. -/
def elementValue : Form := .choice [.part .byReference, .part .expression]

def arrayRules : List Production := [
  node .arrayLiteral .arrayLiteral
    [.choice [.seq [word "array", inParentheses elements], inBrackets elements]],
  node .arrayElement .clause [.choice [keyed elementValue, .part .spread]],
  node .spread .clause [symbol "...", .part .expression],
  oneOfParts .listLiteral [.listForm, .bracketForm],
  node .listForm .expression
    [word "list", inParentheses (holedList (.part .listItem))],
  oneOfParts .listTarget [.variable, .byReference, .listForm],
  piece .listItem (keyed (.part .listTarget)),
  node .bracketForm .expression [inBrackets (holedList (.part .bracketItem))],
  oneOfParts .bracketTarget [.variable, .byReference, .bracketForm],
  piece .bracketItem (keyed (.part .bracketTarget))]
where
  elements : Form := looseList (.part .arrayElement)

/-! ## Objects, functions and choices -/

def valueRules : List Production := [
  oneOfParts .objectCreation [.newWithArguments, .newBare],
  node .newWithArguments .expression
    [word "new",
      .choice [.seq [.part .classReference, .part .arguments], .part .anonymousClass]],
  node .newBare .expression [word "new", .part .classReference],
  node .anonymousClass .anonymousClass
    [maybe .attributes, .many (.part .modifier), word "class", maybe .arguments, maybe .baseClause,
      maybe .interfaceClause, .inRole .body (.part .declarationList)],
  oneOfParts .classReference [.scopeName, .newVariable, .parenthesized],
  piece .newVariable (.choice
    [.part .simpleVariable,
      .seq [.part .newVariable, inBrackets (maybe .expression)],
      .seq [.part .newVariable, oneOf ["->", "?->"], .part .memberName],
      .seq [.choice [.part .scopeName, .part .newVariable], symbol "::", .part .simpleVariable]]),
  node .closure .closure
    [maybe .attributes, .optional (word "static"), word "function", maybe .referenceModifier,
      .inRole .parameters (.part .parameters), maybe .closureUse, maybe .returnType,
      .inRole .body (.part .block)],
  node .closureUse .clause
    [word "use", inParentheses (trailedList
      (.seq [maybe .referenceModifier, .part .variableName]))],
  node .arrowFunction .closure
    (before (.seq
      [maybe .attributes, .optional (word "static"), word "fn", maybe .referenceModifier,
        .inRole .parameters (.part .parameters), maybe .returnType, symbol "=>"])),
  node .matchExpression .expression
    [word "match", .part .parenthesized,
      inBraces (looseList (.part .matchArm))],
  node .matchArm .clause
    [.choice [trailedList (.part .expression), word "default"], symbol "=>", .part .expression],
  piece .yieldExpression (.seq
    [word "yield",
      .optional (.choice [.part .arrayElement, .seq [word "from", .part .expression]])])]

end Lineage.Php.Grammar
