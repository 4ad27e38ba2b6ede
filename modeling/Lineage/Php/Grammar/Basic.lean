import Lineage.Grammar.Form
import Lineage.Php.SyntaxTree
import Lineage.Php.Terminal

/-!
# The parts of a PHP source

The parts that the grammar is made of, and short ways to write their forms. The rules are in the
modules beside this one.
-/
namespace Lineage.Php

/-- The parts of a PHP source. -/
inductive Part where
  | program
  -- names and types
  | reservedName
  | namespaceName
  | qualifiedName
  | path
  | scopeName
  | primitiveType
  | namedType
  | optionalType
  | singleType
  | unionType
  | intersectionType
  | intersectionGroup
  | disjunctiveType
  | type
  | bottomType
  | returnType
  -- parameters, arguments and attributes
  | referenceModifier
  | visibility
  | modifier
  | attributes
  | attribute
  | parameters
  | simpleParameter
  | variadicParameter
  | promotedParameter
  | parameterValue
  | arguments
  | argument
  | argumentName
  -- literals
  | plainString
  | templateString
  | shellCommand
  | document
  | plainDocument
  | string
  | literal
  | embeddedCode
  | plainSubscript
  | plainIndex
  | plainMember
  -- variables
  | variableName
  | dynamicVariable
  | simpleVariable
  | byReference
  | castHead
  | memberName
  | callableVariable
  | variable
  | base
  | scope
  | subscript
  | memberAccess
  | memberCall
  | scopedCall
  | scopedProperty
  | classConstant
  | functionCall
  -- expressions
  | expression
  | operand
  | unary
  | primary
  | infixOperator
  | parenthesized
  | arrayLiteral
  | arrayElement
  | spread
  | listLiteral
  | listForm
  | listTarget
  | listItem
  | bracketForm
  | bracketTarget
  | bracketItem
  | assignment
  | errorSuppression
  | includeFile
  | includeFileOnce
  | requireFile
  | requireFileOnce
  | printExpression
  | throwExpression
  | clone
  | cast
  | sign
  | update
  | objectCreation
  | newWithArguments
  | newBare
  | anonymousClass
  | classReference
  | newVariable
  | closure
  | closureUse
  | arrowFunction
  | matchExpression
  | matchArm
  | yieldExpression
  -- statements
  | statement
  | block
  | emptyStatement
  | label
  | expressionStatement
  | ifStatement
  | elseIfClause
  | colonElseIfClause
  | colonBlock
  | switchStatement
  | switchCase
  | whileStatement
  | doStatement
  | forStatement
  | foreachStatement
  | foreachValue
  | gotoStatement
  | jumpStatement
  | tryStatement
  | catchClause
  | finallyClause
  | declareStatement
  | declareDirective
  | echoStatement
  | exitStatement
  | unsetStatement
  | globalStatement
  | staticStatement
  | staticVariable
  | expressions
  | namespaceStatement
  | useStatement
  | importClause
  | importGroup
  -- declarations
  | functionHeader
  | functionDefinition
  | baseClause
  | interfaceClause
  | classDeclaration
  | interfaceDeclaration
  | traitDeclaration
  | enumDeclaration
  | declarationList
  | enumList
  | enumCase
  | methodDeclaration
  | propertyDeclaration
  | propertyElement
  | propertyHooks
  | propertyHook
  | constDeclaration
  | classConstDeclaration
  | constList
  | constElement
  | traitUse
  | traitRule
  deriving DecidableEq, Repr, Hashable

/-- The forms of PHP. -/
abbrev Form := Grammar.Form Terminal Part Role

/-- The rules of PHP. -/
abbrev Production := Grammar.Production Terminal Part Kind Role

namespace Form

def symbol (s : String) : Form := .token (.symbol s)

/-- A keyword, in capitals or small letters. -/
def word (w : String) : Form := .token (.word w)

def name : Form := .token .name

/-- One of the symbols. -/
def oneOf (ss : List String) : Form := .choice (ss.map symbol)

/-- One of the keywords. -/
def oneWord (ws : List String) : Form := .choice (ws.map word)

/-- What ends a statement: a semicolon, or a closing tag ahead. -/
def semicolon : Form := .choice [symbol ";", .token .silentEnd]

/-- One or more `f` with commas between them. -/
def commaList (f : Form) : Form := .separated (symbol ",") f

/-- Any number of `f` with commas between them, and possibly a comma at the end. -/
def looseList (f : Form) : Form :=
  .seq [.optional (commaList f), .optional (symbol ",")]

/-- One or more `f` with commas between them, and possibly a comma at the end. -/
def trailedList (f : Form) : Form := .seq [commaList f, .optional (symbol ",")]

/-- Places for `f` with commas between them; each place may be empty. -/
def holedList (f : Form) : Form :=
  .seq [.optional f, .many (.seq [symbol ",", .optional f])]

/-- `f` in parentheses. -/
def inParentheses (f : Form) : Form := .seq [symbol "(", f, symbol ")"]

/-- `f` in brackets. -/
def inBrackets (f : Form) : Form := .seq [symbol "[", f, symbol "]"]

/-- `f` in braces. -/
def inBraces (f : Form) : Form := .seq [symbol "\x7b", f, symbol "\x7d"]

end Form

/-- A part that becomes a node. -/
def node (part : Part) (kind : Kind) (forms : List Form) : Production :=
  { part, kind := some kind, form := .seq forms }

/-- A part that is one of several others. -/
def oneOfParts (part : Part) (parts : List Part) : Production :=
  { part, kind := none, form := .choice (parts.map .part) }

/-- A part whose pieces belong to the part around it. -/
def piece (part : Part) (form : Form) : Production := { part, kind := none, form }

end Lineage.Php
