/-!
# Syntax trees of PHP sources

A concrete tree: every node has a kind, a place in the source, and its children in source order.
Punctuation and keywords are leaves of kind `token`; they are the unnamed nodes. A child may hold a
role in its parent, such as the name of a class. Comments are nodes too, inside the innermost node
whose span they interrupt.

Text that does not parse leaves an error node, or a node marked missing where a token had to be
supposed.
-/
namespace Lineage.Php

/-- A stretch of the source in bytes, with the row (from zero) where it starts. -/
structure Span where
  start : Nat
  stop : Nat
  row : Nat
  deriving DecidableEq, Repr, Inhabited

inductive Kind where
  | program
  | classDeclaration
  | interfaceDeclaration
  | traitDeclaration
  | enumDeclaration
  | baseClause
  | interfaceClause
  | declarationList
  | methodDeclaration
  | propertyDeclaration
  | propertyHook
  | constDeclaration
  | traitUse
  | enumCase
  | functionDefinition
  | formalParameters
  | simpleParameter
  | variadicParameter
  | promotedParameter
  | referenceModifier
  | modifier
  | byReference
  | attributeList
  | primitiveType
  | bottomType
  | namedType
  | optionalType
  | unionType
  | intersectionType
  | disjunctiveType
  | name
  | qualifiedName
  | variableName
  | block
  | statement
  | anonymousClass
  | closure
  | arguments
  | arrayLiteral
  | literal
  | expression
  /-- A stretch of a larger construct, such as an argument. -/
  | clause
  | comment
  | inlineText
  | token
  | error
  deriving DecidableEq, Repr, Inhabited

/-- The roles of children that have one. -/
inductive Role where
  | name
  | body
  | type
  | returnType
  | parameters
  | defaultValue
  | referenceModifier
  deriving DecidableEq, Repr, Inhabited

inductive SyntaxTree where
  | node (kind : Kind) (role : Option Role) (missing : Bool) (span : Span)
    (children : List SyntaxTree)
  deriving Repr, Inhabited

namespace SyntaxTree

def kind : SyntaxTree → Kind
  | node k _ _ _ _ => k

def role : SyntaxTree → Option Role
  | node _ r _ _ _ => r

def isMissing : SyntaxTree → Bool
  | node _ _ m _ _ => m

def span : SyntaxTree → Span
  | node _ _ _ s _ => s

def children : SyntaxTree → List SyntaxTree
  | node _ _ _ _ cs => cs

def isError (t : SyntaxTree) : Bool := t.kind == .error

def isNamed (t : SyntaxTree) : Bool := t.kind != .token

/-- The first line of the node, counted from one. -/
def line (t : SyntaxTree) : Nat := t.span.row + 1

/-- The same node in the role `r` of its parent. -/
def withRole (r : Role) : SyntaxTree → SyntaxTree
  | node k _ m s cs => node k (some r) m s cs

def namedChildren (t : SyntaxTree) : List SyntaxTree :=
  t.children.filter isNamed

/-- The first child in the role `r`. -/
def childInRole? (t : SyntaxTree) (r : Role) : Option SyntaxTree :=
  t.children.find? fun c => c.role == some r

/-- The first child of kind `k`. -/
def childOfKind? (t : SyntaxTree) (k : Kind) : Option SyntaxTree :=
  t.children.find? fun c => c.kind == k

/-- The node around `children`, from the start of the first to the end of the last. -/
def around (kind : Kind) (children : List SyntaxTree) : SyntaxTree :=
  let span : Span :=
    match children.head?, children.getLast? with
    | some a, some b => { start := a.span.start, stop := b.span.stop, row := a.span.row }
    | _, _ => default
  node kind none false span children

/-! ## Errors -/

mutual

/-- Is the node, or a node below it, an error or missing? -/
def hasError : SyntaxTree → Bool
  | node k _ m _ cs => k == .error || m || anyError cs

def anyError : List SyntaxTree → Bool
  | [] => false
  | t :: ts => hasError t || anyError ts

end

mutual

/-- The line of the first error or missing node; subtrees without one are skipped. -/
def firstErrorLine? : SyntaxTree → Option Nat
  | node k _ m s cs => if k == .error || m then some (s.row + 1) else firstErrorLineIn? cs

def firstErrorLineIn? : List SyntaxTree → Option Nat
  | [] => none
  | t :: ts =>
    if t.hasError then (firstErrorLine? t).or (firstErrorLineIn? ts) else firstErrorLineIn? ts

end

/-! ## Comments -/

mutual

/-- The tree with the extra leaves `extras` (in source order) put where they interrupt it: inside
the innermost node that contains them. -/
def weave (extras : List SyntaxTree) : SyntaxTree → SyntaxTree
  | node k r m s cs =>
    let inner := extras.filter fun e => s.start ≤ e.span.start && e.span.stop ≤ s.stop
    node k r m s (if inner.isEmpty then cs else weaveList inner cs)

/-- The siblings with the extra leaves put between them and inside them. -/
def weaveList (extras : List SyntaxTree) : List SyntaxTree → List SyntaxTree
  | [] => extras
  | t :: ts =>
    let ahead := extras.filter fun e => e.span.start < t.span.start
    let inside := extras.filter fun e => t.span.start ≤ e.span.start && e.span.stop ≤ t.span.stop
    let behind := extras.filter fun e => t.span.stop ≤ e.span.start && t.span.start ≤ e.span.start
    ahead ++ (if inside.isEmpty then t else weave inside t) :: weaveList behind ts

end

end SyntaxTree

end Lineage.Php
