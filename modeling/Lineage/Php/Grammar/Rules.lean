import Lineage.Grammar.Chart
import Lineage.Php.Grammar.Declaration
import Lineage.Php.Grammar.Expression
import Lineage.Php.Grammar.Literal
import Lineage.Php.Grammar.Statement

/-!
# The grammar of PHP

All rules together, and the readings that follow them. A source is a list of statements; the tags
and the text outside them are read apart.
-/
namespace Lineage.Php.Grammar

/-- The rules of PHP, the one for a whole source first. -/
def rules : List Production :=
  piece .program (.many (.part .statement)) ::
    (nameRules ++ typeRules ++ parameterRules ++ literalRules ++ variableRules ++ operandRules ++
      arrayRules ++ valueRules ++ controlRules ++ simpleRules ++ namespaceRules ++ classRules ++
      memberRules)

def automaton : Lineage.Grammar.Automaton Terminal Part Kind Role := .ofProductions rules

/-- A reading of a PHP source. -/
abbrev Chart := Lineage.Grammar.Chart Terminal Part Kind Role SyntaxTree

/-- The reading of nothing. -/
def Chart.empty : Chart := .start automaton { node := .around, withRole := .withRole }

end Lineage.Php.Grammar
