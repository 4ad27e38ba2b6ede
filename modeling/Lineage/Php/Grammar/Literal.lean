import Lineage.Php.Grammar.Basic

/-!
# Numbers and strings

A template holds variables, alone or with one plain subscript or member, and expressions in braces.
A document without variables is written line by line.
-/
namespace Lineage.Php.Grammar

open Form

/-- One piece of a template. -/
def templatePiece (t : Template) : Form :=
  .choice
    [.token .escape, .token .bareEscape, symbol "'", .token (.templateText t),
      .seq [.part .variableName, .token (.textBehindVariable t)],
      .part .simpleVariable, .part .plainSubscript, .part .plainMember, .part .embeddedCode]

def literalRules : List Production := [
  node .plainString .literal
    [.choice [symbol "'", .token (.binaryQuote '\'')], .optional (.token .plainText), symbol "'"],
  node .templateString .literal
    [.choice [symbol "\"", .token (.binaryQuote '"')], .many (templatePiece .quoted), symbol "\""],
  node .shellCommand .literal [symbol "\x60", .many (templatePiece .shell), symbol "\x60"],
  node .document .literal
    [symbol "<<<",
      .choice [.token .label, .seq [symbol "\"", .token .label, .token (.attached "\"")]],
      .optional (.seq
        [.token .newline, templatePiece .document,
          .many (.seq [.optional (.token .newline), templatePiece .document]),
          .optional (.token .newline)]),
      .token .closingLabel],
  node .plainDocument .literal
    [symbol "<<<", symbol "'", .token .label, .token (.attached "'"),
      .optional (.seq [.token .newline, .many (.token .plainLine), .optional (.token .newline)]),
      .token .closingLabel],
  oneOfParts .string [.plainString, .templateString, .document, .plainDocument],
  node .literal .literal
    [.choice [.token .integer, .token .float, .part .string, oneWord ["true", "false", "null"]]],
  node .embeddedCode .expression [inBraces (.part .expression)],
  node .plainSubscript .expression [.part .variableName, inBrackets (.part .plainIndex)],
  piece .plainIndex (.choice
    [.token .integer, .seq [symbol "-", .token .integer], name, .part .variableName]),
  node .plainMember .expression [.part .variableName, symbol "->", name]]

end Lineage.Php.Grammar
