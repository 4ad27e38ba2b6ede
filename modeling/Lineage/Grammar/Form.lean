/-!
# Forms

A grammar describes each part of a text by a form: a regular expression over tokens and over other
parts. The types of tokens, of parts and of roles are left open.
-/
namespace Lineage.Grammar

/-- What a part of a text looks like. `τ` are the tokens, `π` the parts, and `ρ` the roles that a
piece can have in the part around it. -/
inductive Form (τ π ρ : Type) where
  | token (t : τ)
  | part (p : π)
  /-- What `f` reads, in the role `r`. -/
  | inRole (r : ρ) (f : Form τ π ρ)
  | seq (fs : List (Form τ π ρ))
  | choice (fs : List (Form τ π ρ))
  | optional (f : Form τ π ρ)
  /-- Any number of `f`, none included. -/
  | many (f : Form τ π ρ)

namespace Form

variable {τ π ρ : Type}

/-- One or more `f`. -/
def oneOrMore (f : Form τ π ρ) : Form τ π ρ := .seq [f, .many f]

/-- One or more `f` with `sep` between them. -/
def separated (sep f : Form τ π ρ) : Form τ π ρ := .seq [f, .many (.seq [sep, f])]

end Form

/-- One rule of a grammar. A part of a kind becomes a node of that kind; what a part without a kind
reads belongs to the part around it. -/
structure Production (τ π κ ρ : Type) where
  part : π
  kind : Option κ
  form : Form τ π ρ

end Lineage.Grammar
