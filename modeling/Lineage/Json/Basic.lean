/-!
# JSON values

A JSON document as a tree. Objects keep their members in written order, repeats included: whether a
repeated key matters is for the reader of the object to say.

Numbers split in two. A number without sign, fraction or exponent is a natural number; any other is
kept as written, because no field of any record is one. Text that is well-formed JSON but no
Unicode text (a string or a key with an unpaired surrogate escape) reads as `unreadable`.
-/
namespace Lineage

inductive Json where
  | null
  | bool (b : Bool)
  /-- A number without sign, fraction or exponent. -/
  | natural (n : Nat)
  /-- Any other number, as written. -/
  | numeral (text : String)
  | string (s : String)
  /-- A string, or an object with a key, that holds an unpaired surrogate escape. -/
  | unreadable
  | array (elements : List Json)
  | object (members : List (String × Json))
  deriving Repr, Inhabited

namespace Json

/-- The optional value `v`, absent as `null`. -/
def ofOption (write : α → Json) : Option α → Json
  | none => null
  | some v => write v

def strings (l : List String) : Json :=
  array (l.map string)

/-- The member called `key`; of repeated ones the last. -/
def member? (key : String) : Json → Option Json
  | object members => (members.reverse.find? fun m => m.1 == key).map (·.2)
  | _ => none

def string? : Json → Option String
  | string s => some s
  | _ => none

def bool? : Json → Option Bool
  | bool b => some b
  | _ => none

def natural? : Json → Option Nat
  | natural n => some n
  | _ => none

def elements? : Json → Option (List Json)
  | array l => some l
  | _ => none

end Json

end Lineage
