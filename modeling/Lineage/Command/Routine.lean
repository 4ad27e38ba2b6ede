import Lineage.Command.Failure

/-!
# Steps of a command

A command looks at files, prints, creates a file and fills it, one step after the other. The first
step that fails ends it. What the steps before did stays done: nothing is taken back.
-/
namespace Lineage

/-- What a command did: its result, what it printed, and the files as it left them. -/
structure Effect (α : Type) where
  result : Except CommandFailure α
  printed : String := ""
  files : FileTree

/-- A command or a part of one, by what it does with the files that it finds. -/
def Routine (α : Type) : Type := FileTree → Effect α

namespace Routine

/-- Does nothing but give `a`. -/
def give (a : α) : Routine α := fun t => { result := .ok a, files := t }

/-- The first part and, if it succeeds, the second on the files that the first one left. -/
def andThen (first : Routine α) (next : α → Routine β) : Routine β := fun t =>
  let done := first t
  match done.result with
  | .error e => { result := .error e, printed := done.printed, files := done.files }
  | .ok a =>
    let rest := next a done.files
    { rest with printed := done.printed ++ rest.printed }

instance : Monad Routine where
  pure := give
  bind := andThen

/-- Finds something out from the files. -/
def look (ask : FileTree → Except CommandFailure α) : Routine α := fun t =>
  { result := ask t, files := t }

def print (text : String) : Routine Unit := fun t =>
  { result := .ok (), printed := text, files := t }

/-- Creates a file, or empties the one that is there, and gives its place. -/
def create (path : String) (failure : FileFault → CommandFailure) : Routine (List String) :=
  fun t => match t.create path with
  | .error fault => { result := .error (failure fault), files := t }
  | .ok (place, files) => { result := .ok place, files := files }

/-- Adds `bytes` to the file at `place`, which has been created. -/
def append (place : List String) (bytes : List UInt8) : Routine Unit := fun t =>
  { result := .ok (), files := t.append place bytes }

end Routine

end Lineage
