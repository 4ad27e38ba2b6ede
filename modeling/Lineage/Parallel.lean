/-!
# Independent tasks

Tasks that run side by side finish in an order nobody controls. Each one stores its result in the
slot of its own index, and the results are read off the slots in index order. The order in which
tasks finish is a parameter: a schedule gives it for any number of tasks.
-/
namespace Lineage

/-- The order in which `n` tasks finish, for each `n`. -/
abbrev Schedule := Nat → List Nat

namespace Schedule

/-- Tasks finish in the order of their indices. -/
def inOrder : Schedule := List.range

/-- Every task finishes once. -/
def Complete (s : Schedule) : Prop := ∀ n, (s n).Perm (List.range n)

end Schedule

namespace Parallel

/-- The slots once the task at `i` has stored its result. -/
def store (task : α → β) (inputs : List α) (slots : List (Option β)) (i : Nat) : List (Option β) :=
  match inputs[i]? with
  | some a => slots.set i (some (task a))
  | none => slots

/-- The slots once all tasks of `finished` have stored their results, one after the other. -/
def fill (task : α → β) (inputs : List α) (finished : List Nat) : List (Option β) :=
  finished.foldl (store task inputs) (List.replicate inputs.length none)

/-- The results of all tasks, in index order. -/
def map (schedule : Schedule) (task : α → β) (inputs : List α) : List β :=
  (fill task inputs (schedule inputs.length)).filterMap id

/-- The results of all tasks, run side by side or one after the other. -/
def mapIf (parallel : Bool) (schedule : Schedule) (task : α → β) (inputs : List α) : List β :=
  if parallel then map schedule task inputs else inputs.map task

end Parallel

end Lineage
