import Lineage.Grammar.Form
import Std.Data.HashMap

/-!
# Grammars as automata

Every form becomes an automaton whose states are the steps of the form: the places where it reads a
token or a part. The state of a step is where reading stands once the step is done. The automata of
all rules share one list of states.

Two tables are worked out beforehand for every state, as sets of numbers kept in the bits of one
number: the parts that may start there, directly or as the start of another part, and the tokens
that may come next.
-/
namespace Lineage.Grammar

/-- A place of a form that reads a token or a part. -/
structure Step (τ π ρ : Type) where
  reads : τ ⊕ π
  role : Option ρ

/-- The steps of a form, numbered in order, with the ways through them. -/
structure Fragment (τ π ρ : Type) where
  steps : List (Step τ π ρ)
  /-- Can the form read nothing? -/
  nullable : Bool
  /-- The steps that can come first. -/
  first : List Nat
  /-- The steps that can come last. -/
  last : List Nat
  /-- The pairs of steps that can come one after the other. -/
  follow : List (Nat × Nat)

namespace Fragment

variable {τ π ρ : Type}

def empty : Fragment τ π ρ := ⟨[], true, [], [], []⟩

def pairs (xs ys : List Nat) : List (Nat × Nat) := xs.flatMap fun x => ys.map fun y => (x, y)

/-- One fragment after the other. -/
def append (a b : Fragment τ π ρ) : Fragment τ π ρ where
  steps := a.steps ++ b.steps
  nullable := a.nullable && b.nullable
  first := a.first ++ (if a.nullable then b.first else [])
  last := (if b.nullable then a.last else []) ++ b.last
  follow := a.follow ++ b.follow ++ pairs a.last b.first

/-- One fragment or the other. -/
def union (a b : Fragment τ π ρ) : Fragment τ π ρ where
  steps := a.steps ++ b.steps
  nullable := a.nullable || b.nullable
  first := a.first ++ b.first
  last := a.last ++ b.last
  follow := a.follow ++ b.follow

end Fragment

section Steps

variable {τ π ρ : Type}

mutual

/-- The steps of a form, numbered from `n` on, in the role `role` unless the form names one. -/
def Form.fragment (n : Nat) (role : Option ρ) : Form τ π ρ → Fragment τ π ρ
  | .token t => ⟨[⟨.inl t, role⟩], false, [n], [n], []⟩
  | .part p => ⟨[⟨.inr p, role⟩], false, [n], [n], []⟩
  | .inRole r f => Form.fragment n (some r) f
  | .seq fs => Form.sequence n role fs
  | .choice fs => Form.alternatives n role fs
  | .optional f => { Form.fragment n role f with nullable := true }
  | .many f =>
    let x := Form.fragment n role f
    { x with nullable := true, follow := x.follow ++ Fragment.pairs x.last x.first }

/-- The forms one after the other. -/
def Form.sequence (n : Nat) (role : Option ρ) : List (Form τ π ρ) → Fragment τ π ρ
  | [] => .empty
  | f :: fs =>
    let x := Form.fragment n role f
    x.append (Form.sequence (n + x.steps.length) role fs)

/-- One of the forms. -/
def Form.alternatives (n : Nat) (role : Option ρ) : List (Form τ π ρ) → Fragment τ π ρ
  | [] => { Fragment.empty with nullable := false }
  | f :: fs =>
    let x := Form.fragment n role f
    x.union (Form.alternatives (n + x.steps.length) role fs)

end

end Steps

/-! ## States -/

/-- A state of the automaton of one part. Tokens, parts and states go by their numbers. -/
structure State (ρ : Type) where
  /-- The part that is being read. -/
  owner : Nat
  /-- Can the part end here? -/
  isFinal : Bool
  /-- The role of what the step of the state read. -/
  role : Option ρ
  /-- The tokens that can be read here, with the state behind each. -/
  onToken : List (Nat × Nat)
  /-- The parts that can be read here, with the state behind each. -/
  onPart : List (Nat × Nat)
  /-- The parts that may start here, as a set of bits. -/
  predicts : Nat := 0
  /-- The tokens that may come next, the end of the part apart, as a set of bits. -/
  opens : Nat := 0
  deriving Inhabited

/-- The set of bits with the number `n` alone. -/
def bit (n : Nat) : Nat := 1 <<< n

/-- The automata of all parts of a grammar. -/
structure Automaton (τ π κ ρ : Type) [BEq τ] [Hashable τ] where
  tokens : Array τ
  /-- The numbers of the tokens. -/
  tokenIndex : Std.HashMap τ Nat
  /-- The kinds of the parts. -/
  kinds : Array (Option κ)
  states : Array (State ρ)
  /-- For every token, the parts that can start with it, with the state behind it. -/
  startsOnToken : Array (List (Nat × Nat))
  /-- For every part, the parts that can start with it, with the state behind it. -/
  startsOnPart : Array (List (Nat × Nat))

namespace Automaton

variable {τ π κ ρ : Type} [BEq τ] [Hashable τ] [BEq π] [Hashable π]

/-- The numbers of the values, in the order in which they come up first. -/
def numbering {α : Type} [BEq α] [Hashable α] (xs : List α) : Std.HashMap α Nat :=
  xs.foldl (fun m x => if m.contains x then m else m.insert x m.size) ∅

/-- The fragments of the forms; each one starts behind a number for its start state. -/
def fragments : Nat → List (Production τ π κ ρ) → List (Nat × Fragment τ π ρ)
  | _, [] => []
  | n, r :: rules =>
    let x := r.form.fragment (n + 1) none
    (n, x) :: fragments (n + 1 + x.steps.length) rules

/-- The states that a fragment gives, its start state first. -/
def statesOf (tokenIndex : Std.HashMap τ Nat) (partIndex : Std.HashMap π Nat) (owner start : Nat)
    (x : Fragment τ π ρ) : List (State ρ) :=
  let steps := x.steps.toArray
  let moves (targets : List Nat) : List (Nat × Nat) × List (Nat × Nat) :=
    targets.foldr (fun s (ts, ps) =>
      match steps[s - start - 1]? with
      | some ⟨.inl t, _⟩ => ((tokenIndex.getD t 0, s) :: ts, ps)
      | some ⟨.inr p, _⟩ => (ts, (partIndex.getD p 0, s) :: ps)
      | none => (ts, ps)) ([], [])
  let state (isFinal : Bool) (role : Option ρ) (targets : List Nat) : State ρ :=
    let (onToken, onPart) := moves targets
    { owner, isFinal, role, onToken, onPart }
  state x.nullable none x.first ::
    x.steps.mapIdx fun i step =>
      let n := start + 1 + i
      state (x.last.contains n) step.role
        ((x.follow.filter fun (a, _) => a == n).map Prod.snd).eraseDups

/-- For every part, the parts among which it may start, with itself: `rounds` times the parts at the
start of the parts found so far. -/
def startingParts (direct : Array (List Nat)) : Nat → Array Nat → Array Nat
  | 0, found => found
  | rounds + 1, found =>
    let next := direct.mapIdx fun p qs =>
      qs.foldl (fun s q => s ||| found.getD q 0) (found.getD p 0)
    if next == found then found else startingParts direct rounds next

/-- The numbers in a set of bits, below `n`. -/
def members (n s : Nat) : List Nat := (List.range n).filter s.testBit

/-- The moves of the start states, listed by the number of what they read. -/
def byFirst (size : Nat) (starts : List (Nat × List (Nat × Nat))) : Array (List (Nat × Nat)) :=
  starts.foldl (fun table (owner, moves) =>
    moves.foldl (fun table (x, s) => table.modify x fun known => known ++ [(owner, s)]) table)
    (Array.replicate size [])

/-- The automata of a list of rules, one rule for each part. -/
def ofProductions (rules : List (Production τ π κ ρ)) : Automaton τ π κ ρ :=
  let parts := fragments 0 rules
  let steps := parts.flatMap fun (_, x) => x.steps
  let tokens := steps.filterMap fun s => s.reads.getLeft?
  let tokenIndex := numbering tokens
  let partIndex := numbering (rules.map (·.part))
  let starts := parts.map Prod.fst
  let bare := ((parts.zipIdx.map fun ((start, x), owner) =>
    statesOf tokenIndex partIndex owner start x).flatten).toArray
  let startStates := starts.toArray.map fun s => bare[s]?.getD default
  let reach := startingParts (startStates.map fun s => s.onPart.map Prod.fst) rules.length
    (Array.ofFn fun i : Fin startStates.size => bit i)
  let openedBy (s : State ρ) : Nat := s.onToken.foldl (fun set (t, _) => set ||| bit t) 0
  let opening := reach.map fun set =>
    (members rules.length set).foldl
      (fun found p => found ||| openedBy (startStates[p]?.getD default)) 0
  let complete (s : State ρ) : State ρ :=
    { s with
      predicts := s.onPart.foldl (fun set (p, _) => set ||| reach.getD p 0) 0
      opens := s.onPart.foldl (fun set (p, _) => set ||| opening.getD p 0) (openedBy s) }
  let numbered := startStates.toList.zipIdx
  { tokens := tokens.eraseDups.toArray
    tokenIndex
    kinds := (rules.map (·.kind)).toArray
    states := bare.map complete
    startsOnToken := byFirst tokenIndex.size (numbered.map fun (s, p) => (p, s.onToken))
    startsOnPart := byFirst rules.length (numbered.map fun (s, p) => (p, s.onPart)) }

/-- The state with the number `s`. -/
def state (g : Automaton τ π κ ρ) (s : Nat) : State ρ := g.states[s]?.getD default

end Automaton

end Lineage.Grammar
