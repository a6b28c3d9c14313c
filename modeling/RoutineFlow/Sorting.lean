/-!
Sorting by a comparison that may fail. Which elements are compared, and in which order, shows in
the failure, so the steps are fixed: the run at the front is kept, or turned round when it descends,
and each further element finds its place by halving.
-/

namespace RoutineFlow.Sorting

variable {ε α : Type}

/-- Goes on with a run that ends in `last`, as long as each element compares to the one before it in the
same way; and what follows. -/
def runFrom (less : α → α → Except ε Bool) (descending : Bool) (last : α) :
    List α → Except ε (List α × List α)
  | [] => .ok ([], [])
  | x :: xs => do
    if (← less x last) == descending then
      let (run, rest) ← runFrom less descending x xs
      return (x :: run, rest)
    else return ([], x :: xs)

/-- The run at the front of a list in ascending order, and what follows it. -/
def frontRun (less : α → α → Except ε Bool) : List α → Except ε (List α × List α)
  | first :: second :: others => do
    let descending ← less second first
    let (run, rest) ← runFrom less descending second others
    let whole := first :: second :: run
    return (if descending then whole.reverse else whole, rest)
  | short => .ok (short, [])

/-- Puts an element into a sorted list, behind those that it is not less than. -/
def insertByHalving (less : α → α → Except ε Bool) (x : α) (sorted : List α) : Except ε (List α) :=
  let half := sorted.length / 2
  if h : half < sorted.length then do
    if ← less x sorted[half] then
      return (← insertByHalving less x (sorted.take half)) ++ sorted.drop half
    else
      return sorted.take (half + 1) ++ (← insertByHalving less x (sorted.drop (half + 1)))
  else .ok [x]
termination_by sorted.length
decreasing_by all_goals
  simp only [half, List.length_take, List.length_drop] at *
  omega

def sort (less : α → α → Except ε Bool) (xs : List α) : Except ε (List α) := do
  let (run, rest) ← frontRun less xs
  rest.foldlM (fun sorted x => insertByHalving less x sorted) run

end RoutineFlow.Sorting
