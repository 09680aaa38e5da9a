import TapeMachine.Verdict

/-!
# Test suites

A suite is a list of numbered inputs. Running it fills in the verdicts, either in one go or in
batches of a given size, as the command line does to show its progress. A summary counts the cases
by status.
-/

namespace TapeMachine

/-- An input of a suite, with its number and what is known of it. -/
structure Case where
  id : Int
  input : String
  status : Status := .idle
  deriving DecidableEq, Repr

namespace Suite

/-- The cases of inputs, numbered from one. -/
def cases (inputs : List String) : List Case :=
  inputs.zipIdx.map fun (input, i) => ⟨i + 1, input, .idle⟩

/-- The cases with their verdicts. -/
def run (table : Table) (cases : List Case) (bound : Int) : Except UnknownMove (List Case) := do
  let accepted ← table.evaluateAll (cases.map (·.input)) bound
  pure (cases.zipWith (fun c ok => { c with status := Status.ofVerdict ok }) accepted)

/-- How often each status occurs in a suite. -/
structure Summary where
  total : Nat
  accepted : Nat
  rejected : Nat
  idle : Nat
  running : Nat
  paused : Nat
  deriving DecidableEq, Repr

/-- The number of cases with a status. -/
def count (cases : List Case) (status : Status) : Nat := cases.countP (·.status == status)

/-- The summary of cases. -/
def summarize (cases : List Case) : Summary where
  total := cases.length
  accepted := count cases .accepted
  rejected := count cases .rejected
  idle := count cases .idle
  running := count cases .running
  paused := count cases .paused

/-! ## Batches -/

/-- A batch size of zero is refused. -/
structure EmptyBatch where
  deriving DecidableEq, Repr

/-- The refusal in words. -/
def EmptyBatch.message (_ : EmptyBatch) : String := "range() arg 3 must not be zero"

/-- The size of a batch if nothing else is said. -/
def defaultBatchSize : Nat := 64

/-- A list cut into pieces of a positive size; the last piece may be shorter. `fuel` bounds the
number of pieces. -/
def piecesWithin {α : Type} (size : Nat) : (fuel : Nat) → List α → List (List α)
  | 0, _ => []
  | fuel + 1, xs =>
    if xs.isEmpty then [] else xs.take size :: piecesWithin size fuel (xs.drop size)

/-- A list cut into pieces of a positive size; the last piece may be shorter. -/
def pieces {α : Type} (size : Nat) (xs : List α) : List (List α) :=
  piecesWithin size xs.length xs

/-- The inputs in batches. A negative size gives no batch at all. -/
def batches (size : Int) (inputs : List String) : Except EmptyBatch (List (List String)) :=
  if size = 0 then .error ⟨⟩
  else if size < 0 then .ok []
  else .ok (pieces size.toNat inputs)

/-- Runs batches one after the other; `done` inputs were numbered before. -/
def runBatchesFrom (table : Table) (bound : Int) (done : Nat) :
    List (List String) → Except UnknownMove (List Case)
  | [] => .ok []
  | batch :: rest => do
    let accepted ← table.evaluateAll batch bound
    let cases := (batch.zip accepted).zipIdx.map fun ((input, ok), i) =>
      (⟨done + i + 1, input, Status.ofVerdict ok⟩ : Case)
    let others ← runBatchesFrom table bound (done + batch.length) rest
    pure (cases ++ others)

/-- The cases of inputs that are run in batches. -/
def runBatches (table : Table) (bound : Int) (batches : List (List String)) :
    Except UnknownMove (List Case) :=
  runBatchesFrom table bound 0 batches

end Suite

end TapeMachine
