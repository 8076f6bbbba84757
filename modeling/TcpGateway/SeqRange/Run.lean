import TcpGateway.SeqRange

/-!
# Runs of a range

Calls that move the bounds of a range forward, in the order in which they come, each carried out or
refused.
-/

namespace TcpGateway

namespace SeqRange

/-- A call that moves one bound by `steps`. -/
inductive Move where
  | lower (steps : Nat)
  | upper (steps : Nat)
deriving DecidableEq, Repr

/-- The range after a move, and what the caller is told. -/
def serve (r : SeqRange) (move : Move) : SeqRange × Except BoundError Unit :=
  let moved : Except BoundError SeqRange :=
    match move with
    | .lower steps => r.raiseLower steps
    | .upper steps => r.raiseUpper steps
  match moved with
  | .ok r' => (r', .ok ())
  | .error e => (r, .error e)

/-- The range after a run. -/
def run (r : SeqRange) (moves : List Move) : SeqRange :=
  moves.foldl (fun r move => (r.serve move).1) r

/-- How far a move takes the lower bound; a refused one leaves it where it is. -/
def lowerBy (r : SeqRange) (move : Move) : Nat :=
  match move, (r.serve move).2 with
  | .lower steps, .ok _ => steps
  | _, _ => 0

/-- How far a move takes the upper bound. -/
def upperBy (r : SeqRange) (move : Move) : Nat :=
  match move, (r.serve move).2 with
  | .upper steps, .ok _ => steps
  | _, _ => 0

/-- How far a run takes the lower bound, all the way round the circle counted as often as it goes
there. -/
def loweredBy (r : SeqRange) : List Move → Nat
  | [] => 0
  | move :: moves => r.lowerBy move + (r.serve move).1.loweredBy moves

/-- How far a run takes the upper bound. -/
def upperedBy (r : SeqRange) : List Move → Nat
  | [] => 0
  | move :: moves => r.upperBy move + (r.serve move).1.upperedBy moves

end SeqRange

end TcpGateway
