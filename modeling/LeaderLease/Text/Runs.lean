namespace LeaderLease

/-- The first and the last code point of each run. The runs ascend and do not touch. -/
abbrev Runs := List (Nat × Nat)

namespace Runs

/-- The code point lies in one of the runs. The search ends at the first run that begins after it. -/
def holds : Runs → Nat → Bool
  | [], _ => false
  | (first, last) :: rest, code => decide (first ≤ code) && (decide (code ≤ last) || holds rest code)

end Runs

end LeaderLease
