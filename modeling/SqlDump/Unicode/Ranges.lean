/-!
# Character ranges

A Unicode property is given as a list of closed ranges of code points. Main statement: `mem_iff`,
a character is in a list of ranges exactly when one range holds it.
-/

namespace SqlDump.Unicode

/-- Closed ranges of code points, first and last. -/
abbrev Ranges := List (Nat × Nat)

/-- Whether one of the ranges holds `c`. -/
def Ranges.mem (rs : Ranges) (c : Char) : Bool :=
  rs.any fun r => decide (r.1 ≤ c.toNat) && decide (c.toNat ≤ r.2)

theorem Ranges.mem_iff (rs : Ranges) (c : Char) :
    rs.mem c = true ↔ ∃ r ∈ rs, r.1 ≤ c.toNat ∧ c.toNat ≤ r.2 := by
  simp [Ranges.mem]

end SqlDump.Unicode
