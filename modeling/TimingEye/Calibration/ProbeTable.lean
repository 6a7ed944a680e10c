import TimingEye.Hardware

/-!
# Hardware with tabulated answers

A table fixes the answer of every probe in advance: one row for each number of slips, one entry
for each probe since the clock delay was last set.  A missing entry is answered by a fixed value.
-/

namespace TimingEye

/-- The answers of all probes. -/
structure ProbeTable where
  rows : Array (Array Bool)
  /-- The answer where the table has no entry. -/
  fill : Bool := false
  /-- Whether the rows start over after the last one. -/
  cycle : Bool := false

/-- How far a run has got in the table. -/
structure ProbeTable.Position where
  row : Nat := 0
  /-- Probes since the clock delay was last set. -/
  column : Nat := 0
  deriving DecidableEq, Repr

namespace ProbeTable

def answer (table : ProbeTable) (position : Position) : Bool :=
  let row := if table.cycle then position.row % table.rows.size else position.row
  ((table.rows[row]?).bind (·[position.column]?)).getD table.fill

def hardware (table : ProbeTable) : Hardware (StateM Position) where
  setDelay line _ := modify fun position =>
    match line with
    | .clock => { position with column := 0 }
    | .io => position
  stepPhase _ := pure ()
  slip _ := modify fun position => { position with row := position.row + 1 }
  probe := do
    let position ← get
    set { position with column := position.column + 1 }
    return table.answer position

end ProbeTable

end TimingEye
