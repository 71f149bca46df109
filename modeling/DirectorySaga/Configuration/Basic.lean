/-
The configuration of transactions.

The only thing to choose is how temporary names are formed: by a suffix, or by a move
below a node set apart for them.
-/
import DirectorySaga.Transaction.Parking

namespace DirectorySaga

/-- How temporary names are to be formed. -/
inductive ParkingChoice
  /-- By a suffix on the value of the leaf. -/
  | suffix (text : String)
  /-- By a move below the node and a number on the value of the leaf. -/
  | subtree (node : Name)
deriving DecidableEq

namespace ParkingChoice

/-- The choice unless another is made. -/
def default : ParkingChoice := .suffix Parking.defaultSuffix

/-- The rule that the choice means, with the sequence for its numbers. -/
def parking (sequence : SequenceId) : ParkingChoice → Parking
  | suffix text => .suffix text
  | subtree node => .subtree node sequence

end ParkingChoice

/-- The settings of transactions. -/
structure Configuration where
  choice : ParkingChoice
deriving DecidableEq

namespace Configuration

/-- The settings unless others are made. -/
def default : Configuration := ⟨.default⟩

instance : Inhabited Configuration := ⟨default⟩

/-- The rule for temporary names, with the sequence for its numbers. -/
def parking (c : Configuration) (sequence : SequenceId) : Parking := c.choice.parking sequence

end Configuration

end DirectorySaga
