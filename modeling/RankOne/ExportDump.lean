import RankOne.Export

namespace RankOne.Export

def heading (m : Matrix) : String := m.label ++ " matrix"

def dumpOf (ex : Export) (m : Matrix) : List String :=
  heading m :: (ex.combinations.get m).map LinearCombination.text

/-- The lines of the three matrices, one matrix after the other. -/
def dump (ex : Export) : List String := Matrix.all.flatMap ex.dumpOf

def dumpText (ex : Export) : String := String.intercalate "\n" ex.dump

end RankOne.Export
