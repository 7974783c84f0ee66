namespace BlockCanvas

-- New identities, numbered in the order in which they are drawn.
structure Supply where
  issued : Nat := 0
deriving DecidableEq

namespace Supply

def draw (supply : Supply) : String × Supply :=
  ("gen-" ++ toString (supply.issued + 1), ⟨supply.issued + 1⟩)

-- An identity that is asked for is taken; without one, or with an empty one, a new one is drawn.
def resolve (supply : Supply) : Option String → String × Supply
  | none => supply.draw
  | some "" => supply.draw
  | some id => (id, supply)

end Supply
end BlockCanvas
