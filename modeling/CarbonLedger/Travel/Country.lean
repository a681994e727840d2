import CarbonLedger.Text.Blank
import CarbonLedger.Text.Case

namespace CarbonLedger.Country

def home : String := "CH"

def restOfWorld : String := "RoW"

/-- A code in its normal form: without blanks around it and in upper case, but the rest of the world
keeps its spelling. -/
def normal (code : String) : String :=
  let code := Text.trim code
  if Text.sameLetters code restOfWorld then restOfWorld else Text.upper code

/-- The country for a train trip. A trip within `domestic` is domestic. Otherwise the foreign end
decides, the destination before the origin, and a trip without a known foreign end goes to the rest
of the world. Blank codes are unknown. -/
def ofTrainTrip (domestic : String) (origin destination : Option String) : String :=
  let origin := origin.bind Text.filled?
  let destination := destination.bind Text.filled?
  let isDomestic (code : String) : Bool := Text.sameLetters code domestic
  if origin.any isDomestic && destination.any isDomestic then Text.upper domestic
  else
    -- A domestic end never hides a foreign one.
    let foreign := (destination.filter fun c => !isDomestic c).or
      (origin.filter fun c => !isDomestic c)
    (foreign.map Text.upper).getD restOfWorld

end CarbonLedger.Country
