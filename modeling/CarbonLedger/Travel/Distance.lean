import CarbonLedger.Travel.Location
import CarbonLedger.Decimal.Rounding
import CarbonLedger.Decimal.Written

namespace CarbonLedger

structure Coordinates where
  latitude : Float
  longitude : Float

structure OffTheGlobe where
  coordinates : Coordinates

def OffTheGlobe.message (e : OffTheGlobe) : String :=
  "Invalid coordinate (" ++ Decimal.shown e.coordinates.latitude ++ ", " ++
    Decimal.shown e.coordinates.longitude ++
    "): latitude must be within [-90, 90] and longitude within [-180, 180]"

namespace Coordinates

def onGlobe (c : Coordinates) : Bool :=
  -90.0 ≤ c.latitude && c.latitude ≤ 90.0 && -180.0 ≤ c.longitude && c.longitude ≤ 180.0

def checked (c : Coordinates) : Except OffTheGlobe Coordinates :=
  if c.onGlobe then .ok c else .error ⟨c⟩

def earthRadiusKm : Float := 6371.0

def radians (degrees : Float) : Float := degrees * (3.141592653589793 / 180.0)

/-- The length of the great circle between two points, in kilometres, by the haversine formula.
Rounding may push the haversine of opposite points above one. -/
def arc (a b : Coordinates) : Float :=
  let lat1 := radians a.latitude
  let lat2 := radians b.latitude
  let halfLat := ((lat2 - lat1) / 2.0).sin
  let halfLon := (radians (b.longitude - a.longitude) / 2.0).sin
  let root := (halfLat * halfLat + lat1.cos * lat2.cos * (halfLon * halfLon)).sqrt
  2.0 * earthRadiusKm * (if root < 1.0 then root else 1.0).asin

def greatCircleKm (a b : Coordinates) : Except OffTheGlobe Float := do
  let a ← a.checked
  let b ← b.checked
  return a.arc b

end Coordinates

def Location.coordinates (l : Location) : Coordinates := ⟨l.latitude, l.longitude⟩

def Location.greatCircleKm (origin destination : Location) : Except OffTheGlobe Float :=
  origin.coordinates.greatCircleKm destination.coordinates

namespace TransportMode

def flightAllowanceKm : Float := 95.0

def railFactor : Float := 1.2

def distanceKm (mode : TransportMode) (greatCircleKm : Float) : Float :=
  match mode with
  | .plane => greatCircleKm + flightAllowanceKm
  | .train => Decimal.roundWhole (greatCircleKm * railFactor)

def distance (mode : TransportMode) (origin destination : Location) : Except OffTheGlobe Float :=
  mode.distanceKm <$> origin.greatCircleKm destination

end TransportMode

end CarbonLedger
