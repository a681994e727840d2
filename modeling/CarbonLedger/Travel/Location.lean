import CarbonLedger.Document.Register
import CarbonLedger.Travel.Basic

namespace CarbonLedger

structure Location where
  id : Int64
  mode : TransportMode
  name : String
  latitude : Float
  longitude : Float
  iataCode : Option String
  countryCode : Option String

def Location.country? (l : Location) : Option String := l.countryCode.bind Text.filled?

structure Directory where
  locations : Register Location

namespace Directory

def empty : Directory := ⟨.empty⟩

instance : Inhabited Directory := ⟨empty⟩

def insert (d : Directory) (l : Location) : Directory := ⟨d.locations.insert l.id l⟩

def ofList (locations : List Location) : Directory := locations.foldl insert empty

def find? (d : Directory) (id : Int64) : Option Location := d.locations.find? id

/-- An id finds the location put in with it last. -/
@[simp]
theorem find?_insert (d : Directory) (l : Location) (i : Int64) :
    (d.insert l).find? i = if i = l.id then some l else d.find? i :=
  Register.find?_insert d.locations l.id l i

end Directory

end CarbonLedger
