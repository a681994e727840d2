import CarbonLedger.Travel.Location

namespace CarbonLedger.Directory

def entry (id : Int64) (mode : TransportMode) (name : String) (latitude longitude : Float)
    (iataCode : Option String) (countryCode : String) : Location :=
  ⟨id, mode, name, latitude, longitude, iataCode, some countryCode⟩

def referenceLocations : List Location := [
  entry 1 .plane "Zurich Airport" 47.4647 8.5492 (some "ZRH") "CH",
  entry 2 .plane "Geneva Airport" 46.2381 6.109 (some "GVA") "CH",
  entry 3 .plane "London Heathrow" 51.47 (-0.4543) (some "LHR") "GB",
  entry 4 .plane "Paris Charles de Gaulle" 49.0097 2.5479 (some "CDG") "FR",
  entry 5 .plane "Frankfurt am Main" 50.0379 8.5622 (some "FRA") "DE",
  entry 6 .plane "Lisbon Humberto Delgado" 38.7742 (-9.1342) (some "LIS") "PT",
  entry 7 .plane "New York John F. Kennedy" 40.6413 (-73.7781) (some "JFK") "US",
  entry 8 .plane "Tokyo Narita" 35.772 140.3929 (some "NRT") "JP",
  entry 101 .train "Zürich HB" 47.3779 8.5403 none "CH",
  entry 102 .train "Genève Cornavin" 46.2102 6.1423 none "CH",
  entry 103 .train "Bern" 46.949 7.439 none "CH",
  entry 104 .train "Basel SBB" 47.5476 7.5896 none "CH",
  entry 105 .train "Paris Gare de Lyon" 48.8443 2.3744 none "FR",
  entry 106 .train "München Hbf" 48.1402 11.56 none "DE",
  entry 107 .train "Milano Centrale" 45.4862 9.2046 none "IT",
  entry 108 .train "Wien Hbf" 48.1852 16.3781 none "AT"]

end CarbonLedger.Directory
