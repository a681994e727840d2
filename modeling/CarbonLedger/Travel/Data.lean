import CarbonLedger.Factor.Data
import CarbonLedger.Travel.Location

namespace CarbonLedger.Location

def toValue (l : Location) : Value :=
  .ofEntries [
    ("id", .ofInt64 l.id),
    ("transport_mode", .ofCase l.mode),
    ("name", .text l.name),
    ("latitude", .ofFloat l.latitude),
    ("longitude", .ofFloat l.longitude),
    ("iata_code", .ofOption .text l.iataCode),
    ("country_code", .ofOption .text l.countryCode)]

def read (setting : Setting) : Reader Location :=
  Reader.record setting "a location" 7 fun fields =>
    Location.mk <$> fields.required 0 "id" Reader.int64
      <*> fields.required 1 "transport_mode" (Reader.case setting)
      <*> fields.required 2 "name" Reader.text
      <*> fields.required 3 "latitude" Reader.float
      <*> fields.required 4 "longitude" Reader.float
      <*> fields.optional 5 "iata_code" Reader.text
      <*> fields.optional 6 "country_code" Reader.text

end CarbonLedger.Location
