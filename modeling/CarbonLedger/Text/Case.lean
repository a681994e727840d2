namespace CarbonLedger.Text

def upper (s : String) : String := s.map Char.toUpper

def lower (s : String) : String := s.map Char.toLower

def sameLetters (s t : String) : Bool := lower s == lower t

theorem sameLetters_iff {s t : String} : sameLetters s t = true ↔ lower s = lower t := by
  simp [sameLetters]

end CarbonLedger.Text
