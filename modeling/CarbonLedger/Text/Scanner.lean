namespace CarbonLedger.Text

abbrev Scanner := StateT (List Char) Option

namespace Scanner

def runAll? {α : Type} (p : Scanner α) (s : String) : Option α :=
  match p.run s.toList with
  | some (a, []) => some a
  | _ => none

def peek? : Scanner (Option Char) := fun cs => some (cs.head?, cs)

def satisfy (p : Char → Bool) : Scanner Char
  | [] => none
  | c :: r => if p c then some (c, r) else none

def char (c : Char) : Scanner Unit := do
  let _ ← satisfy (· == c)

def word (s : String) : Scanner Unit := s.toList.forM char

def takeWhile (p : Char → Bool) : Scanner (List Char) :=
  fun cs => some (cs.takeWhile p, cs.dropWhile p)

def takeUpTo (most : Nat) (p : Char → Bool) : Scanner (List Char) := fun cs =>
  let ds := (cs.take most).takeWhile p
  if ds.isEmpty then none else some (ds, cs.drop ds.length)

def perhaps {α : Type} (p : Scanner α) : Scanner (Option α) := fun cs =>
  match p cs with
  | some (a, r) => some (some a, r)
  | none => some (none, cs)

def atEnd : Scanner Unit
  | [] => some ((), [])
  | _ => none

def repeatUpTo {α : Type} (n : Nat) (p : Scanner α) : Scanner (List α) :=
  match n with
  | 0 => pure []
  | n + 1 => fun cs =>
    match p cs with
    -- A scanner that takes nothing would do so for ever.
    | some (a, r) => if r.length < cs.length then ((a :: ·) <$> repeatUpTo n p) r else some ([], cs)
    | none => some ([], cs)

def many {α : Type} (p : Scanner α) : Scanner (List α) := fun cs => repeatUpTo cs.length p cs

end Scanner

end CarbonLedger.Text
