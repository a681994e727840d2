import CarbonLedger.Factor.Query

/-! The factor that a query finds. Those lead that meet the most conditions, and of these the ones
with the fewest labels beyond the query. -/

namespace CarbonLedger

structure Rank where
  matched : Nat
  extra : Nat
  deriving DecidableEq, Repr

def Rank.beats (a b : Rank) : Bool :=
  b.matched < a.matched || (a.matched == b.matched && a.extra < b.extra)

namespace Condition

def metBy (d : Condition) (c : Classification) : Bool :=
  match c.get? d.key with
  | some v => v == d.value
  | none => false

theorem metBy_iff {d : Condition} {c : Classification} :
    d.metBy c = true ↔ ∃ v, c.get? d.key = some v ∧ (v == d.value) = true := by
  rw [metBy]
  cases c.get? d.key <;> simp

/-- A condition on a text is met by that text alone. -/
theorem metBy_text_iff {key text : String} {role : Role} {c : Classification} :
    metBy ⟨key, .text text, role⟩ c = true ↔ c.get? key = some (.text text) := by
  rw [metBy_iff]
  constructor
  · rintro ⟨v, hv, hvalue⟩
    rw [hv, Label.beq_text_iff.mp hvalue]
  · exact fun h => ⟨_, h, Label.beq_text_iff.mpr rfl⟩

/-- Whether a classification may stand beside the condition: it meets it, or it lacks the key of a
refining one. -/
def allows (d : Condition) (c : Classification) : Bool :=
  match c.get? d.key with
  | some v => v == d.value
  | none => d.role == .refining

/-- A condition allows the labels that carry its key with its value. Labels without its key pass
where the condition is not required. -/
theorem allows_iff {d : Condition} {c : Classification} :
    d.allows c = true ↔
      (d.role = .required → ∃ v, c.get? d.key = some v ∧ (v == d.value) = true) ∧
        ∀ v, c.get? d.key = some v → (v == d.value) = true := by
  rw [allows]
  cases c.get? d.key <;> cases d.role <;> simp

end Condition

namespace Query

def fits (q : Query) (f : Factor) : Bool :=
  f.kind == q.kind && f.inWindow q.asOf && q.conditions.all fun d => d.allows f.classification

def matched (q : Query) (f : Factor) : Nat :=
  q.conditions.countP fun d => d.metBy f.classification

def rank? (q : Query) (f : Factor) : Option Rank :=
  if q.fits f then some ⟨q.matched f, f.classification.size - q.matched f⟩ else none

end Query

/-- The factors that lead while candidates are taken one after the other: the first of them, and
those of the same rank behind it, in their order. -/
structure Lead where
  rank : Rank
  first : Factor
  others : List Factor

namespace Query

/-- Takes one more candidate. One that does not fit, or that is beaten, changes nothing; one of the
leading rank joins, and a better one leads alone. -/
def meet (q : Query) (lead : Option Lead) (f : Factor) : Option Lead :=
  match q.rank? f, lead with
  | none, _ => lead
  | some r, none => some ⟨r, f, []⟩
  | some r, some l =>
    if l.rank.beats r then lead
    else if l.rank = r then some { l with others := l.others ++ [f] }
    else some ⟨r, f, []⟩

def lead (q : Query) (candidates : List Factor) : Option Lead := candidates.foldl q.meet none

end Query

structure Resolution where
  factor : Factor
  matched : Nat
  /-- Whether it stands in for a more special one. -/
  fallback : Bool
  rivals : List Int64

namespace Query

/-- The factor that a query finds among candidates: the first that leads. A tie is refused or told,
as the query says. -/
def resolve (q : Query) (candidates : List Factor) : Option Resolution :=
  match q.lead candidates with
  | none => none
  | some l =>
    if !l.others.isEmpty && q.ties == .refuse then none
    else some ⟨l.first, l.rank.matched, l.rank.matched < q.conditions.length,
      l.others.map (·.id)⟩

def resolveAnywhere (q : Query) (candidates : List Factor) : Option Resolution :=
  match q.resolve candidates with
  | some r => some r
  | none =>
    match q.restOfWorld? with
    | none => none
    | some w => (w.resolve candidates).map fun r => { r with fallback := true }

end Query

end CarbonLedger
