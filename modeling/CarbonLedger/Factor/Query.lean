import CarbonLedger.Factor.Basic
import CarbonLedger.Travel.Basic
import CarbonLedger.Travel.Country

/-! Queries for factors: conditions on labels. A required one has to be met; a refining one makes a
factor that meets it the more special. -/

namespace CarbonLedger

inductive Role
  | required
  | refining
  deriving DecidableEq, Repr

structure Condition where
  key : String
  value : Label
  role : Role

inductive TiePolicy
  | takeFirst
  | refuse
  deriving DecidableEq, Repr

instance : Cases TiePolicy where
  cases := [.takeFirst, .refuse]
  name
    | .takeFirst => "first_match"
    | .refuse => "reject"

structure Query where
  kind : EmissionKind
  conditions : List Condition
  asOf : Option Instant
  ties : TiePolicy

namespace Query

def all (kind : EmissionKind) : Query := ⟨kind, [], none, .takeFirst⟩

def add (q : Query) (c : Condition) : Query :=
  { q with conditions := q.conditions.filter (fun d => d.key != c.key) ++ [c] }

def require (q : Query) (key : String) (value : Label) : Query := q.add ⟨key, value, .required⟩

def refine (q : Query) (key : String) (value : Label) : Query := q.add ⟨key, value, .refining⟩

/-- Adds a refining condition on a text that is there and not blank, blanks around it cut. -/
def refineText (q : Query) (key : String) (value : Option String) : Query :=
  match value.bind Text.filled? with
  | some s => q.refine key (.text s)
  | none => q

def ofClassification (kind : EmissionKind) (c : Classification) : Query :=
  c.entries.foldl (fun q e => q.refine e.1 e.2) (all kind)

def classification (q : Query) : Classification :=
  q.conditions.foldl (fun c d => c.insert d.key d.value) .empty

def equipment (submodule equipmentClass : String) (subClass : Option String) : Query :=
  (((all .equipment).require "submodule" (.text submodule)).require "class"
    (.text equipmentClass)).refineText "sub_class" subClass

def electricityMix (countryCode : String) : Query :=
  (all .electricityMix).require "country_code" (.text (Country.normal countryCode))

def flight (haul : HaulCategory) : Query :=
  { (all .flight).require "haul_category" (.text (Cases.name haul)) with ties := .refuse }

def train (countryCode : String) : Query :=
  (all .train).require "country_code" (.text (Country.normal countryCode))

def headcount (category : Option String) : Query :=
  (all .headcount).refineText "category" category

def externalCloud (provider : String) (service : Option String) : Query :=
  ((all .externalCloud).require "provider" (.text provider)).refineText "service" service

def externalAi (provider : String) (useCase : Option String) : Query :=
  ((all .externalAi).require "provider" (.text provider)).refineText "use_case" useCase

def condition? (q : Query) (key : String) : Option Condition :=
  q.conditions.find? fun c => c.key == key

/-- A key holds the condition added on it last. -/
@[simp]
theorem condition?_add (q : Query) (c : Condition) (key : String) :
    (q.add c).condition? key = if key = c.key then some c else q.condition? key := by
  rw [condition?, condition?, add, List.find?_append]
  by_cases h : key = c.key
  · -- The old conditions on the key are gone, so the new one is the first.
    have hnone : (q.conditions.filter fun d => d.key != c.key).find? (fun d => d.key == key) =
        none := by
      rw [List.find?_eq_none]
      intro d hd
      have hne : d.key ≠ c.key := by simpa using (List.mem_filter.1 hd).2
      simpa [h] using hne
    rw [hnone, if_pos h, List.find?_cons_of_pos (by simp [h]), Option.none_or]
  · have hc : ¬ c.key = key := fun e => h e.symm
    have hsame : (q.conditions.filter fun d => d.key != c.key).find? (fun d => d.key == key) =
        q.conditions.find? fun d => d.key == key := by
      induction q.conditions with
      | nil => rfl
      | cons d ds ih => by_cases hd : d.key = c.key <;> by_cases hk : d.key = key <;> grind
    rw [hsame, if_neg h, List.find?_cons_of_neg (by simp [hc]), List.find?_nil, Option.or_none]

/-- The query for the rest of the world in place of a country; none if the query asks for no country
or asks for the rest of the world already. -/
def restOfWorld? (q : Query) : Option Query :=
  match q.condition? "country_code" with
  | none => none
  | some c =>
    if c.value.text? = some Country.restOfWorld then none
    else some (q.add { c with value := .text Country.restOfWorld })

end Query

end CarbonLedger
