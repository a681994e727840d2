import CarbonLedger.Proofs.VersionWindows

namespace CarbonLedger
namespace Catalog

def currentFor (c : Catalog) (d : Draft) : List Factor :=
  (c.versions d.kind d.classification).filter (·.isCurrent)

section Replacement
variable {c : Catalog} {d : Draft} {f : Factor}

theorem filter_endedBy (c : Catalog) (d : Draft) :
    c.factors.filter (endedBy d) = c.currentFor d := by
  rw [currentFor, versions, List.filter_filter]
  exact List.filter_congr fun f _ => endedBy_eq d f

theorem mem_currentFor : f ∈ c.currentFor d ↔ f ∈ c.factors ∧ endedBy d f = true := by
  rw [← filter_endedBy, List.mem_filter]

end Replacement

end Catalog
end CarbonLedger
