import CarbonLedger.Document.Json
import CarbonLedger.Document.JsonReader
import CarbonLedger.Factor.Argument
import CarbonLedger.Factor.Seed
import CarbonLedger.InputFiles
import CarbonLedger.Ledger.Recalculation
import CarbonLedger.Travel.Data
import CarbonLedger.Travel.Reference
import CarbonLedger.Emission.Data
import CarbonLedger.Proofs.LabelEquality
import CarbonLedger.Proofs.ResolutionRank
import CarbonLedger.Proofs.CatalogRuns
import CarbonLedger.Proofs.LastWrite
import CarbonLedger.Proofs.PointInTime
import CarbonLedger.Proofs.RestOfWorld
import CarbonLedger.Proofs.LabelQueries
import CarbonLedger.Proofs.FlightTies
import CarbonLedger.Proofs.VersionWindows
import CarbonLedger.Proofs.SlotQueries
import CarbonLedger.Proofs.VersionLookup
import CarbonLedger.Proofs.RunSplitting
import CarbonLedger.Proofs.EvaluationCases
import CarbonLedger.Proofs.SubjectSteps
import CarbonLedger.Proofs.MalformedTrips
import CarbonLedger.Proofs.HandledSubjects
import CarbonLedger.Proofs.KeptRows
import CarbonLedger.Proofs.FailedRuns
import CarbonLedger.Proofs.SnapshotKilograms
import CarbonLedger.Proofs.FactorProvenance
import CarbonLedger.Proofs.GridIntensity
import CarbonLedger.Proofs.Sessions
import CarbonLedger.Proofs.WholeEvaluations
import CarbonLedger.Proofs.SeedCoverage
import CarbonLedger.Proofs.SubjectReports
import CarbonLedger.Proofs.RepeatedRuns
import CarbonLedger.Proofs.SubjectOrder
import CarbonLedger.Proofs.WrittenRecords
import CarbonLedger.Proofs.StoredActivities
import CarbonLedger.Proofs.EmissionData
import CarbonLedger.Proofs.DoubleRounding
import CarbonLedger.Proofs.DoubleRange
import CarbonLedger.Proofs.FiniteKilograms
import CarbonLedger.Proofs.LateLookups
import CarbonLedger.Proofs.LoadingOrder
import CarbonLedger.Proofs.Replacements
import CarbonLedger.Proofs.OptionalLabels
import CarbonLedger.Proofs.FoundFactors
import CarbonLedger.Proofs.RefusedCommits
import CarbonLedger.Proofs.EquipmentRules
import CarbonLedger.Proofs.BrokenTies
import CarbonLedger.Proofs.LetterCase
import CarbonLedger.Proofs.TrainCountries
import CarbonLedger.Proofs.CountrySpelling
import CarbonLedger.Proofs.FactorData
import CarbonLedger.Proofs.ActivityForms
import CarbonLedger.Proofs.Numerals
import CarbonLedger.Proofs.TrimmedTexts
import CarbonLedger.Proofs.LabelArguments
import CarbonLedger.Proofs.LayeredSettings
import CarbonLedger.Proofs.QueryRecipes
import CarbonLedger.Proofs.NewIds
