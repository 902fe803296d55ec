import PassageMarkup.Main
import PassageMarkup.Proofs.Slices
import PassageMarkup.Proofs.RuleReading
import PassageMarkup.Proofs.ViablePrefix
import PassageMarkup.Proofs.CallSpelling
import PassageMarkup.Proofs.ShapeErrors
import PassageMarkup.Proofs.CatalogChange
import PassageMarkup.Proofs.Loosening
import PassageMarkup.Proofs.Levels
import PassageMarkup.Proofs.Agreement
import PassageMarkup.Proofs.BracketRuns
import PassageMarkup.Proofs.BracketStack
import PassageMarkup.Proofs.CallAlone
import PassageMarkup.Proofs.ArgumentForms
import PassageMarkup.Proofs.ArgumentReading
import PassageMarkup.Proofs.Classification
import PassageMarkup.Proofs.Gaps
import PassageMarkup.Proofs.Nesting
import PassageMarkup.Proofs.NormalForm
import PassageMarkup.Proofs.Relocation
import PassageMarkup.Proofs.Gluing
import PassageMarkup.Proofs.SpacingInvariance
import PassageMarkup.Proofs.Spacing
import PassageMarkup.Proofs.Respacing
import PassageMarkup.Proofs.StringSpelling
import PassageMarkup.Proofs.LabelWords
import PassageMarkup.Proofs.LabelLexing
import PassageMarkup.Proofs.LabelReading
import PassageMarkup.Proofs.Numerals
import PassageMarkup.Proofs.FirstOffender
import PassageMarkup.Proofs.Stretches
import PassageMarkup.Proofs.PlainProse
import PassageMarkup.Proofs.LinkSides
import PassageMarkup.Proofs.WrittenLinks
import PassageMarkup.Proofs.WrittenStrings
import PassageMarkup.Proofs.ReservedWords
import PassageMarkup.Proofs.TreeLines
import PassageMarkup.Proofs.LabelCharacters
import PassageMarkup.Proofs.LineFeeds
import PassageMarkup.Proofs.TreeShape
import PassageMarkup.Proofs.Writers
import PassageMarkup.Proofs.Reports
import PassageMarkup.Proofs.ListingLines
import PassageMarkup.Proofs.CatalogUpdates
import PassageMarkup.Proofs.Serialization
import PassageMarkup.Proofs.Durations
import PassageMarkup.Proofs.SettingLayers
import PassageMarkup.Proofs.LayerPrecedence
import PassageMarkup.Proofs.ReportOutcomes
