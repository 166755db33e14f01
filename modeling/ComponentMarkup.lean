import ComponentMarkup.Command.Report
import ComponentMarkup.Command.Run
import ComponentMarkup.Main
import ComponentMarkup.Proofs.NormalForm
import ComponentMarkup.Proofs.TokenGrammar
import ComponentMarkup.Proofs.TreeBuilding
import ComponentMarkup.Proofs.Escaping
import ComponentMarkup.Proofs.LegalTree
import ComponentMarkup.Proofs.ReadingOn
import ComponentMarkup.Proofs.WrittenAttributes
import ComponentMarkup.Proofs.WrittenTokens
import ComponentMarkup.Proofs.Scanning
import ComponentMarkup.Proofs.RoundTrip
import ComponentMarkup.Proofs.ParsedTree
import ComponentMarkup.Proofs.ExpandedTree
import ComponentMarkup.Proofs.TemplateGrammar
import ComponentMarkup.Proofs.Placeholders
import ComponentMarkup.Proofs.FilledView
import ComponentMarkup.Proofs.PlainExpansion
import ComponentMarkup.Proofs.VisibleText
import ComponentMarkup.Proofs.ExpansionPath
import ComponentMarkup.Proofs.CatalogNames
import ComponentMarkup.Proofs.GroupMatching
import ComponentMarkup.Proofs.TemplateRanking
import ComponentMarkup.Proofs.Layout
import ComponentMarkup.Proofs.FormattedDocument
import ComponentMarkup.Proofs.Splicing
import ComponentMarkup.Proofs.Pruning
import ComponentMarkup.Proofs.BrokenTemplates
import ComponentMarkup.Proofs.FilledSlots
import ComponentMarkup.Proofs.WrittenContext
import ComponentMarkup.Proofs.SlotPlacement
import ComponentMarkup.Proofs.ReportedPlaces
import ComponentMarkup.Proofs.EmptyTexts
import ComponentMarkup.Proofs.TagCase
import ComponentMarkup.Proofs.TemplateFiles
import ComponentMarkup.Proofs.TemplateStores
import ComponentMarkup.Proofs.WrappedPath
import ComponentMarkup.Proofs.JoinedWords
import ComponentMarkup.Proofs.ClassTokens
import ComponentMarkup.Proofs.SourceTiling
import ComponentMarkup.Proofs.ScopedClass
import ComponentMarkup.Proofs.BoundAttributes
import ComponentMarkup.Proofs.ReferenceGrammar
import ComponentMarkup.Proofs.RawBodies
import ComponentMarkup.Proofs.QuotedViews
import ComponentMarkup.Proofs.RecurringNames
import ComponentMarkup.Proofs.DiscoveredTemplates
import ComponentMarkup.Proofs.MergedAttributes
import ComponentMarkup.Proofs.AttributeSpellings
import ComponentMarkup.Proofs.DepthLimit
import ComponentMarkup.Proofs.AccountedTags
import ComponentMarkup.Proofs.SplicedElement
import ComponentMarkup.Proofs.LabelTokens
import ComponentMarkup.Proofs.CollapsedClass
import ComponentMarkup.Proofs.ReadingLoop
