import SymbolExport.Main
import SymbolExport.Proofs.Enumeration
import SymbolExport.Proofs.RowOrder
import SymbolExport.Proofs.Writing
import SymbolExport.Proofs.CsvRoundTrip
import SymbolExport.Proofs.Walking
import SymbolExport.Proofs.ExportText
import SymbolExport.Proofs.TreeEffects
import SymbolExport.Proofs.AtomicPublication
import SymbolExport.Proofs.RowErrors
import SymbolExport.Proofs.LimitedRoom
import SymbolExport.Proofs.TwoFormats
import SymbolExport.Proofs.ReadingRules
import SymbolExport.Proofs.SpelledText
import SymbolExport.Proofs.ReadingValues
import SymbolExport.Proofs.SkippedValues
import SymbolExport.Proofs.Presentation
import SymbolExport.Proofs.ReadingPresentations
import SymbolExport.Proofs.SnapshotDecoding
import SymbolExport.Proofs.ExportCommand
import SymbolExport.Proofs.AlikeRecords
import SymbolExport.Proofs.Questions
import SymbolExport.Proofs.UnexportedData
import SymbolExport.Proofs.FaithfulText
import SymbolExport.Proofs.SnapshotTally
import SymbolExport.Proofs.SnapshotLookup
import SymbolExport.Proofs.ContentDecoding
import SymbolExport.Proofs.TaggedRecords
import SymbolExport.Proofs.FiniteNumbers
import SymbolExport.Proofs.ReadingResults
import SymbolExport.Proofs.DecodedValues
import SymbolExport.Proofs.SnapshotReencoding
import SymbolExport.Proofs.InPlaceExport
import SymbolExport.Proofs.IntegerLiterals
import SymbolExport.Proofs.SpacedText
import SymbolExport.Proofs.ConfigLayers
import SymbolExport.Proofs.ShortestDecimal
import SymbolExport.Proofs.NearestReading
import SymbolExport.Proofs.FloatText
import SymbolExport.Proofs.LooseWords
import SymbolExport.Proofs.PathComponents
