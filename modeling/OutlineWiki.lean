import OutlineWiki.Outline.Node
import OutlineWiki.Main
import OutlineWiki.Export
import OutlineWiki.Reference.FixedHost
import OutlineWiki.Reference.Survey
import OutlineWiki.Options.Json
import OutlineWiki.Outline.Build
import OutlineWiki.Outline.Encode
import OutlineWiki.Json.Scan
import OutlineWiki.Json.Basic
import OutlineWiki.Decimal.Shortest
import OutlineWiki.Outline.Prepare
import OutlineWiki.Outline.Index
import OutlineWiki.Path
import OutlineWiki.Reference.Ordinal
import OutlineWiki.Text.Case
import OutlineWiki.Text.Lines
import OutlineWiki.Text.Quoted
import OutlineWiki.Text.Search
import OutlineWiki.Text.Template
import OutlineWiki.Text.Width
import OutlineWiki.Proofs.Footnotes.Registry
import OutlineWiki.Proofs.Rendering.Comparison
import OutlineWiki.Proofs.Rendering.Stability
import OutlineWiki.Proofs.Outline.Walk
import OutlineWiki.Proofs.Outline.Numbering
import OutlineWiki.Proofs.Footnotes.Section
import OutlineWiki.Proofs.Footnotes.Order
import OutlineWiki.Proofs.Text.Marks
import OutlineWiki.Proofs.Rendering.Rest
import OutlineWiki.Proofs.Rendering.Display
import OutlineWiki.Proofs.Footnotes.Markers
import OutlineWiki.Proofs.Rendering.Termination
import OutlineWiki.Proofs.Rendering.Paragraph
import OutlineWiki.Proofs.Json.Fields
import OutlineWiki.Proofs.Json.Order
import OutlineWiki.Proofs.Outline.Decode
import OutlineWiki.Proofs.Outline.Slots
import OutlineWiki.Proofs.Outline.Placement
import OutlineWiki.Proofs.Json.Source
import OutlineWiki.Proofs.Json.Spelling
import OutlineWiki.Proofs.Outline.Layout
import OutlineWiki.Proofs.Outline.Lookups
import OutlineWiki.Proofs.Outline.RoundTrip
import OutlineWiki.Proofs.Footnotes.Repetition
import OutlineWiki.Proofs.Outline.Copies
import OutlineWiki.Proofs.Outline.Images
import OutlineWiki.Proofs.Reference.Images
import OutlineWiki.Proofs.Rendering.Correspondence
import OutlineWiki.Proofs.Rendering.Exports
import OutlineWiki.Proofs.Rendering.Images
import OutlineWiki.Proofs.Outline.Surfaces
import OutlineWiki.Proofs.Outline.Renaming
import OutlineWiki.Proofs.Footnotes.Labels
import OutlineWiki.Proofs.Outline.Insertion
import OutlineWiki.Proofs.Outline.Openings
import OutlineWiki.Proofs.Rendering.Remarks
import OutlineWiki.Proofs.Footnotes.Moves
import OutlineWiki.Proofs.Text.Ends
import OutlineWiki.Proofs.Text.Occurrence
import OutlineWiki.Proofs.Text.Template
import OutlineWiki.Proofs.Reference.CodeLabels
import OutlineWiki.Proofs.Reference.CodeLinks
import OutlineWiki.Proofs.Outline.Spaces
import OutlineWiki.Proofs.Rendering.Spacing
import OutlineWiki.Proofs.Text.LineEnds
import OutlineWiki.Proofs.Command.Files
import OutlineWiki.Proofs.Command.Conversion
import OutlineWiki.Proofs.Outline.Preparation
import OutlineWiki.Proofs.Reference.SectionPaths
import OutlineWiki.Proofs.Reference.Sections
import OutlineWiki.Proofs.Outline.Pruning
import OutlineWiki.Proofs.Text.Replacement
import OutlineWiki.Proofs.Rendering.Mentions
import OutlineWiki.Proofs.Reference.PrunedSections
import OutlineWiki.Proofs.Footnotes.Calls
import OutlineWiki.Proofs.Options.ReadBack
import OutlineWiki.Proofs.Text.Shown
import OutlineWiki.Proofs.Rendering.Bullets
import OutlineWiki.Proofs.Rendering.Rows
import OutlineWiki.Proofs.Rendering.Nests
import OutlineWiki.Proofs.Reference.Elements
import OutlineWiki.Proofs.Text.Words
import OutlineWiki.Proofs.Reference.Targets
import OutlineWiki.Proofs.Text.ImageOpenings
import OutlineWiki.Proofs.Rendering.RunningText
import OutlineWiki.Proofs.Rendering.LooseMarks
import OutlineWiki.Proofs.Options.Settings
import OutlineWiki.Proofs.Rendering.Literal
import OutlineWiki.Proofs.Footnotes.Separators
import OutlineWiki.Proofs.Rendering.Tables
import OutlineWiki.Proofs.Outline.Decorations
import OutlineWiki.Proofs.Reference.Decorations
import OutlineWiki.Proofs.Rendering.Decorations
import OutlineWiki.Proofs.Text.JoinedLines
import OutlineWiki.Proofs.Text.Runs
import OutlineWiki.Proofs.Text.Names
import OutlineWiki.Proofs.Rendering.Escaping
import OutlineWiki.Proofs.Rendering.Entities
import OutlineWiki.Proofs.Text.Blanks
import OutlineWiki.Proofs.Rendering.RunLines
import OutlineWiki.Proofs.Text.Literals
import OutlineWiki.Proofs.Text.BlockEnds
import OutlineWiki.Proofs.Text.Pieces
import OutlineWiki.Proofs.Text.Paths
import OutlineWiki.Proofs.Outline.Texts
