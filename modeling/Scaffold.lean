import Scaffold.Expansion
import Scaffold.FileSystem.Tree
import Scaffold.Main
import Scaffold.Options.Reading
import Scaffold.Proofs.Attribute.Merging
import Scaffold.Proofs.Batch.Accounting
import Scaffold.Proofs.Batch.Isolation
import Scaffold.Proofs.Bem.Elements
import Scaffold.Proofs.Bem.Stability
import Scaffold.Proofs.Component.Selectors
import Scaffold.Proofs.Component.Silence
import Scaffold.Proofs.Expansion.Budget
import Scaffold.Proofs.Expansion.Location
import Scaffold.Proofs.Expansion.Shown
import Scaffold.Proofs.Lorem.Asking
import Scaffold.Proofs.Lorem.Punctuation
import Scaffold.Proofs.Manifest.Checking
import Scaffold.Proofs.Manifest.Props
import Scaffold.Proofs.Manifest.Repeating
import Scaffold.Proofs.Markup.BlockLines
import Scaffold.Proofs.Markup.FieldNumbers
import Scaffold.Proofs.Markup.Outlining
import Scaffold.Proofs.Markup.Positions
import Scaffold.Proofs.Markup.Quoting
import Scaffold.Proofs.Markup.Spelling
import Scaffold.Proofs.Markup.TabStops
import Scaffold.Proofs.Markup.TextRows
import Scaffold.Proofs.Project.Discovery
import Scaffold.Proofs.Refinement.Lookup
import Scaffold.Proofs.Refinement.Naming
import Scaffold.Proofs.Refinement.Settling
import Scaffold.Proofs.Repeat.Expansion
import Scaffold.Proofs.Snippet.Halting
import Scaffold.Proofs.Snippet.Precedence
import Scaffold.Proofs.Snippet.Ranking
import Scaffold.Proofs.Snippet.Registering
import Scaffold.Proofs.Snippet.Survival
import Scaffold.Proofs.Statement.BracedText
import Scaffold.Proofs.Statement.Brackets
import Scaffold.Proofs.Statement.RoundTrip
import Scaffold.Proofs.Statement.Verbatim
import Scaffold.Proofs.Token.Tiling
import Scaffold.Proofs.Unrolling.Filling
import Scaffold.Proofs.Unrolling.Guard
import Scaffold.Proofs.Unrolling.Numbering
import Scaffold.Proofs.Unrolling.Plain
import Scaffold.Proofs.Unrolling.Surfacing
import Scaffold.Text.Cursor
