import CodeWorkspace.Cache
import CodeWorkspace.Diagnostic
import CodeWorkspace.Digest.Basic
import CodeWorkspace.Disk.FileTree
import CodeWorkspace.Engine
import CodeWorkspace.Error
import CodeWorkspace.Job
import CodeWorkspace.Manifest.Solution
import CodeWorkspace.Outline.Descent
import CodeWorkspace.Outline.Parse
import CodeWorkspace.Path.Relation
import CodeWorkspace.Query.Declarations
import CodeWorkspace.Rehearsal.Basic
import CodeWorkspace.Request
import CodeWorkspace.Snapshot
import CodeWorkspace.Solution.Loading
import CodeWorkspace.Solution.Order
import CodeWorkspace.Store
import CodeWorkspace.Symbols.Binding
import CodeWorkspace.Text.Blank
import CodeWorkspace.Text.LineTable
import CodeWorkspace.Text.Lossy
import CodeWorkspace.Token.Scan
import CodeWorkspace.Toolchain.Outline
import CodeWorkspace.Tree.Walk
import CodeWorkspace.Workspace
import CodeWorkspace.Proofs.Store.Succession
import CodeWorkspace.Proofs.Digest.Fields
import CodeWorkspace.Proofs.Snapshot.Origin
import CodeWorkspace.Proofs.Snapshot.Description
import CodeWorkspace.Proofs.Engine.Soundness
import CodeWorkspace.Proofs.Solution.Order
import CodeWorkspace.Proofs.Engine.SingleFlight
import CodeWorkspace.Proofs.Request
import CodeWorkspace.Proofs.Session.Basic
import CodeWorkspace.Proofs.Snapshot.Content
import CodeWorkspace.Proofs.Session.Soundness
import CodeWorkspace.Proofs.Session.Descriptions
import CodeWorkspace.Proofs.Engine.Fresh
import CodeWorkspace.Proofs.Session.Transparency
import CodeWorkspace.Proofs.Session.BuildOnce
import CodeWorkspace.Proofs.Session.Staleness
import CodeWorkspace.Proofs.Tree.Preorder
import CodeWorkspace.Proofs.Outline.Moves
import CodeWorkspace.Proofs.Outline.Depth
import CodeWorkspace.Proofs.Outline.Declarations
import CodeWorkspace.Proofs.Token.Order
import CodeWorkspace.Proofs.Outline.Ranges
import CodeWorkspace.Proofs.Solution.Closure
import CodeWorkspace.Proofs.Session.Alone
import CodeWorkspace.Proofs.Session.Currency
import CodeWorkspace.Proofs.Session.Invalidation
import CodeWorkspace.Proofs.Session.Runner
import CodeWorkspace.Proofs.Outline.Matching
import CodeWorkspace.Proofs.Outline.Braces
import CodeWorkspace.Proofs.Solution.Search
import CodeWorkspace.Proofs.Solution.Cycles
import CodeWorkspace.Proofs.Session.Faults
import CodeWorkspace.Proofs.Query.Cursor
import CodeWorkspace.Proofs.Query.Symbols
import CodeWorkspace.Proofs.Digest.Closure
import CodeWorkspace.Proofs.Session.Transitive
import CodeWorkspace.Proofs.Manifest.Text
import CodeWorkspace.Proofs.Manifest.Value
import CodeWorkspace.Proofs.Manifest.Solution
import CodeWorkspace.Proofs.Symbols.Clashes
import CodeWorkspace.Proofs.Token.Forms
import CodeWorkspace.Proofs.Token.Boundary
import CodeWorkspace.Proofs.Outline.Comments
import CodeWorkspace.Proofs.Session.Stores
import CodeWorkspace.Proofs.Query.Sightings
import CodeWorkspace.Proofs.Outline.Openings
import CodeWorkspace.Proofs.Outline.Ownership
import CodeWorkspace.Proofs.Outline.FileScope
import CodeWorkspace.Proofs.Text.Lines
import CodeWorkspace.Proofs.Token.Concat
import CodeWorkspace.Proofs.Outline.Shift
import CodeWorkspace.Proofs.Outline.Concat
import CodeWorkspace.Proofs.Outline.Rendering
import CodeWorkspace.Proofs.Tree.Height
import CodeWorkspace.Proofs.Outline.Descent
import CodeWorkspace.Proofs.Outline.Nesting
import CodeWorkspace.Proofs.Tree.Lineage
import CodeWorkspace.Proofs.Text.Positions
import CodeWorkspace.Proofs.Store.History
import CodeWorkspace.Proofs.Engine.Review
import CodeWorkspace.Proofs.Session.Progress
import CodeWorkspace.Proofs.Session.Reports
import CodeWorkspace.Proofs.Path.Order
import CodeWorkspace.Proofs.Store.Loading
import CodeWorkspace.Proofs.Solution.Checking
import CodeWorkspace.Proofs.Session.Provenance
import CodeWorkspace.Proofs.Symbols.Shadowing
import CodeWorkspace.Proofs.Token.Tiling
import CodeWorkspace.Proofs.Token.Lines
import CodeWorkspace.Proofs.Workspace.Opening
import CodeWorkspace.Proofs.Engine.Accounts
import CodeWorkspace.Proofs.Session.Accounts
