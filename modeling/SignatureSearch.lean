import SignatureSearch.Binary64
import SignatureSearch.Binary64.Shortest
import SignatureSearch.Catalog
import SignatureSearch.Checkout
import SignatureSearch.CommandLine
import SignatureSearch.Database
import SignatureSearch.Database.SharedStore
import SignatureSearch.Elm.Body
import SignatureSearch.Elm.Comment
import SignatureSearch.Elm.Declaration
import SignatureSearch.Elm.ExportSpec
import SignatureSearch.Elm.Exports
import SignatureSearch.Elm.Header
import SignatureSearch.Elm.Json
import SignatureSearch.Elm.Lexical
import SignatureSearch.Elm.Module
import SignatureSearch.FileTree
import SignatureSearch.FunctionRecord
import SignatureSearch.Http
import SignatureSearch.Indexing
import SignatureSearch.Json
import SignatureSearch.Json.Reader
import SignatureSearch.Json.Render
import SignatureSearch.Json.Token
import SignatureSearch.Main
import SignatureSearch.Package
import SignatureSearch.Package.Record
import SignatureSearch.Path
import SignatureSearch.Proofs.Database.Freshness
import SignatureSearch.Proofs.Database.Isolation
import SignatureSearch.Proofs.Database.Joining
import SignatureSearch.Proofs.Database.Lookup
import SignatureSearch.Proofs.Database.Numbering
import SignatureSearch.Proofs.Database.Ownership
import SignatureSearch.Proofs.Database.Replacement
import SignatureSearch.Proofs.Database.Steps
import SignatureSearch.Proofs.Database.Succession
import SignatureSearch.Proofs.Elm.CommentEnd
import SignatureSearch.Proofs.Elm.Filtering
import SignatureSearch.Proofs.Elm.HeaderGrammar
import SignatureSearch.Proofs.Elm.HeaderPrefix
import SignatureSearch.Proofs.Elm.Layout
import SignatureSearch.Proofs.Elm.Nesting
import SignatureSearch.Proofs.Elm.Resolution
import SignatureSearch.Proofs.Elm.Selection
import SignatureSearch.Proofs.Elm.Tiling
import SignatureSearch.Proofs.FileTree
import SignatureSearch.Proofs.Indexing.Accounting
import SignatureSearch.Proofs.Indexing.Alteration
import SignatureSearch.Proofs.Indexing.Folders
import SignatureSearch.Proofs.Indexing.Listing
import SignatureSearch.Proofs.Indexing.Naming
import SignatureSearch.Proofs.Indexing.Status
import SignatureSearch.Proofs.Indexing.Storing
import SignatureSearch.Proofs.Indexing.Succession
import SignatureSearch.Proofs.Json.Extent
import SignatureSearch.Proofs.Json.Quotation
import SignatureSearch.Proofs.Path
import SignatureSearch.Proofs.ReadWriteLock.Exclusion
import SignatureSearch.Proofs.ReadWriteLock.Wakeup
import SignatureSearch.Proofs.Repository.Containment
import SignatureSearch.Proofs.Scrape.Isolation
import SignatureSearch.Proofs.Scrape.Pool
import SignatureSearch.Proofs.Scrape.Retention
import SignatureSearch.Proofs.Scrape.Syncing
import SignatureSearch.Proofs.Service.Loading
import SignatureSearch.Proofs.Service.Paging
import SignatureSearch.Proofs.Service.Serving
import SignatureSearch.Proofs.Service.Startup
import SignatureSearch.Proofs.Settings.ListText
import SignatureSearch.Proofs.Settings.Sources
import SignatureSearch.Proofs.Signature.Building
import SignatureSearch.Proofs.Signature.KeyOrder
import SignatureSearch.Proofs.Signature.Linearization
import SignatureSearch.Proofs.Signature.Multimap
import SignatureSearch.Proofs.Signature.Resplitting
import SignatureSearch.Proofs.Signature.Snapshot
import SignatureSearch.Proofs.Signature.Terms
import SignatureSearch.Proofs.Signature.WalkOrder
import SignatureSearch.Proofs.SourceFile.Totality
import SignatureSearch.Proofs.Store.Calls
import SignatureSearch.Proofs.Store.Contents
import SignatureSearch.Proofs.Store.Undisturbed
import SignatureSearch.Proofs.Text.FirstPlace
import SignatureSearch.Proofs.Text.Words
import SignatureSearch.Proofs.Validation.Fields
import SignatureSearch.ReadWriteLock
import SignatureSearch.ReadWriteLock.Schedule
import SignatureSearch.ReadWriteLock.Threads
import SignatureSearch.RecordKind
import SignatureSearch.Repository
import SignatureSearch.Scrape
import SignatureSearch.Scrape.Pool
import SignatureSearch.Service
import SignatureSearch.Service.Api
import SignatureSearch.Service.History
import SignatureSearch.Settings
import SignatureSearch.Signature.Cache
import SignatureSearch.Signature.Index
import SignatureSearch.Signature.SharedCache
import SignatureSearch.Signature.Symbol
import SignatureSearch.Signature.Terms
import SignatureSearch.Signature.Trie
import SignatureSearch.SourceFile
import SignatureSearch.SourceFile.Checked
import SignatureSearch.Store
import SignatureSearch.Store.Client
import SignatureSearch.Store.Failure
import SignatureSearch.Text.Alphanumeric
import SignatureSearch.Text.Ascii
import SignatureSearch.Text.Blank
import SignatureSearch.Text.Case
import SignatureSearch.Text.CombiningClass
import SignatureSearch.Text.Composite
import SignatureSearch.Text.Composition
import SignatureSearch.Text.Digit
import SignatureSearch.Text.Direction
import SignatureSearch.Text.Encoding
import SignatureSearch.Text.Joining
import SignatureSearch.Text.Lowercase
import SignatureSearch.Text.Mark
import SignatureSearch.Text.Numeral
import SignatureSearch.Text.Percent
import SignatureSearch.Text.Printable
import SignatureSearch.Text.Quoted
import SignatureSearch.Text.Runs
import SignatureSearch.Text.Script
import SignatureSearch.Text.Search
import SignatureSearch.Text.Utf8
import SignatureSearch.Timestamp
import SignatureSearch.Url
import SignatureSearch.Url.Host
import SignatureSearch.Url.Label
import SignatureSearch.Url.Name
import SignatureSearch.Url.NameChar
import SignatureSearch.Url.Punycode
import SignatureSearch.Url.Reader
import SignatureSearch.Url.Reference
import SignatureSearch.Validation
import SignatureSearch.Validation.Report
