import Gazette.Name
import Gazette.Validation
import Gazette.Wire
import Gazette.Store.Tx
import Gazette.Store.RangeScan
import Gazette.Bucket.Basic
import Gazette.Bucket.IndexScan
import Gazette.Schedule.Executor
import Gazette.Store.Fault
import Gazette.Sample.Note
import Gazette.Sample.Recorder
import Gazette.Blog.Context
import Gazette.Blog.App
import Gazette.Blog.ConfigText
import Gazette.Store.Debug
import Gazette.Proofs.Text.Utf8
import Gazette.Proofs.Store.Contents
import Gazette.Proofs.Store.Overlay
import Gazette.Proofs.Store.Reliable
import Gazette.Proofs.Store.Transparency
import Gazette.Proofs.Bucket.Layout
import Gazette.Proofs.Outcome
import Gazette.Proofs.Validation
import Gazette.Proofs.Wire
import Gazette.Proofs.Bucket.Changes
import Gazette.Proofs.Bucket.Representation
import Gazette.Proofs.Bucket.Replacement
import Gazette.Proofs.Store.Counter
import Gazette.Proofs.Bucket.Writing
import Gazette.Proofs.Bucket.History
import Gazette.Proofs.Bucket.Table
import Gazette.Proofs.Blog.Records
import Gazette.Proofs.Blog.Tables
import Gazette.Proofs.Blog.Deletions
import Gazette.Proofs.Blog.Router
import Gazette.Proofs.Blog.Delivery
import Gazette.Proofs.Blog.Linking
import Gazette.Proofs.Blog.Execution
import Gazette.Proofs.Blog.Run
import Gazette.Proofs.Blog.Removal
import Gazette.Proofs.Bytes
import Gazette.Proofs.Store.RangeScan
import Gazette.Proofs.Bucket.Query
import Gazette.Proofs.Bucket.Admission
import Gazette.Proofs.Blog.Numbering
import Gazette.Proofs.Blog.Admission
import Gazette.Proofs.Blog.Agreement
import Gazette.Proofs.Schedule.Due
import Gazette.Proofs.Store.Footprint
import Gazette.Proofs.Schedule.Log
import Gazette.Proofs.Schedule.Delivery
import Gazette.Proofs.Schedule.Firing
import Gazette.Proofs.Schedule.Readiness
import Gazette.Proofs.Bucket.Erasure
import Gazette.Proofs.Blog.Soundness
import Gazette.Proofs.Blog.Draining
import Gazette.Proofs.Blog.References
import Gazette.Proofs.Blog.Counting
import Gazette.Proofs.Blog.Permanence
import Gazette.Proofs.Blog.Authority
import Gazette.Proofs.Bucket.Listing
import Gazette.Proofs.Bucket.Lookup
import Gazette.Proofs.Bucket.Ranges
import Gazette.Proofs.Bucket.Semantics
import Gazette.Proofs.Bucket.Freshness
import Gazette.Proofs.Blog.Queries
import Gazette.Proofs.Store.Alike
import Gazette.Proofs.Store.Paging
import Gazette.Proofs.Bucket.Isolation
import Gazette.Proofs.Text.Decoding
import Gazette.Proofs.Canonical
import Gazette.Proofs.Blog.Formats
import Gazette.Proofs.Blog.Deadlines
import Gazette.Proofs.Schedule.Ticking
import Gazette.Proofs.Bucket.Issuance
import Gazette.Proofs.Blog.Scheduling
import Gazette.Proofs.Blog.FrontEnds
import Gazette.Proofs.Blog.Cancellation
import Gazette.Proofs.Blog.Pricing
import Gazette.Proofs.Store.Prefixes
import Gazette.Proofs.Bucket.Difference
import Gazette.Proofs.Toml.Numerals
import Gazette.Proofs.Toml.Sizes
import Gazette.Proofs.Toml.Sections
import Gazette.Proofs.Blog.Settings
import Gazette.Proofs.Text.Hex
import Gazette.Proofs.Identifier
import Gazette.Proofs.Blog.Keys
