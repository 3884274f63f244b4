import ShardQuery.Engine.TaskGroup
import ShardQuery.Engine.Persistence
import ShardQuery.Engine.Run
import ShardQuery.Plan.Describe
import ShardQuery.Stored.Plan
import ShardQuery.Proofs.Index.Medium
import ShardQuery.Proofs.Index.PageImage
import ShardQuery.Proofs.Index.Layout
import ShardQuery.Proofs.Index.Pool
import ShardQuery.Proofs.Index.Entries
import ShardQuery.Proofs.Index.Insertion
import ShardQuery.Proofs.Index.AsSet
import ShardQuery.Proofs.Index.AsPages
import ShardQuery.Proofs.Cursor.Drain
import ShardQuery.Proofs.Value.Canonical
import ShardQuery.Proofs.Cursor.Distinct
import ShardQuery.Proofs.Store.Records
import ShardQuery.Proofs.Store.Shards
import ShardQuery.Proofs.Store.History
import ShardQuery.Proofs.Store.Replay
import ShardQuery.Proofs.Cbor.Lawful
import ShardQuery.Proofs.Cbor.Compact
import ShardQuery.Proofs.Cbor.Shapes
import ShardQuery.Proofs.Stored.Value
import ShardQuery.Proofs.Stored.Log
import ShardQuery.Proofs.Transaction.Exclusion
import ShardQuery.Proofs.Transaction.Promotion
import ShardQuery.Proofs.Text.Case
import ShardQuery.Proofs.Cursor.Reading
import ShardQuery.Proofs.Engine.Effects
import ShardQuery.Proofs.Outcome
import ShardQuery.Proofs.Statement.Compiled
import ShardQuery.Proofs.Statement.Inserted
import ShardQuery.Proofs.Statement.Careful
import ShardQuery.Proofs.Store.Listing
import ShardQuery.Proofs.Store.Upkeep
import ShardQuery.Proofs.Engine.Soundness
import ShardQuery.Proofs.Engine.Reached
import ShardQuery.Proofs.Cursor.Answers
import ShardQuery.Proofs.Engine.Filled
import ShardQuery.Proofs.Value.Converted
import ShardQuery.Proofs.Statement.Meaning
import ShardQuery.Proofs.Statement.Typed
import ShardQuery.Proofs.Statement.Qualified
import ShardQuery.Proofs.Statement.Projected
import ShardQuery.Proofs.Cursor.Merged
import ShardQuery.Proofs.Store.Placement
import ShardQuery.Proofs.Statement.Sorted
import ShardQuery.Proofs.Statement.Answered
import ShardQuery.Proofs.Engine.Selected
import ShardQuery.Proofs.Cursor.Drained
import ShardQuery.Proofs.Cursor.Together
import ShardQuery.Proofs.Stored.Plan
import ShardQuery.Proofs.Engine.Interleaved
import ShardQuery.Proofs.Engine.Apart
import ShardQuery.Proofs.Engine.Declared
import ShardQuery.Proofs.Engine.Spared
import ShardQuery.Proofs.Statement.Evaluated
import ShardQuery.Proofs.Cursor.Suited
import ShardQuery.Proofs.Engine.Conforming
import ShardQuery.Proofs.Store.Content
import ShardQuery.Proofs.Engine.Paired
import ShardQuery.Proofs.Cursor.Telling
import ShardQuery.Proofs.Statement.Told
import ShardQuery.Proofs.Statement.Ordered
import ShardQuery.Proofs.Statement.Twins
import ShardQuery.Proofs.Statement.Unordered
import ShardQuery.Proofs.Engine.Shapes
import ShardQuery.Proofs.Transaction.Precedence
import ShardQuery.Proofs.Catalog.Reflected
import ShardQuery.Proofs.Statement.Gated
import ShardQuery.Proofs.Store.Overlapping
import ShardQuery.Proofs.Index.Rounds
import ShardQuery.Proofs.Store.Updated
import ShardQuery.Proofs.Index.Trie
import ShardQuery.Proofs.Index.Canonical
import ShardQuery.Proofs.Index.Honest
import ShardQuery.Proofs.Index.Room
import ShardQuery.Proofs.Index.Losses
import ShardQuery.Proofs.Index.Gaps
import ShardQuery.Proofs.Cursor.Arranged
import ShardQuery.Proofs.Cursor.Scanned
import ShardQuery.Proofs.Cursor.Ended
import ShardQuery.Proofs.Repetition
import ShardQuery.Proofs.Value.Number
import ShardQuery.Proofs.Value.Alike
import ShardQuery.Proofs.Value.Compared
import ShardQuery.Proofs.Statement.Computed
import ShardQuery.Proofs.Index.Recency
import ShardQuery.Proofs.Index.Residents
import ShardQuery.Proofs.Index.Traffic
import ShardQuery.Proofs.Index.Replacement
import ShardQuery.Proofs.Statement.Bound
import ShardQuery.Proofs.Value.Lossless
import ShardQuery.Proofs.Statement.Settled
import ShardQuery.Proofs.Transaction.Served
import ShardQuery.Proofs.Statement.Written
import ShardQuery.Proofs.Store.Batches
import ShardQuery.Proofs.Engine.Inserted
import ShardQuery.Proofs.Index.PageBytes
import ShardQuery.Proofs.Store.Owners
import ShardQuery.Proofs.Engine.Tokens
import ShardQuery.Proofs.Index.Shelved
import ShardQuery.Proofs.Index.Intact
