import Blueprint.Allowlist
import Blueprint.Allowlist.Document
import Blueprint.Allowlist.Load
import Blueprint.Batch
import Blueprint.Batch.Config
import Blueprint.Batch.Discover
import Blueprint.Batch.Error
import Blueprint.Batch.Event
import Blueprint.Batch.Job
import Blueprint.Batch.Pool
import Blueprint.Batch.Summary
import Blueprint.Batch.Work
import Blueprint.BigEndian
import Blueprint.Binary64
import Blueprint.Biome
import Blueprint.BlockState
import Blueprint.BlockState.Oriented
import Blueprint.BlockState.Parser
import Blueprint.BlockState.Shape
import Blueprint.CommandLine
import Blueprint.CommandLine.Option
import Blueprint.CommandLine.Token
import Blueprint.Direction
import Blueprint.Disk
import Blueprint.FileError
import Blueprint.FileTree
import Blueprint.Footprint
import Blueprint.Gzip
import Blueprint.Gzip.Crc32
import Blueprint.Gzip.Inflate
import Blueprint.Json.Node
import Blueprint.Json.Reader
import Blueprint.Json.Shape
import Blueprint.Log
import Blueprint.Log.Directive
import Blueprint.Log.Level
import Blueprint.Log.Line
import Blueprint.Main
import Blueprint.NamespacedId
import Blueprint.Nbt.Decode
import Blueprint.Nbt.Document
import Blueprint.Nbt.Encode
import Blueprint.Nbt.Tag
import Blueprint.Path
import Blueprint.Placement
import Blueprint.Plan
import Blueprint.Plan.Accept
import Blueprint.Plan.Bind
import Blueprint.Plan.Check
import Blueprint.Plan.Document
import Blueprint.Plan.Error
import Blueprint.Plan.Load
import Blueprint.Program
import Blueprint.SortedMap
import Blueprint.Structure
import Blueprint.Structure.Compile
import Blueprint.Structure.Container
import Blueprint.Symmetry
import Blueprint.Task
import Blueprint.Template
import Blueprint.Template.Load
import Blueprint.Text.Alphanumeric
import Blueprint.Text.Blank
import Blueprint.Text.Numeral
import Blueprint.Text.Pattern
import Blueprint.Text.Split
import Blueprint.Vec3
import Blueprint.Proofs.Nbt.Nesting
import Blueprint.Proofs.Nbt.Merged
import Blueprint.Proofs.Nbt.Reader
import Blueprint.Proofs.Nbt.RoundTrip
import Blueprint.Proofs.Gzip
import Blueprint.Proofs.Nbt.Decoded
import Blueprint.Proofs.Structure.Compile
import Blueprint.Proofs.Nbt.Document
import Blueprint.Proofs.Nbt.Delimited
import Blueprint.Proofs.Nbt.Spelled
import Blueprint.Proofs.Nbt.Unmistaken
import Blueprint.Proofs.Nbt.Rewritten
import Blueprint.Proofs.Nbt.NormalForm
import Blueprint.Proofs.SortedMap
import Blueprint.Proofs.Structure.Container
import Blueprint.Proofs.Plan.Check
import Blueprint.Proofs.Structure.Layout
import Blueprint.Proofs.Allowlist
import Blueprint.Proofs.Structure.Permitted
import Blueprint.Proofs.BlockState.Oriented
import Blueprint.Proofs.Footprint
import Blueprint.Proofs.Plan.Moved
import Blueprint.Proofs.Structure.Moved
import Blueprint.Proofs.Symmetry
import Blueprint.Proofs.Direction
import Blueprint.Proofs.BlockState.Symmetry
import Blueprint.Proofs.Plan.Symmetry
import Blueprint.Proofs.Plan.Rules
import Blueprint.Proofs.Plan.Accept
import Blueprint.Proofs.Plan.WrittenOut
import Blueprint.Proofs.Plan.InText
import Blueprint.Proofs.Structure.LaidOut
import Blueprint.Proofs.Plan.Bounds
import Blueprint.Proofs.Plan.Confined
import Blueprint.Proofs.Pointing
import Blueprint.Proofs.Plan.Pointing
import Blueprint.Proofs.Structure.Success
import Blueprint.Proofs.Structure.Reordered
import Blueprint.Proofs.Structure.Unmistaken
import Blueprint.Proofs.Structure.Canonical
import Blueprint.Proofs.Nbt.LongText
import Blueprint.Proofs.Structure.LongText
import Blueprint.Proofs.Path
import Blueprint.Proofs.Disk
import Blueprint.Proofs.Task
import Blueprint.Proofs.Batch.Pool
import Blueprint.Proofs.Batch.Prepared
import Blueprint.Proofs.FileTree
import Blueprint.Proofs.Batch.Conserved
import Blueprint.Proofs.FileTree.Follow
import Blueprint.Proofs.Batch.Site
import Blueprint.Proofs.Batch.Written
import Blueprint.Proofs.Batch.Shared
import Blueprint.Proofs.Batch.Rivals
import Blueprint.Proofs.Batch.Alone
import Blueprint.Proofs.Batch.Scheduled
import Blueprint.Proofs.Batch.Ending
import Blueprint.Proofs.Template
import Blueprint.Proofs.Batch.Prevented
import Blueprint.Proofs.Batch.Processed
import Blueprint.Proofs.Plan.Placed
import Blueprint.Proofs.Text.Split
import Blueprint.Proofs.Text.Lines
import Blueprint.Proofs.Plan.Quoted
import Blueprint.Proofs.Path.OneLine
import Blueprint.Proofs.Json.OneLine
import Blueprint.Proofs.Text.Blank
import Blueprint.Proofs.NamespacedId
import Blueprint.Proofs.BlockState.RoundTrip
import Blueprint.Proofs.BlockState.OneLine
import Blueprint.Proofs.Plan.OneLine
import Blueprint.Proofs.Nbt.Filled
import Blueprint.Proofs.Structure.OneLine
import Blueprint.Proofs.Plan.Reread
import Blueprint.Proofs.Structure.Connected
import Blueprint.Proofs.FileTree.Location
import Blueprint.Proofs.FileTree.Quoted
import Blueprint.Proofs.Disk.Failing
import Blueprint.Proofs.Disk.Atomic
import Blueprint.Proofs.Batch.Report
import Blueprint.Proofs.Allowlist.Layout
import Blueprint.Proofs.BlockState.Faithful
import Blueprint.Proofs.Nbt.InsertionOrder
import Blueprint.Proofs.Nbt.Volume
import Blueprint.Proofs.Nbt.Ending
