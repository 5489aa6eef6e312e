import ConfigBinder.Binding.Classification
import ConfigBinder.Binding.Error
import ConfigBinder.Binding.Manifest
import ConfigBinder.Binding.Mapping
import ConfigBinder.Binding.PropertyTypes
import ConfigBinder.Binding.Provider
import ConfigBinder.Binding.Stage
import ConfigBinder.Build.Collected
import ConfigBinder.Build.Component
import ConfigBinder.Build.Item
import ConfigBinder.Build.Output
import ConfigBinder.CommandLine.Arguments
import ConfigBinder.CommandLine.Command
import ConfigBinder.CommandLine.Directory
import ConfigBinder.Decimal.Binary64
import ConfigBinder.Decimal.Digits
import ConfigBinder.Decimal.Integer
import ConfigBinder.Decimal.Numeral
import ConfigBinder.Document.Basic
import ConfigBinder.Document.Datum
import ConfigBinder.Json.Basic
import ConfigBinder.Json.Document
import ConfigBinder.Json.Number
import ConfigBinder.Json.Parser
import ConfigBinder.Json.Printer
import ConfigBinder.Json.Quoted
import ConfigBinder.Main
import ConfigBinder.Metadata.Injection
import ConfigBinder.Metadata.Snapshot
import ConfigBinder.Ordered.Map
import ConfigBinder.Ordered.Set
import ConfigBinder.Schema.Build
import ConfigBinder.Schema.Metadata
import ConfigBinder.Schema.Settings
import ConfigBinder.Schema.Text
import ConfigBinder.Schema.Type
import ConfigBinder.Settings
import ConfigBinder.Startup.Converter
import ConfigBinder.Startup.KnownTypes
import ConfigBinder.Startup.Problem
import ConfigBinder.Startup.PropertyFile
import ConfigBinder.Startup.Recorder
import ConfigBinder.Startup.RootSlots
import ConfigBinder.Text.Blank
import ConfigBinder.Text.Digit
import ConfigBinder.Text.Utf8
import ConfigBinder.Type.Coverage
import ConfigBinder.Type.Name
import ConfigBinder.Type.Ref
import ConfigBinder.Version
import ConfigBinder.Yaml.Character
import ConfigBinder.Yaml.Document
import ConfigBinder.Yaml.Meaning
import ConfigBinder.Yaml.Node
import ConfigBinder.Yaml.Property
import ConfigBinder.Yaml.Scalar
import ConfigBinder.Yaml.Scanner
import ConfigBinder.Yaml.Tag
import ConfigBinder.Yaml.Token
import ConfigBinder.Yaml.Value
import ConfigBinder.Proofs.Binding.Collected
import ConfigBinder.Proofs.Ordered
import ConfigBinder.Proofs.Startup.Resolution
import ConfigBinder.Proofs.Binding.Analysis
import ConfigBinder.Proofs.Binding.Run
import ConfigBinder.Proofs.Binding.PropertyTypes
import ConfigBinder.Proofs.Metadata.Snapshot
import ConfigBinder.Proofs.Startup.Recorder
import ConfigBinder.Proofs.Startup.Replay
import ConfigBinder.Proofs.Startup.Provided
import ConfigBinder.Proofs.Json.Number
import ConfigBinder.Proofs.Json.Quoted
import ConfigBinder.Proofs.Json.Spelling
import ConfigBinder.Proofs.Json.Printer
import ConfigBinder.Proofs.Json.Members
import ConfigBinder.Proofs.Json.Document
import ConfigBinder.Proofs.Schema.Type
import ConfigBinder.Proofs.Schema.Build
import ConfigBinder.Proofs.Binding.Failure
import ConfigBinder.Proofs.Binding.Providers
import ConfigBinder.Proofs.Binding.Groups
import ConfigBinder.Proofs.Binding.Generated
import ConfigBinder.Proofs.Binding.ScanOrder
import ConfigBinder.Proofs.Binding.StageOrder
import ConfigBinder.Proofs.Startup.Registration
import ConfigBinder.Proofs.Binding.TypeArguments
import ConfigBinder.Proofs.Schema.Metadata
import ConfigBinder.Proofs.Startup.Roots
import ConfigBinder.Proofs.Binding.Reach
import ConfigBinder.Proofs.Binding.Prefixes
import ConfigBinder.Proofs.Binding.Declarations
import ConfigBinder.Proofs.Binding.Discovery
import ConfigBinder.Proofs.Startup.Report
import ConfigBinder.Proofs.Startup.Converters
import ConfigBinder.Proofs.Text.Blank
import ConfigBinder.Proofs.Startup.Arrays
import ConfigBinder.Proofs.Decimal.Integer
import ConfigBinder.Proofs.Startup.Integers
import ConfigBinder.Proofs.Startup.Known
import ConfigBinder.Proofs.Startup.Sequence
import ConfigBinder.Proofs.Binding.Manifests
import ConfigBinder.Proofs.Binding.Grouping
import ConfigBinder.Proofs.Binding.ClassOrder
import ConfigBinder.Proofs.Schema.Layout
import ConfigBinder.Proofs.Schema.Carried
import ConfigBinder.Proofs.Schema.Growth
import ConfigBinder.Proofs.InTurn
import ConfigBinder.Proofs.Text.Case
import ConfigBinder.Proofs.Build.Component
import ConfigBinder.Proofs.Settings.Validation
import ConfigBinder.Proofs.Settings.Loading
import ConfigBinder.Proofs.Type.Levels
