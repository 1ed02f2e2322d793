import ModuleBundler.Text.Split
import ModuleBundler.Path.Basic
import ModuleBundler.Number.Binary
import ModuleBundler.Number.Shortest
import ModuleBundler.Json.Value
import ModuleBundler.Json.Print
import ModuleBundler.Json.Parse
import ModuleBundler.Text.Blank
import ModuleBundler.Text.Alphanumeric
import ModuleBundler.Text.Printable
import ModuleBundler.Text.Utf8
import ModuleBundler.Hash.Blake3
import ModuleBundler.Encoding.Base64
import ModuleBundler.Regex.Syntax
import ModuleBundler.Regex.Program
import ModuleBundler.Regex.Limits
import ModuleBundler.Regex.Search
import ModuleBundler.Source.Docblock
import ModuleBundler.Source.Requires
import ModuleBundler.Source.Wrap
import ModuleBundler.Module.Naming
import ModuleBundler.Error
import ModuleBundler.Disk.Basic
import ModuleBundler.Json.Decode
import ModuleBundler.Json.Shape
import ModuleBundler.Config.Options
import ModuleBundler.Vfs.Ignore
import ModuleBundler.Cache.Memo
import ModuleBundler.Config.Global
import ModuleBundler.Bundle.SourceMap
import ModuleBundler.Bundle.Artifact
import ModuleBundler.Script.Common
import ModuleBundler.Script.Pure
import ModuleBundler.Script.Dispatch
import ModuleBundler.Vfs.Tree
import ModuleBundler.Vfs.Crawl
import ModuleBundler.Registry.Module
import ModuleBundler.Registry.Package
import ModuleBundler.Bundle.Transform
import ModuleBundler.Image.Bytes
import ModuleBundler.Image.Png
import ModuleBundler.Image.Gif
import ModuleBundler.Image.Jpeg
import ModuleBundler.Image.Webp
import ModuleBundler.Bundle.Image
import ModuleBundler.Bundle.Assets
import ModuleBundler.Engine.State
import ModuleBundler.Registry.Store
import ModuleBundler.Registry.Haste
import ModuleBundler.Resolve.Resolver
import ModuleBundler.Engine.Graph
import ModuleBundler.Bundle.PolyfillText
import ModuleBundler.Engine.Bundler
import ModuleBundler.Engine.Packager
import ModuleBundler.Script.Session
import ModuleBundler.Script.Lifecycle
import ModuleBundler.Script.Project
import ModuleBundler.Text.Similarity
import ModuleBundler.CommandLine.Grammar
import ModuleBundler.CommandLine.Parse
import ModuleBundler.CommandLine.Run
import ModuleBundler.Script.ProgramRuns
import ModuleBundler.Main
import ModuleBundler.Proofs.Text
import ModuleBundler.Proofs.Path
import ModuleBundler.Proofs.Disk
import ModuleBundler.Proofs.Vfs.Tree
import ModuleBundler.Proofs.Vfs.Crawl
import ModuleBundler.Proofs.Vfs.Mirror
import ModuleBundler.Proofs.Engine.Change
import ModuleBundler.Proofs.Registry.Dependers
import ModuleBundler.Proofs.Engine.KeptBundles
import ModuleBundler.Proofs.Engine.Traversal
import ModuleBundler.Proofs.Engine.BuildSlots
import ModuleBundler.Proofs.Source.Pieces
import ModuleBundler.Proofs.Source.Reading
import ModuleBundler.Proofs.Source.Sites
import ModuleBundler.Proofs.Source.Extraction
import ModuleBundler.Proofs.Registry.LiveModules
import ModuleBundler.Proofs.Registry.FileChange
import ModuleBundler.Proofs.Resolve.MainChain
import ModuleBundler.Proofs.Resolve.ExistingFiles
import ModuleBundler.Proofs.Registry.HasteBuild
import ModuleBundler.Proofs.Bundle.SourceLines
import ModuleBundler.Proofs.Bundle.Vlq
import ModuleBundler.Proofs.Resolve.Sight
import ModuleBundler.Proofs.Resolve.Stability
import ModuleBundler.Proofs.Resolve.Route
import ModuleBundler.Proofs.Resolve.Replay
import ModuleBundler.Proofs.Engine.Unresolved
import ModuleBundler.Proofs.Resolve.Coherence
import ModuleBundler.Proofs.Vfs.Sorted
import ModuleBundler.Proofs.Resolve.ChangeFrame
import ModuleBundler.Proofs.Path.NormalForm
import ModuleBundler.Proofs.Registry.FailedUpdate
import ModuleBundler.Proofs.Registry.PackageMain
import ModuleBundler.Proofs.Bundle.AssetVariants
import ModuleBundler.Proofs.Cache.Key
import ModuleBundler.Proofs.Source.Docblock
import ModuleBundler.Proofs.Module.AssetName
import ModuleBundler.Proofs.Cache.Memo
import ModuleBundler.Proofs.Engine.Events
import ModuleBundler.Proofs.Registry.Incremental
import ModuleBundler.Proofs.Engine.MemoFrame
import ModuleBundler.Proofs.Resolve.MemoRuns
import ModuleBundler.Proofs.Resolve.LiveIndex
