import ElementBuild.Main
import ElementBuild.Proofs.Copy.Placement
import ElementBuild.Proofs.Build.Layout
import ElementBuild.Proofs.Build.Links
import ElementBuild.Proofs.Build.Standalone
import ElementBuild.Proofs.Build.Accounts
import ElementBuild.Proofs.Build.Depth
import ElementBuild.Proofs.Build.Once
import ElementBuild.Proofs.Copy.Closure
import ElementBuild.Proofs.Build.Order
import ElementBuild.Proofs.Build.Module
import ElementBuild.Proofs.FileTree.Recurs
import ElementBuild.Proofs.Repeats
import ElementBuild.Proofs.Splice
import ElementBuild.Proofs.Assets
import ElementBuild.Proofs.Marks
import ElementBuild.Proofs.Statements
import ElementBuild.Proofs.Build.Again
import ElementBuild.Proofs.Wrapping
import ElementBuild.Proofs.Copy.Inside
import ElementBuild.Proofs.Copy.Retry
import ElementBuild.Proofs.Ranges
import ElementBuild.Proofs.Mapping.Expansion
import ElementBuild.Proofs.Mapping.Destination
import ElementBuild.Proofs.Mapping.Again
import ElementBuild.Proofs.Packages
import ElementBuild.Proofs.Mapping.Fallback
import ElementBuild.Proofs.Plugin.Blocks
import ElementBuild.Proofs.Plugin.Sourcemap
import ElementBuild.Proofs.Plugin.Registration
import ElementBuild.Proofs.Inlining
import ElementBuild.Proofs.PlainCode
import ElementBuild.Proofs.Copy.Listed
import ElementBuild.Proofs.Stripping
import ElementBuild.Proofs.Copy.Mirror
import ElementBuild.Proofs.Specifiers
import ElementBuild.Proofs.Style.Rebase
import ElementBuild.Proofs.Plugin.Registry
import ElementBuild.Proofs.Tags
import ElementBuild.Proofs.Text.Frame
