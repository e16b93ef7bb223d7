import Mustache.Template
import Mustache.Consulting
import Mustache.Yaml.Document
import Mustache.Proofs.Linearisation
import Mustache.Proofs.Lines
import Mustache.Proofs.Remainder
import Mustache.Proofs.Resumption
import Mustache.Proofs.Composition
import Mustache.Proofs.HostData
import Mustache.Proofs.Simulation
import Mustache.Proofs.Merging
import Mustache.Proofs.Replacement
import Mustache.Proofs.Inclusion
import Mustache.Proofs.Strictness
import Mustache.Proofs.Trimming
import Mustache.Proofs.Writing
import Mustache.Proofs.Indenting
import Mustache.Proofs.IndentedScan
import Mustache.Proofs.Reindentation
import Mustache.Proofs.LayeredData
import Mustache.Proofs.Copies
import Mustache.Proofs.LayeredReading
import Mustache.Proofs.LayeredLookup
import Mustache.Proofs.LayeredRendering
import Mustache.Proofs.Reaching
import Mustache.Proofs.Appending
import Mustache.Proofs.Escaping
import Mustache.Proofs.Consulting
import Mustache.Proofs.TagNames
import Mustache.Proofs.Rerendering
import Mustache.Proofs.FaultLines
import Mustache.Proofs.PrivateMembers
import Mustache.Proofs.DottedPaths
import Mustache.Proofs.OuterContexts
import Mustache.Proofs.Sorting
import Mustache.Proofs.Words
import Mustache.Proofs.OptionFiles
import Mustache.Proofs.VariableLines
import Mustache.Proofs.NestedIndents
import Mustache.Proofs.ExclusiveSections
import Mustache.Proofs.NestedSections
import Mustache.Proofs.CommentLines
import Mustache.Proofs.RecursivePartial
import Mustache.Proofs.Layouts
import Mustache.Proofs.Unescaping
import Mustache.Proofs.CursorUse
import Mustache.Proofs.NormalForm
