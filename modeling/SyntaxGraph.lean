import SyntaxGraph.Main
import SyntaxGraph.FlatTree.Rebuild
import SyntaxGraph.Grammar.NodeTypes
import SyntaxGraph.Wire.Config
import SyntaxGraph.Proofs.Numbering
import SyntaxGraph.Proofs.NestedView
import SyntaxGraph.Proofs.LevelOrder
import SyntaxGraph.Proofs.Rebuilding
import SyntaxGraph.Proofs.KeptNodes
import SyntaxGraph.Proofs.Reports
import SyntaxGraph.Proofs.Acceptance
import SyntaxGraph.Proofs.Chains
import SyntaxGraph.Proofs.Conformance
import SyntaxGraph.Proofs.Deletion
import SyntaxGraph.Proofs.Options
import SyntaxGraph.Proofs.Growth
import SyntaxGraph.Proofs.FloatRange
import SyntaxGraph.Proofs.Reading
import SyntaxGraph.Proofs.Rearranging
import SyntaxGraph.Proofs.Finiteness
import SyntaxGraph.Proofs.RoundTrip
import SyntaxGraph.Proofs.Lines
import SyntaxGraph.Proofs.Lowercasing
import SyntaxGraph.Proofs.Answers
import SyntaxGraph.Proofs.Likeness
import SyntaxGraph.Proofs.Survival
import SyntaxGraph.Proofs.Numerals
import SyntaxGraph.Proofs.JsonTexts
import SyntaxGraph.Proofs.Endings
import SyntaxGraph.Proofs.FirstFault
import SyntaxGraph.Proofs.FirstFailure
import SyntaxGraph.Proofs.HeldNodes
import SyntaxGraph.Proofs.LeafTexts
import SyntaxGraph.Proofs.FieldNames
import SyntaxGraph.Proofs.FirstMatch
import SyntaxGraph.Proofs.Pruning
import SyntaxGraph.Proofs.DamagedTrees
import SyntaxGraph.Proofs.NodeCounts
import SyntaxGraph.Proofs.NodeTypeTexts
