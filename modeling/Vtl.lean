import Vtl.Main
import Vtl.Proofs.Except
import Vtl.Proofs.Merge
import Vtl.Proofs.HashJoin
import Vtl.Proofs.Operators
import Vtl.Proofs.TypeSoundness
import Vtl.Proofs.Progress
import Vtl.Proofs.Rounding
import Vtl.Proofs.Grammar
import Vtl.Proofs.Derivation
import Vtl.Proofs.Parsing
import Vtl.Proofs.Statements
import Vtl.Proofs.CharClasses
import Vtl.Proofs.TokenPrefix
import Vtl.Proofs.TokenRuns
import Vtl.Proofs.TokenSeam
import Vtl.Proofs.ProgramPrefix
import Vtl.Proofs.Execution
import Vtl.Proofs.Routing
import Vtl.Proofs.Inference
import Vtl.Proofs.Loosening
import Vtl.Proofs.Naming
import Vtl.Proofs.Conformance
import Vtl.Proofs.DistinctRows
import Vtl.Proofs.KeyedArithmetic
import Vtl.Proofs.OperandSwap
import Vtl.Proofs.Loading
import Vtl.Proofs.Trivia
import Vtl.Proofs.TokenPlaces
import Vtl.Proofs.Relocation
import Vtl.Proofs.Shifting
import Vtl.Proofs.Rewording
import Vtl.Proofs.Composition
import Vtl.Proofs.NodeTexts
import Vtl.Proofs.Bare
import Vtl.Proofs.Layout
import Vtl.Proofs.Digits
import Vtl.Proofs.DateText
import Vtl.Proofs.JsonText
import Vtl.Proofs.StoredValues
import Vtl.Proofs.NullFilling
import Vtl.Proofs.NullPropagation
import Vtl.Proofs.FirstFault
import Vtl.Proofs.Parenthesizing
import Vtl.Proofs.Stopping
import Vtl.Proofs.ProgramGrammar
import Vtl.Proofs.ViablePrefix
import Vtl.Proofs.KeyPolicies
import Vtl.Proofs.Calendar
import Vtl.Proofs.ExactArithmetic
import Vtl.Proofs.Periods
import Vtl.Proofs.Independence
import Vtl.Proofs.Quoting
import Vtl.Proofs.IntegerText
import Vtl.Proofs.Normalization
import Vtl.Proofs.NodePlaces
