import Contracts.Inspect
import Contracts.Proofs.ExactDeclaration
import Contracts.Proofs.Forwarding
import Contracts.Proofs.Lifecycle
import Contracts.Proofs.Transparency
import Contracts.Script
import Contracts.Value.Code
import Contracts.Workspace
import Contracts.Proofs.Flattening
import Contracts.Proofs.Inheritance
import Contracts.Proofs.Pairing
import Contracts.Proofs.Substitution
import Contracts.Proofs.Configuration
import Contracts.Proofs.Extension
import Contracts.Proofs.Subclassing
import Contracts.Proofs.Selection
import Contracts.Proofs.Surface
import Contracts.Proofs.OperandSides
import Contracts.Proofs.Receiver
import Contracts.Proofs.Permanence
import Contracts.Proofs.Agreement
import Contracts.Proofs.Course
import Contracts.Proofs.Accounting
import Contracts.Proofs.PrimitiveOperators
import Contracts.Proofs.FloatOrder
import Contracts.Proofs.Comparison
import Contracts.Proofs.Solution
import Contracts.Proofs.ConstraintSets
import Contracts.Proofs.PrimitiveTotality
import Contracts.Proofs.Inquiry
import Contracts.Proofs.Preorder
import Contracts.Proofs.Coercibility
import Contracts.Proofs.Overloads
import Contracts.Proofs.Dispatch
import Contracts.Proofs.PropertyAccess
import Contracts.Proofs.WriteThrough
import Contracts.Proofs.StandardContracts
import Contracts.Proofs.DynamicConversion
import Contracts.Proofs.IntegerArithmetic
import Contracts.Proofs.ParameterScope
import Contracts.Proofs.NameKeeping
import Contracts.Proofs.Prediction
import Contracts.Proofs.Faithfulness
import Contracts.Proofs.NumericCasts
import Contracts.Proofs.ReadingBack
import Contracts.Proofs.Interning
import Contracts.Proofs.DeclarationHistory
import Contracts.Proofs.NameIndex
import Contracts.Proofs.Admission
import Contracts.Proofs.BaseWalk
