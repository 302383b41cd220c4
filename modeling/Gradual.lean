import Gradual.Proofs.ArgumentMapping
import Gradual.Proofs.BoundMethods
import Gradual.Proofs.CaughtExceptions
import Gradual.Proofs.CleanResult
import Gradual.Proofs.ClosedAttributes
import Gradual.Proofs.ConsistentOrders
import Gradual.Proofs.DefaultValues
import Gradual.Proofs.Definitions
import Gradual.Proofs.Displays
import Gradual.Proofs.EscapingVariables
import Gradual.Proofs.GuardDecisions
import Gradual.Proofs.Independence
import Gradual.Proofs.InferredTypes
import Gradual.Proofs.InheritedAttributes
import Gradual.Proofs.Instantiation
import Gradual.Proofs.Isolation
import Gradual.Proofs.KeywordCalls
import Gradual.Proofs.MixedTargets
import Gradual.Proofs.NarrowingStacks
import Gradual.Proofs.NominalSubtyping
import Gradual.Proofs.OperatorCalls
import Gradual.Proofs.OverloadSelection
import Gradual.Proofs.Placeholders
import Gradual.Proofs.PositionalCalls
import Gradual.Proofs.Pruning
import Gradual.Proofs.QualifiedNames
import Gradual.Proofs.QuantifiedAttributes
import Gradual.Proofs.Recording
import Gradual.Proofs.Redefinitions
import Gradual.Proofs.SameType
import Gradual.Proofs.SettingsInForce
import Gradual.Proofs.SimpleTypes
import Gradual.Proofs.StoredDiagnostics
import Gradual.Proofs.Substitution
import Gradual.Proofs.TypeIdentity
import Gradual.Proofs.UnknownMembers
import Gradual.Proofs.Unpacking
import Gradual.Proofs.UntypedFunction
import Gradual.Proofs.UpperBounds
import Gradual.Settings.Loader
import Gradual.Ty.Json
