import StackExpr.Cloud.Decode
import StackExpr.Cloud.Encode
import StackExpr.Main
import StackExpr.Proofs.Acyclic
import StackExpr.Proofs.Arn
import StackExpr.Proofs.Attribution
import StackExpr.Proofs.Bound
import StackExpr.Proofs.Cache.PageOrder
import StackExpr.Proofs.Cache.Sharing
import StackExpr.Proofs.Completion
import StackExpr.Proofs.Dependence
import StackExpr.Proofs.EstablishedName
import StackExpr.Proofs.FailedFetch
import StackExpr.Proofs.Failures
import StackExpr.Proofs.Growth
import StackExpr.Proofs.Identifiers
import StackExpr.Proofs.Imports
import StackExpr.Proofs.Lookups
import StackExpr.Proofs.NameMaps
import StackExpr.Proofs.NestedEvaluator
import StackExpr.Proofs.NestedLookup
import StackExpr.Proofs.NestedOutput
import StackExpr.Proofs.PageChain
import StackExpr.Proofs.PartialEvaluation
import StackExpr.Proofs.Plain.Fails
import StackExpr.Proofs.Positions
import StackExpr.Proofs.References
import StackExpr.Proofs.Reported
import StackExpr.Proofs.Results
import StackExpr.Proofs.RoundTrip
import StackExpr.Proofs.Script
import StackExpr.Proofs.SingleFlight
import StackExpr.Proofs.Splitting
import StackExpr.Proofs.Sub
import StackExpr.Proofs.Substitution
import StackExpr.Proofs.Transparent
import StackExpr.Proofs.TreeOrder
