import MoeNG.Graph.Identity
import MoeNG.Lib.OrdMap
import MoeNG.Lib.Run
import MoeNG.NodeAuthority.Contract

/-!
# The recursive execution-contract identity (`packages/scheduler/src/node-authority/node-authority-recursion.ts`)

The admission of one body is a parameter: whatever it answers, the derivation
decides on the admitted definitions and the graph alone.
-/

namespace MoeNG.NodeAuthority
open MoeNG.Kernel MoeNG.Lib MoeNG.Graph

/-! ### Refusals (`node-authority-recursion.ts:29-88`) -/

inductive NodeAuthorityRecursionCode where
  | BINDING_MISMATCH
  | COMPLETION_LINKAGE_INVALID
  | CONTRACT_DUPLICATE
  | CONTRACT_FORBIDDEN
  | CONTRACT_MISSING
  | CYCLE
  | ENDPOINT_MISMATCH
  | MALFORMED
  | NODE_DUPLICATE
  | NODE_EXTRA
  | NODE_MISSING
  | REPOSITORY_BASE_CONFLICT
  | WITNESS_CONFLICT
  deriving DecidableEq

/-- The module's own refusal, the issues of the graph validator or of the body admission passed through, or the
exception of a lookup that found nothing. -/
inductive RecursionFailure (I : Type) where
  | refused (code : NodeAuthorityRecursionCode) (message : JsString)
  | graphSnapshot (issues : List GraphIssue)
  | admission (issues : I)
  | typeError

structure NodeAuthorityEntry where
  nodeAuthorityHash : JsString
  nodeKey : JsString
  deriving DecidableEq

structure NodeAuthoritySet where
  definitions : List NodeDefinition
  hardEdgeCount : ℕ
  value : List NodeAuthorityEntry
  deriving DecidableEq

variable {I B : Type}

def refuse {A : Type} (code : NodeAuthorityRecursionCode) (message : JsString) : Except (RecursionFailure I) A :=
  .error (.refused code message)

/-! ### Bodies (`node-authority-recursion.ts:95-121`) -/

-- no list stands for a value that is not an array
def admitBodies (admitNode : B → Except I NodeDefinition) (input : Option (List B)) :
    Except (RecursionFailure I) (List NodeDefinition) :=
  match input with
  | none => refuse .MALFORMED (lit "not an array")
  | some bodies => bodies.mapM fun body => (admitNode body).mapError RecursionFailure.admission

abbrev BodyMap := OrdMap JsString NodeDefinition

def indexBody (graph : AcceptedGraph) (byKey : BodyMap) (definition : NodeDefinition) :
    Except (RecursionFailure I) BodyMap :=
  let key := definition.nodeKey
  if byKey.has key then refuse .NODE_DUPLICATE (lit "two bodies claim node " ++ quoted key)
  else if key ∉ graph.nodes.map GraphNode.nodeKey then
    refuse .NODE_EXTRA (lit "body " ++ quoted key ++ lit " is not in the snapshot")
  else .ok (byKey.set key definition)

def indexBodies (graph : AcceptedGraph) (definitions : List NodeDefinition) : Except (RecursionFailure I) BodyMap := do
  let byKey ← definitions.foldlM (indexBody graph) OrdMap.empty
  match graph.nodes.find? fun node => !byKey.has node.nodeKey with
  | none => .ok byKey
  | some absent => refuse .NODE_MISSING (lit "no admitted body for node " ++ quoted absent.nodeKey)

/-! ### Contracts (`node-authority-recursion.ts:123-189`) -/

structure ContractView where
  canonical : JsString
  consumerNodeKey : JsString
  graphBindingDigest : JsString
  predicateRef : JsString
  producerNodeKey : JsString
  witnesses : List (JsString × JsString)
  deriving DecidableEq

def viewOf (entry : NodeDependencyEntry) : ContractView :=
  let contract := entry.contract
  { canonical := canonicalText contract.value
    consumerNodeKey := contract.consumerNodeKey
    graphBindingDigest := contract.graphBindingDigest
    predicateRef := contract.satisfactionPredicate.predicateRef
    producerNodeKey := contract.producerNodeKey
    witnesses := contract.satisfactionWitnesses.map fun witness =>
      (witness.witnessRef, witness.witnessDigest ++ lit "/" ++ decimalInt witness.witnessVersion.val) }

structure Closing where
  filed : OrdMap JsString ContractView
  seals : OrdMap JsString JsString

def sealWitness (seals : OrdMap JsString JsString) (witness : JsString × JsString) :
    Except (RecursionFailure I) (OrdMap JsString JsString) :=
  if (seals.get witness.1).getD witness.2 ≠ witness.2 then
    refuse .WITNESS_CONFLICT (lit "witness " ++ quoted witness.1 ++ lit " is stated with two different seals")
  else .ok (seals.set witness.1 witness.2)

def edgeOf (graph : AcceptedGraph) (edgeKey : JsString) : Option GraphEdge :=
  graph.edges.find? fun edge => edge.edgeKey = edgeKey

def fileContract (graph : AcceptedGraph) (binding : JsString) (state : Closing)
    (stated : JsString × NodeDependencyEntry) : Except (RecursionFailure I) Closing :=
  let (nodeKey, entry) := stated
  let view := viewOf entry
  let forbidden : Except (RecursionFailure I) Closing :=
    refuse .CONTRACT_FORBIDDEN (lit "edge " ++ quoted entry.edgeKey ++ lit " is not a HARD edge of this snapshot")
  match edgeOf graph entry.edgeKey with
  | none => forbidden
  | some edge =>
    if edge.kind ≠ .HARD then forbidden
    else if state.filed.has entry.edgeKey then
      refuse .CONTRACT_DUPLICATE (lit "edge " ++ quoted entry.edgeKey ++ lit " carries more than one contract")
    else if view.consumerNodeKey ≠ nodeKey || view.consumerNodeKey ≠ edge.consumerNodeKey
        || view.producerNodeKey ≠ edge.producerNodeKey then
      refuse .ENDPOINT_MISMATCH
        (lit "contract on " ++ quoted entry.edgeKey ++ lit " does not match the snapshot endpoints")
    else if view.graphBindingDigest ≠ binding then
      refuse .BINDING_MISMATCH
        (lit "contract on " ++ quoted entry.edgeKey ++ lit " is bound to another graph structure")
    else do
      let seals ← view.witnesses.foldlM sealWitness state.seals
      .ok { filed := state.filed.set entry.edgeKey view, seals }

/-- Every entry of every body, with the node it is filed on. -/
def statedContracts (byKey : BodyMap) : List (JsString × NodeDependencyEntry) :=
  byKey.entries.flatMap fun body => body.2.directHardDependencies.map fun entry => (body.1, entry)

def closeContracts (graph : AcceptedGraph) (byKey : BodyMap) (binding : JsString) :
    Except (RecursionFailure I) (OrdMap JsString ContractView) := do
  let state ← (statedContracts byKey).foldlM (fileContract graph binding) ⟨OrdMap.empty, OrdMap.empty⟩
  match graph.edges.find? fun edge => edge.kind = .HARD && !state.filed.has edge.edgeKey with
  | none => .ok state.filed
  | some orphan =>
    refuse .CONTRACT_MISSING (lit "HARD edge " ++ quoted orphan.edgeKey ++ lit " has no admitted contract")

/-! ### Agreement (`node-authority-recursion.ts:191-209`) -/

def agreeBody (graph : AcceptedGraph) (base : Option JsString) (definition : NodeDefinition) :
    Except (RecursionFailure I) (Option JsString) :=
  if base ≠ none ∧ base ≠ some definition.repositoryBaseTree then
    refuse .REPOSITORY_BASE_CONFLICT (lit "the bodies state two different repository base trees")
  else if decide (definition.nodeKey = graph.completionNodeKey) ≠ decide (definition.joinRole = .COMPLETION) then
    refuse .COMPLETION_LINKAGE_INVALID
      (lit "node " ++ quoted definition.nodeKey ++ lit " states a join role the graph does not support")
  else .ok (some definition.repositoryBaseTree)

def agree (graph : AcceptedGraph) (byKey : BodyMap) : Except (RecursionFailure I) Unit := do
  let _ ← (byKey.entries.map Prod.snd).foldlM (agreeBody graph) none
  .ok ()

/-! ### Identities (`graph-content-format.ts:159-165`, `node-authority-recursion.ts:224-267`) -/

variable (sha256 : List Byte → JsString)

def snapshotIdentityHash (graph : AcceptedGraph) : JsString :=
  let identity := graph.validated.graphIdentity
  sha256 (utf8 (lit "MOE-GRAPH-SNAPSHOT-IDENTITY/1\n" ++ decimal identity.length ++ lit ":" ++ identity))

def recursionDigestDomain : JsString := lit "MOE-NODE-AUTHORITY-RECURSIVE/2\n"

def preimage (fields : NodePreimage) (incoming : List JsString) : JsString :=
  recursionDigestDomain ++ frame (canonicalText fields.value) ++ incoming.flatten

/-- The framed part of one incoming arc. -/
def incomingText (edge : GraphEdge) (view : ContractView) (producerHash : JsString) : JsString :=
  [edge.edgeKey, lit (if edge.kind = .HARD then "HARD" else "ADVISORY"), view.predicateRef, view.canonical,
    producerHash].flatMap frame

def incomingOf (graph : AcceptedGraph) (filed : OrdMap JsString ContractView) (hashes : OrdMap JsString JsString)
    (arc : HardArc) : Option JsString := do
  let edge ← edgeOf graph arc.edgeKey
  let view ← filed.get arc.edgeKey
  let producerHash ← hashes.get edge.producerNodeKey
  some (incomingText edge view producerHash)

def hashNode (graph : AcceptedGraph) (index : HardGraphIndex) (byKey : BodyMap) (filed : OrdMap JsString ContractView)
    (hashes : OrdMap JsString JsString) (position : ℕ) : Option (OrdMap JsString JsString) := do
  let nodeKey ← index.nodeKeys[position]?
  let incoming ← (index.inArcs position).mapM (incomingOf graph filed hashes)
  let definition ← byKey.get nodeKey
  some (hashes.set nodeKey (sha256 (utf8 (preimage definition.toNodePreimage incoming))))

def hashNodes (graph : AcceptedGraph) (index : HardGraphIndex) (byKey : BodyMap) (filed : OrdMap JsString ContractView) :
    Option (OrdMap JsString JsString) :=
  (topologicalOrder index).order.foldlM (hashNode sha256 graph index byKey filed) OrdMap.empty

def entriesOf (hashes : OrdMap JsString JsString) : List NodeAuthorityEntry :=
  (hashes.entries.map fun entry => (⟨entry.2, entry.1⟩ : NodeAuthorityEntry)).insertionSort fun a b => a.nodeKey ≤ b.nodeKey

def orTypeError {A : Type} : Option A → Except (RecursionFailure I) A
  | some a => .ok a
  | none => .error .typeError

def deriveNodeAuthoritySet (admitNode : B → Except I NodeDefinition) (snapshotInput : Value)
    (bodiesInput : Option (List B)) (policyOverride : Value) : Except (RecursionFailure I) NodeAuthoritySet := do
  let graph ← (validateGraphSnapshot snapshotInput policyOverride).mapError RecursionFailure.graphSnapshot
  let definitions ← admitBodies admitNode bodiesInput
  let byKey ← indexBodies graph definitions
  let filed ← closeContracts graph byKey (snapshotIdentityHash sha256 graph)
  agree graph byKey
  let index := buildHardGraphIndex graph.toGraphStructureView
  if (topologicalOrder index).acyclic then
    let hashes ← orTypeError (hashNodes sha256 graph index byKey filed)
    let value := entriesOf hashes
    let definitions ← orTypeError (value.mapM fun entry => byKey.get entry.nodeKey)
    .ok { definitions, hardEdgeCount := index.hardEdgeCount, value }
  else refuse .CYCLE (lit "the HARD subgraph is cyclic")

end MoeNG.NodeAuthority
