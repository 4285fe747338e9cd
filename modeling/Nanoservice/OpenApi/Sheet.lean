import Nanoservice.OpenApi.Document
import Nanoservice.Yaml.Tree

/-!
# The OpenAPI document as YAML

The nodes are those of the document's JSON value, but for one: operations without declared
responses share the default response. Where two or more operations use it, the first holds it under
an anchor and the others name the anchor.
-/

namespace Nanoservice.OpenApi

/-- The anchor of the default response. -/
def sharedAnchor : String := "id001"

namespace Operation

/-- The operation uses the default response. -/
def isStandard (o : Operation) : Bool :=
  match o.responses with
  | .standard => true
  | .declared _ => false

/-- The node of an operation whose default response is `standard`. -/
def toTree (o : Operation) (standard : Yaml.Tree) : Yaml.Tree :=
  let responses := match o.responses with
    | .standard => Yaml.Tree.map [(.plain "200", standard)]
    | .declared _ => Yaml.Tree.ofJson o.responses.toJson
  .map (Yaml.Tree.ofFields o.headFields ++ [(RawText.plain "responses", responses)])

end Operation

/-- The default response at its first place. -/
def anchoredResponse : Yaml.Tree :=
  .anchored sharedAnchor (Yaml.Tree.ofFields standardResponse.fields)

/-- The operations of a path in order; `seen` tells whether the default response occurred before. -/
def operationTrees (seen : Bool) : List (Method × Operation) → List (RawText × Yaml.Tree) × Bool
  | [] => ([], seen)
  | (m, o) :: rest =>
    let standard := if seen then Yaml.Tree.named sharedAnchor else anchoredResponse
    let (nodes, seen') := operationTrees (seen || o.isStandard) rest
    ((.plain m.lowerName, o.toTree standard) :: nodes, seen')

/-- The paths in order; `seen` tells whether the default response occurred before. -/
def pathTrees (seen : Bool) :
    List (RawText × List (Method × Operation)) → List (RawText × Yaml.Tree)
  | [] => []
  | (path, operations) :: rest =>
    let (nodes, seen') := operationTrees seen operations
    (path, .map nodes) :: pathTrees seen' rest

namespace Document

/-- The number of operations that use the default response. -/
def standardCount (d : Document) : Nat :=
  (d.paths.flatMap Prod.snd).countP fun p => p.2.isStandard

/-- The nodes of the paths, with the default response shared if it occurs more than once. -/
def pathsTree (d : Document) : Yaml.Tree :=
  if 2 ≤ d.standardCount then .map (pathTrees false d.paths)
  else .map (d.paths.map fun (path, operations) => (path, Yaml.Tree.ofJson (pathJson operations)))

/-- The entries of the document's root. -/
def nodes (d : Document) : List (RawText × Yaml.Tree) :=
  d.toJson.fields.map fun (k, v) =>
    (k, if k == .plain "paths" then d.pathsTree else Yaml.Tree.ofJson v)

end Document

namespace Projection

/-- The entries of a projection's root. -/
def nodes : Projection → List (RawText × Yaml.Tree)
  | .complete d => d.nodes
  | .minimal title version => Yaml.Tree.ofFields (minimal title version).toJson.fields

/-- A projection as YAML. -/
def yaml (p : Projection) : String :=
  Yaml.document p.nodes

/-- A projection as JSON. -/
def json (p : Projection) : String :=
  p.toJson.write (.spread 2)

end Projection

end Nanoservice.OpenApi
