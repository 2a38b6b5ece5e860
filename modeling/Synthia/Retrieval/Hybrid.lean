import Mathlib.Data.Prod.Lex
import Mathlib.Data.String.Basic
import Synthia.Graph.Nodes
import Synthia.Lib.FirstWrite
import Synthia.Lib.Table

/-!
# Hybrid retrieval

`retrieval.hybrid`: two legs of scored chunks, each scaled to its own best score, joined
on the source reference and weighted into one ranking.

The union of the two legs' keys is a set in the source, with no order of its own. It is
listed here in some order, and the sort behind it leaves nothing of that order.
-/

namespace Synthia

open Relational Text

def denseWeight : ℚ := 6 / 10

def sparseWeight : ℚ := 4 / 10

structure FusedChunk where
  content : List CodePoint
  score : ℚ
  sourceReference : String
  fromDense : Bool
  fromSparse : Bool
  deriving DecidableEq

/-- `max(float(chunk.score) for chunk in chunks)`, where there is a chunk. -/
def bestScore (chunks : List RetrievedChunk) : Option ℚ :=
  (chunks.map RetrievedChunk.score).max?

/-- What `_normalised` makes of one score. A leg whose best is zero or negative
contributes zeros. -/
def scaled (best score : ℚ) : ℚ := if best ≤ 0 then 0 else score / best

/-- `_normalised`. -/
def normalised (chunks : List RetrievedChunk) : AList fun _ : String => ℚ × List CodePoint :=
  match bestScore chunks with
  | none => ∅
  | some best =>
      Dict.ofEntries (chunks.map fun chunk =>
        (chunk.sourceReference, (scaled best chunk.score, chunk.content)))

/-- One pass of `fuse`'s loop. -/
def fusedChunk (denseScores sparseScores : AList fun _ : String => ℚ × List CodePoint)
    (reference : String) : FusedChunk :=
  let denseHit := denseScores.lookup reference
  let sparseHit := sparseScores.lookup reference
  let resolved := denseHit.or sparseHit
  { content := (resolved.map Prod.snd).getD []
    score := denseWeight * (denseHit.map Prod.fst).getD 0 +
      sparseWeight * (sparseHit.map Prod.fst).getD 0
    sourceReference := reference
    fromDense := denseHit.isSome
    fromSparse := sparseHit.isSome }

/-- `items[:limit]`. A negative limit counts from the end. -/
def upTo {α : Type} (limit : Int) (items : List α) : List α :=
  items.take (if 0 ≤ limit then limit else items.length + limit).toNat

def fuse (dense sparse : List RetrievedChunk) (limit : Int) : List FusedChunk :=
  let denseScores := normalised dense
  let sparseScores := normalised sparse
  let references := (denseScores.keys ++ sparseScores.keys).dedup
  upTo limit (orderBy (fun chunk => toLex (-chunk.score, chunk.sourceReference))
    (references.map (fusedChunk denseScores sparseScores)))

example : (fuse [⟨[], 1 / 10, "kb-1"⟩, ⟨[], 1 / 20, "kb-2"⟩] [⟨[], 7, "kb-2"⟩] 8).map
    (fun chunk => (chunk.sourceReference, chunk.score)) =
      [("kb-2", 7 / 10), ("kb-1", 6 / 10)] := by decide +kernel

end Synthia

/-!
## The cost-gated rerank

`retrieval.rerank`. The candidates are ranked by their retrieval score, the plausible ones
among the first few are scored again by a model, and the rest stay below with the scores
they had. The reranker is a parameter: what it answers to a query and its passages.
-/

namespace Synthia

open Relational Text

def rerankTopK : Nat := 5

def minimumRerankScore : ℚ := 25 / 100

structure RerankedChunk where
  content : List CodePoint
  score : ℚ
  sourceReference : String
  wasReranked : Bool
  deriving DecidableEq

structure RerankOutcome where
  chunks : List RerankedChunk
  considered : Nat
  deriving DecidableEq

structure RerankContractError where
  passages : Nat
  scores : Nat
  deriving DecidableEq, Repr

/-- The candidates by the ranking that already exists. -/
def rankedCandidates (chunks : List RetrievedChunk) : List RetrievedChunk :=
  orderBy (fun chunk => toLex (-chunk.score, chunk.sourceReference)) chunks

/-- `_eligible`. A candidate is out of the tail if one equal to it is in the head. -/
def eligible (chunks : List RetrievedChunk) : List RetrievedChunk × List RetrievedChunk :=
  let ordered := rankedCandidates chunks
  let head := (ordered.take rerankTopK).filter fun chunk => minimumRerankScore ≤ chunk.score
  let tail := ordered.filter fun chunk => !head.contains chunk
  (head, tail)

def unreranked (chunk : RetrievedChunk) : RerankedChunk :=
  ⟨chunk.content, chunk.score, chunk.sourceReference, false⟩

def rescored (chunk : RetrievedChunk) (score : ℚ) : RerankedChunk :=
  ⟨chunk.content, score, chunk.sourceReference, true⟩

def rerank (reranker : TenantContext → List CodePoint → List (List CodePoint) → List ℚ)
    (tenant : TenantContext) (query : List CodePoint) (chunks : List RetrievedChunk) :
    Except RerankContractError RerankOutcome :=
  let (head, tail) := eligible chunks
  if head.isEmpty then
    .ok ⟨tail.map unreranked, 0⟩
  else
    let scores := reranker tenant query (head.map RetrievedChunk.content)
    if scores.length ≠ head.length then
      .error ⟨head.length, scores.length⟩
    else
      let reranked := orderBy (fun chunk => toLex (-chunk.score, chunk.sourceReference))
        (head.zipWith rescored scores)
      .ok ⟨reranked ++ tail.map unreranked, head.length⟩

end Synthia
