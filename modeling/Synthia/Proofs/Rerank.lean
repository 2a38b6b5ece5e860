import Synthia.Retrieval.Hybrid
import Mathlib.Data.Rat.Lemmas

/-!
# What reranking keeps of its candidates

The considered candidates come first and the others below them, both in the order of a
score: the reranker's above, the retrieval's below, whatever order the candidates came in.

Which candidates are below is decided by equality with one above. So a candidate is where
it is once and only once as long as none of its equals is on the other side of the cut.
-/

namespace Synthia

open Relational Text

/-- Best first, and the references in order where the scores tie. -/
def BestFirst {α : Type} (score : α → ℚ) (reference : α → String) (chunks : List α) : Prop :=
  chunks.Pairwise fun a b =>
    score b < score a ∨ score a = score b ∧ reference a ≤ reference b

theorem orderBy_bestFirst {α : Type} (score : α → ℚ) (reference : α → String)
    (chunks : List α) :
    BestFirst score reference
      (orderBy (fun chunk => toLex (-score chunk, reference chunk)) chunks) := by
  refine List.Pairwise.imp ?_ (orderBy_sorted _ chunks)
  intro a b hle
  rcases Prod.Lex.toLex_le_toLex.mp hle with hlt | ⟨heq, hreference⟩
  · exact Or.inl (neg_lt_neg_iff.mp hlt)
  · exact Or.inr ⟨neg_inj.mp heq, hreference⟩

section Eligible

variable {chunks : List RetrievedChunk} {chunk : RetrievedChunk}

theorem eligible_head_length : (eligible chunks).1.length ≤ rerankTopK :=
  (List.length_filter_le _ _).trans (List.length_take_le _ _)

/-- Of the first few exactly the plausible ones are considered. -/
theorem mem_eligible_head (h : chunk ∈ (rankedCandidates chunks).take rerankTopK) :
    chunk ∈ (eligible chunks).1 ↔ minimumRerankScore ≤ chunk.score := by
  show chunk ∈ List.filter _ _ ↔ _
  rw [List.mem_filter, decide_eq_true_eq, and_iff_right h]

theorem eligible_tail_sublist : (eligible chunks).2.Sublist (rankedCandidates chunks) :=
  List.filter_sublist

theorem mem_eligible_tail :
    chunk ∈ (eligible chunks).2 ↔ chunk ∈ chunks ∧ chunk ∉ (eligible chunks).1 := by
  show chunk ∈ (rankedCandidates chunks).filter
    (fun other => !(eligible chunks).1.contains other) ↔ _
  rw [List.mem_filter, rankedCandidates, mem_orderBy, Bool.not_eq_true', List.contains_eq_mem,
    decide_eq_false_iff_not]

/-- The two sides are the candidates, once each, where the cut parts no two equals. -/
theorem eligible_perm
    (h : ∀ chunk ∈ (eligible chunks).1, (eligible chunks).1.count chunk = chunks.count chunk) :
    ((eligible chunks).1 ++ (eligible chunks).2).Perm chunks := by
  refine List.perm_iff_count.mpr fun chunk => ?_
  rw [List.count_append]
  by_cases hhead : chunk ∈ (eligible chunks).1
  · have htail : chunk ∉ (eligible chunks).2 := fun hmem => (mem_eligible_tail.mp hmem).2 hhead
    rw [h chunk hhead, List.count_eq_zero_of_not_mem htail]
    rfl
  · have hcount : (eligible chunks).2.count chunk = (rankedCandidates chunks).count chunk :=
      List.count_filter (by
        rw [Bool.not_eq_true', List.contains_eq_mem, decide_eq_false_iff_not]
        exact hhead)
    rw [List.count_eq_zero_of_not_mem hhead, hcount, Nat.zero_add]
    exact (orderBy_perm _ chunks).count_eq chunk

end Eligible

section Rerank

variable {reranker : TenantContext → List CodePoint → List (List CodePoint) → List ℚ}
  {tenant : TenantContext} {query : List CodePoint} {chunks : List RetrievedChunk}

/-- What the reranker is asked, and what it answers. -/
def answered (reranker : TenantContext → List CodePoint → List (List CodePoint) → List ℚ)
    (tenant : TenantContext) (query : List CodePoint) (chunks : List RetrievedChunk) : List ℚ :=
  reranker tenant query ((eligible chunks).1.map RetrievedChunk.content)

/-- The chunks of an answer: the considered candidates with the scores answered for them,
in the order of those, and below them the others as they were. -/
def rerankedChunks (chunks : List RetrievedChunk) (scores : List ℚ) : List RerankedChunk :=
  orderBy (fun chunk => toLex (-chunk.score, chunk.sourceReference))
      ((eligible chunks).1.zipWith rescored scores) ++
    (eligible chunks).2.map unreranked

theorem rerank_eq :
    rerank reranker tenant query chunks =
      if (eligible chunks).1 ≠ [] ∧
          (answered reranker tenant query chunks).length ≠ (eligible chunks).1.length then
        .error ⟨(eligible chunks).1.length, (answered reranker tenant query chunks).length⟩
      else
        .ok ⟨rerankedChunks chunks (answered reranker tenant query chunks),
          (eligible chunks).1.length⟩ := by
  have hrerank : rerank reranker tenant query chunks =
      if (eligible chunks).1.isEmpty then
        .ok ⟨(eligible chunks).2.map unreranked, 0⟩
      else if (answered reranker tenant query chunks).length ≠ (eligible chunks).1.length then
        .error ⟨(eligible chunks).1.length, (answered reranker tenant query chunks).length⟩
      else
        .ok ⟨rerankedChunks chunks (answered reranker tenant query chunks),
          (eligible chunks).1.length⟩ := rfl
  rw [hrerank]
  by_cases hempty : (eligible chunks).1 = []
  · rw [if_pos (List.isEmpty_iff.mpr hempty), if_neg fun h => h.1 hempty, rerankedChunks, hempty]
    rfl
  · rw [if_neg (fun h => hempty (List.isEmpty_iff.mp h))]
    by_cases hlength :
        (answered reranker tenant query chunks).length ≠ (eligible chunks).1.length
    · rw [if_pos hlength, if_pos ⟨hempty, hlength⟩]
    · rw [if_neg hlength, if_neg fun h => hlength h.2]

/-- What is asked of an answer to these candidates and scores. -/
structure RanksCandidates (chunks : List RetrievedChunk) (scores : List ℚ)
    (outcome : RerankOutcome) : Prop where
  considered : outcome.considered = (eligible chunks).1.length
  head : (outcome.chunks.take outcome.considered).Perm
    ((eligible chunks).1.zipWith rescored scores)
  head_sorted : BestFirst RerankedChunk.score RerankedChunk.sourceReference
    (outcome.chunks.take outcome.considered)
  tail : outcome.chunks.drop outcome.considered = (eligible chunks).2.map unreranked

/-- **The candidates come back considered first, each part in the order of its score.** The
considered ones are at most five of the first five of the retrieval ranking, all above the
floor; the rest are those equal to none of them, in the order of the retrieval ranking; and
together they are the candidates again unless an equal of a considered one was left out.
The pass fails exactly if something is considered and the reranker answers another number
of scores. -/
theorem rerank_ranks (reranker : TenantContext → List CodePoint → List (List CodePoint) → List ℚ)
    (tenant : TenantContext) (query : List CodePoint) (chunks : List RetrievedChunk) :
    let head := (eligible chunks).1
    let tail := (eligible chunks).2
    let scores := answered reranker tenant query chunks
    ((∃ error, rerank reranker tenant query chunks = .error error) ↔
        head ≠ [] ∧ scores.length ≠ head.length) ∧
      (∀ outcome, rerank reranker tenant query chunks = .ok outcome →
        RanksCandidates chunks scores outcome) ∧
      head.Sublist ((rankedCandidates chunks).take rerankTopK) ∧ head.length ≤ rerankTopK ∧
      (∀ chunk ∈ (rankedCandidates chunks).take rerankTopK,
        chunk ∈ head ↔ minimumRerankScore ≤ chunk.score) ∧
      BestFirst RetrievedChunk.score RetrievedChunk.sourceReference tail ∧
      tail.Sublist (rankedCandidates chunks) ∧ (rankedCandidates chunks).Perm chunks ∧
      (∀ chunk, chunk ∈ tail ↔ chunk ∈ chunks ∧ chunk ∉ head) ∧
      ((∀ chunk ∈ head, head.count chunk = chunks.count chunk) →
        (head ++ tail).Perm chunks) := by
  intro head tail scores
  refine ⟨?_, ?_, List.filter_sublist, eligible_head_length,
    fun chunk hchunk => mem_eligible_head hchunk,
    (orderBy_bestFirst _ _ chunks).sublist eligible_tail_sublist, eligible_tail_sublist,
    orderBy_perm _ chunks, fun chunk => mem_eligible_tail, eligible_perm⟩
  · rw [rerank_eq]
    constructor
    · rintro ⟨error, h⟩
      by_contra hfine
      rw [if_neg hfine] at h
      cases h
    · intro h
      rw [if_pos h]
      exact ⟨_, rfl⟩
  · intro outcome h
    rw [rerank_eq] at h
    split at h
    · cases h
    · next hfine =>
        injection h with h
        subst h
        have hlength : (orderBy (fun chunk => toLex (-chunk.score, chunk.sourceReference))
            (head.zipWith rescored scores)).length = head.length := by
          rw [(orderBy_perm _ _).length_eq, List.length_zipWith, inf_eq_left]
          by_cases hempty : head = []
          · rw [hempty]
            exact Nat.zero_le _
          · by_contra hless
            exact hfine ⟨hempty, fun hsame => hless (Nat.le_of_eq hsame.symm)⟩
        refine ⟨rfl, ?_, ?_, ?_⟩
        · show (List.take head.length (_ ++ _)).Perm _
          rw [List.take_left' hlength]
          exact orderBy_perm _ _
        · show BestFirst _ _ (List.take head.length (_ ++ _))
          rw [List.take_left' hlength]
          exact orderBy_bestFirst _ _ _
        · show List.drop head.length (_ ++ _) = _
          exact List.drop_left' hlength

end Rerank

/-! ### Two poor candidates, the poorer first -/

namespace SampleRerank

def poorCandidates : List RetrievedChunk := [⟨[], 1 / 10, "kb-2"⟩, ⟨[], 2 / 10, "kb-1"⟩]

def sixCopies : List RetrievedChunk := List.replicate 6 ⟨[], 9 / 10, "kb-1"⟩

def someTenant : TenantContext := ⟨⟨1⟩, ⟨1⟩, .active, .endUserIdentity⟩

/-- Neither is considered, so a reranker with a score for something is not asked, and they
come back the other way round. Of six copies of one good candidate five come back. -/
theorem tail_reordered :
    (∃ outcome, rerank (fun _ _ _ => [1]) someTenant [] poorCandidates = .ok outcome ∧
      outcome.considered = 0 ∧
      ¬ ∃ below : List RetrievedChunk, below.Sublist poorCandidates ∧
        outcome.chunks.drop outcome.considered = below.map unreranked) ∧
      ∃ outcome, rerank (fun _ _ _ => [1, 1, 1, 1, 1]) someTenant [] sixCopies = .ok outcome ∧
        outcome.chunks.length = 5 := by
  refine ⟨⟨⟨[⟨[], 2 / 10, "kb-1", false⟩, ⟨[], 1 / 10, "kb-2", false⟩], 0⟩,
    by decide +kernel, rfl, ?_⟩, ?_⟩
  · rintro ⟨below, hsublist, hbelow⟩
    have hreferences : ["kb-1", "kb-2"] = below.map RetrievedChunk.sourceReference := by
      have h := congrArg (List.map RerankedChunk.sourceReference) hbelow
      rw [List.map_map] at h
      exact h
    have hmap := hsublist.map RetrievedChunk.sourceReference
    rw [← hreferences] at hmap
    revert hmap
    decide
  · exact ⟨⟨List.replicate 5 ⟨[], 1, "kb-1", true⟩, 5⟩, by decide +kernel, rfl⟩

end SampleRerank

end Synthia
