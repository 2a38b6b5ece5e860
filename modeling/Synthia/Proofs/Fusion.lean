import Synthia.Retrieval.Hybrid
import Mathlib.Tactic.FieldSimp
import Mathlib.Tactic.Linarith
import Mathlib.Tactic.Positivity

/-!
# What fusing two legs keeps of them

Each reference of either leg is fused once, and the sort leaves nothing of the order the
references are listed in. What is fused under a reference is what `_normalised` has
under it in each leg, and that is the leg's *last* chunk with the reference, on the scale
of the leg's best.

So the fused score is the weighted sum of the best scores, and the order of the legs does
not matter, exactly when the chunks a leg has under one reference do not differ; and the
score is not negative exactly when no chunk has a negative score that the other leg does
not make up for.
-/

namespace Synthia

open FirstWrite Relational Text

/-! ## One leg -/

section Leg

variable {leg other : List RetrievedChunk} {chunk : RetrievedChunk} {reference : String}

/-- A chunk's score on the scale of its leg. -/
def share (leg : List RetrievedChunk) (chunk : RetrievedChunk) : ℚ :=
  match bestScore leg with
  | none => 0
  | some best => scaled best chunk.score

/-- The leg's last chunk with the reference. -/
def lastChunk (leg : List RetrievedChunk) (reference : String) : Option RetrievedChunk :=
  latest RetrievedChunk.sourceReference leg reference

theorem mem_of_lastChunk (h : lastChunk leg reference = some chunk) :
    chunk ∈ leg ∧ chunk.sourceReference = reference :=
  mem_of_latest h

theorem lastChunk_of_mem (h : chunk ∈ leg) :
    ∃ last, lastChunk leg chunk.sourceReference = some last :=
  latest_isSome h

theorem bestScore_eq_none_iff : bestScore leg = none ↔ leg = [] := by
  rw [bestScore, List.max?_eq_none_iff, List.map_eq_nil_iff]

theorem score_le_bestScore {best : ℚ} (h : bestScore leg = some best) (hchunk : chunk ∈ leg) :
    chunk.score ≤ best :=
  (List.max?_eq_some_iff.mp h).2 _ (List.mem_map_of_mem hchunk)

theorem bestScore_perm (h : leg.Perm other) : bestScore leg = bestScore other := by
  cases hbest : bestScore leg with
  | none =>
      rw [bestScore_eq_none_iff.mp hbest] at h
      rw [← h.nil_eq]
      rfl
  | some best =>
      obtain ⟨hmem, hle⟩ := List.max?_eq_some_iff.mp hbest
      refine (List.max?_eq_some_iff.mpr ⟨?_, ?_⟩).symm
      · exact ((h.map _).mem_iff).mp hmem
      · intro score hscore
        exact hle score (((h.map _).mem_iff).mpr hscore)

theorem share_perm (h : leg.Perm other) : share leg chunk = share other chunk := by
  rw [share, share, bestScore_perm h]

theorem share_le_one (hchunk : chunk ∈ leg) : share leg chunk ≤ 1 := by
  rw [share]
  cases hbest : bestScore leg with
  | none => exact zero_le_one
  | some best =>
      show scaled best chunk.score ≤ 1
      rw [scaled]
      split
      · exact zero_le_one
      · next hpos =>
          exact (div_le_one (not_le.mp hpos)).mpr (score_le_bestScore hbest hchunk)

/-- What `_normalised` has under a reference. -/
theorem lookup_normalised (leg : List RetrievedChunk) (reference : String) :
    (normalised leg).lookup reference =
      (lastChunk leg reference).map fun chunk => (share leg chunk, chunk.content) := by
  rw [normalised]
  cases hbest : bestScore leg with
  | none =>
      rw [bestScore_eq_none_iff.mp hbest]
      rfl
  | some best =>
      show (Dict.ofEntries _).lookup reference = _
      rw [Dict.lookup_ofEntries, latest_map _ _ (fun _ => rfl), Option.map_map, lastChunk]
      refine congrFun (congrArg _ (funext fun chunk => ?_)) _
      simp only [Function.comp, share, hbest]

theorem mem_keys_normalised :
    reference ∈ (normalised leg).keys ↔
      ∃ chunk ∈ leg, chunk.sourceReference = reference := by
  rw [← AList.mem_keys, ← AList.lookup_isSome, lookup_normalised, Option.isSome_map]
  constructor
  · intro h
    obtain ⟨chunk, hchunk⟩ := Option.isSome_iff_exists.mp h
    exact ⟨chunk, mem_of_lastChunk hchunk⟩
  · rintro ⟨chunk, hchunk, rfl⟩
    exact Option.isSome_iff_exists.mpr (lastChunk_of_mem hchunk)

/-- What a leg says of a reference: nothing is a zero. -/
def lastShare (leg : List RetrievedChunk) (reference : String) : ℚ :=
  ((lastChunk leg reference).map (share leg)).getD 0

theorem lastShare_le_one (leg : List RetrievedChunk) (reference : String) :
    lastShare leg reference ≤ 1 := by
  rw [lastShare]
  cases hlast : lastChunk leg reference with
  | none => exact zero_le_one
  | some chunk => exact share_le_one (mem_of_lastChunk hlast).1

end Leg

/-! ## Both legs -/

section Legs

variable {dense sparse : List RetrievedChunk} {reference : String} {limit : Int}

def fusedReferences (dense sparse : List RetrievedChunk) : List String :=
  ((normalised dense).keys ++ (normalised sparse).keys).dedup

def fusedAt (dense sparse : List RetrievedChunk) (reference : String) : FusedChunk :=
  fusedChunk (normalised dense) (normalised sparse) reference

def rankKey (chunk : FusedChunk) : ℚ ×ₗ String := toLex (-chunk.score, chunk.sourceReference)

/-- All the fused chunks, best first. -/
def ranking (dense sparse : List RetrievedChunk) : List FusedChunk :=
  orderBy rankKey ((fusedReferences dense sparse).map (fusedAt dense sparse))

theorem fuse_eq (dense sparse : List RetrievedChunk) (limit : Int) :
    fuse dense sparse limit = upTo limit (ranking dense sparse) := rfl

theorem mem_fusedReferences :
    reference ∈ fusedReferences dense sparse ↔
      ∃ chunk ∈ dense ++ sparse, chunk.sourceReference = reference := by
  rw [fusedReferences, List.mem_dedup, List.mem_append, mem_keys_normalised,
    mem_keys_normalised]
  constructor
  · rintro (⟨chunk, hchunk, hreference⟩ | ⟨chunk, hchunk, hreference⟩)
    · exact ⟨chunk, List.mem_append_left sparse hchunk, hreference⟩
    · exact ⟨chunk, List.mem_append_right dense hchunk, hreference⟩
  · rintro ⟨chunk, hchunk, hreference⟩
    rcases List.mem_append.mp hchunk with hmem | hmem
    · exact Or.inl ⟨chunk, hmem, hreference⟩
    · exact Or.inr ⟨chunk, hmem, hreference⟩

theorem nodup_fusedReferences (dense sparse : List RetrievedChunk) :
    (fusedReferences dense sparse).Nodup :=
  List.nodup_dedup _

theorem fusedAt_score (dense sparse : List RetrievedChunk) (reference : String) :
    (fusedAt dense sparse reference).score =
      denseWeight * lastShare dense reference + sparseWeight * lastShare sparse reference := by
  show denseWeight * (((normalised dense).lookup reference).map Prod.fst).getD 0 +
    sparseWeight * (((normalised sparse).lookup reference).map Prod.fst).getD 0 = _
  rw [lookup_normalised, lookup_normalised, Option.map_map, Option.map_map]
  rfl

theorem fusedAt_content (dense sparse : List RetrievedChunk) (reference : String) :
    (fusedAt dense sparse reference).content =
      (((lastChunk dense reference).or (lastChunk sparse reference)).map
        RetrievedChunk.content).getD [] := by
  show ((((normalised dense).lookup reference).or
    ((normalised sparse).lookup reference)).map Prod.snd).getD [] = _
  rw [lookup_normalised, lookup_normalised]
  cases lastChunk dense reference with
  | none =>
      rw [Option.map_none, Option.none_or, Option.none_or, Option.map_map]
      rfl
  | some chunk => rfl

theorem rankKey_inj {first second : String}
    (h : rankKey (fusedAt dense sparse first) = rankKey (fusedAt dense sparse second)) :
    first = second :=
  congrArg (fun key => (ofLex key).2) h

theorem mem_ranking {chunk : FusedChunk} :
    chunk ∈ ranking dense sparse ↔
      ∃ reference ∈ fusedReferences dense sparse, fusedAt dense sparse reference = chunk := by
  rw [ranking, mem_orderBy, List.mem_map]

theorem ranking_references :
    ((ranking dense sparse).map FusedChunk.sourceReference).Perm
      (fusedReferences dense sparse) := by
  have hperm := (orderBy_perm rankKey
    ((fusedReferences dense sparse).map (fusedAt dense sparse))).map FusedChunk.sourceReference
  rw [List.map_map] at hperm
  have hid : FusedChunk.sourceReference ∘ fusedAt dense sparse = id := rfl
  rwa [hid, List.map_id] at hperm

theorem ranking_length :
    (ranking dense sparse).length = (fusedReferences dense sparse).length := by
  rw [← ranking_references.length_eq, List.length_map]

/-- Best first, and the references in order where the scores tie. -/
theorem ranking_sorted :
    (ranking dense sparse).Pairwise fun a b =>
      b.score < a.score ∨ a.score = b.score ∧ a.sourceReference < b.sourceReference := by
  have hnodup : (ranking dense sparse).Pairwise fun a b =>
      a.sourceReference ≠ b.sourceReference :=
    List.pairwise_map.mp (ranking_references.nodup_iff.mpr (nodup_fusedReferences dense sparse))
  refine List.Pairwise.imp ?_ (hnodup.and (orderBy_sorted rankKey _))
  rintro a b ⟨hne, hle⟩
  rcases Prod.Lex.toLex_le_toLex.mp hle with hlt | ⟨heq, hreference⟩
  · exact Or.inl (neg_lt_neg_iff.mp hlt)
  · exact Or.inr ⟨neg_inj.mp heq, lt_of_le_of_ne hreference hne⟩

/-- Two pairs of legs with the same references, fused alike, rank alike. -/
theorem ranking_congr {dense' sparse' : List RetrievedChunk}
    (hreferences : ∀ reference,
      reference ∈ fusedReferences dense sparse ↔ reference ∈ fusedReferences dense' sparse')
    (hfused : ∀ reference ∈ fusedReferences dense sparse,
      fusedAt dense sparse reference = fusedAt dense' sparse' reference) :
    ranking dense sparse = ranking dense' sparse' := by
  have hperm : (fusedReferences dense sparse).Perm (fusedReferences dense' sparse') :=
    (List.perm_ext_iff_of_nodup (nodup_fusedReferences _ _) (nodup_fusedReferences _ _)).mpr
      fun reference => hreferences reference
  have hmap : (fusedReferences dense sparse).map (fusedAt dense sparse) =
      (fusedReferences dense sparse).map (fusedAt dense' sparse') :=
    List.map_congr_left hfused
  rw [ranking, ranking, hmap]
  refine orderBy_eq_of_perm (hperm.map _) ?_
  intro a ha b hb hkey
  obtain ⟨first, -, rfl⟩ := List.mem_map.mp ha
  obtain ⟨second, -, rfl⟩ := List.mem_map.mp hb
  rw [rankKey_inj hkey]

/-! ### The limit -/

theorem upTo_isPrefix {α : Type} (limit : Int) (items : List α) :
    upTo limit items <+: items :=
  List.take_prefix _ _

theorem upTo_eq_self {α : Type} {limit : Int} {items : List α}
    (h : (items.length : Int) ≤ limit) : upTo limit items = items := by
  rw [upTo, if_pos (by omega), List.take_of_length_le (by omega)]

end Legs

/-! ## What is asked of a fusion -/

/-- The best share a leg gave a reference, a zero where it gave none. -/
def bestShare (leg : List RetrievedChunk) (reference : String) : ℚ :=
  (((leg.filter fun chunk => chunk.sourceReference == reference).map (share leg)).max?).getD 0

def distinctReferences (dense sparse : List RetrievedChunk) : List String :=
  ((dense ++ sparse).map RetrievedChunk.sourceReference).dedup

/-- Nothing lost, invented or duplicated, the scores what they should be, and the order of
the answer the only order there is. -/
structure FusesFaithfully (dense sparse : List RetrievedChunk) (limit : Int) : Prop where
  once : ((fuse dense sparse limit).map FusedChunk.sourceReference).Nodup
  found : ∀ chunk ∈ fuse dense sparse limit,
    ∃ source ∈ dense ++ sparse, source.sourceReference = chunk.sourceReference
  kept : ((distinctReferences dense sparse).length : Int) ≤ limit →
    ∀ source ∈ dense ++ sparse, ∃ chunk ∈ fuse dense sparse limit,
      chunk.sourceReference = source.sourceReference
  bounded : ∀ chunk ∈ fuse dense sparse limit, 0 ≤ chunk.score ∧ chunk.score ≤ 1
  weighted : ∀ chunk ∈ fuse dense sparse limit,
    chunk.score = denseWeight * bestShare dense chunk.sourceReference +
      sparseWeight * bestShare sparse chunk.sourceReference
  sorted : (fuse dense sparse limit).Pairwise fun a b =>
    b.score < a.score ∨ a.score = b.score ∧ a.sourceReference < b.sourceReference
  unordered : ∀ dense' sparse', dense.Perm dense' → sparse.Perm sparse' →
    fuse dense' sparse' limit = fuse dense sparse limit

/-- The chunks of one reference have one score, where the leg has a score worth ranking. -/
def ScoresAgree (leg : List RetrievedChunk) : Prop :=
  (∃ best ∈ leg, 0 < best.score) →
    ∀ a ∈ leg, ∀ b ∈ leg, a.sourceReference = b.sourceReference → a.score = b.score

/-- What the two legs are asked for: that the chunks of one reference agree, in what is
read of them, and that a negative score is made up for by the other leg's. -/
structure LegsAgree (dense sparse : List RetrievedChunk) : Prop where
  dense_scores : ScoresAgree dense
  sparse_scores : ScoresAgree sparse
  dense_contents : ∀ a ∈ dense, ∀ b ∈ dense, a.sourceReference = b.sourceReference →
    a.content = b.content
  sparse_contents : ∀ a ∈ sparse, ∀ b ∈ sparse, a.sourceReference = b.sourceReference →
    (∀ chunk ∈ dense, chunk.sourceReference ≠ a.sourceReference) → a.content = b.content
  dense_madeUp : ∀ a ∈ dense, share dense a < 0 → ∃ b ∈ sparse,
    b.sourceReference = a.sourceReference ∧
      0 ≤ denseWeight * share dense a + sparseWeight * share sparse b
  sparse_madeUp : ∀ b ∈ sparse, share sparse b < 0 → ∃ a ∈ dense,
    a.sourceReference = b.sourceReference ∧
      0 ≤ denseWeight * share dense a + sparseWeight * share sparse b

section Agreement

variable {leg : List RetrievedChunk}

/-- Two chunks of a leg share alike exactly if they score alike or nothing is ranked. -/
theorem share_eq_iff {a b : RetrievedChunk} (ha : a ∈ leg) :
    share leg a = share leg b ↔ ((∃ best ∈ leg, 0 < best.score) → a.score = b.score) := by
  rw [share, share]
  cases hbest : bestScore leg with
  | none =>
      rw [bestScore_eq_none_iff.mp hbest] at ha
      cases ha
  | some best =>
      have hranked : (∃ chunk ∈ leg, 0 < chunk.score) ↔ 0 < best := by
        constructor
        · rintro ⟨chunk, hchunk, hpos⟩
          exact lt_of_lt_of_le hpos (score_le_bestScore hbest hchunk)
        · intro hpos
          obtain ⟨chunk, hchunk, hscore⟩ := List.mem_map.mp (List.max?_eq_some_iff.mp hbest).1
          exact ⟨chunk, hchunk, hscore ▸ hpos⟩
      rw [hranked]
      show scaled best a.score = scaled best b.score ↔ _
      rw [scaled, scaled]
      split
      · next hle => exact ⟨fun _ hpos => absurd hpos (not_lt.mpr hle), fun _ => rfl⟩
      · next hpos =>
          rw [div_left_inj' (ne_of_gt (not_le.mp hpos))]
          exact ⟨fun h _ => h, fun h => h (not_le.mp hpos)⟩

theorem scoresAgree_iff :
    ScoresAgree leg ↔ ∀ a ∈ leg, ∀ b ∈ leg, a.sourceReference = b.sourceReference →
      share leg a = share leg b := by
  constructor
  · intro h a ha b hb hreference
    exact (share_eq_iff ha).mpr fun hranked => h hranked a ha b hb hreference
  · intro h hranked a ha b hb hreference
    exact (share_eq_iff ha).mp (h a ha b hb hreference) hranked

theorem lastChunk_eq_none_iff {reference : String} :
    lastChunk leg reference = none ↔ ∀ chunk ∈ leg, chunk.sourceReference ≠ reference :=
  latest_eq_none_iff

/-- Where the scores agree, any chunk of a reference speaks for it. -/
theorem ScoresAgree.lastShare_eq (h : ScoresAgree leg) {chunk : RetrievedChunk}
    (hchunk : chunk ∈ leg) : lastShare leg chunk.sourceReference = share leg chunk := by
  obtain ⟨last, hlast⟩ := lastChunk_of_mem hchunk
  obtain ⟨hmem, hreference⟩ := mem_of_lastChunk hlast
  rw [lastShare, hlast]
  exact scoresAgree_iff.mp h last hmem chunk hchunk hreference

theorem lastShare_of_none {reference : String}
    (h : ∀ chunk ∈ leg, chunk.sourceReference ≠ reference) : lastShare leg reference = 0 := by
  rw [lastShare, lastChunk_eq_none_iff.mpr h]
  rfl

/-- And so does the best. -/
theorem ScoresAgree.bestShare_eq (h : ScoresAgree leg) (reference : String) :
    bestShare leg reference = lastShare leg reference := by
  by_cases hnone : ∀ chunk ∈ leg, chunk.sourceReference ≠ reference
  · have hfilter : (leg.filter fun chunk => chunk.sourceReference == reference) = [] := by
      rw [List.filter_eq_nil_iff]
      intro chunk hchunk
      rw [beq_iff_eq]
      exact hnone chunk hchunk
    rw [lastShare_of_none hnone, bestShare, hfilter]
    rfl
  · push Not at hnone
    obtain ⟨chunk, hchunk, rfl⟩ := hnone
    have hmax : ((leg.filter fun other => other.sourceReference == chunk.sourceReference).map
        (share leg)).max? = some (share leg chunk) := by
      refine List.max?_eq_some_iff.mpr ⟨?_, ?_⟩
      · exact List.mem_map_of_mem (List.mem_filter.mpr ⟨hchunk, beq_self_eq_true _⟩)
      · intro value hvalue
        obtain ⟨other, hother, rfl⟩ := List.mem_map.mp hvalue
        obtain ⟨hmem, hreference⟩ := List.mem_filter.mp hother
        exact (scoresAgree_iff.mp h other hmem chunk hchunk (beq_iff_eq.mp hreference)).le
    rw [h.lastShare_eq hchunk, bestShare, hmax]
    rfl

/-- Any chunk of a leg can come last. -/
theorem exists_perm_last {chunk : RetrievedChunk} (h : chunk ∈ leg) :
    ∃ other, leg.Perm other ∧ lastChunk other chunk.sourceReference = some chunk :=
  ⟨leg.erase chunk ++ [chunk],
    (List.perm_cons_erase h).trans (List.perm_append_singleton chunk _).symm,
    latest_concat_self rfl⟩

end Agreement

/-! ## What holds of every fusion -/

section Always

variable {dense sparse : List RetrievedChunk} {limit : Int}

theorem fusedReferences_perm :
    (fusedReferences dense sparse).Perm (distinctReferences dense sparse) := by
  refine (List.perm_ext_iff_of_nodup (nodup_fusedReferences _ _) (List.nodup_dedup _)).mpr ?_
  intro reference
  rw [mem_fusedReferences, List.mem_dedup, List.mem_map]

theorem mem_fuse {chunk : FusedChunk} (h : chunk ∈ fuse dense sparse limit) :
    chunk.sourceReference ∈ fusedReferences dense sparse ∧
      chunk = fusedAt dense sparse chunk.sourceReference := by
  obtain ⟨reference, hreference, rfl⟩ := mem_ranking.mp ((upTo_isPrefix _ _).subset h)
  exact ⟨hreference, rfl⟩

/-- A limit for all of the references cuts none off. -/
theorem fuse_eq_ranking (h : ((distinctReferences dense sparse).length : Int) ≤ limit) :
    fuse dense sparse limit = ranking dense sparse := by
  rw [fuse_eq, upTo_eq_self]
  rwa [ranking_length, fusedReferences_perm.length_eq]

theorem fuse_once : ((fuse dense sparse limit).map FusedChunk.sourceReference).Nodup :=
  ((upTo_isPrefix limit (ranking dense sparse)).map FusedChunk.sourceReference).sublist.nodup
    (ranking_references.nodup_iff.mpr (nodup_fusedReferences dense sparse))

theorem fuse_kept (h : ((distinctReferences dense sparse).length : Int) ≤ limit)
    {source : RetrievedChunk} (hsource : source ∈ dense ++ sparse) :
    fusedAt dense sparse source.sourceReference ∈ fuse dense sparse limit := by
  rw [fuse_eq_ranking h]
  exact mem_ranking.mpr ⟨_, mem_fusedReferences.mpr ⟨source, hsource, rfl⟩, rfl⟩

theorem fuse_sorted : (fuse dense sparse limit).Pairwise fun a b =>
    b.score < a.score ∨ a.score = b.score ∧ a.sourceReference < b.sourceReference :=
  ranking_sorted.sublist (upTo_isPrefix limit (ranking dense sparse)).sublist

theorem weights_sum : denseWeight + sparseWeight = 1 := by
  norm_num [denseWeight, sparseWeight]

theorem denseWeight_pos : 0 < denseWeight := by norm_num [denseWeight]

theorem sparseWeight_pos : 0 < sparseWeight := by norm_num [sparseWeight]

theorem fusedAt_score_le_one (reference : String) :
    (fusedAt dense sparse reference).score ≤ 1 := by
  rw [fusedAt_score]
  have hdense := mul_le_mul_of_nonneg_left
    (lastShare_le_one dense reference) denseWeight_pos.le
  have hsparse := mul_le_mul_of_nonneg_left
    (lastShare_le_one sparse reference) sparseWeight_pos.le
  have := weights_sum
  linarith

end Always

/-! ## Legs that agree -/

section Faithful

variable {dense sparse : List RetrievedChunk} {limit : Int}

/-- A leg whose scores agree says the same of a reference in any order. -/
theorem ScoresAgree.lastShare_perm {leg other : List RetrievedChunk} (h : ScoresAgree leg)
    (hperm : leg.Perm other) (reference : String) :
    lastShare other reference = lastShare leg reference := by
  by_cases hnone : ∀ chunk ∈ leg, chunk.sourceReference ≠ reference
  · rw [lastShare_of_none hnone, lastShare_of_none]
    exact fun chunk hchunk => hnone chunk (hperm.mem_iff.mpr hchunk)
  · push Not at hnone
    obtain ⟨chunk, hchunk, rfl⟩ := hnone
    obtain ⟨last, hlast⟩ := lastChunk_of_mem (hperm.mem_iff.mp hchunk)
    obtain ⟨hmem, hreference⟩ := mem_of_lastChunk hlast
    rw [h.lastShare_eq hchunk, lastShare, hlast]
    show share other last = _
    rw [← share_perm hperm]
    exact scoresAgree_iff.mp h last (hperm.mem_iff.mpr hmem) chunk hchunk hreference

/-- And has the same content for it, where it has one for all its chunks. -/
theorem lastChunk_content_perm {leg other : List RetrievedChunk} {reference : String}
    (h : ∀ a ∈ leg, ∀ b ∈ leg, a.sourceReference = reference → b.sourceReference = reference →
      a.content = b.content)
    (hperm : leg.Perm other) :
    (lastChunk other reference).map RetrievedChunk.content =
      (lastChunk leg reference).map RetrievedChunk.content := by
  cases hleg : lastChunk leg reference with
  | none =>
      have hnone := lastChunk_eq_none_iff.mp hleg
      rw [lastChunk_eq_none_iff.mpr fun chunk hchunk =>
        hnone chunk (hperm.mem_iff.mpr hchunk)]
  | some chunk =>
      obtain ⟨hchunk, hreference⟩ := mem_of_lastChunk hleg
      obtain ⟨last, hlast⟩ := lastChunk_of_mem (hperm.mem_iff.mp hchunk)
      rw [hreference] at hlast
      obtain ⟨hmem, hsame⟩ := mem_of_lastChunk hlast
      rw [hlast, Option.map_some, Option.map_some,
        h last (hperm.mem_iff.mpr hmem) chunk hchunk hsame hreference]

theorem lastChunk_isSome_perm {leg other : List RetrievedChunk} {reference : String}
    (hperm : leg.Perm other) :
    (lastChunk other reference).isSome = (lastChunk leg reference).isSome := by
  rw [Bool.eq_iff_iff, Option.isSome_iff_ne_none, Option.isSome_iff_ne_none, ne_eq, ne_eq,
    lastChunk_eq_none_iff, lastChunk_eq_none_iff]
  exact not_congr ⟨fun h chunk hchunk => h chunk (hperm.mem_iff.mp hchunk),
    fun h chunk hchunk => h chunk (hperm.mem_iff.mpr hchunk)⟩

theorem fusedAt_fromDense (dense sparse : List RetrievedChunk) (reference : String) :
    (fusedAt dense sparse reference).fromDense = (lastChunk dense reference).isSome := by
  show ((normalised dense).lookup reference).isSome = _
  rw [lookup_normalised, Option.isSome_map]

theorem fusedAt_fromSparse (dense sparse : List RetrievedChunk) (reference : String) :
    (fusedAt dense sparse reference).fromSparse = (lastChunk sparse reference).isSome := by
  show ((normalised sparse).lookup reference).isSome = _
  rw [lookup_normalised, Option.isSome_map]

theorem FusedChunk.ext_fields {a b : FusedChunk} (hcontent : a.content = b.content)
    (hscore : a.score = b.score) (hreference : a.sourceReference = b.sourceReference)
    (hdense : a.fromDense = b.fromDense) (hsparse : a.fromSparse = b.fromSparse) : a = b := by
  cases a
  cases b
  congr

theorem LegsAgree.fusedAt_perm (h : LegsAgree dense sparse) {dense' sparse' : List RetrievedChunk}
    (hdense : dense.Perm dense') (hsparse : sparse.Perm sparse') (reference : String) :
    fusedAt dense' sparse' reference = fusedAt dense sparse reference := by
  refine FusedChunk.ext_fields ?_ ?_ rfl ?_ ?_
  · rw [fusedAt_content, fusedAt_content]
    have hcontent : (lastChunk dense' reference).map RetrievedChunk.content =
        (lastChunk dense reference).map RetrievedChunk.content :=
      lastChunk_content_perm (fun a ha b hb hsame hother =>
        h.dense_contents a ha b hb (hsame.trans hother.symm)) hdense
    cases hlast : lastChunk dense reference with
    | some chunk =>
        rw [hlast] at hcontent
        obtain ⟨other, hother, hsame⟩ := Option.map_eq_some_iff.mp hcontent
        rw [hother]
        exact hsame
    | none =>
        rw [hlast] at hcontent
        rw [Option.map_eq_none_iff.mp hcontent, Option.none_or, Option.none_or]
        have hnone := lastChunk_eq_none_iff.mp hlast
        rw [lastChunk_content_perm (fun a ha b hb hsame hother =>
          h.sparse_contents a ha b hb (hsame.trans hother.symm)
            (fun chunk hchunk => hsame ▸ hnone chunk hchunk)) hsparse]
  · rw [fusedAt_score, fusedAt_score, h.dense_scores.lastShare_perm hdense,
      h.sparse_scores.lastShare_perm hsparse]
  · rw [fusedAt_fromDense, fusedAt_fromDense, lastChunk_isSome_perm hdense]
  · rw [fusedAt_fromSparse, fusedAt_fromSparse, lastChunk_isSome_perm hsparse]

/-- No reference is fused below zero: a negative share in one leg is made up for. -/
theorem LegsAgree.nonneg (h : LegsAgree dense sparse) (reference : String) :
    0 ≤ (fusedAt dense sparse reference).score := by
  rw [fusedAt_score]
  by_cases hdense : lastShare dense reference < 0
  · have hsome : ∃ a ∈ dense, a.sourceReference = reference := by
      by_contra hnone
      push Not at hnone
      rw [lastShare_of_none hnone] at hdense
      exact lt_irrefl _ hdense
    obtain ⟨a, ha, rfl⟩ := hsome
    rw [h.dense_scores.lastShare_eq ha] at hdense ⊢
    obtain ⟨b, hb, hreference, hsum⟩ := h.dense_madeUp a ha hdense
    rw [← hreference, h.sparse_scores.lastShare_eq hb]
    exact hsum
  · by_cases hsparse : lastShare sparse reference < 0
    · have hsome : ∃ b ∈ sparse, b.sourceReference = reference := by
        by_contra hnone
        push Not at hnone
        rw [lastShare_of_none hnone] at hsparse
        exact lt_irrefl _ hsparse
      obtain ⟨b, hb, rfl⟩ := hsome
      rw [h.sparse_scores.lastShare_eq hb] at hsparse ⊢
      obtain ⟨a, ha, hreference, hsum⟩ := h.sparse_madeUp b hb hsparse
      rw [← hreference, h.dense_scores.lastShare_eq ha]
      exact hsum
    · have hfirst := mul_nonneg denseWeight_pos.le (not_lt.mp hdense)
      have hsecond := mul_nonneg sparseWeight_pos.le (not_lt.mp hsparse)
      linarith

theorem LegsAgree.fuses (h : LegsAgree dense sparse) (limit : Int) :
    FusesFaithfully dense sparse limit where
  once := fuse_once
  found chunk hchunk := mem_fusedReferences.mp (mem_fuse hchunk).1
  kept hlimit source hsource := ⟨_, fuse_kept hlimit hsource, rfl⟩
  bounded chunk hchunk := by
    rw [(mem_fuse hchunk).2]
    exact ⟨h.nonneg _, fusedAt_score_le_one _⟩
  weighted chunk hchunk := by
    rw [h.dense_scores.bestShare_eq, h.sparse_scores.bestShare_eq, ← fusedAt_score,
      ← (mem_fuse hchunk).2]
  sorted := fuse_sorted
  unordered dense' sparse' hdense hsparse := by
    rw [fuse_eq, fuse_eq]
    refine congrArg (upTo limit) (ranking_congr ?_ ?_)
    · intro reference
      rw [mem_fusedReferences, mem_fusedReferences]
      have hmem : ∀ chunk, chunk ∈ dense' ++ sparse' ↔ chunk ∈ dense ++ sparse := by
        intro chunk
        rw [List.mem_append, List.mem_append, hdense.mem_iff, hsparse.mem_iff]
      simp only [hmem]
    · exact fun reference _ => h.fusedAt_perm hdense hsparse reference

end Faithful

/-! ## And only legs that agree -/

section Necessary

variable {dense sparse : List RetrievedChunk} {limit : Int}

/-- Legs fused alike in another order have fused each reference alike. -/
theorem fusedAt_of_fuse_eq {dense' sparse' : List RetrievedChunk}
    (hlimit : ((distinctReferences dense sparse).length : Int) ≤ limit)
    (hdense : dense.Perm dense') (hsparse : sparse.Perm sparse')
    (h : fuse dense' sparse' limit = fuse dense sparse limit) {source : RetrievedChunk}
    (hsource : source ∈ dense ++ sparse) :
    fusedAt dense' sparse' source.sourceReference =
      fusedAt dense sparse source.sourceReference := by
  have hlength : ((distinctReferences dense' sparse').length : Int) ≤ limit := by
    have hperm := (((hdense.append hsparse).map RetrievedChunk.sourceReference).dedup).length_eq
    rw [distinctReferences, ← hperm]
    exact hlimit
  have hmem := fuse_kept hlength
    ((hdense.append hsparse).mem_iff.mp hsource)
  rw [h] at hmem
  exact (mem_fuse hmem).2

theorem lastShare_of_last {leg : List RetrievedChunk} {chunk : RetrievedChunk}
    (h : lastChunk leg chunk.sourceReference = some chunk) :
    lastShare leg chunk.sourceReference = share leg chunk := by
  rw [lastShare, h]
  rfl

/-- Fused the same whichever of its chunks the dense leg has last, a reference has what
each of them says. -/
theorem dense_speaks (hlimit : ((distinctReferences dense sparse).length : Int) ≤ limit)
    (h : FusesFaithfully dense sparse limit) {chunk : RetrievedChunk} (hchunk : chunk ∈ dense) :
    share dense chunk = lastShare dense chunk.sourceReference ∧
      (fusedAt dense sparse chunk.sourceReference).content = chunk.content := by
  obtain ⟨other, hperm, hlast⟩ := exists_perm_last hchunk
  have hsame := fusedAt_of_fuse_eq hlimit hperm (List.Perm.refl sparse)
    (h.unordered other sparse hperm (List.Perm.refl sparse)) (List.mem_append_left sparse hchunk)
  constructor
  · have hscore := congrArg FusedChunk.score hsame
    rw [fusedAt_score, fusedAt_score, lastShare_of_last hlast, ← share_perm hperm] at hscore
    exact mul_left_cancel₀ (ne_of_gt denseWeight_pos) (add_right_cancel hscore)
  · rw [← hsame, fusedAt_content, hlast]
    rfl

theorem sparse_speaks (hlimit : ((distinctReferences dense sparse).length : Int) ≤ limit)
    (h : FusesFaithfully dense sparse limit) {chunk : RetrievedChunk} (hchunk : chunk ∈ sparse) :
    share sparse chunk = lastShare sparse chunk.sourceReference ∧
      ((∀ other ∈ dense, other.sourceReference ≠ chunk.sourceReference) →
        (fusedAt dense sparse chunk.sourceReference).content = chunk.content) := by
  obtain ⟨other, hperm, hlast⟩ := exists_perm_last hchunk
  have hsame := fusedAt_of_fuse_eq hlimit (List.Perm.refl dense) hperm
    (h.unordered dense other (List.Perm.refl dense) hperm) (List.mem_append_right dense hchunk)
  constructor
  · have hscore := congrArg FusedChunk.score hsame
    rw [fusedAt_score, fusedAt_score, lastShare_of_last hlast, ← share_perm hperm] at hscore
    exact mul_left_cancel₀ (ne_of_gt sparseWeight_pos) (add_left_cancel hscore)
  · intro hnone
    rw [← hsame, fusedAt_content, lastChunk_eq_none_iff.mpr hnone, hlast]
    rfl

/-- A share that is not negative needs no other leg, so a negative sum's other half is
there. -/
theorem exists_of_lastShare_pos {leg : List RetrievedChunk} {reference : String}
    (h : 0 < lastShare leg reference) : ∃ chunk ∈ leg, chunk.sourceReference = reference := by
  by_contra hnone
  push Not at hnone
  rw [lastShare_of_none hnone] at h
  exact lt_irrefl _ h

theorem fusedAt_nonneg (hlimit : ((distinctReferences dense sparse).length : Int) ≤ limit)
    (h : FusesFaithfully dense sparse limit) {source : RetrievedChunk}
    (hsource : source ∈ dense ++ sparse) :
    0 ≤ denseWeight * lastShare dense source.sourceReference +
      sparseWeight * lastShare sparse source.sourceReference := by
  rw [← fusedAt_score]
  exact (h.bounded _ (fuse_kept hlimit hsource)).1

theorem FusesFaithfully.agree (hlimit : ((distinctReferences dense sparse).length : Int) ≤ limit)
    (h : FusesFaithfully dense sparse limit) : LegsAgree dense sparse where
  dense_scores := scoresAgree_iff.mpr fun a ha b hb hreference => by
    rw [(dense_speaks hlimit h ha).1, (dense_speaks hlimit h hb).1, hreference]
  sparse_scores := scoresAgree_iff.mpr fun a ha b hb hreference => by
    rw [(sparse_speaks hlimit h ha).1, (sparse_speaks hlimit h hb).1, hreference]
  dense_contents a ha b hb hreference := by
    rw [← (dense_speaks hlimit h ha).2, ← (dense_speaks hlimit h hb).2, hreference]
  sparse_contents a ha b hb hreference hnone := by
    rw [← (sparse_speaks hlimit h ha).2 hnone,
      ← (sparse_speaks hlimit h hb).2 (hreference ▸ hnone), hreference]
  dense_madeUp a ha hnegative := by
    have hsum := fusedAt_nonneg hlimit h (List.mem_append_left sparse ha)
    rw [← (dense_speaks hlimit h ha).1] at hsum
    have hdense := mul_neg_of_pos_of_neg denseWeight_pos hnegative
    have hpos : 0 < lastShare sparse a.sourceReference := by
      by_contra hnot
      have := mul_nonpos_of_nonneg_of_nonpos sparseWeight_pos.le (not_lt.mp hnot)
      linarith
    obtain ⟨b, hb, hreference⟩ := exists_of_lastShare_pos hpos
    refine ⟨b, hb, hreference, ?_⟩
    rw [(sparse_speaks hlimit h hb).1, hreference]
    exact hsum
  sparse_madeUp b hb hnegative := by
    have hsum := fusedAt_nonneg hlimit h (List.mem_append_right dense hb)
    rw [← (sparse_speaks hlimit h hb).1] at hsum
    have hsparse := mul_neg_of_pos_of_neg sparseWeight_pos hnegative
    have hpos : 0 < lastShare dense b.sourceReference := by
      by_contra hnot
      have := mul_nonpos_of_nonneg_of_nonpos denseWeight_pos.le (not_lt.mp hnot)
      linarith
    obtain ⟨a, ha, hreference⟩ := exists_of_lastShare_pos hpos
    refine ⟨a, ha, hreference, ?_⟩
    rw [(dense_speaks hlimit h ha).1, hreference]
    exact hsum

/-- **Two legs are fused faithfully exactly if they agree.** For legs that agree that is so
under every limit; and a limit that cuts nothing off shows every disagreement. -/
theorem fuses_faithfully_iff (dense sparse : List RetrievedChunk) :
    ((∀ limit, FusesFaithfully dense sparse limit) ↔ LegsAgree dense sparse) ∧
      ∀ limit : Int, ((distinctReferences dense sparse).length : Int) ≤ limit →
        (FusesFaithfully dense sparse limit ↔ LegsAgree dense sparse) :=
  ⟨⟨fun h => (h _).agree (le_refl _), fun h limit => h.fuses limit⟩,
    fun limit hlimit => ⟨fun h => h.agree hlimit, fun h => h.fuses limit⟩⟩

end Necessary

/-! ### One article in two pieces -/

namespace SampleFusion

/-- The search index returns the better passage first. -/
def twoPassages : List RetrievedChunk :=
  [⟨ofString "the fix", 9 / 10, "kb-1"⟩, ⟨ofString "the contents page", 1 / 10, "kb-1"⟩,
    ⟨ofString "another article", 8 / 10, "kb-2"⟩]

theorem passages_faithful_iff :
    FusesFaithfully twoPassages [] 2 ↔ LegsAgree twoPassages [] :=
  (fuses_faithfully_iff twoPassages []).2 2 (by decide +kernel)

/-- The fused article has the score and the text of the worse passage, and those of the
better one if the leg lists them the other way round. -/
theorem worse_passage_kept : ¬ FusesFaithfully twoPassages [] 8 := by
  intro h
  have hweighted := h.weighted ⟨ofString "the contents page", 1 / 15, "kb-1", true, false⟩
    (by decide +kernel)
  revert hweighted
  decide +kernel

end SampleFusion

end Synthia
