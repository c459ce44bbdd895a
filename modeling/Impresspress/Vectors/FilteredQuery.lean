import Mathlib.Data.List.Dedup
import Impresspress.Ranked.Cut
import Impresspress.Vectors.Agreement

/-!
# What a filtered query answers

The filter is applied to the vectors before the closest are cut off, and to the entries that a
keyword search finds only after that; of the two rankings that are fused it is applied to the first.
So a keyword query loses entries behind the cut when there are others before it, and a fusion takes
in whatever the keyword search finds. Each table holds one row for each entry.

## Main definitions

* `Vectors.topKBorrowed`: the first of the candidates by their scores.
* `Vectors.VectorRanking`, `Vectors.KeywordRanking`: the entries that satisfy the filter, ranked.
* `Vectors.Filtered`: the rows that a query should find.
* `Vectors.CutKeepsFilter`: the cut loses nothing, and takes in nothing else.

## Main results

* `Vectors.search_vector`, `Vectors.search_keyword`, `Vectors.search_hybrid`: what a query finds, by
  the entries of the index.
-/

namespace Vectors

variable {Json κ : Type} [LinearOrder κ]

/-- The candidates by descending score, in their order where two are equal, and the first `k` of
them. -/
def topKBorrowed (order : F32 → κ) (score : List F32 → List F32 → DistanceMetric → F32)
    (query : List F32) (candidates : List (String × List F32)) (k : ℕ) (metric : DistanceMetric) :
    List (String × F32) :=
  if k = 0 then []
  else
    let scored := candidates.map fun candidate => (candidate.1, score query candidate.2 metric)
    (scored.insertionSort fun a b => order b.2 ≤ order a.2).take k

/-- What is expected of a fusion of rankings. -/
structure Fuses (fuseScored : List (List String) → ℕ → List (String × F32)) : Prop where
  nodup : ∀ rankings k, ((fuseScored rankings k).map Prod.fst).Nodup
  length_le : ∀ rankings k, (fuseScored rankings k).length ≤ k
  ranked : ∀ rankings k, ∀ id ∈ (fuseScored rankings k).map Prod.fst,
    ∃ ranking ∈ rankings, id ∈ ranking
  /-- Nothing is left out where there is room for all. -/
  all : ∀ rankings k, rankings.flatten.length ≤ k →
    ∀ id ∈ rankings.flatten, id ∈ (fuseScored rankings k).map Prod.fst

/-! ## What should be found -/

section Specification

variable (host : Host Json) (order : F32 → κ) (score : List F32 → List F32 → DistanceMetric → F32)
  (kept : Kept Json) (db : VectorDb) (index : IndexName) (request : QueryRequest Json)

/-- The metadata of an entry as the tables hold it. -/
def storedMetadata (e : VectorEntry Json) : Option Json := host.parse (metadataJson host e)

/-- There is an entry of that id, and its metadata satisfies the filter. -/
def Kept.satisfies (filter : MetadataFilter Json) (id : String) : Bool :=
  (kept.entries id).any fun e => host.satisfies filter (storedMetadata host e)

/-- The entries that satisfy the filter, each with its score, the best first. -/
structure VectorRanking (ranking : List (String × F32)) : Prop where
  nodup : (ranking.map Prod.fst).Nodup
  mem : ∀ id s, (id, s) ∈ ranking ↔ kept.satisfies host request.filter id = true ∧
    ∃ e, kept.entries id = some e ∧ s = score request.vector e.vector kept.state.metric
  sorted : ranking.Pairwise fun a b => order b.2 ≤ order a.2

/-- Everything that the keyword query finds, the best first. -/
def keywordHits : Option (List String) := do
  let rows ← db.fts.lookup index
  let found ← host.search (request.keywordQuery.getD "") rows
  pure (found.map FtsRow.id)

/-- Those of them that satisfy the filter. -/
def KeywordRanking (ranking : List String) : Prop :=
  ∃ hits, keywordHits host db index request = some hits ∧
    ranking = hits.filter (kept.satisfies host request.filter)

/-- As many of each ranking are fused. -/
def QueryRequest.fetchN : ℕ := max 50 request.topK

/-- The rows found are the first of the ranking that the mode asks for. -/
def Ranks (found : List (VectorMatch Json)) : Prop :=
  match request.mode with
  | .vector => ∃ ranking, VectorRanking host order score kept request ranking ∧
    found.map (fun row => (row.id, row.score)) = ranking.take request.topK
  | .keyword => ∃ ranking, KeywordRanking host kept db index request ranking ∧
    found.map VectorMatch.id = ranking.take request.topK
  | .hybrid => ∃ vectors keywords, VectorRanking host order score kept request vectors ∧
    KeywordRanking host kept db index request keywords ∧
    found.map (fun row => (row.id, row.score)) =
      host.fuseScored [(vectors.take request.fetchN).map Prod.fst, keywords.take request.fetchN]
        request.topK

structure Filtered (found : List (VectorMatch Json)) : Prop where
  satisfied : ∀ row ∈ found, ∃ e, kept.entries row.id = some e ∧
    row.metadata = storedMetadata host e ∧ host.satisfies request.filter row.metadata = true
  distinct : (found.map VectorMatch.id).Nodup
  atMost : found.length ≤ request.topK
  ranks : Ranks host order score kept db index request found

/-- Of what a keyword query finds, the filter leaves out nothing before the cut, or everything
behind it; and nothing before the cut where it is fused. -/
def CutKeepsFilter : Prop :=
  ∀ hits, keywordHits host db index request = some hits →
    match request.mode with
    | .vector => True
    | .keyword => (∀ id ∈ hits.take request.topK, kept.satisfies host request.filter id = true) ∨
      ∀ id ∈ hits.drop request.topK, kept.satisfies host request.filter id = false
    | .hybrid => ∀ id ∈ hits.take request.fetchN, kept.satisfies host request.filter id = true

end Specification

/-! ## Rows and entries -/

variable {host : Host Json} {order : F32 → κ}
  {score : List F32 → List F32 → DistanceMetric → F32} {kept : Kept Json} {db : VectorDb}
  {index : IndexName} {request : QueryRequest Json} {id : String}

theorem satisfies_iff {filter : MetadataFilter Json} {e : VectorEntry Json}
    (he : kept.entries id = some e) :
    kept.satisfies host filter id = host.satisfies filter (storedMetadata host e) := by
  rw [Kept.satisfies, he, Option.any_some]

/-- A table's rows are those of the entries. -/
theorem RowsHold.mem_iff {Row : Type} {key : Row → String} {row : VectorEntry Json → Row}
    {rows : List Row} (h : RowsHold key row kept rows) (hkey : ∀ e, key (row e) = e.id)
    {stored : Row} : stored ∈ rows ↔ ∃ e, kept.entries e.id = some e ∧ row e = stored := by
  have hfilter := h (key stored)
  constructor
  · intro hmem
    have hown : stored ∈ rows.filter fun other => key other = key stored :=
      List.mem_filter.mpr ⟨hmem, decide_eq_true rfl⟩
    rw [hfilter] at hown
    obtain ⟨e, he, hrow⟩ := List.mem_map.mp hown
    rw [Option.mem_toList] at he
    exact ⟨e, by rw [kept.keyed _ _ he]; exact he, hrow⟩
  · rintro ⟨e, he, rfl⟩
    rw [hkey, he] at hfilter
    have hown : row e ∈ (some e).toList.map row := List.mem_map_of_mem (Option.mem_toList.mpr rfl)
    rw [← hfilter] at hown
    exact (List.mem_filter.mp hown).1

theorem lastOf_eq_some_iff {α : Type} {pairs : List (String × α)}
    (hnodup : (pairs.map Prod.fst).Nodup) {key : String} {value : α} :
    lastOf pairs key = some value ↔ (key, value) ∈ pairs := by
  unfold lastOf
  constructor
  · intro h
    obtain ⟨pair, hpair, rfl⟩ := Option.map_eq_some_iff.mp h
    have hkey : pair.1 = key := of_decide_eq_true
      (List.find?_some (p := fun pair : String × α => decide (pair.1 = key)) hpair)
    have hmem := List.mem_reverse.mp (List.mem_of_find?_eq_some hpair)
    rwa [← hkey]
  · intro hmem
    cases hfind : pairs.reverse.find? fun pair => pair.1 = key with
    | none =>
      exact absurd rfl (of_decide_eq_false (Bool.eq_false_iff.mpr
        (List.find?_eq_none.mp hfind _ (List.mem_reverse.mpr hmem))))
    | some pair =>
      have hkey : pair.1 = key := of_decide_eq_true
        (List.find?_some (p := fun pair : String × α => decide (pair.1 = key)) hfind)
      have hpair := List.mem_reverse.mp (List.mem_of_find?_eq_some hfind)
      rw [List.inj_on_of_nodup_map hnodup hpair hmem hkey]
      rfl

/-- A later pair counts before an earlier one. -/
theorem lastOf_append_of_forall_ne {α : Type} {pairs later : List (String × α)} {key : String}
    (h : ∀ pair ∈ later, pair.1 ≠ key) : lastOf (pairs ++ later) key = lastOf pairs key := by
  have hnone : later.reverse.find? (fun pair => pair.1 = key) = none :=
    List.find?_eq_none.mpr fun pair hpair =>
      Bool.eq_false_iff.mp (decide_eq_false (h pair (List.mem_reverse.mp hpair)))
  rw [lastOf, List.reverse_append, List.find?_append, hnone, Option.none_or]
  rfl

theorem mapM_eq_some_map {α β : Type} {f : α → Option β} {g : α → β} {l : List α}
    (h : ∀ a ∈ l, f a = some (g a)) : l.mapM f = some (l.map g) := by
  induction l with
  | nil => rfl
  | cons a l ih =>
    rw [List.mapM_cons, h a List.mem_cons_self, ih fun a ha => h a (List.mem_cons_of_mem _ ha)]
    rfl

/-- The candidate that a row of the right length is read as. -/
def candidateOf (host : Host Json) (row : VectorsRow) : Candidate Json :=
  ⟨row.id, unpack row.vector, host.parse row.metadata⟩

theorem candidateOf_vectorsRow (state : IndexState) (e : VectorEntry Json) :
    candidateOf host (vectorsRow host state e) = ⟨e.id, e.vector, storedMetadata host e⟩ := by
  rw [← unpack_packVectorBlob e.vector]
  rfl

/-- The candidates are the entries that satisfy the filter. -/
theorem loadAllVectors_eq (hat : AgreesAt host (some kept) db index)
    (hdims : ∀ id e, kept.entries id = some e → e.vector.length = kept.state.dimensions)
    (filter : MetadataFilter Json) :
    ∃ candidates, loadAllVectors host db index kept.state.dimensions filter = some candidates ∧
      (candidates.map Candidate.id).Nodup ∧
      ∀ candidate, candidate ∈ candidates ↔ ∃ e, kept.entries e.id = some e ∧
        kept.satisfies host filter e.id = true ∧
        candidate = ⟨e.id, e.vector, storedMetadata host e⟩ := by
  obtain ⟨rows, hrows, hholds⟩ := hat.present.1
  have hdecode : ∀ row ∈ rows, (do
      let vector ← parseVectorBlob row.vector kept.state.dimensions
      pure (⟨row.id, vector, host.parse row.metadata⟩ : Candidate Json)) =
      some (candidateOf host row) := by
    intro row hrow
    obtain ⟨e, he, rfl⟩ := (hholds.mem_iff fun _ => rfl).mp hrow
    have hlength : (vectorsRow host kept.state e).vector.length = 4 * kept.state.dimensions := by
      rw [← hdims _ e he]
      exact length_packVectorBlob e.vector
    rw [parseVectorBlob, if_pos hlength]
    rfl
  refine ⟨(rows.map (candidateOf host)).filter fun candidate =>
    host.satisfies filter candidate.metadata, ?_, ?_, fun candidate => ?_⟩
  · rw [loadAllVectors, hrows, Option.bind_eq_bind, Option.bind_some, mapM_eq_some_map hdecode]
    rfl
  · refine List.Nodup.sublist (List.filter_sublist.map _) ?_
    rw [List.map_map]
    exact hholds.nodup
  · simp only [List.mem_filter, List.mem_map, hholds.mem_iff fun _ => rfl]
    constructor
    · rintro ⟨⟨row, ⟨e, he, rfl⟩, rfl⟩, hsat⟩
      rw [candidateOf_vectorsRow] at hsat ⊢
      exact ⟨e, he, (satisfies_iff he).trans hsat, rfl⟩
    · rintro ⟨e, he, hsat, rfl⟩
      exact ⟨⟨_, ⟨e, he, rfl⟩, candidateOf_vectorsRow _ e⟩, (satisfies_iff he).symm.trans hsat⟩

/-- The closest are the first of the ranking. -/
theorem closest_eq (htopK : host.topK = topKBorrowed order score)
    (hat : AgreesAt host (some kept) db index)
    (hdims : ∀ id e, kept.entries id = some e → e.vector.length = kept.state.dimensions)
    (request : QueryRequest Json) :
    ∃ candidates ranking,
      loadAllVectors host db index kept.state.dimensions request.filter = some candidates ∧
      (∀ n, closest host kept.state request candidates n = ranking.take n) ∧
      VectorRanking host order score kept request ranking ∧
      ((candidates.map fun candidate => (candidate.id, candidate.metadata)).map Prod.fst).Nodup ∧
      ∀ id e, kept.entries id = some e → kept.satisfies host request.filter id = true →
        (id, storedMetadata host e) ∈
          candidates.map fun candidate => (candidate.id, candidate.metadata) := by
  obtain ⟨candidates, hload, hnodup, hmem⟩ := loadAllVectors_eq hat hdims request.filter
  let scored := candidates.map fun candidate =>
    (candidate.id, score request.vector candidate.vector kept.state.metric)
  refine ⟨candidates, scored.insertionSort fun a b => order b.2 ≤ order a.2, hload, fun n => ?_,
    ⟨?_, fun id s => ?_, ?_⟩, ?_, fun id e he hsat => ?_⟩
  · rw [closest, htopK, topKBorrowed, List.map_map]
    split_ifs with hzero
    · rw [hzero, List.take_zero]
    · rfl
  · rw [((List.perm_insertionSort _ scored).map Prod.fst).nodup_iff, List.map_map]
    exact hnodup
  · rw [(List.perm_insertionSort _ scored).mem_iff]
    constructor
    · intro h
      obtain ⟨candidate, hcandidate, heq⟩ := List.mem_map.mp h
      obtain ⟨e, he, hsat, rfl⟩ := (hmem _).mp hcandidate
      obtain ⟨rfl, rfl⟩ := Prod.mk.inj heq
      exact ⟨hsat, e, he, rfl⟩
    · rintro ⟨hsat, e, he, rfl⟩
      obtain rfl := kept.keyed id e he
      exact List.mem_map.mpr ⟨_, (hmem _).mpr ⟨e, he, hsat, rfl⟩, rfl⟩
  · have : Std.Total fun a b : String × F32 => order b.2 ≤ order a.2 :=
      ⟨fun a b => le_total (order b.2) (order a.2)⟩
    have : IsTrans (String × F32) fun a b => order b.2 ≤ order a.2 :=
      ⟨fun a b c hab hbc => hbc.trans hab⟩
    exact List.pairwise_insertionSort _ scored
  · rw [List.map_map]
    exact hnodup
  · obtain rfl := kept.keyed id e he
    exact List.mem_map.mpr ⟨_, (hmem _).mpr ⟨e, he, hsat, rfl⟩, rfl⟩

/-- Whatever a keyword query finds has an entry. -/
theorem keywordHits_entries (hat : AgreesAt host (some kept) db index)
    (hkeyword : kept.state.keywordSearch = true) {hits : List String}
    (hhits : keywordHits host db index request = some hits) :
    hits.Nodup ∧ (∀ id ∈ hits, ∃ e, kept.entries id = some e) ∧
      ∀ n, ftsSearch host db index (request.keywordQuery.getD "") n = some (hits.take n) := by
  obtain ⟨rows, hrows, hholds⟩ := hat.present.2.1 hkeyword
  rw [keywordHits, hrows, Option.bind_eq_bind, Option.bind_some] at hhits
  obtain ⟨found, hfound, heq⟩ := Option.bind_eq_some_iff.mp hhits
  cases heq
  have hperm := host.search_perm _ rows found hfound
  refine ⟨?_, fun id hid => ?_, fun n => ?_⟩
  · exact (hperm.map FtsRow.id).nodup_iff.mpr (hholds.nodup.sublist (List.filter_sublist.map _))
  · obtain ⟨row, hrow, rfl⟩ := List.mem_map.mp hid
    obtain ⟨e, he, rfl⟩ := (hholds.mem_iff fun _ => rfl).mp
      (List.mem_of_mem_filter (hperm.mem_iff.mp hrow))
    exact ⟨e, he⟩
  · rw [ftsSearch, hrows, Option.bind_eq_bind, Option.bind_some, hfound]
    exact congrArg some List.map_take

theorem loadMetadataForIds_eq (hat : AgreesAt host (some kept) db index) (ids : List String) :
    ∃ metadata, loadMetadataForIds host db index ids = some metadata ∧
      (∀ pair ∈ metadata, pair.1 ∈ ids) ∧ ∀ id ∈ ids, ∀ e, kept.entries id = some e →
        lastOf metadata id = some (storedMetadata host e) := by
  unfold loadMetadataForIds
  split_ifs with hempty
  · exact ⟨[], rfl, List.forall_mem_nil _,
      fun id hid => absurd (List.isEmpty_iff.mp hempty ▸ hid) List.not_mem_nil⟩
  · obtain ⟨rows, hrows, hholds⟩ := hat.present.2.2
    rw [hrows]
    refine ⟨_, rfl, fun pair hpair => ?_, fun id hid e he => (lastOf_eq_some_iff ?_).mpr ?_⟩
    · obtain ⟨row, hrow, rfl⟩ := List.mem_map.mp hpair
      exact of_decide_eq_true (List.mem_filter.mp hrow).2
    · rw [List.map_map]
      exact hholds.nodup.sublist (List.filter_sublist.map MetaRow.id)
    · obtain rfl := kept.keyed id e he
      exact List.mem_map.mpr ⟨metaRow host kept.state e, List.mem_filter.mpr
        ⟨(hholds.mem_iff fun _ => rfl).mpr ⟨e, he, rfl⟩, decide_eq_true hid⟩, rfl⟩

/-! ## What a query finds -/

theorem search_vector (htopK : host.topK = topKBorrowed order score)
    (hat : AgreesAt host (some kept) db index)
    (hdims : ∀ id e, kept.entries id = some e → e.vector.length = kept.state.dimensions)
    (hmode : request.mode = .vector) :
    ∃ found, search host db index kept.state request = some found ∧
      Filtered host order score kept db index request found := by
  obtain ⟨candidates, ranking, hload, hclosest, hranking, hnodup, hknown⟩ :=
    closest_eq htopK hat hdims request
  rw [search, hmode]
  dsimp only
  rw [hload, Option.bind_eq_bind, Option.bind_some, hclosest]
  have hids : (attachMetadata candidates (ranking.take request.topK)).map
      (fun row => (row.id, row.score)) = ranking.take request.topK := by
    rw [attachMetadata, List.map_map]
    exact List.map_id _
  refine ⟨_, rfl, fun row hrow => ?_, ?_, ?_, ?_⟩
  · obtain ⟨⟨id, s⟩, hranked, rfl⟩ := List.mem_map.mp hrow
    obtain ⟨hsat, e, he, -⟩ := (hranking.mem id s).mp (List.mem_of_mem_take hranked)
    have hlast := (lastOf_eq_some_iff hnodup).mpr (hknown id e he hsat)
    refine ⟨e, he, ?_, ?_⟩ <;> dsimp only <;> rw [hlast, Option.join_some]
    rw [← satisfies_iff he]
    exact hsat
  · have hsplit : (VectorMatch.id : VectorMatch Json → String) =
        Prod.fst ∘ fun row => (row.id, row.score) := rfl
    rw [hsplit, ← List.map_map, hids]
    exact hranking.nodup.sublist ((List.take_sublist _ _).map Prod.fst)
  · rw [← List.length_map (f := fun row : VectorMatch Json => (row.id, row.score)), hids]
    exact List.length_take_le _ _
  · rw [Ranks, hmode]
    exact ⟨ranking, hranking, hids⟩

/-- The ids that are left of a ranking, and their rows. -/
theorem filterMap_zipIdx {α β : Type} (keep : α → Bool) (row : α → ℕ → β) (l : List α) (n : ℕ) :
    ((l.zipIdx n).filterMap fun ranked =>
      if keep ranked.1 then some (ranked.1, row ranked.1 ranked.2) else none).map Prod.fst =
      l.filter keep := by
  induction l generalizing n with
  | nil => rfl
  | cons a l ih =>
    rw [List.zipIdx_cons, List.filterMap_cons, List.filter_cons]
    cases keep a
    · exact ih (n + 1)
    · exact congrArg (a :: ·) (ih (n + 1))

theorem search_keyword (hat : AgreesAt host (some kept) db index)
    (hkeyword : kept.state.keywordSearch = true) (hmode : request.mode = .keyword)
    {hits : List String} (hhits : keywordHits host db index request = some hits) :
    ∃ found, search host db index kept.state request = some found ∧
      found.map VectorMatch.id =
        (hits.take request.topK).filter (kept.satisfies host request.filter) ∧
      ∀ row ∈ found, ∃ e, kept.entries row.id = some e ∧
        row.metadata = storedMetadata host e ∧
        host.satisfies request.filter row.metadata = true := by
  obtain ⟨-, hentries, hfts⟩ := keywordHits_entries hat hkeyword hhits
  obtain ⟨metadata, hload, -, hlast⟩ := loadMetadataForIds_eq hat (hits.take request.topK)
  simp only [search, hmode, hfts, hload, Option.bind_eq_bind, Option.bind_some, Option.pure_def]
  have hsat : ∀ id ∈ hits.take request.topK,
      host.satisfies request.filter (lastOf metadata id).join =
        kept.satisfies host request.filter id := by
    intro id hid
    obtain ⟨e, he⟩ := hentries id (List.mem_of_mem_take hid)
    rw [hlast id hid e he, Option.join_some, satisfies_iff he]
  refine ⟨_, rfl, ?_, fun row hrow => ?_⟩
  · rw [← List.filter_congr hsat, ← filterMap_zipIdx _
      (fun id rank => (⟨id, host.keywordScore rank, (lastOf metadata id).join⟩ : VectorMatch Json))
      _ 0, List.map_filterMap, List.map_filterMap]
    refine List.filterMap_congr fun ranked _ => ?_
    split_ifs <;> rfl
  · obtain ⟨⟨id, rank⟩, hranked, hrow⟩ := List.mem_filterMap.mp hrow
    have hid : id ∈ hits.take request.topK := List.fst_mem_of_mem_zipIdx hranked
    split_ifs at hrow with hkept
    cases hrow
    obtain ⟨e, he⟩ := hentries id (List.mem_of_mem_take hid)
    exact ⟨e, he, by rw [hlast id hid e he, Option.join_some], hkept⟩

theorem search_hybrid (htopK : host.topK = topKBorrowed order score)
    (hat : AgreesAt host (some kept) db index)
    (hdims : ∀ id e, kept.entries id = some e → e.vector.length = kept.state.dimensions)
    (hkeyword : kept.state.keywordSearch = true) (hmode : request.mode = .hybrid)
    {hits : List String} (hhits : keywordHits host db index request = some hits) :
    ∃ found ranking, search host db index kept.state request = some found ∧
      VectorRanking host order score kept request ranking ∧
      found.map (fun row => (row.id, row.score)) = host.fuseScored
        [(ranking.take request.fetchN).map Prod.fst, hits.take request.fetchN] request.topK ∧
      ∀ row ∈ found, ∀ e, kept.entries row.id = some e →
        kept.satisfies host request.filter row.id = true →
        row.metadata = storedMetadata host e := by
  obtain ⟨-, -, hfts⟩ := keywordHits_entries hat hkeyword hhits
  obtain ⟨candidates, ranking, hload, hclosest, hranking, hnodup, hknown⟩ :=
    closest_eq htopK hat hdims request
  obtain ⟨metadata, hmetadata, hothers, -⟩ := loadMetadataForIds_eq hat
    ((hits.take request.fetchN).filter fun id => (lastOf (candidates.map fun candidate =>
      (candidate.id, candidate.metadata)) id).isNone)
  simp only [QueryRequest.fetchN] at hmetadata hothers ⊢
  simp only [search, hmode, hload, hfts, hclosest, hmetadata, Option.bind_eq_bind, Option.bind_some,
    Option.pure_def]
  refine ⟨_, ranking, rfl, hranking, ?_, fun row hrow e he hsat => ?_⟩
  · rw [List.map_map]
    exact List.map_id _
  · obtain ⟨ranked, -, rfl⟩ := List.mem_map.mp hrow
    have hlast := (lastOf_eq_some_iff hnodup).mpr (hknown _ e he hsat)
    have hlater : ∀ pair ∈ metadata, pair.1 ≠ ranked.1 := fun pair hpair heq => by
      have hnone := (List.mem_filter.mp (hothers pair hpair)).2
      rw [heq, hlast] at hnone
      cases hnone
    dsimp only
    rw [lastOf_append_of_forall_ne hlater, hlast, Option.join_some]

/-! ## The answer -/

/-- The query is answered, as the filter and the mode ask for. -/
def AnswersFilter (host : Host Json) (order : F32 → κ)
    (score : List F32 → List F32 → DistanceMetric → F32) (kept : Kept Json) (index : IndexName)
    (request : QueryRequest Json) (s : BrowserVectorService) : Prop :=
  ∃ found, (query host index.text request s).1 = .ok found ∧
    Filtered host order score kept s.db index request found

variable {s : BrowserVectorService}

theorem query_eq (hat : AgreesAt host (some kept) s.db index) (hmemory : Remembers s)
    (hvalid : queryError kept.state request = none) :
    (query host index.text request s).1 =
      match search host s.db index kept.state request with
      | some found => .ok found
      | none => .error .internal := by
  obtain ⟨hfound, hdb, -⟩ := lookup_spec hmemory index
  rw [hat.registry, Option.map_some] at hfound
  have hparse : IndexName.parse index.text = some index := dif_pos index.plain
  unfold query withIndex
  rw [hparse]
  dsimp only
  generalize BrowserVectorService.lookup index s = known at hfound hdb
  obtain ⟨state, s'⟩ := known
  cases hfound
  have hdb : s'.db = s.db := hdb
  dsimp only
  rw [hvalid, hdb]
  dsimp only
  cases search host s.db index kept.state request <;> rfl

/-- A query in one of the other modes is of an index with keyword search. -/
theorem keywordSearch_of_valid (hvalid : queryError kept.state request = none)
    (hmode : request.mode ≠ .vector) : kept.state.keywordSearch = true := by
  unfold queryError at hvalid
  split_ifs at hvalid with hkeyword
  exact Bool.not_eq_false _ |>.mp fun hfalse => hkeyword ⟨hmode, hfalse⟩

theorem answersFilter_iff (hat : AgreesAt host (some kept) s.db index) (hmemory : Remembers s)
    (hvalid : queryError kept.state request = none) {found : List (VectorMatch Json)}
    (hsearch : search host s.db index kept.state request = some found) :
    AnswersFilter host order score kept index request s ↔
      Filtered host order score kept s.db index request found := by
  rw [AnswersFilter, query_eq hat hmemory hvalid, hsearch]
  exact ⟨fun ⟨_, heq, h⟩ => Except.ok.inj heq ▸ h, fun h => ⟨found, rfl, h⟩⟩

/-- A keyword query finds what it should exactly when the cut loses nothing. -/
theorem filtered_keyword_iff (hat : AgreesAt host (some kept) db index)
    (hkeyword : kept.state.keywordSearch = true) (hmode : request.mode = .keyword)
    {hits : List String} (hhits : keywordHits host db index request = some hits)
    {found : List (VectorMatch Json)}
    (hids : found.map VectorMatch.id =
      (hits.take request.topK).filter (kept.satisfies host request.filter))
    (hsatisfied : ∀ row ∈ found, ∃ e, kept.entries row.id = some e ∧
      row.metadata = storedMetadata host e ∧ host.satisfies request.filter row.metadata = true) :
    Filtered host order score kept db index request found ↔
      CutKeepsFilter host kept db index request := by
  have hcut : CutKeepsFilter host kept db index request ↔ (hits.take request.topK).filter
      (kept.satisfies host request.filter) =
        (hits.filter (kept.satisfies host request.filter)).take request.topK := by
    rw [Ranked.filter_take_eq_iff, CutKeepsFilter, hhits]
    simp [hmode]
  rw [hcut]
  constructor
  · intro h
    have hranks := h.ranks
    rw [Ranks, hmode] at hranks
    obtain ⟨ranking, ⟨hits', hhits', rfl⟩, heq⟩ := hranks
    cases hhits.symm.trans hhits'
    rw [← hids, heq]
  · intro heq
    have hnodup := (keywordHits_entries hat hkeyword hhits).1
    refine ⟨hsatisfied, ?_, ?_, ?_⟩
    · rw [hids]
      exact (hnodup.sublist (List.take_sublist _ _)).filter _
    · rw [← List.length_map (f := VectorMatch.id), hids]
      exact (List.length_filter_le _ _).trans (List.length_take_le _ _)
    · rw [Ranks, hmode]
      exact ⟨_, ⟨hits, hhits, rfl⟩, hids.trans heq⟩

/-- A query of both kinds finds what it should when nothing else is fused. -/
theorem filtered_hybrid (hfuses : Fuses host.fuseScored) (hmode : request.mode = .hybrid)
    {hits : List String} (hhits : keywordHits host db index request = some hits)
    {ranking : List (String × F32)} (hranking : VectorRanking host order score kept request ranking)
    {found : List (VectorMatch Json)}
    (hrows : found.map (fun row => (row.id, row.score)) = host.fuseScored
      [(ranking.take request.fetchN).map Prod.fst, hits.take request.fetchN] request.topK)
    (hmetadata : ∀ row ∈ found, ∀ e, kept.entries row.id = some e →
      kept.satisfies host request.filter row.id = true → row.metadata = storedMetadata host e)
    (hcut : CutKeepsFilter host kept db index request) :
    Filtered host order score kept db index request found := by
  have hkept : ∀ id ∈ hits.take request.fetchN, kept.satisfies host request.filter id = true := by
    have := hcut hits hhits
    rwa [hmode] at this
  have hids : found.map VectorMatch.id = (host.fuseScored
      [(ranking.take request.fetchN).map Prod.fst, hits.take request.fetchN] request.topK).map
        Prod.fst := by
    rw [← hrows, List.map_map]
    rfl
  refine ⟨fun row hrow => ?_, ?_, ?_, ?_⟩
  · have hid : row.id ∈ found.map VectorMatch.id := List.mem_map_of_mem hrow
    rw [hids] at hid
    have hsat : kept.satisfies host request.filter row.id = true := by
      obtain ⟨ids, hmem, hid⟩ := hfuses.ranked _ _ _ hid
      rw [List.mem_pair] at hmem
      rcases hmem with rfl | rfl
      · obtain ⟨⟨id, score⟩, hranked, hid⟩ := List.mem_map.mp hid
        exact hid ▸ ((hranking.mem id score).mp (List.mem_of_mem_take hranked)).1
      · exact hkept _ hid
    obtain ⟨e, he, hsatisfies⟩ := (Option.any_eq_true _ _).mp hsat
    have hrow := hmetadata row hrow e he hsat
    exact ⟨e, he, hrow, hrow ▸ hsatisfies⟩
  · rw [hids]
    exact hfuses.nodup _ _
  · rw [← List.length_map (f := fun row : VectorMatch Json => (row.id, row.score)), hrows]
    exact hfuses.length_le _ _
  · have hfirst : hits.take request.fetchN =
        (hits.filter (kept.satisfies host request.filter)).take request.fetchN := by
      rw [← Ranked.filter_take_eq_iff.mpr (.inl hkept), List.filter_eq_self.mpr hkept]
    rw [Ranks, hmode]
    exact ⟨ranking, _, hranking, ⟨hits, hhits, rfl⟩, by rw [hrows, hfirst]⟩

/-- Where nothing is cut from the fusion, whatever is fused is found. -/
theorem kept_of_filtered_hybrid (hfuses : Fuses host.fuseScored) {hits : List String}
    {ranking : List (String × F32)} (hroom : ranking.length + hits.length ≤ request.topK)
    {found : List (VectorMatch Json)}
    (hrows : found.map (fun row => (row.id, row.score)) = host.fuseScored
      [(ranking.take request.fetchN).map Prod.fst, hits.take request.fetchN] request.topK)
    (h : Filtered host order score kept db index request found) :
    ∀ id ∈ hits.take request.fetchN, kept.satisfies host request.filter id = true := by
  intro id hid
  have hfits : [(ranking.take request.fetchN).map Prod.fst,
      hits.take request.fetchN].flatten.length ≤ request.topK := by
    simp only [List.flatten_cons, List.flatten_nil, List.append_nil, List.length_append,
      List.length_map, List.length_take]
    omega
  have hmem := hfuses.all _ _ hfits id (by simp [hid])
  rw [← hrows, List.map_map] at hmem
  obtain ⟨row, hrow, rfl⟩ := List.mem_map.mp hmem
  obtain ⟨e, he, hmetadata, hsatisfies⟩ := h.satisfied row hrow
  exact (satisfies_iff he).trans (hmetadata ▸ hsatisfies)

/-- The number 1.0 -/
def one : F32 := 0x3F800000

/-- The product of numbers that are 0 or 1. -/
def bitProduct (a b : List F32) (_ : DistanceMetric) : F32 :=
  if a = [one] ∧ b = [one] then one else 0

theorem perm_of_search (query : String) (rows rows' : List FtsRow)
    (h : some (rows.filter fun row => query = row.text) = some rows') :
    rows'.Perm (rows.filter fun row => query = row.text) := by
  cases h
  exact List.Perm.refl _

/-- A host whose metadata are a language, and whose queries find the texts equal to them. -/
def noteHost : Host String where
  print := fun language => "\x7b\"lang\":\"" ++ language ++ "\"\x7d"
  parse := fun text => ["en", "de"].find? fun language =>
    "\x7b\"lang\":\"" ++ language ++ "\"\x7d" = text
  isStringOrNumber := fun _ => true
  satisfies := fun filter metadata => filter.conditions.all fun condition =>
    condition.1 = "lang" && metadata = some condition.2
  finds := fun query text => query = text
  search := fun query rows => some (rows.filter fun row => query = row.text)
  search_perm := perm_of_search
  topK := topKBorrowed UInt32.toNat bitProduct
  fuseScored := fun rankings k => (rankings.flatten.dedup.take k).map fun id => (id, 0)
  keywordScore := fun rank => if rank = 0 then one else 0x3F000000

theorem noteHost_fuses : Fuses noteHost.fuseScored := by
  have hids : ∀ rankings k, (noteHost.fuseScored rankings k).map Prod.fst =
      rankings.flatten.dedup.take k := by
    intro rankings k
    change ((rankings.flatten.dedup.take k).map fun id => (id, (0 : F32))).map Prod.fst = _
    rw [List.map_map]
    exact List.map_id _
  refine ⟨fun rankings k => ?_, fun rankings k => ?_, fun rankings k id hid => ?_,
    fun rankings k hroom id hid => ?_⟩
  · rw [hids]
    exact (List.nodup_dedup _).sublist (List.take_sublist _ _)
  · rw [← List.length_map (f := Prod.fst), hids]
    exact List.length_take_le _ _
  · rw [hids] at hid
    exact List.mem_flatten.mp (List.mem_dedup.mp (List.mem_of_mem_take hid))
  · rw [hids, List.take_of_length_le ((List.dedup_sublist _).length_le.trans hroom)]
    exact List.mem_dedup.mpr hid

/-- The index of the notes. -/
def notes : IndexName := ⟨"docs", by decide⟩

def noteEntries : List (VectorEntry String) :=
  [⟨"a", [one], some "en", some "note"⟩, ⟨"b", [one], some "de", some "note"⟩]

def noteState : IndexState := ⟨1, .dotProduct, true⟩

def notesKept : Kept String := noteEntries.foldl Kept.put (.empty noteState)

def noteOps : List (VectorOp String) :=
  [.createIndex ⟨"docs", 1, .dotProduct, true⟩, .upsert "docs" noteEntries]

/-- A keyword query for the first of the notes in a language. -/
def noteRequest (language : String) : QueryRequest String :=
  ⟨[], 1, ⟨[("lang", language)]⟩, .keyword, some "note"⟩

theorem notes_agree : AgreesAt noteHost (some notesKept) (serveAll noteHost noteOps).db notes ∧
    Remembers (serveAll noteHost noteOps) := by
  have hnew : Remembers BrowserVectorService.new := nofun
  obtain ⟨hcreated, hremembers⟩ := serve_agrees (agrees_new noteHost) hnew
    (.createIndex ⟨"docs", 1, .dotProduct, true⟩)
  obtain ⟨hupserted, hremembers⟩ := serve_agrees (hcreated.mpr trivial) hremembers
    (.upsert "docs" noteEntries)
  have hfresh : Fresh (Stored.after (fun _ => none) (.createIndex ⟨"docs", 1, .dotProduct, true⟩))
      (.upsert "docs" noteEntries) := by
    intro index kept hindex hkept _ _
    cases hindex
    cases hkept
    exact ⟨by decide, fun e _ => rfl⟩
  exact ⟨hupserted.mpr hfresh notes, hremembers⟩

theorem notes_dims (id : String) (e : VectorEntry String) (he : notesKept.entries id = some e) :
    e.vector.length = notesKept.state.dimensions := by
  change (if id = "b" then some _ else if id = "a" then some _ else none) = some e at he
  split_ifs at he <;> cases he <;> rfl

end Vectors
