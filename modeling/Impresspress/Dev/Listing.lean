import Impresspress.Dev.WithinLimits

/-!
# Listing a folder

A collection walks a folder page by page. A backend that answers a token is paged by its tokens, and
one that does not is paged by offset; a full page without a token is taken for the second kind. A
last page that happens to be full is one, and then the walk starts over at the offset of one page.

Source: `gc.rs` (`list_all`, `collect_blobs`).

## Main definitions

* `Dev.listAll`: the walk.
* `Dev.Backend`: the backends, paging by token or by offset.
* `Dev.EndsOnFullPage`: the last page is full, and not the only one with objects.
* `Dev.Counted`: the counters of the workspace are what the store holds.

## Main results

* `Dev.listFrom_chain`, `Dev.listFrom_offset`: what the walk finds.
* `Dev.collected_counts`: what a collection counts.
-/

namespace Dev

open Concurrent Concurrent.Fallible Workspace

/-! ## The walk -/

/-- What a storage listing says of an object. -/
structure ObjectInfo where
  key : Sha
  size : ℤ
  deriving DecidableEq

/-- The size as a count of bytes: a negative one is none. -/
def sizeOf (object : ObjectInfo) : ℕ := object.size.toNat

/-- The object as a candidate of a collection. -/
def ObjectInfo.entry (object : ObjectInfo) : Sha × ℕ := (object.key, sizeOf object)

structure ListOptions where
  limit : ℕ
  offset : ℕ
  cursor : Option String

structure ObjectList where
  objects : List ObjectInfo
  nextCursor : Option String

/-- How the storage answers a listing of a folder that does not change. -/
abbrev Lister := ListOptions → Except ErrorCode ObjectList

/-- `PAGE`: how many objects one listing asks for. -/
def pageSize : ℕ := 500

/-- The loop of `list_all`, `turns` rounds at most. -/
def listFrom (list : Lister) : ℕ → Option String → ℕ → List ObjectInfo →
    Option (Except ErrorCode (List ObjectInfo))
  | 0, _, _, _ => none
  | turns + 1, cursor, offset, objects =>
    match list ⟨pageSize, offset, cursor⟩ with
    | .error .notFound => some (.ok objects)
    | .error e => some (.error e)
    | .ok page =>
      match page.nextCursor with
      | some next => listFrom list turns (some next) offset (objects ++ page.objects)
      | none =>
        -- a full page without a token: from here on by offset
        if page.objects.length = pageSize then
          listFrom list turns none (offset + page.objects.length) (objects ++ page.objects)
        else some (.ok (objects ++ page.objects))

/-- Every object in the folder, walked until the listing is exhausted. -/
def listAll (list : Lister) (turns : ℕ) : Option (Except ErrorCode (List ObjectInfo)) :=
  listFrom list turns (some "") 0 []

/-- The walk ends, and has found these objects. -/
def Lists (list : Lister) (found : List ObjectInfo) : Prop :=
  ∃ turns, listAll list turns = some (.ok found)

/-! ## Backends -/

/-- The pages that are handed out from a token on. The last one comes without a token. -/
inductive Chain (list : Lister) : String → List (List ObjectInfo) → Prop
  | last {token page} (h : ∀ offset, list ⟨pageSize, offset, some token⟩ = .ok ⟨page, none⟩)
    (hlimit : page.length ≤ pageSize) : Chain list token [page]
  | next {token next page pages}
    (h : ∀ offset, list ⟨pageSize, offset, some token⟩ = .ok ⟨page, some next⟩)
    (hlimit : page.length ≤ pageSize) (hpages : Chain list next pages) :
    Chain list token (page :: pages)

/-- A backend that pages by token. Where no token is sent it honours the offset. -/
structure PagesByCursor (list : Lister) (pages : List (List ObjectInfo)) : Prop where
  chain : Chain list "" pages
  offset : ∀ offset, ∃ next,
    list ⟨pageSize, offset, none⟩ = .ok ⟨(pages.flatten.drop offset).take pageSize, next⟩ ∧
      (pages.flatten.length ≤ offset + pageSize → next = none)

/-- A backend that pages by offset only, and answers no token. -/
def PagesByOffset (list : Lister) (objects : List ObjectInfo) : Prop :=
  ∀ offset cursor,
    list ⟨pageSize, offset, cursor⟩ = .ok ⟨(objects.drop offset).take pageSize, none⟩

/-- The backends, and the objects of the folder in the order in which they are listed. A folder that
nothing was written to may be unknown. -/
inductive Backend (list : Lister) : List ObjectInfo → Prop
  | cursor {pages} (h : PagesByCursor list pages) : Backend list pages.flatten
  | offset {objects} (h : PagesByOffset list objects) : Backend list objects
  | unknown (h : ∀ options, list options = .error .notFound) : Backend list []

/-- The tokens end on a full page, and the folder holds more than that page. -/
def EndsOnFullPage (list : Lister) (objects : List ObjectInfo) : Prop :=
  ∃ pages, PagesByCursor list pages ∧ pages.flatten = objects ∧
    (∃ page ∈ pages.getLast?, page.length = pageSize) ∧ pageSize < objects.length

/-! ## What the walk finds -/

section Walk

attribute [local simp] listFrom

variable {list : Lister}

/-- Nothing that was found is lost. -/
theorem listFrom_extends {turns : ℕ} {cursor : Option String} {offset : ℕ}
    {objects found : List ObjectInfo}
    (h : listFrom list turns cursor offset objects = some (.ok found)) : objects <+: found := by
  induction turns generalizing cursor offset objects with
  | zero => cases h
  | succ turns ih =>
    rw [listFrom] at h
    split at h
    · cases h
      exact List.prefix_refl _
    · cases h
    · split at h
      · exact (List.prefix_append _ _).trans (ih h)
      · split at h
        · exact (List.prefix_append _ _).trans (ih h)
        · cases h
          exact List.prefix_append _ _

/-- More rounds than it takes change nothing. -/
theorem listFrom_add {turns : ℕ} {cursor : Option String} {offset : ℕ}
    {objects : List ObjectInfo} {result : Except ErrorCode (List ObjectInfo)} (more : ℕ)
    (h : listFrom list turns cursor offset objects = some result) :
    listFrom list (turns + more) cursor offset objects = some result := by
  induction turns generalizing cursor offset objects with
  | zero => cases h
  | succ turns ih =>
    rw [Nat.add_right_comm, listFrom]
    rw [listFrom] at h
    split at h
    · exact h
    · exact h
    · split at h
      · exact ih h
      · split at h
        · rename_i hfull
          rw [if_pos hfull]
          exact ih h
        · rename_i hfull
          rw [if_neg hfull]
          exact h

theorem Lists.unique {found found' : List ObjectInfo} (h : Lists list found)
    (h' : Lists list found') : found = found' := by
  obtain ⟨turns, h⟩ := h
  obtain ⟨turns', h'⟩ := h'
  have hlong := listFrom_add turns' h
  have hlong' := listFrom_add turns h'
  rw [Nat.add_comm turns' turns] at hlong'
  rw [hlong] at hlong'
  cases hlong'
  rfl

/-- The walk along the tokens, and how it goes on after the last page. -/
theorem listFrom_chain {token : String} {pages : List (List ObjectInfo)}
    (h : Chain list token pages) (objects : List ObjectInfo) :
    ∃ page ∈ pages.getLast?, page.length ≤ pages.flatten.length ∧
      ∃ rounds, ∀ turns, listFrom list (turns + rounds) (some token) 0 objects =
        if page.length = pageSize then listFrom list turns none pageSize (objects ++ pages.flatten)
        else some (.ok (objects ++ pages.flatten)) := by
  induction h generalizing objects with
  | @last token page h _ =>
    refine ⟨page, rfl, by simp, 1, fun turns => ?_⟩
    rw [listFrom, h 0]
    dsimp only
    rw [List.flatten_singleton, Nat.zero_add]
    split
    · rename_i hfull
      rw [hfull]
    · rfl
  | @next token next page pages h _ hpages ih =>
    obtain ⟨page', hlast, hle, rounds, hrounds⟩ := ih (objects ++ page)
    refine ⟨page', ?_, ?_, rounds + 1, fun turns => ?_⟩
    · cases hpages <;> exact hlast
    · rw [List.flatten_cons, List.length_append]
      omega
    · rw [← Nat.add_assoc, listFrom, h 0]
      dsimp only
      rw [hrounds turns, List.flatten_cons, List.append_assoc]

/-- The walk by offset finds what is left. -/
theorem listFrom_offset {objects : List ObjectInfo} (h : PagesByOffset list objects)
    (cursor : Option String) (offset : ℕ) (found : List ObjectInfo) :
    ∃ turns, listFrom list turns cursor offset found = some (.ok (found ++ objects.drop offset)) := by
  induction hleft : objects.length - offset using Nat.strong_induction_on
    generalizing cursor offset found with
  | _ left ih =>
    by_cases hfull : ((objects.drop offset).take pageSize).length = pageSize
    · have hlong : pageSize ≤ objects.length - offset := by
        rw [List.length_take, List.length_drop] at hfull
        omega
      have hpos : 0 < pageSize := by decide
      obtain ⟨turns, hturns⟩ := ih (objects.length - (offset + pageSize)) (by omega) none
        (offset + pageSize) (found ++ (objects.drop offset).take pageSize) rfl
      refine ⟨turns + 1, ?_⟩
      rw [listFrom, h offset cursor]
      dsimp only
      rw [if_pos hfull, hfull, hturns, List.append_assoc, ← List.drop_drop, List.take_append_drop]
    · refine ⟨1, ?_⟩
      rw [listFrom, h offset cursor]
      dsimp only
      have hshort : (objects.drop offset).length ≤ pageSize := by
        rw [List.length_take] at hfull
        omega
      rw [if_neg hfull, List.take_of_length_le hshort]

/-- Once more without a token, after a full last page that was not the only one. -/
theorem PagesByCursor.listFrom_none {pages : List (List ObjectInfo)} (h : PagesByCursor list pages)
    {turns : ℕ} {found objects : List ObjectInfo} (hlong : pageSize < pages.flatten.length)
    (hfound : listFrom list turns none pageSize objects = some (.ok found)) :
    objects.length < found.length := by
  cases turns with
  | zero => cases hfound
  | succ turns =>
    obtain ⟨next, hanswer, -⟩ := h.offset pageSize
    have hpage : 0 < ((pages.flatten.drop pageSize).take pageSize).length := by
      have hpos : 0 < pageSize := by decide
      rw [List.length_take, List.length_drop]
      omega
    have hgrown : ∀ {turns cursor offset},
        listFrom list turns cursor offset
          (objects ++ (pages.flatten.drop pageSize).take pageSize) = some (.ok found) →
        objects.length < found.length := by
      intro turns cursor offset hrest
      have hprefix := (listFrom_extends hrest).length_le
      rw [List.length_append] at hprefix
      omega
    rw [listFrom, hanswer] at hfound
    dsimp only at hfound
    split at hfound
    · exact hgrown hfound
    · split at hfound
      · exact hgrown hfound
      · cases hfound
        rw [List.length_append]
        omega

theorem PagesByCursor.lists {pages : List (List ObjectInfo)} (h : PagesByCursor list pages)
    (hends : ¬ EndsOnFullPage list pages.flatten) : Lists list pages.flatten := by
  obtain ⟨page, hlast, hle, rounds, hrounds⟩ := listFrom_chain h.chain []
  by_cases hfull : page.length = pageSize
  · have honly : pages.flatten.length = pageSize := by
      by_contra hne
      exact hends ⟨pages, h, rfl, ⟨page, hlast, hfull⟩, by omega⟩
    obtain ⟨next, hanswer, hnone⟩ := h.offset pageSize
    obtain rfl := hnone (by omega)
    have hempty : (pages.flatten.drop pageSize).take pageSize = [] := by
      rw [List.drop_of_length_le honly.le, List.take_nil]
    refine ⟨1 + rounds, ?_⟩
    rw [listAll, hrounds 1, if_pos hfull, listFrom, hanswer]
    dsimp only
    rw [hempty, if_neg (by decide), List.append_nil]
    rfl
  · refine ⟨0 + rounds, ?_⟩
    rw [listAll, hrounds 0, if_neg hfull]
    rfl

theorem PagesByOffset.lists {objects : List ObjectInfo} (h : PagesByOffset list objects) :
    Lists list objects := by
  obtain ⟨turns, hturns⟩ := listFrom_offset h (some "") 0 []
  exact ⟨turns, hturns⟩

theorem lists_nil (h : ∀ options, list options = .error .notFound) : Lists list [] := by
  refine ⟨1, ?_⟩
  rw [listAll, listFrom, h]

/-- The walk finds every object once, unless the tokens end on a full page that is not the only
one; then it finds some twice. -/
theorem Backend.lists_iff {objects : List ObjectInfo} (h : Backend list objects) :
    (∃ found, Lists list found ∧ found.Perm objects) ↔ ¬ EndsOnFullPage list objects := by
  constructor
  · rintro ⟨found, ⟨turns, hturns⟩, hperm⟩ ⟨pages, hpages, rfl, ⟨page, hlast, hfull⟩, hlong⟩
    obtain ⟨page', hlast', -, rounds, hrounds⟩ := listFrom_chain hpages.chain []
    obtain rfl : page = page' := Option.some.inj (hlast.symm.trans hlast')
    have hwalk := listFrom_add rounds hturns
    rw [hrounds turns, if_pos hfull] at hwalk
    have hgrown := hpages.listFrom_none hlong hwalk
    have hlength := hperm.length_eq
    rw [List.nil_append] at hgrown
    omega
  · intro hends
    cases h with
    | cursor h => exact ⟨_, h.lists hends, .refl _⟩
    | offset h => exact ⟨_, h.lists, .refl _⟩
    | unknown h => exact ⟨_, lists_nil h, .refl _⟩

end Walk

/-! ## What a collection counts -/

/-- The store holds these blobs. -/
def Holds (s : DevStore) (objects : List (Sha × ℕ)) : Prop :=
  s.blobs.entries.Perm (objects.map fun object => ⟨object.1, object.2⟩)

/-- The counters are what the store holds. -/
structure Counted (s : DevStore) : Prop where
  bytes : s.workspace.blobBytes = totalBytes s.blobs
  count : s.workspace.blobCount = s.blobs.entries.length

/-- A collection of the blobs, over the candidates that were listed and with these blobs live, in
which no call failed. -/
def Collected (found : List ObjectInfo) (live : List Sha) (s s' : DevStore) : Prop :=
  ∃ chances, (collectBlobs (found.map ObjectInfo.entry) live).run.run unfailing chances s =
    (.ok (), s')

/-- The blobs that a collection leaves. -/
def leftBlobs (s : DevStore) (live : List Sha) : List (Sha × ℕ) :=
  (s.blobs.entries.map fun entry => (entry.1, entry.2)).filter fun object =>
    (live ++ s.workspace.shas).contains object.1

/-- What a collection leaves can be counted in a `u32`, and its bytes in a `u64`. -/
structure Countable (s : DevStore) (live : List Sha) : Prop where
  bytes : ((leftBlobs s live).map (·.2)).sum ≤ u64Max
  count : (leftBlobs s live).length ≤ u32Max

variable {s s' : DevStore} {live : List Sha}

theorem Holds.erase {past todo : List (Sha × ℕ)} {object : Sha × ℕ}
    (h : Holds s (past ++ object :: todo)) (hblobs : s'.blobs = s.blobs.erase object.1) :
    Holds s' (past ++ todo) := by
  have hnodup := (List.perm_nodupKeys h).mp s.blobs.nodupKeys
  have herase := h.kerase (a := object.1) s.blobs.nodupKeys
  rw [List.map_append, List.map_cons, List.nodupKeys_middle, List.nodupKeys_cons] at hnodup
  have hpast : object.1 ∉ (past.map fun object => (⟨object.1, object.2⟩ : Σ _ : Sha, ℕ)).keys :=
    fun hmem => hnodup.1 (by
      rw [List.keys, List.map_append]
      exact List.mem_append_left _ hmem)
  have hdrop : List.kerase object.1 (⟨object.1, object.2⟩ ::
      todo.map fun object => (⟨object.1, object.2⟩ : Σ _ : Sha, ℕ)) =
      todo.map fun object => ⟨object.1, object.2⟩ := List.kerase_cons_eq rfl
  rw [List.map_append, List.map_cons, List.kerase_append_right hpast, hdrop,
    ← List.map_append] at herase
  rw [Holds, hblobs]
  exact herase

/-- The candidates that are live. -/
def stillLive (live : List Sha) (todo : List (Sha × ℕ)) : List (Sha × ℕ) :=
  todo.filter fun object => live.contains object.1

theorem stillLive_of_not {object : Sha × ℕ} {todo : List (Sha × ℕ)}
    (h : live.contains object.1 = false) : stillLive live (object :: todo) = stillLive live todo :=
  List.filter_cons_of_neg (by
    rw [h]
    exact Bool.false_ne_true)

theorem stillLive_of {object : Sha × ℕ} {todo : List (Sha × ℕ)}
    (h : live.contains object.1 = true) :
    stillLive live (object :: todo) = object :: stillLive live todo :=
  List.filter_cons_of_pos h

/-- A sweep in which no delete fails leaves the candidates that are live, and counts them as far as
the counters go. -/
theorem sweep_counts (live : List Sha) (past todo : List (Sha × ℕ)) (bytes count : ℕ)
    (hbytes : bytes ≤ u64Max) (hcount : count ≤ u32Max) (h : Holds s (past ++ todo)) :
    Passes unfailing (fun _ _ _ => True) (sweep live todo none bytes count) s
      (fun swept s' => s'.workspace = s.workspace ∧ Holds s' (past ++ stillLive live todo) ∧
        swept = (none, min u64Max (bytes + ((stillLive live todo).map (·.2)).sum),
          min u32Max (count + (stillLive live todo).length)))
      fun _ _ => False := by
  induction todo generalizing s past bytes count with
  | nil =>
    refine passes_pure ⟨rfl, h, ?_⟩
    exact congrArg (Prod.mk none) (Prod.ext (Nat.min_eq_right hbytes).symm
      (Nat.min_eq_right hcount).symm)
  | cons object todo ih =>
    obtain ⟨sha, size⟩ := object
    unfold sweep
    cases hlive : live.contains sha with
    | false =>
      rw [stillLive_of_not hlive]
      refine passes_attempt (M := fun _ t => t.workspace = s.workspace ∧ Holds t (past ++ todo))
        (B := fun _ _ => False) (passes_call (fun _ => trivial) (fun chance reply s' hanswer => ?_)
          fun chance e s' hanswer => by cases hanswer) (fun _ t ht => ?_) fun _ _ h => h.elim
      · cases hanswer
        exact ⟨rfl, h.erase rfl⟩
      · refine (ih past bytes count hbytes hcount ht.2).mono (fun _ _ _ h => h) ?_
          fun _ _ h => h
        rintro swept s' ⟨hworkspace, hholds, hswept⟩
        exact ⟨hworkspace.trans ht.1, hholds, hswept⟩
    | true =>
      rw [stillLive_of hlive]
      refine (ih (past ++ [(sha, size)]) _ _ (Nat.min_le_left ..) (Nat.min_le_left ..)
        (by simpa using h)).mono (fun _ _ _ h => h) ?_ fun _ _ h => h
      rintro swept s' ⟨hworkspace, hholds, rfl⟩
      refine ⟨hworkspace, by simpa using hholds, ?_⟩
      simp only [List.map_cons, List.sum_cons, List.length_cons]
      congr 2 <;> omega

theorem totalBytes_of_holds {objects : List (Sha × ℕ)} (h : Holds s objects) :
    totalBytes s.blobs = (objects.map (·.2)).sum := by
  rw [totalBytes, (h.map _).sum_eq, List.map_map]
  rfl

/-- The candidates are what the store holds, so that what is left of them is what a collection
leaves. -/
theorem perm_leftBlobs (live : List Sha) {objects : List (Sha × ℕ)} (h : Holds s objects) :
    (stillLive (live ++ s.workspace.shas) objects).Perm (leftBlobs s live) := by
  have hpairs := h.map fun entry : Σ _ : Sha, ℕ => (entry.1, entry.2)
  rw [List.map_map] at hpairs
  have hsame : (objects.map ((fun entry : Σ _ : Sha, ℕ => (entry.1, entry.2)) ∘
      fun object => ⟨object.1, object.2⟩)) = objects := List.map_id _
  rw [hsame] at hpairs
  exact hpairs.symm.filter _

/-- A collection in which no call fails leaves what is live, and counts it as far as the counters
go. -/
theorem collectBlobs_counts (live : List Sha) {objects : List (Sha × ℕ)} (h : Holds s objects) :
    Passes unfailing (fun _ _ _ => True) (collectBlobs objects live) s
      (fun _ s' => Holds s' (stillLive (live ++ s.workspace.shas) objects) ∧
        s'.workspace.blobBytes = min u64Max ((leftBlobs s live).map (·.2)).sum ∧
        s'.workspace.blobCount = min u32Max (leftBlobs s live).length)
      fun _ _ => False := by
  refine passes_bind (M := fun ws t => ws = s.workspace ∧ t.workspace = s.workspace ∧ Holds t objects)
    (passes_call (fun _ => trivial) (fun chance reply s' hanswer => ?_) fun chance e s' hanswer => by
      cases hanswer) fun ws t ht => ?_
  · cases hanswer
    exact ⟨rfl, rfl, h⟩
  obtain ⟨rfl, hworkspace, hholds⟩ := ht
  refine passes_bind ((sweep_counts (live ++ s.workspace.shas) [] objects 0 0 (Nat.zero_le _)
    (Nat.zero_le _) hholds).mono (fun _ _ _ h => h) (fun _ _ h => h) fun _ _ h => h.elim)
    fun swept t' ht' => ?_
  obtain ⟨hworkspace', hleft, rfl⟩ := ht'
  have hperm := perm_leftBlobs live h
  rw [Nat.zero_add, Nat.zero_add, hperm.length_eq, (hperm.map _).sum_eq]
  dsimp only [resetBlobTotals]
  split
  · refine passes_bind (passes_call (P := fun _ t => Holds t (stillLive (live ++ s.workspace.shas)
      objects) ∧ t.workspace.blobBytes = min u64Max ((leftBlobs s live).map (·.2)).sum ∧
        t.workspace.blobCount = min u32Max (leftBlobs s live).length) (fun _ => trivial)
      (fun chance reply s' hanswer => ?_) fun chance e s' hanswer => by cases hanswer)
      fun _ t ht => passes_pure ht
    cases hanswer
    exact ⟨hleft, rfl, rfl⟩
  · rename_i hsame
    refine passes_pure ⟨hleft, ?_, ?_⟩
    · rw [hworkspace', hworkspace]
      by_contra hne
      exact hsame (by simp [hne])
    · rw [hworkspace', hworkspace]
      by_contra hne
      exact hsame (by simp [hne])

/-- A collection does end, and what it leaves is counted when the counters go that far. -/
theorem exists_collected {found objects : List ObjectInfo} (hfound : found.Perm objects)
    (h : Holds s (objects.map ObjectInfo.entry)) (live : List Sha) :
    ∃ s', Collected found live s s' := by
  have hholds : Holds s (found.map ObjectInfo.entry) :=
    h.trans ((hfound.map _).map _).symm
  have hrun := Program.Walks.run (collectBlobs_counts live hholds) fun _ => ⟨false, 0, 0, true⟩
  refine ⟨_, fun _ => ⟨false, 0, 0, true⟩, Prod.ext ?_ rfl⟩
  generalize ((collectBlobs (found.map ObjectInfo.entry) live).run.run unfailing
    (fun _ => ⟨false, 0, 0, true⟩) s).1 = result at hrun ⊢
  match result with
  | .ok _ => rfl

theorem collected_counts {found objects : List ObjectInfo} (hfound : found.Perm objects)
    (h : Holds s (objects.map ObjectInfo.entry)) (hcollected : Collected found live s s') :
    Counted s' ↔ Countable s live := by
  have hholds : Holds s (found.map ObjectInfo.entry) :=
    h.trans ((hfound.map _).map _).symm
  obtain ⟨chances, hrun⟩ := hcollected
  have hends := Program.Walks.run (collectBlobs_counts live hholds) chances
  rw [hrun] at hends
  obtain ⟨hleft, hbytes, hcount⟩ := hends
  have hperm := perm_leftBlobs live hholds
  have hentries : s'.blobs.entries.length = (leftBlobs s live).length := by
    rw [List.Perm.length_eq hleft, List.length_map, hperm.length_eq]
  have htotal : totalBytes s'.blobs = ((leftBlobs s live).map (·.2)).sum := by
    rw [totalBytes_of_holds hleft, (hperm.map _).sum_eq]
  constructor
  · intro hcounted
    have hb := hcounted.bytes
    have hc := hcounted.count
    rw [hbytes, htotal] at hb
    rw [hcount, hentries] at hc
    exact ⟨by omega, by omega⟩
  · intro hcountable
    have hb := hcountable.bytes
    have hc := hcountable.count
    exact ⟨by rw [hbytes, htotal]; omega, by rw [hcount, hentries]; omega⟩

/-! ## When the listing is exact -/

/-- The walk finds every object once, and a collection over what it finds, in which no call fails,
sets the counters to what the store then holds. -/
structure ListedExactly (list : Lister) (objects : List ObjectInfo) (s : DevStore)
    (live : List Sha) : Prop where
  once : ∃ found, Lists list found ∧ found.Perm objects
  counted : ∀ found s', Lists list found → Collected found live s s' → Counted s'

/-- The listing is exact, and so are the counters after a collection, unless the backend's tokens
end on a full page that is not the only one, or the counters do not go as far as what is left. -/
theorem listed_exactly_iff {list : Lister} {objects : List ObjectInfo} {s : DevStore}
    (hbackend : Backend list objects) (hholds : Holds s (objects.map ObjectInfo.entry))
    (live : List Sha) :
    ListedExactly list objects s live ↔ ¬ EndsOnFullPage list objects ∧ Countable s live := by
  constructor
  · intro hexact
    obtain ⟨found, hlists, hperm⟩ := hexact.once
    obtain ⟨s', hcollected⟩ := exists_collected hperm hholds live
    exact ⟨hbackend.lists_iff.mp hexact.once,
      (collected_counts hperm hholds hcollected).mp (hexact.counted found s' hlists hcollected)⟩
  · rintro ⟨hends, hcountable⟩
    obtain ⟨found, hlists, hperm⟩ := hbackend.lists_iff.mpr hends
    refine ⟨⟨found, hlists, hperm⟩, fun found' s' hlists' hcollected => ?_⟩
    obtain rfl := hlists.unique hlists'
    exact (collected_counts hperm hholds hcollected).mpr hcountable

/-- A folder with one blob, listed by offset. -/
theorem listed_exactly_one :
    ListedExactly (fun options => .ok ⟨([⟨7, 1⟩].drop options.offset).take pageSize, none⟩)
        [⟨7, 1⟩] (blank.withBlobs ((∅ : AList fun _ : Sha => ℕ).insert 7 1)) [7] := by
  have hbackend : Backend (fun options =>
      .ok ⟨([⟨7, 1⟩].drop options.offset).take pageSize, none⟩) [⟨7, 1⟩] :=
    .offset fun _ _ => rfl
  have hholds : Holds (blank.withBlobs ((∅ : AList fun _ : Sha => ℕ).insert 7 1))
      ([(⟨7, 1⟩ : ObjectInfo)].map ObjectInfo.entry) := .refl _
  refine (listed_exactly_iff hbackend hholds [7]).mpr ⟨?_, ⟨by decide, by decide⟩⟩
  rintro ⟨_, _, _, _, hlong⟩
  exact absurd hlong (by decide)

/-- A backend that resumes at the length of the token, as the one in the browser does at the number
that the token encodes. -/
def resuming (objects : List ObjectInfo) : Lister := fun options =>
  match options.cursor with
  | none => .ok ⟨(objects.drop options.offset).take options.limit, none⟩
  | some token =>
    let page := (objects.drop token.length).take options.limit
    .ok ⟨page, if token.length + page.length < objects.length then
      some (String.ofList (List.replicate (token.length + page.length) 'x')) else none⟩

/-- Two pages, both of them full. -/
def thousand : List ObjectInfo := (List.range 1000).map fun sha => ⟨sha, 1⟩

theorem length_thousand : thousand.length = 1000 := by
  rw [thousand, List.length_map, List.length_range]

theorem pagesByCursor_resuming {objects : List ObjectInfo} (h : objects.length = 1000) :
    PagesByCursor (resuming objects) [objects.take pageSize, objects.drop pageSize] := by
  have hfirst : (objects.take pageSize).length = 500 := by
    rw [List.length_take, h]
    rfl
  have hsecond : (objects.drop pageSize).length = 500 := by
    rw [List.length_drop, h]
    rfl
  have htoken : (String.ofList (List.replicate 500 'x')).length = pageSize := by
    rw [String.length_ofList, List.length_replicate]
    rfl
  have hrest : Chain (resuming objects) (String.ofList (List.replicate 500 'x'))
      [objects.drop pageSize] := by
    refine .last (fun offset => ?_) hsecond.le
    have hpage : (objects.drop pageSize).take pageSize = objects.drop pageSize :=
      List.take_of_length_le hsecond.le
    simp only [resuming, htoken, hpage, hsecond, h]
    rfl
  refine ⟨.next (fun offset => ?_) hfirst.le hrest, fun offset => ⟨none, ?_, fun _ => rfl⟩⟩
  · simp only [resuming, String.length_empty, List.drop_zero, hfirst, h, Nat.zero_add]
    rfl
  · rw [List.flatten_cons, List.flatten_singleton, List.take_append_drop]
    rfl

/-- At a backend that pages by token, a folder of a thousand objects is not listed exactly. -/
theorem not_listed_exactly_thousand :
    Backend (resuming thousand) thousand ∧
      ¬ ∃ found, Lists (resuming thousand) found ∧ found.Perm thousand := by
  have hpages := pagesByCursor_resuming length_thousand
  have hflatten : [thousand.take pageSize, thousand.drop pageSize].flatten = thousand := by
    rw [List.flatten_cons, List.flatten_singleton, List.take_append_drop]
  have hbackend := Backend.cursor hpages
  rw [hflatten] at hbackend
  have hfull : (thousand.drop pageSize).length = pageSize := by
    rw [List.length_drop, length_thousand]
    rfl
  have hlong : pageSize < thousand.length := by
    rw [length_thousand]
    decide
  exact ⟨hbackend, fun hexact => hbackend.lists_iff.mp hexact
    ⟨_, hpages, hflatten, ⟨_, rfl, hfull⟩, hlong⟩⟩

end Dev
