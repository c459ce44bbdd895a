import Impresspress.Dev.Kept
import Impresspress.Dev.OneServing
import Mathlib.Data.List.Permutation
import Mathlib.Testing.Plausible.Functions

/-!
# Within the limits over whole runs

The workspace stays within its limits over every run of successful requests whose rollbacks find
room. Where one does not, it ends with more files than it may hold.

## Main results

* `Dev.within_limits`: the limits hold after every such run.
* `Dev.within_limits_fails`: they do not where a rollback finds no room.
-/

namespace Dev

open Concurrent Concurrent.Fallible Workspace

/-! ## Runs -/

section Runs

variable {rules : BypassRules} {s s' : DevStore}

theorem Fresh.kept (h : Fresh s) : Kept s where
  fits := by
    rw [h.workspace]
    exact ⟨nofun, fun path hpath => absurd hpath (AList.notMem_empty _),
      fun dir hdir => absurd hdir (AList.notMem_empty _), Nat.zero_le _, Nat.zero_le _⟩
  bytes := by
    rw [h.workspace, h.blobs]
    rfl
  quota := by
    rw [h.workspace]
    exact Nat.zero_le _
  stored := by
    rw [h.workspace]
    exact nofun
  history id row hrow := by
    rw [h.generations id] at hrow
    cases hrow

/-- One request keeps what holds. -/
theorem Kept.served (h : Kept s) {request : FilesRequest} (hroom : request.FindsRoom s)
    (hserved : request.Served rules s s') : Kept s' := by
  obtain ⟨chances, hrun⟩ := hserved
  have harrives : Arrives (request.program rules) s fun _ => Kept := by
    cases request with
    | write request => exact h.writes rules request
    | writeBatch files => exact h.writesBatch rules files
    | create name template => exact h.creates name template
    | delete path expected => exact h.deletes path expected
    | rollback id => exact arrives_bind (h.rollsBack id hroom) fun _ _ ht => arrives_pure ht
    | collect turns => exact arrives_bind (h.collects turns).reaches fun _ _ ht => arrives_pure ht
  exact harrives.of_run hrun

/-- The limits hold after every run of successful requests whose rollbacks find room. -/
theorem within_limits (h : Reachable rules FilesRequest.FindsRoom s) : WithinLimits s := by
  have hkept : Kept s := by
    induction h with
    | fresh hfresh => exact hfresh.kept
    | served _ hroom hserved ih => exact ih.served hroom hserved
  exact hkept.toWithinLimits

/-- Every call is answered at once, and no time passes. -/
def promptly : ℕ → Chance := fun _ => ⟨false, 0, 0, true⟩

/-- The site's only file, and the write that creates it. -/
def page : FileWriteRequest := ⟨"site/index.html", ⟨1, some ⟨7, 1⟩⟩, some none⟩

/-- What is left once the page was written and published. -/
def published : DevStore := ((serveWrite ⟨[], []⟩ page).run.run unfailing promptly blank).2

theorem published_served : (FilesRequest.write page).Served ⟨[], []⟩ blank published :=
  ⟨promptly, Prod.ext rfl rfl⟩

theorem within_limits_page : WithinLimits published :=
  have hroom : (FilesRequest.write page).FindsRoom blank := trivial
  within_limits (.served (.fresh ⟨rfl, rfl, fun _ => rfl⟩) hroom published_served)

end Runs

/-! ## A rollback that finds no room -/

section NoRoom

variable {s s' s'' : DevStore} {α β : Type}

/-- The program run promptly from `s` succeeds. -/
def Runs (p : Task α) (s : DevStore) (a : α) (s' : DevStore) : Prop :=
  p.run.run unfailing promptly s = (.ok a, s')

theorem runs_pure (a : α) : Runs (pure a) s a s := rfl

theorem runs_bind {p : Task β} {f : β → Task α} {a : α} {b : β} (hp : Runs p s b s')
    (hf : Runs (f b) s' a s'') : Runs (p >>= f) s a s'' := by
  unfold Runs promptly at *
  rw [ExceptT.run_bind, Program.run_bind_const, hp]
  exact hf

theorem runs_call (c : DevCall) {reply : Reply c}
    (h : unfailing (promptly 0) c s = (.ok reply, s')) : Runs (call c) s reply s' := by
  refine Eq.trans ?_ h
  rfl

theorem runs_holding {lock : Lock} {p : Task α} {a : α} {s₁ s₂ : DevStore}
    (hlock : unfailing (promptly 0) (.lock lock) s = (.ok (), s₁)) (hp : Runs p s₁ a s₂)
    (hunlock : unfailing (promptly 0) (.unlock lock) s₂ = (.ok (), s')) :
    Runs (holding lock p) s a s' := by
  have hattempt : Runs (attempt p) s₁ (.ok a) s₂ := by
    unfold Runs promptly attempt at *
    rw [ExceptT.run_mk, Program.run_bind_const, hp]
    rfl
  refine runs_bind (runs_call _ hlock) (runs_bind hattempt ?_)
  exact runs_bind (runs_call _ hunlock) (runs_pure a)

/-- The page was written, published, deleted and published; its generation is retained. -/
def emptied (ws : Workspace) (held : Lock → Bool) : DevStore where
  generations := ⟨[⟨0, .superseded, .siteWrite, some ⟨[⟨["index.html"], 7, 1⟩], []⟩, 0⟩,
    ⟨1, .active, .siteDelete, some ⟨[], []⟩, 0⟩], by decide⟩
  journal := ⟨some 1, none, .idle, 2⟩
  builds := .empty
  llms := ⟨none, none⟩
  folder := .empty
  blobs := (∅ : AList fun _ : Sha => ℕ).insert 7 1
  artifacts := ∅
  workspace := ws
  runtime := ⟨[], none⟩
  held := held
  ids := [1, 0]
  clock := 0

/-- The file of a block that is written as number `i`. -/
def source (i : ℕ) : Path :=
  [blocksPrefix, "ab", String.ofList (List.replicate (i / 50 + 1) 'a'),
    String.ofList (List.replicate (i % 50 + 1) 'b')]

theorem source_injective {i j : ℕ} (h : source i = source j) : i = j := by
  simp only [source, List.cons.injEq, true_and, and_true, String.ofList_inj] at h
  have hfirst := congrArg List.length h.1
  have hsecond := congrArg List.length h.2
  simp only [List.length_replicate] at hfirst hsecond
  omega

theorem accepted_source {i : ℕ} (hi : i < maxFiles) : Accepted (source i) (.block "ab") := by
  have hfirst : i / 50 < 40 := by
    unfold maxFiles at hi
    omega
  have hsecond : i % 50 < 50 := Nat.mod_lt _ (by decide)
  have hblocks : blocksPrefix.toList = ['b', 'l', 'o', 'c', 'k', 's'] := rfl
  have hab : "ab".toList = ['a', 'b'] := rfl
  have hplain : ∀ segment ∈ source i, segment.toList ≠ [] ∧ segment.toList.length ≤ 63 ∧
      ∀ c ∈ segment.toList, isPlain c = true := by
    intro segment hsegment
    simp only [source, List.mem_cons, List.not_mem_nil, or_false] at hsegment
    rcases hsegment with rfl | rfl | rfl | rfl
    · rw [hblocks]
      exact ⟨nofun, by decide, List.all_eq_true.mp rfl⟩
    · rw [hab]
      exact ⟨nofun, by decide, List.all_eq_true.mp rfl⟩
    · rw [String.toList_ofList, List.length_replicate]
      exact ⟨nofun, by omega, fun c hc => by rw [List.eq_of_mem_replicate hc]; rfl⟩
    · rw [String.toList_ofList, List.length_replicate]
      exact ⟨nofun, by omega, fun c hc => by rw [List.eq_of_mem_replicate hc]; rfl⟩
  refine .of_segments (fun segment hsegment => ?_) (fun segment hsegment => ?_) ?_ rfl
  · exact slash_notMem_of_plain (hplain segment hsegment).2.2
  · obtain ⟨hne, hlength, hchars⟩ := hplain segment hsegment
    exact segmentError_of_plain hne hlength hchars
  · simp only [source, List.intercalate, List.map_cons, List.map_nil, List.intersperse,
      List.flatten_cons, List.flatten_nil, List.length_append, List.length_cons, List.length_nil,
      String.toList_ofList, List.length_replicate, hblocks, hab]
    omega

/-- The page is gone, and the first `n` files of a block are there. -/
structure Filled (n : ℕ) (ws : Workspace) (held : Lock → Bool) : Prop where
  reachable : Reachable ⟨[], []⟩ (fun _ _ => True) (emptied ws held)
  length : ws.files.keys.length = n
  sources : ∀ path ∈ ws.files, ∃ i < n, path = source i
  bytes : ws.blobBytes = 1

theorem emptied_served : ∃ held,
    (FilesRequest.delete page.path 7).Served ⟨[], []⟩ published (emptied ⟨∅, 1, 1⟩ held) :=
  ⟨_, promptly, Prod.ext rfl rfl⟩

theorem filled_zero : ∃ held, Filled 0 ⟨∅, 1, 1⟩ held := by
  obtain ⟨held, hserved⟩ := emptied_served
  refine ⟨held, ⟨.served (.served (.fresh ⟨rfl, rfl, fun _ => rfl⟩) trivial published_served)
    trivial hserved, rfl, fun path hpath => absurd hpath (AList.notMem_empty _), rfl⟩⟩

/-- The write of a new file of a block, whose content is stored. -/
theorem storeFile_runs {file : FileWrite} {name : String} (hnew : s.workspace.get file.path = none)
    (hexpected : file.expected = none) (hrefuse : refuseFile s.workspace (.block name) file = none)
    (hstored : file.sha256 ∈ s.blobs) :
    Runs (storeFile (.block name) file) s (.ok ())
      (s.withWorkspace (s.workspace.insert file.path file.sha256 file.size)) := by
  have hload : Runs (call .loadWorkspace) s s.workspace s := runs_call _ rfl
  have hexists : Runs (call (.blobExists file.sha256)) s true s :=
    runs_call _ (congrArg (fun stored => (Except.ok stored, s)) (decide_eq_true hstored))
  have hput : Runs (putHashed file.sha256 file.size) s false s :=
    runs_bind hexists (runs_pure _)
  refine runs_bind hload ?_
  rw [hnew, hexpected, if_neg (by decide), hrefuse]
  exact runs_bind hput (runs_bind (runs_call _ rfl) (runs_pure _))

/-- A new file of a block, whose content is stored. -/
theorem write_served {ws : Workspace} {held : Lock → Bool} {path : Path}
    (hpath : Accepted path (.block "ab")) (hnew : path ∉ ws.files)
    (hrefuse : refuseFile ws (.block "ab") ⟨path, 7, 1, none⟩ = none) :
    ∃ held', (FilesRequest.write ⟨path.text, ⟨1, some ⟨7, 1⟩⟩, some none⟩).Served ⟨[], []⟩
      (emptied ws held) (emptied (ws.insert path 7 1) held') := by
  suffices hruns : ∃ held', Runs (answerRefusal <$> handleWrite (.block "ab")
      ⟨Path.ofText path.text, 7, 1, none⟩) (emptied ws held) (.ok ())
      (emptied (ws.insert path 7 1) held') by
    obtain ⟨held', hruns⟩ := hruns
    refine ⟨held', promptly, ?_⟩
    show (serveWrite ⟨[], []⟩ _).run.run _ _ _ = _
    unfold serveWrite
    rw [hpath.valid]
    exact hruns
  rw [hpath.segments, map_eq_pure_bind]
  refine ⟨_, runs_bind (runs_bind (runs_holding rfl (storeFile_runs (s := emptied ws _) ?_ rfl hrefuse ?_)
    rfl) (runs_bind (runs_pure ()) (runs_pure _))) (runs_pure _)⟩
  · exact Option.isNone_iff_eq_none.mp (get_isNone.mpr hnew)
  · exact (AList.mem_insert _).mpr (.inl rfl)

theorem served_of_ok {rules : BypassRules} {request : FilesRequest} {chances : ℕ → Chance}
    (hok : ((request.program rules).run.run unfailing chances s).1 = .ok (.ok ())) :
    request.Served rules s ((request.program rules).run.run unfailing chances s).2 :=
  ⟨chances, Prod.ext hok rfl⟩

/-- The store once the page's generation was rolled back to. -/
def rolledBack (ws : Workspace) (held : Lock → Bool) : DevStore :=
  (((FilesRequest.rollback 0).program ⟨[], []⟩).run.run unfailing promptly (emptied ws held)).2

theorem rolledBack_served (ws : Workspace) (held : Lock → Bool) :
    (FilesRequest.rollback 0).Served ⟨[], []⟩ (emptied ws held) (rolledBack ws held) := by
  have hok : (((FilesRequest.rollback 0).program ⟨[], []⟩).run.run unfailing promptly
      (emptied ws held)).1 = .ok (.ok ()) := by
    cbv
  exact served_of_ok hok

theorem rolledBack_workspace (ws : Workspace) (held : Lock → Bool) :
    (rolledBack ws held).workspace = ws.adopt [⟨["index.html"], 7, 1⟩] := by
  unfold rolledBack
  cbv

theorem not_under_of_length {dir path : Path} (h : dir.length = path.length) :
    Path.under dir path = false := by
  rw [Path.under, Bool.and_eq_false_iff]
  by_cases hprefix : dir.isPrefixOf path = true
  · right
    have := (List.isPrefixOf_iff_prefix.mp hprefix).eq_of_length h
    simp [this]
  · exact .inl (eq_false_of_ne_true hprefix)

/-- One more file of the block. -/
theorem Filled.next {n : ℕ} {ws : Workspace} {held : Lock → Bool} (h : Filled n ws held)
    (hn : n < maxFiles) : ∃ ws' held', Filled (n + 1) ws' held' := by
  have hnew : source n ∉ ws.files := by
    intro hmem
    obtain ⟨i, hi, heq⟩ := h.sources _ hmem
    have := source_injective heq
    omega
  have hapart : ws.pathCollision (source n) = none := by
    refine List.find?_eq_none.mpr fun path hpath => ?_
    obtain ⟨i, hi, rfl⟩ := h.sources path (AList.mem_keys.mpr hpath)
    have hlength : (source n).length = (source i).length := rfl
    rw [not_under_of_length hlength, not_under_of_length hlength.symm]
    exact Bool.false_ne_true
  have hnames : ws.blockNames.length ≤ ["ab"].length := by
    refine length_le_of_subset (List.nodup_dedup _) fun name hname => ?_
    obtain ⟨path, hpath, hname⟩ := mem_blockNames.mp hname
    obtain ⟨i, hi, rfl⟩ := h.sources path hpath
    cases hname
    exact List.mem_singleton_self _
  have hrefuse : refuseFile ws (.block "ab") ⟨source n, 7, 1, none⟩ = none := by
    have hfiles := h.length
    rw [List.length_singleton] at hnames
    have hsize : newBlobBytes ws ⟨source n, 7, 1, none⟩ ≤ 1 := by
      unfold newBlobBytes
      split <;> simp
    unfold refuseFile checkQuotas
    rw [hapart]
    dsimp only
    rw [if_neg, if_neg, if_neg]
    · unfold maxBlocks
      rw [Bool.and_eq_true, decide_eq_true_eq]
      omega
    · rw [h.bytes]
      unfold maxWorkspaceBytes
      omega
    · rw [Bool.and_eq_true, decide_eq_true_eq]
      omega
  obtain ⟨held', hserved⟩ := write_served (accepted_source hn) hnew hrefuse
  refine ⟨_, held', .served h.reachable trivial hserved, ?_, fun path hpath => ?_, h.bytes⟩
  · exact (length_keys_insert_of_notMem _ _ hnew).trans (congrArg (· + 1) h.length)
  · rcases mem_insert.mp hpath with rfl | hpath
    · exact ⟨n, Nat.lt_succ_self n, rfl⟩
    · obtain ⟨i, hi, heq⟩ := h.sources path hpath
      exact ⟨i, Nat.lt_succ_of_lt hi, heq⟩

/-- A page and two thousand files of a block. -/
theorem within_limits_fails :
    ∃ s, Reachable ⟨[], []⟩ (fun _ _ => True) s ∧ ¬ WithinLimits s := by
  have hfilled : ∀ n ≤ maxFiles, ∃ ws held, Filled n ws held := by
    intro n
    induction n with
    | zero => exact fun _ => ⟨_, filled_zero⟩
    | succ n ih =>
      intro hn
      obtain ⟨ws, held, hfilled⟩ := ih (Nat.le_of_succ_le hn)
      exact hfilled.next hn
  obtain ⟨ws, held, hfilled⟩ := hfilled maxFiles (Nat.le_refl _)
  refine ⟨rolledBack ws held, .served hfilled.reachable trivial (rolledBack_served ws held),
    fun hwithin => ?_⟩
  have hsite : ∀ path ∈ ws.files, path.head? ≠ some sitePrefix := by
    intro path hpath
    obtain ⟨i, -, rfl⟩ := hfilled.sources path hpath
    exact fun hhead => absurd (Option.some.inj hhead) (by decide)
  have hstale : ws.files.keys.filter (fun path => path.head? = some sitePrefix) = [] := by
    refine List.filter_eq_nil_iff.mpr fun path hpath => ?_
    simpa using hsite path (AList.mem_keys.mpr hpath)
  have hadopt : ws.adopt [⟨["index.html"], 7, 1⟩] = ws.insert [sitePrefix, "index.html"] 7 1 := by
    unfold adopt
    rw [hstale]
    rfl
  have hpage : [sitePrefix, "index.html"] ∉ ws.files := fun hmem => hsite _ hmem rfl
  have hlength := length_keys_insert_of_notMem ws.files
    (⟨[sitePrefix, "index.html"], 7, 1⟩ : FileEntry) hpage
  have hfiles := hwithin.fits.files
  rw [rolledBack_workspace, hadopt] at hfiles
  have hle := hlength.symm.le.trans hfiles
  rw [hfilled.length] at hle
  exact absurd hle (Nat.not_succ_le_self _)

end NoRoom

end Dev
