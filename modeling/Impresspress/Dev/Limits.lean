import Mathlib.Data.List.Dedup
import Impresspress.Dev.Paths
import Impresspress.Dev.PublishOrder

/-!
# The limits of the workspace

A write is checked against the number of files, the number of blocks and the size of the blob
store. What the workspace and the retained generations keep between two requests makes those checks
mean something: the paths were all accepted once, no name is both a file and a directory, and the
counters are what the store holds.

## Main definitions

* `Dev.Workspace.Fits`: paths, names and counts.
* `Dev.SiteFits`: a site that a workspace may take over.
* `Dev.totalBytes`: what the blob store holds.

## Main results

* `Dev.Workspace.Fits.insert`: a file that is not refused.
* `Dev.Workspace.Fits.adopt`: a site that is taken over.
-/

namespace Dev

open Workspace

/-- Every path was accepted and files its own entry, no name is a file and a directory, and there
are no more files and blocks than there may be. -/
structure Workspace.Fits (ws : Workspace) : Prop where
  keys : ∀ path entry, ws.files.lookup path = some entry → entry.path = path
  accepted : ∀ path ∈ ws.files, ∃ area, Accepted path area
  apart : ∀ dir ∈ ws.files, ∀ path ∈ ws.files, Path.under dir path = false
  files : ws.files.keys.length ≤ maxFiles
  blocks : ws.blockNames.length ≤ maxBlocks

/-- The paths of a site would be accepted in the workspace, and no name of it is a file and a
directory. -/
structure SiteFits (site : SiteManifest) : Prop where
  accepted : ∀ file ∈ site, Accepted (sitePrefix :: file.path) .site
  prefixFree : PrefixFree site

/-- The bytes that the blob store holds. -/
def totalBytes (blobs : AList fun _ : Sha => ℕ) : ℕ := (blobs.entries.map (·.2)).sum

/-- How many files the workspace has outside the site. -/
def Workspace.otherFiles (ws : Workspace) : ℕ :=
  (ws.files.keys.filter fun path => path.head? ≠ some sitePrefix).length

section Filed

variable {K V : Type} [DecidableEq K] (filed : AList fun _ : K => V) (key : K) (value : V)

theorem length_keys_insert_le : (filed.insert key value).keys.length ≤ filed.keys.length + 1 := by
  rw [AList.keys_insert, List.length_cons]
  exact Nat.succ_le_succ (List.length_erase_le ..)

variable {key} in
theorem length_keys_insert_of_mem (h : key ∈ filed) :
    (filed.insert key value).keys.length = filed.keys.length := by
  have hmem : key ∈ filed.keys := AList.mem_keys.mp h
  have hpos := List.length_pos_of_mem hmem
  rw [AList.keys_insert, List.length_cons, List.length_erase_of_mem hmem]
  omega

variable {key} in
theorem length_keys_insert_of_notMem (h : key ∉ filed) :
    (filed.insert key value).keys.length = filed.keys.length + 1 := by
  rw [AList.keys_insert, List.length_cons,
    List.erase_of_not_mem fun hmem => h (AList.mem_keys.mpr hmem)]

theorem length_keys_erase_le : (filed.erase key).keys.length ≤ filed.keys.length := by
  rw [AList.keys_erase]
  exact List.length_erase_le ..

end Filed

section Blobs

variable {blobs : AList fun _ : Sha => ℕ} {sha : Sha} {size : ℕ}

theorem totalBytes_insert (h : sha ∉ blobs) :
    totalBytes (blobs.insert sha size) = totalBytes blobs + size := by
  rw [totalBytes, AList.entries_insert_of_notMem h, List.map_cons, List.sum_cons, Nat.add_comm]
  rfl

theorem totalBytes_erase (h : blobs.lookup sha = some size) :
    totalBytes (blobs.erase sha) + size = totalBytes blobs := by
  obtain ⟨entries, hnodup⟩ := blobs
  replace h : entries.dlookup sha = some size := h
  show ((entries.kerase sha).map (·.2)).sum + size = (entries.map (·.2)).sum
  clear hnodup
  induction entries with
  | nil => cases h
  | cons entry entries ih =>
    obtain ⟨sha', size'⟩ := entry
    by_cases heq : sha = sha'
    · subst heq
      rw [List.dlookup_cons_eq] at h
      cases h
      have herase : List.kerase sha (⟨sha, size⟩ :: entries) = entries := List.kerase_cons_eq rfl
      rw [herase, List.map_cons, List.sum_cons, Nat.add_comm]
    · rw [List.dlookup_cons_ne _ _ heq] at h
      rw [List.kerase_cons_ne heq, List.map_cons, List.sum_cons, List.map_cons, List.sum_cons,
        Nat.add_assoc, ih h]

end Blobs

/-! ## Inserting and removing -/

section Insert

variable {ws : Workspace} {path : Path} {sha : Sha} {size : ℕ} {area : WorkspaceArea}

theorem Workspace.mem_insert {other : Path} :
    other ∈ (ws.insert path sha size).files ↔ other = path ∨ other ∈ ws.files :=
  AList.mem_insert _

theorem Workspace.lookup_insert {other : Path} :
    (ws.insert path sha size).files.lookup other =
      if other = path then some ⟨path, sha, size⟩ else ws.files.lookup other := by
  by_cases hother : other = path
  · subst hother
    simp [Workspace.insert]
  · simp [Workspace.insert, hother]

theorem Workspace.lookup_remove {other : Path} :
    (ws.remove path).files.lookup other =
      if other = path then none else ws.files.lookup other := by
  by_cases hother : other = path
  · subst hother
    simp [Workspace.remove]
  · simp [Workspace.remove, hother]

/-- The names that are in one list and not in the other are not more. -/
theorem length_le_of_subset {names names' : List String} (h : names.Nodup)
    (hsubset : ∀ name ∈ names, name ∈ names') : names.length ≤ names'.length :=
  (List.subperm_of_subset h hsubset).length_le

theorem mem_blockNames {name : String} :
    name ∈ ws.blockNames ↔ ∃ path ∈ ws.files, blockNameOf path = some name := by
  simp [blockNames, AList.mem_keys]

theorem Workspace.get_isNone : (ws.get path).isNone = true ↔ path ∉ ws.files := by
  rw [Option.isNone_iff_eq_none]
  exact AList.lookup_eq_none

theorem blockNameOf_of_area {name : String} (h : areaOf path = .ok (.block name)) :
    blockNameOf path = some name := by
  obtain ⟨third, rest, rfl⟩ := areaOf_block h
  simp [blockNameOf]

theorem blockNameOf_of_site (h : path.head? = some sitePrefix) : blockNameOf path = none := by
  match path with
  | [] => rfl
  | [_] => rfl
  | [_, _] => rfl
  | first :: second :: third :: rest =>
    obtain rfl : first = sitePrefix := by simpa using h
    rfl

theorem pathCollision_none (h : ws.pathCollision path = none) :
    ∀ stored ∈ ws.files, Path.under path stored = false ∧ Path.under stored path = false := by
  intro stored hstored
  simpa using List.find?_eq_none.mp h stored (AList.mem_keys.mp hstored)

theorem not_under_self : Path.under path path = false := by simp [Path.under]

/-- What the quotas say of a file that they let through. -/
theorem checkQuotas_none {bytes : ℕ} (h : checkQuotas ws path area bytes = none) :
    (path ∈ ws.files ∨ ws.files.keys.length < maxFiles) ∧
      ws.blobBytes + bytes ≤ maxWorkspaceBytes ∧
      ∀ name, area = .block name → name ∈ ws.blockNames ∨ ws.blockNames.length < maxBlocks := by
  unfold checkQuotas at h
  split at h
  · cases h
  rename_i hfiles
  split at h
  · cases h
  rename_i hbytes
  refine ⟨?_, by omega, ?_⟩
  · by_cases hmem : path ∈ ws.files
    · exact .inl hmem
    · refine .inr (lt_of_not_ge fun hle => hfiles ?_)
      rw [Workspace.get_isNone.mpr hmem, Bool.true_and]
      exact decide_eq_true hle
  · rintro name rfl
    dsimp only at h
    split at h
    · cases h
    rename_i hblocks
    by_cases hmem : name ∈ ws.blockNames
    · exact .inl hmem
    · refine .inr (lt_of_not_ge fun hle => hblocks ?_)
      simp [hmem, hle]

/-- A file that is not refused. -/
theorem Workspace.Fits.insert {file : FileWrite} (h : ws.Fits) (hpath : Accepted file.path area)
    (hrefuse : refuseFile ws area file = none) :
    (ws.insert file.path file.sha256 file.size).Fits ∧
      ws.blobBytes + newBlobBytes ws file ≤ maxWorkspaceBytes := by
  unfold refuseFile at hrefuse
  split at hrefuse
  · cases hrefuse
  rename_i hfree
  obtain ⟨hfiles, hbytes, hblocks⟩ := checkQuotas_none hrefuse
  have hunder := pathCollision_none hfree
  refine ⟨⟨?_, ?_, ?_, ?_, ?_⟩, hbytes⟩
  · intro path entry hentry
    rw [Workspace.lookup_insert] at hentry
    split at hentry
    · cases hentry
      exact Eq.symm ‹_›
    · exact h.keys path entry hentry
  · intro path hmem
    rcases Workspace.mem_insert.mp hmem with rfl | hmem
    · exact ⟨area, hpath⟩
    · exact h.accepted path hmem
  · intro dir hdir path hmem
    rcases Workspace.mem_insert.mp hdir with rfl | hdir <;>
      rcases Workspace.mem_insert.mp hmem with rfl | hmem
    · exact not_under_self
    · exact (hunder path hmem).1
    · exact (hunder dir hdir).2
    · exact h.apart dir hdir path hmem
  · rcases hfiles with hmem | hlt
    · exact (length_keys_insert_of_mem _ _ hmem).le.trans h.files
    · exact (length_keys_insert_le ..).trans hlt
  · cases area with
    | site =>
      refine (length_le_of_subset (List.nodup_dedup _) fun name hname => ?_).trans h.blocks
      obtain ⟨path, hmem, hname⟩ := mem_blockNames.mp hname
      rcases Workspace.mem_insert.mp hmem with rfl | hmem
      · obtain ⟨second, rest, hsite⟩ := areaOf_site hpath.area
        rw [blockNameOf_of_site (by rw [hsite]; rfl)] at hname
        cases hname
      · exact mem_blockNames.mpr ⟨path, hmem, hname⟩
    | block block =>
      have hsubset : ∀ name ∈ (ws.insert file.path file.sha256 file.size).blockNames,
          name = block ∨ name ∈ ws.blockNames := by
        intro name hname
        obtain ⟨path, hmem, hname⟩ := mem_blockNames.mp hname
        rcases Workspace.mem_insert.mp hmem with rfl | hmem
        · rw [blockNameOf_of_area hpath.area] at hname
          exact .inl (Option.some.inj hname).symm
        · exact .inr (mem_blockNames.mpr ⟨path, hmem, hname⟩)
      rcases hblocks block rfl with hmem | hlt
      · refine (length_le_of_subset (List.nodup_dedup _) fun name hname => ?_).trans h.blocks
        exact (hsubset name hname).elim (fun heq => heq ▸ hmem) id
      · refine (length_le_of_subset (List.nodup_dedup _) fun name hname =>
          List.mem_cons.mpr (hsubset name hname)).trans ?_
        exact hlt

theorem Workspace.mem_remove {other : Path} (h : other ∈ (ws.remove path).files) :
    other ∈ ws.files := (AList.mem_erase.mp h).2

/-- A file less. -/
theorem Workspace.Fits.remove (h : ws.Fits) (path : Path) : (ws.remove path).Fits where
  keys other entry hentry := by
    rw [Workspace.lookup_remove] at hentry
    split at hentry
    · cases hentry
    · exact h.keys other entry hentry
  accepted other hother := h.accepted other (Workspace.mem_remove hother)
  apart dir hdir other hother :=
    h.apart dir (Workspace.mem_remove hdir) other (Workspace.mem_remove hother)
  files := (length_keys_erase_le ..).trans h.files
  blocks := (length_le_of_subset (List.nodup_dedup _) fun name hname => by
    obtain ⟨other, hother, hname⟩ := mem_blockNames.mp hname
    exact mem_blockNames.mpr ⟨other, Workspace.mem_remove hother, hname⟩).trans h.blocks

end Insert

/-! ## Several files at once -/

section Batches

variable {ws ws' : Workspace} {area : WorkspaceArea} {blobs : AList fun _ : Sha => ℕ}

/-- The files of a batch, inserted one after the other. -/
def Workspace.insertAll (ws : Workspace) (files : List FileWrite) : Workspace :=
  files.foldl (fun ws file => ws.insert file.path file.sha256 file.size) ws

/-- What the blob store would grow by over a batch. -/
def newBytes : Workspace → List FileWrite → ℕ
  | _, [] => 0
  | ws, file :: files =>
    newBlobBytes ws file + newBytes (ws.insert file.path file.sha256 file.size) files

theorem Workspace.Fits.of_files (h : ws.Fits) (hfiles : ws'.files = ws.files) : ws'.Fits := by
  obtain ⟨files, bytes, count⟩ := ws
  obtain ⟨files', bytes', count'⟩ := ws'
  obtain rfl : files' = files := hfiles
  exact ⟨h.keys, h.accepted, h.apart, h.files, h.blocks⟩

theorem newBytes_congr (hfiles : ws'.files = ws.files) (files : List FileWrite) :
    newBytes ws' files = newBytes ws files := by
  induction files generalizing ws ws' with
  | nil => rfl
  | cons file files ih =>
    have hreferences : ws'.references file.sha256 = ws.references file.sha256 := by
      rw [references, references, shas, shas, hfiles]
    have hnew : newBlobBytes ws' file = newBlobBytes ws file := by
      rw [newBlobBytes, newBlobBytes, hreferences]
    have hinsert : (ws'.insert file.path file.sha256 file.size).files =
        (ws.insert file.path file.sha256 file.size).files := by
      simp only [Workspace.insert, hfiles]
    rw [newBytes, newBytes, hnew, ih hinsert]

theorem insertAll_files (hfiles : ws'.files = ws.files) (files : List FileWrite) :
    (ws'.insertAll files).files = (ws.insertAll files).files := by
  induction files generalizing ws ws' with
  | nil => exact hfiles
  | cons file files ih =>
    refine ih ?_
    simp only [Workspace.insert, hfiles]

theorem blobBytes_insertAll (files : List FileWrite) :
    (ws.insertAll files).blobBytes = ws.blobBytes := by
  induction files generalizing ws with
  | nil => rfl
  | cons file files ih => exact ih

/-- A batch none of whose files is refused. -/
theorem Workspace.Fits.insertAll {files : List FileWrite} (h : ws.Fits)
    (hpaths : ∀ file ∈ files, Accepted file.path area) (hquota : ws.blobBytes ≤ maxWorkspaceBytes)
    (hrefuse : refuseFiles area ws files = none) :
    (ws.insertAll files).Fits ∧ ws.blobBytes + newBytes ws files ≤ maxWorkspaceBytes := by
  induction files generalizing ws with
  | nil => exact ⟨h, hquota⟩
  | cons file files ih =>
    unfold refuseFiles at hrefuse
    split at hrefuse
    · cases hrefuse
    rename_i hfile
    obtain ⟨hfits, hbytes⟩ := h.insert (hpaths file List.mem_cons_self) hfile
    -- the projection is charged for the file, and has the files of the workspace
    obtain ⟨projected, hprojected, hfiles, hcharged⟩ : ∃ projected,
        refuseFiles area projected files = none ∧
        projected.files = (ws.insert file.path file.sha256 file.size).files ∧
        projected.blobBytes = ws.blobBytes + newBlobBytes ws file := by
      refine ⟨_, hrefuse, ?_, ?_⟩
      · split <;> rfl
      · split
        · exact saturatingAdd_of_le (hbytes.trans (by decide))
        · have hzero : newBlobBytes ws file = 0 := by omega
          rw [hzero]
          rfl
    obtain ⟨hall, htotal⟩ := ih (hfits.of_files hfiles)
      (fun file' hfile' => hpaths file' (List.mem_cons_of_mem _ hfile'))
      (hcharged.le.trans hbytes) hprojected
    refine ⟨hall.of_files (insertAll_files hfiles.symm files), ?_⟩
    rw [hcharged, newBytes_congr hfiles] at htotal
    rw [newBytes]
    omega

/-- The content of every file is in the blob store. -/
def Stored (ws : Workspace) (blobs : AList fun _ : Sha => ℕ) : Prop :=
  ∀ path, ∀ entry ∈ ws.files.lookup path, entry.sha256 ∈ blobs

theorem Stored.insert (h : Stored ws blobs) (path : Path) {sha : Sha} (size : ℕ)
    (hsha : sha ∈ blobs) : Stored (ws.insert path sha size) blobs := by
  intro other entry hentry
  rw [Workspace.lookup_insert] at hentry
  split at hentry
  · cases hentry
    exact hsha
  · exact h other entry hentry

theorem Stored.grow (h : Stored ws blobs) (sha : Sha) (size : ℕ) :
    Stored ws (blobs.insert sha size) :=
  fun path entry hentry => (AList.mem_insert _).mpr (.inr (h path entry hentry))

/-- Content that is not in the store is not referenced. -/
theorem Stored.newBlobBytes {file : FileWrite} (h : Stored ws blobs)
    (hsha : file.sha256 ∉ blobs) : newBlobBytes ws file = file.size := by
  unfold Dev.newBlobBytes
  rw [if_neg fun hreferences => hsha ?_]
  obtain ⟨entry, hentry, heq⟩ := List.mem_map.mp (List.contains_iff_mem.mp hreferences)
  rw [← heq]
  exact h entry.1 entry.2 (AList.mem_lookup_iff.mpr hentry)

end Batches

/-! ## Taking a site over -/

section Adopt

variable {ws : Workspace} {site : SiteManifest}

/-- The paths that are site paths of the workspace. -/
def Workspace.stalePaths (ws : Workspace) : List Path :=
  ws.files.keys.filter fun path => path.head? = some sitePrefix

/-- The workspace without its site. -/
def Workspace.cleared (ws : Workspace) : Workspace := ws.stalePaths.foldl Workspace.remove ws

theorem Workspace.lookup_foldl_remove (stale : List Path) (path : Path) :
    (stale.foldl Workspace.remove ws).files.lookup path =
      if path ∈ stale then none else ws.files.lookup path := by
  induction stale generalizing ws with
  | nil => simp
  | cons first stale ih =>
    rw [List.foldl_cons, ih, Workspace.lookup_remove]
    by_cases hfirst : path = first <;> by_cases hstale : path ∈ stale <;> simp [hfirst, hstale]

theorem Workspace.lookup_cleared (path : Path) : ws.cleared.files.lookup path =
    if path.head? = some sitePrefix then none else ws.files.lookup path := by
  rw [Workspace.cleared, Workspace.lookup_foldl_remove]
  by_cases hhead : path.head? = some sitePrefix
  · rw [if_pos hhead]
    split
    · rfl
    · rename_i hstale
      refine AList.lookup_eq_none.mpr fun hmem => hstale ?_
      exact List.mem_filter.mpr ⟨AList.mem_keys.mp hmem, decide_eq_true hhead⟩
  · have hstale : path ∉ ws.stalePaths := fun hmem => hhead (by
      simpa using (List.mem_filter.mp hmem).2)
    rw [if_neg hhead, if_neg hstale]

theorem Workspace.mem_cleared {path : Path} :
    path ∈ ws.cleared.files ↔ path ∈ ws.files ∧ path.head? ≠ some sitePrefix := by
  rw [← AList.lookup_isSome, Workspace.lookup_cleared]
  by_cases hhead : path.head? = some sitePrefix
  · simp [hhead]
  · simp [hhead, AList.lookup_isSome]

/-- The files of `site`, where the workspace has them. -/
def Workspace.insertSite (ws : Workspace) (site : SiteManifest) : Workspace :=
  site.foldl (fun ws entry => ws.insert (sitePrefix :: entry.path) entry.sha256 entry.size) ws

theorem Workspace.adopt_eq (ws : Workspace) (site : SiteManifest) :
    ws.adopt site = ws.cleared.insertSite site := rfl

theorem Workspace.mem_insertSite {path : Path} : path ∈ (ws.insertSite site).files ↔
    path ∈ ws.files ∨ ∃ file ∈ site, path = sitePrefix :: file.path := by
  induction site generalizing ws with
  | nil => simp [Workspace.insertSite]
  | cons file site ih =>
    have hcons : ws.insertSite (file :: site) =
        (ws.insert (sitePrefix :: file.path) file.sha256 file.size).insertSite site := rfl
    rw [hcons, ih, Workspace.mem_insert]
    simp only [List.mem_cons, exists_eq_or_imp, or_assoc]
    constructor
    · rintro (h | h | h)
      exacts [.inr (.inl h), .inl h, .inr (.inr h)]
    · rintro (h | h | h)
      exacts [.inr (.inl h), .inl h, .inr (.inr h)]

theorem Workspace.lookup_insertSite {path : Path} {entry : FileEntry}
    (h : (ws.insertSite site).files.lookup path = some entry) :
    ws.files.lookup path = some entry ∨
      ∃ file ∈ site, path = sitePrefix :: file.path ∧ entry = ⟨path, file.sha256, file.size⟩ := by
  induction site generalizing ws with
  | nil => exact .inl h
  | cons file site ih =>
    rcases ih h with h | ⟨file', hmem, hfile'⟩
    · rw [Workspace.lookup_insert] at h
      split at h
      · rename_i hpath
        cases h
        exact .inr ⟨file, List.mem_cons_self, hpath, by rw [hpath]⟩
      · exact .inl h
    · exact .inr ⟨file', List.mem_cons_of_mem _ hmem, hfile'⟩

theorem length_keys_insertSite :
    (ws.insertSite site).files.keys.length ≤ ws.files.keys.length + site.length := by
  induction site generalizing ws with
  | nil => exact Nat.le_refl _
  | cons file site ih =>
    refine ih.trans ?_
    have := length_keys_insert_le ws.files (sitePrefix :: file.path)
      ⟨sitePrefix :: file.path, file.sha256, file.size⟩
    rw [List.length_cons]
    simp only [Workspace.insert]
    omega

theorem length_keys_cleared : ws.cleared.files.keys.length ≤ ws.otherFiles := by
  refine (List.subperm_of_subset ws.cleared.files.keys_nodup fun path hpath => ?_).length_le
  obtain ⟨hmem, hhead⟩ := Workspace.mem_cleared.mp (AList.mem_keys.mpr hpath)
  exact List.mem_filter.mpr ⟨AList.mem_keys.mp hmem, decide_eq_true hhead⟩

theorem blobBytes_adopt : (ws.adopt site).blobBytes = ws.blobBytes := by
  have hcleared : ∀ stale : List Path, ∀ ws : Workspace,
      (stale.foldl Workspace.remove ws).blobBytes = ws.blobBytes := by
    intro stale
    induction stale with
    | nil => exact fun _ => rfl
    | cons path stale ih => exact fun ws => ih _
  have hinserted : ∀ site : SiteManifest, ∀ ws : Workspace,
      (ws.insertSite site).blobBytes = ws.blobBytes := by
    intro site
    induction site with
    | nil => exact fun _ => rfl
    | cons file site ih => exact fun ws => ih _
  exact (hinserted site _).trans (hcleared _ ws)

theorem mem_adopt {path : Path} : path ∈ (ws.adopt site).files ↔
    (path ∈ ws.files ∧ path.head? ≠ some sitePrefix) ∨
      ∃ file ∈ site, path = sitePrefix :: file.path := by
  rw [Workspace.adopt_eq, Workspace.mem_insertSite, Workspace.mem_cleared]

theorem lookup_adopt {path : Path} {entry : FileEntry}
    (h : (ws.adopt site).files.lookup path = some entry) :
    ws.files.lookup path = some entry ∨
      ∃ file ∈ site, path = sitePrefix :: file.path ∧ entry = ⟨path, file.sha256, file.size⟩ := by
  refine (Workspace.lookup_insertSite h).imp_left fun h => ?_
  replace h : ws.cleared.files.lookup path = some entry := h
  rw [Workspace.lookup_cleared] at h
  split at h
  · cases h
  · exact h

theorem under_cons (first : String) (dir path : Path) :
    Path.under (first :: dir) (first :: path) = Path.under dir path := by
  simp [Path.under, bne]

/-- Names of different areas have nothing to do with each other. -/
theorem not_under_of_head {dir path : Path} (hdir : dir ≠ []) (h : dir.head? ≠ path.head?) :
    Path.under dir path = false := by
  match dir, path with
  | [], _ => exact absurd rfl hdir
  | first :: dir, [] => rfl
  | first :: dir, second :: path =>
    have hne : first ≠ second := fun heq => h (by rw [heq]; rfl)
    simp [Path.under, hne]

theorem Accepted.ne_nil {path : Path} {area : WorkspaceArea} (h : Accepted path area) :
    path ≠ [] := by
  rintro rfl
  cases h.area

/-- A site that is taken over, where there is room for it. -/
theorem Workspace.Fits.adopt (h : ws.Fits) (hsite : SiteFits site)
    (hroom : ws.otherFiles + site.length ≤ maxFiles) : (ws.adopt site).Fits where
  keys path entry hentry := by
    rcases lookup_adopt hentry with hold | ⟨file, -, -, rfl⟩
    · exact h.keys path entry hold
    · rfl
  accepted path hpath := by
    rcases mem_adopt.mp hpath with ⟨hmem, -⟩ | ⟨file, hfile, rfl⟩
    · exact h.accepted path hmem
    · exact ⟨.site, hsite.accepted file hfile⟩
  apart dir hdir path hpath := by
    rcases mem_adopt.mp hdir with ⟨hdir, hdirhead⟩ | ⟨dirfile, hdirfile, rfl⟩ <;>
      rcases mem_adopt.mp hpath with ⟨hpath, hpathhead⟩ | ⟨file, hfile, rfl⟩
    · exact h.apart dir hdir path hpath
    · obtain ⟨area, haccepted⟩ := h.accepted dir hdir
      exact not_under_of_head haccepted.ne_nil hdirhead
    · exact not_under_of_head (List.cons_ne_nil _ _) (Ne.symm hpathhead)
    · rw [under_cons]
      exact hsite.prefixFree dirfile hdirfile file hfile
  files := (length_keys_insertSite.trans (Nat.add_le_add_right length_keys_cleared _)).trans hroom
  blocks := (length_le_of_subset (List.nodup_dedup _) fun name hname => by
    obtain ⟨path, hpath, hname⟩ := mem_blockNames.mp hname
    rcases mem_adopt.mp hpath with ⟨hmem, -⟩ | ⟨file, -, rfl⟩
    · exact mem_blockNames.mpr ⟨path, hmem, hname⟩
    · rw [blockNameOf_of_site rfl] at hname
      cases hname).trans h.blocks

/-- The files of the site are those under `site/`, each at its place there. -/
theorem mem_siteManifest {file : FileEntry} : file ∈ ws.siteManifest ↔
    ∃ entry, ws.files.lookup (sitePrefix :: file.path) = some entry ∧ file.path ≠ [] ∧
      file = { entry with path := file.path } := by
  unfold siteManifest
  rw [List.mem_filterMap]
  constructor
  · rintro ⟨⟨path, entry⟩, hmem, hfile⟩
    dsimp only at hfile
    split at hfile
    · rename_i first second rest
      split at hfile
      · rename_i hfirst
        cases hfile
        subst hfirst
        exact ⟨entry, AList.mem_lookup_iff.mpr hmem, List.cons_ne_nil _ _, rfl⟩
      · cases hfile
    · cases hfile
  · rintro ⟨entry, hlookup, hne, hfile⟩
    refine ⟨⟨sitePrefix :: file.path, entry⟩, AList.mem_lookup_iff.mp hlookup, ?_⟩
    obtain ⟨second, rest, hpath⟩ := List.exists_cons_of_ne_nil hne
    rw [hpath] at hfile ⊢
    dsimp only
    rw [if_pos rfl, ← hfile]

/-- What a workspace publishes, a workspace may take over. -/
theorem Workspace.Fits.siteFits (h : ws.Fits) : SiteFits ws.siteManifest where
  accepted file hfile := by
    obtain ⟨entry, hlookup, -, -⟩ := mem_siteManifest.mp hfile
    obtain ⟨area, haccepted⟩ := h.accepted _ (AList.lookup_isSome.mp (by rw [hlookup]; rfl))
    have harea := haccepted.area
    cases area with
    | site => exact haccepted
    | block name =>
      obtain ⟨third, rest, hpath⟩ := areaOf_block harea
      exact absurd (List.cons.inj hpath).1 (by decide)
  prefixFree a ha b hb := by
    obtain ⟨entry, hlookup, -, -⟩ := mem_siteManifest.mp ha
    obtain ⟨entry', hlookup', -, -⟩ := mem_siteManifest.mp hb
    rw [← under_cons sitePrefix]
    exact h.apart _ (AList.lookup_isSome.mp (by rw [hlookup]; rfl)) _
      (AList.lookup_isSome.mp (by rw [hlookup']; rfl))

end Adopt

end Dev
