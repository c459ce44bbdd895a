import Mathlib.Data.List.AList
import Mathlib.Tactic.Common
import Mathlib.Algebra.Group.Nat.Defs
import Mathlib.Data.Char
import Mathlib.Data.List.Lex

/-!
# What a generation is made of

A generation publishes a site, which is a list of files by path and content hash, and runs a set
of blocks. The workspace is what the next generation's site is read from.

## Main definitions

* `Dev.FileEntry`, `Dev.DynamicBlockSpec`, `Dev.GenerationManifest`.
* `Dev.blockSetChanged`: whether a generation needs a rebuilt runtime.
* `Dev.Workspace`, `Dev.Workspace.siteManifest`.
* `Dev.Folder`: the published folder, in which a name is a file or a directory and never both.

## Main results

* `Dev.blockSetChanged_eq_false_iff`: nothing changed if every name carries what it carried.
-/

namespace Dev

/-- The segments of a path: `blog/index.html` is `["blog", "index.html"]`. -/
abbrev Path := List String

/-- A path inside the directory `dir`. -/
def Path.under (dir path : Path) : Bool := dir.isPrefixOf path && dir != path

/-- The characters of a path as it is spelt. -/
def Path.spelt (path : Path) : List Char := ['/'].intercalate (path.map String.toList)

/-- The path comes first where files are gone through by the order of their paths. -/
def Path.Precedes (a b : Path) : Prop := a.spelt ≤ b.spelt

instance : DecidableRel Path.Precedes := fun a b =>
  inferInstanceAs (Decidable (a.spelt ≤ b.spelt))

/-- A content hash, which stands for the content itself. -/
abbrev Sha := ℕ

/-- What is filed by path. -/
abbrev ByPath (V : Type) := AList fun _ : Path => V

structure FileEntry where
  path : Path
  sha256 : Sha
  size : ℕ
  deriving DecidableEq

inductive RouteAccessKind
  | anyone
  | authenticated
  | admin
  deriving DecidableEq

structure DynamicRoute where
  routePrefix : Path
  access : RouteAccessKind
  deriving DecidableEq

structure DynamicBlockSpec where
  name : String
  artifactSha256 : Sha
  routes : List DynamicRoute
  capabilities : List (String × String)
  waferGuestVersion : ℕ
  deriving DecidableEq

/-- The files of a generation's site. -/
abbrev SiteManifest := List FileEntry

structure GenerationManifest where
  site : SiteManifest
  blocks : List DynamicBlockSpec
  deriving DecidableEq

/-- The files by path, each as `value` has it; a later file replaces an earlier one. -/
def byPath {V : Type} (value : FileEntry → V) (files : SiteManifest) : ByPath V :=
  files.foldl (fun filed file => filed.insert file.path (value file)) ∅

def byName (blocks : List DynamicBlockSpec) : AList fun _ : String => DynamicBlockSpec :=
  blocks.foldl (fun filed block => filed.insert block.name block) ∅

/-- The block half of `diff(prev, next).blocks_changed()`: a name was added, changed or removed. -/
def blockSetChanged (prev : Option GenerationManifest) (next : GenerationManifest) : Bool :=
  let prevBlocks := byName ((prev.map (·.blocks)).getD [])
  let nextBlocks := byName next.blocks
  nextBlocks.keys.any (fun name => prevBlocks.lookup name != nextBlocks.lookup name) ||
    prevBlocks.keys.any fun name => (nextBlocks.lookup name).isNone

/-- The hashes a site names, each once. -/
def siteBlobShas (manifest : GenerationManifest) : List Sha :=
  (manifest.site.map (·.sha256)).dedup

/-- The same blocks under the same names. -/
def SameBlocks (a b : List DynamicBlockSpec) : Prop :=
  ∀ name, (byName a).lookup name = (byName b).lookup name

theorem SameBlocks.symm {a b : List DynamicBlockSpec} (h : SameBlocks a b) : SameBlocks b a :=
  fun name => (h name).symm

theorem SameBlocks.trans {a b c : List DynamicBlockSpec} (h : SameBlocks a b)
    (h' : SameBlocks b c) : SameBlocks a c :=
  fun name => (h name).trans (h' name)

/-- Nothing changed when every name carries what it carried before. -/
theorem blockSetChanged_eq_false_iff {prev next : GenerationManifest} :
    blockSetChanged (some prev) next = false ↔ SameBlocks prev.blocks next.blocks := by
  simp only [blockSetChanged, Option.map_some, Option.getD_some, Bool.or_eq_false_iff,
    List.any_eq_false, bne_iff_ne, ne_eq, not_not, Option.isNone_iff_eq_none]
  constructor
  · rintro ⟨hnext, hprev⟩ name
    by_cases hmem : name ∈ (byName next.blocks).keys
    · exact hnext name hmem
    · have hnone : (byName next.blocks).lookup name = none :=
        AList.lookup_eq_none.mpr fun h => hmem (AList.mem_keys.mp h)
      rw [hnone]
      exact AList.lookup_eq_none.mpr fun h => hprev name (AList.mem_keys.mp h) hnone
  · intro h
    refine ⟨fun name _ => h name, fun name hmem hnone => ?_⟩
    rw [← h name] at hnone
    exact AList.lookup_eq_none.mp hnone (AList.mem_keys.mpr hmem)

/-! ## The workspace -/

/-- The largest `u64`. -/
def u64Max : ℕ := 2 ^ 64 - 1

/-- The largest `u32`. -/
def u32Max : ℕ := 2 ^ 32 - 1

/-- `saturating_add`, at a type whose largest number is `most`. -/
def saturatingAdd (most a b : ℕ) : ℕ := min most (a + b)

theorem saturatingAdd_of_le {most a b : ℕ} (h : a + b ≤ most) : saturatingAdd most a b = a + b :=
  Nat.min_eq_right h

structure Workspace where
  files : ByPath FileEntry
  blobBytes : ℕ
  blobCount : ℕ

namespace Workspace

/-- The workspace of a fresh instance. -/
def empty : Workspace := ⟨∅, 0, 0⟩

def get (ws : Workspace) (path : Path) : Option FileEntry := ws.files.lookup path

def insert (ws : Workspace) (path : Path) (sha256 : Sha) (size : ℕ) : Workspace :=
  { ws with files := ws.files.insert path ⟨path, sha256, size⟩ }

def remove (ws : Workspace) (path : Path) : Workspace := { ws with files := ws.files.erase path }

/-- The hashes that the entries name. -/
def shas (ws : Workspace) : List Sha := ws.files.entries.map fun entry => entry.2.sha256

def references (ws : Workspace) (sha : Sha) : Bool := ws.shas.contains sha

def recordBlobStored (ws : Workspace) (bytes : ℕ) : Workspace :=
  { ws with
    blobBytes := saturatingAdd u64Max ws.blobBytes bytes
    blobCount := saturatingAdd u32Max ws.blobCount 1 }

/-- Set the totals; also says whether that changed them. -/
def resetBlobTotals (ws : Workspace) (bytes count : ℕ) : Bool × Workspace :=
  (ws.blobBytes != bytes || ws.blobCount != count,
    { ws with blobBytes := bytes, blobCount := count })

/-- An entry that shares part of its name with `path`, one being a directory of the other. -/
def pathCollision (ws : Workspace) (path : Path) : Option Path :=
  ws.files.keys.find? fun stored => Path.under path stored || Path.under stored path

/-- The prefix of the workspace that a site is published from. -/
def sitePrefix : String := "site"

/-- The prefix of the workspace that the sources of the blocks are under. -/
def blocksPrefix : String := "blocks"

/-- The block that a path holds a source of. -/
def blockNameOf : Path → Option String
  | first :: name :: _ :: _ => if first = blocksPrefix then some name else none
  | _ => none

/-- The blocks that the workspace has sources of, each once. -/
def blockNames (ws : Workspace) : List String := (ws.files.keys.filterMap blockNameOf).dedup

/-- The entries under `site/`, at their paths in the site. -/
def siteManifest (ws : Workspace) : SiteManifest :=
  ws.files.entries.filterMap fun entry =>
    match entry.1 with
    | first :: second :: rest =>
      if first = sitePrefix then some { entry.2 with path := second :: rest } else none
    | _ => none

/-- The `site/` half replaced by `site`, the rest kept. -/
def adopt (ws : Workspace) (site : SiteManifest) : Workspace :=
  let stale := ws.files.keys.filter fun path => path.head? = some sitePrefix
  let cleared := stale.foldl remove ws
  site.foldl (fun ws entry => ws.insert (sitePrefix :: entry.path) entry.sha256 entry.size) cleared

end Workspace

/-! ## The published folder -/

/-- The published folder. A name is a file or a directory and never both, so no file lies under
another one. -/
structure Folder where
  files : ByPath Sha
  apart : ∀ dir ∈ files, ∀ path ∈ files, Path.under dir path = false

namespace Folder

/-- The folder that nothing was published to. -/
def empty : Folder := ⟨∅, fun _ h => absurd h (AList.notMem_empty _)⟩

/-- What is at the path. -/
def lookup (folder : Folder) (path : Path) : Option Sha := folder.files.lookup path

/-- Write a file; refused where the name is a directory, or where a directory of it is a file. -/
def put (folder : Folder) (path : Path) (sha : Sha) : Option Folder :=
  if h : ∀ stored ∈ folder.files.keys,
      Path.under path stored = false ∧ Path.under stored path = false then
    some ⟨folder.files.insert path sha, by
      have hself : Path.under path path = false := by simp [Path.under]
      intro dir hdir stored hstored
      rw [AList.mem_insert] at hdir hstored
      rcases hdir with rfl | hdir <;> rcases hstored with rfl | hstored
      · exact hself
      · exact (h stored (AList.mem_keys.mp hstored)).1
      · exact (h dir (AList.mem_keys.mp hdir)).2
      · exact folder.apart dir hdir stored hstored⟩
  else none

/-- The folder without the file. -/
def erase (folder : Folder) (path : Path) : Folder :=
  ⟨folder.files.erase path, fun dir hdir stored hstored =>
    folder.apart dir (AList.mem_erase.mp hdir).2 stored (AList.mem_erase.mp hstored).2⟩

theorem lookup_put {folder folder' : Folder} {path : Path} {sha : Sha}
    (h : folder.put path sha = some folder') (other : Path) :
    folder'.lookup other = if other = path then some sha else folder.lookup other := by
  unfold put at h
  split at h
  · cases h
    by_cases hother : other = path
    · subst hother
      simp [lookup]
    · simp [lookup, hother]
  · cases h

theorem lookup_erase (folder : Folder) (path other : Path) :
    (folder.erase path).lookup other = if other = path then none else folder.lookup other := by
  by_cases hother : other = path
  · subst hother
    simp [lookup, erase]
  · simp [lookup, erase, hother]

/-- No file lies under another. -/
theorem not_under (folder : Folder) {dir path : Path} (hdir : folder.lookup dir ≠ none)
    (hpath : folder.lookup path ≠ none) : Path.under dir path = false :=
  folder.apart dir (AList.lookup_isSome.mp (Option.isSome_iff_ne_none.mpr hdir)) path
    (AList.lookup_isSome.mp (Option.isSome_iff_ne_none.mpr hpath))

end Folder

end Dev
