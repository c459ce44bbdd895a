import Impresspress.Concurrent.Walks
import Impresspress.Dev.Commit

/-!
# The calls of a publish

The calls that a publish makes are known once the manifests and the record are: it removes what
stands in the way, writes what changed, removes the rest and writes the entrypoint. What they make
of the folder is a matter of the folder alone.

## Main definitions

* `Dev.PrefixFree`: no file of a site lies under another one.
* `Dev.FolderCall`: a call of a publish, by what it does to the folder.
* `Dev.publishCalls`: the calls of a publish, in turn.

## Main results

* `Dev.publishSite_follows`: a publish makes these calls.
* `Dev.stoppedAt_publishSite`: what is in the folder where a publish stops.
* `Dev.publishSite_ok`: a publish ends well if none of its calls fails or is refused.
* `Dev.applyAll_publishCalls`: where no call of a publish is refused.
-/

namespace Dev

open Concurrent Concurrent.Fallible

/-- No file of a site lies under another one. -/
def PrefixFree (files : SiteManifest) : Prop :=
  ∀ a ∈ files, ∀ b ∈ files, Path.under a.path b.path = false

instance (files : SiteManifest) : Decidable (PrefixFree files) :=
  inferInstanceAs (Decidable (∀ a ∈ files, ∀ b ∈ files, Path.under a.path b.path = false))

/-- No path of a view lies under another one. -/
def Apart (view : Path → Option Sha) : Prop :=
  ∀ a b, view a ≠ none → view b ≠ none → Path.under a b = false

/-- The call is refused: it has not failed, and reports an error. -/
def Refused (chance : Chance) (c : DevCall) (s : DevStore) : Prop :=
  chance.fails = false ∧ ∃ e, (perform chance c s).1 = .error e

/-! ## Views without collisions -/

section Views

variable {V : Type}

theorem mem_of_lookup_byPath {files : SiteManifest} {path : Path} {entry : FileEntry}
    (h : (byPath id files).lookup path = some entry) : entry ∈ files ∧ entry.path = path := by
  have hfold : ∀ (files : SiteManifest) (filed : ByPath FileEntry) (P : FileEntry → Prop),
      (∀ path entry, filed.lookup path = some entry → P entry ∧ entry.path = path) →
      (∀ entry ∈ files, P entry) → ∀ path entry,
      (files.foldl (fun filed file => filed.insert file.path (id file)) filed).lookup path =
        some entry → P entry ∧ entry.path = path := by
    intro files
    induction files with
    | nil => exact fun filed P hfiled _ => hfiled
    | cons file files ih =>
      intro filed P hfiled hfiles
      refine ih _ P (fun path entry hentry => ?_) fun entry hentry =>
        hfiles entry (List.mem_cons_of_mem _ hentry)
      by_cases hpath : path = file.path
      · subst hpath
        rw [AList.lookup_insert] at hentry
        cases hentry
        exact ⟨hfiles _ List.mem_cons_self, rfl⟩
      · rw [AList.lookup_insert_ne hpath] at hentry
        exact hfiled path entry hentry
  exact hfold files ∅ (· ∈ files) (fun path entry h => by simp at h) (fun _ h => h) path entry h

/-- A file of a published view is one of its site. -/
theorem mem_of_publishedView {files : SiteManifest} {text : Option Sha} {path : Path}
    {entry : FileEntry} (h : (publishedView files text).lookup path = some (.site entry)) :
    entry ∈ files := by
  have hsite : (byPath Published.site files).lookup path = some (.site entry) := by
    unfold publishedView at h
    by_cases hfree : nameIsFree llmsPath (byPath Published.site files)
    · by_cases hpath : path = llmsPath
      · subst hpath
        rw [lookup_withLlms_of_free hfree] at h
        cases text <;> cases h
      · rwa [lookup_withLlms_of_ne hpath] at h
    · rwa [withLlms_of_not_free hfree] at h
  rw [lookup_byPath] at hsite
  obtain ⟨entry', hentry', heq⟩ := Option.map_eq_some_iff.mp hsite
  cases heq
  exact (mem_of_lookup_byPath hentry').1

/-- The names of a site are apart, and so are those that are published with it. -/
theorem apart_publishedBefore {files : SiteManifest} (h : PrefixFree files) (llms : Option Sha) :
    Apart (publishedBefore (some files) llms).lookup := by
  have hfiles : Apart (byPath (·.sha256) files).lookup := by
    intro a b ha hb
    dsimp only at ha hb
    rw [lookup_byPath, ne_eq, Option.map_eq_none_iff] at ha hb
    obtain ⟨x, hx⟩ := Option.ne_none_iff_exists'.mp ha
    obtain ⟨y, hy⟩ := Option.ne_none_iff_exists'.mp hb
    obtain ⟨hx', rfl⟩ := mem_of_lookup_byPath hx
    obtain ⟨hy', rfl⟩ := mem_of_lookup_byPath hy
    exact h x hx' y hy'
  unfold publishedBefore
  rw [Option.getD_some]
  by_cases hfree : nameIsFree llmsPath (byPath (fun entry => entry.sha256) files)
  · have hstored := (nameIsFree_iff.mp hfree).2
    have hmem : ∀ path, path ≠ llmsPath →
        (withLlms (byPath (fun entry => entry.sha256) files) llms).lookup path ≠ none →
        path ∈ byPath (fun entry => entry.sha256) files := by
      intro path hpath hlookup
      rw [lookup_withLlms_of_ne hpath] at hlookup
      exact AList.lookup_isSome.mp (Option.isSome_iff_ne_none.mpr hlookup)
    have hself : Path.under llmsPath llmsPath = false := by decide
    intro a b ha hb
    dsimp only at ha hb
    by_cases hallms : a = llmsPath <;> by_cases hbllms : b = llmsPath
    · rw [hallms, hbllms]
      exact hself
    · rw [hallms]
      exact (hstored b (hmem b hbllms hb)).1
    · rw [hbllms]
      exact (hstored a (hmem a hallms ha)).2
    · rw [lookup_withLlms_of_ne hallms] at ha
      rw [lookup_withLlms_of_ne hbllms] at hb
      exact hfiles a b ha hb
  · rw [withLlms_of_not_free hfree]
    exact hfiles

theorem apart_publishedView {files : SiteManifest} (h : PrefixFree files) (text : Option Sha) :
    Apart (contents (publishedView files text)) := by
  intro a b ha hb
  rw [contents_publishedView] at ha hb
  exact apart_publishedBefore h text a b ha hb

theorem collidesWithAny_iff {view : ByPath Published} {path : Path} :
    collidesWithAny path view = true ↔ ∃ stored, contents view stored ≠ none ∧
      (Path.under path stored = true ∨ Path.under stored path = true) := by
  have hmem : ∀ stored, stored ∈ view.keys ↔ contents view stored ≠ none := fun stored => by
    unfold contents
    rw [ne_eq, Option.map_eq_none_iff, ← AList.mem_keys, ← AList.lookup_isSome,
      Option.isSome_iff_ne_none]
  simp [collidesWithAny, hmem]

end Views

/-! ## The folder -/

/-- What a call of a publish does to the folder. -/
inductive FolderCall
  | keep
  | remove (path : Path)
  | write (path : Path) (sha256 : Sha)
  deriving DecidableEq

namespace FolderCall

/-- The folder after the call; there is none where the call is refused. -/
def apply : FolderCall → Folder → Option Folder
  | keep, folder => some folder
  | remove path, folder =>
    if folder.files.keys.any fun stored => Path.under path stored then none
    else some (folder.erase path)
  | write path sha256, folder => folder.put path sha256

/-- The path that the call is about. -/
def path? : FolderCall → Option Path
  | keep => none
  | remove path | write path _ => some path

/-- What the call leaves at its path is what the view has there. -/
def Sets (view : Path → Option Sha) : FolderCall → Prop
  | keep => True
  | remove path => view path = none
  | write path sha256 => view path = some sha256

end FolderCall

/-- One call after the other; there is no folder once one of them is refused. -/
def applyAll (calls : List FolderCall) (folder : Folder) : Option Folder :=
  calls.foldlM (fun folder call => call.apply folder) folder

/-- The paths that the calls have changed. -/
def changedPaths (calls : List FolderCall) : List Path := calls.filterMap FolderCall.path?

/-- The calls that write a file: the content of a site's file is read first. -/
def writeCalls (path : Path) : Published → List FolderCall
  | .site entry => [.keep, .write path entry.sha256]
  | .sandbox sha256 => [.write path sha256]

section Calls

variable (prevByPath : ByPath Sha) (nextByPath : ByPath Published)

/-- Deletions that stand in the way of a write. -/
def clearingCalls : List FolderCall :=
  ((stalePaths prevByPath nextByPath).filter fun path => collidesWithAny path nextByPath).map
    .remove

/-- Every changed file but the entrypoint. -/
def assetCalls : List FolderCall :=
  ((changedFiles prevByPath nextByPath).filter fun file => file.1 ≠ entrypoint).flatMap
    fun file => writeCalls file.1 file.2

/-- The remaining files that the new view no longer has. -/
def droppingCalls : List FolderCall :=
  ((stalePaths prevByPath nextByPath).filter fun path => !collidesWithAny path nextByPath).map
    .remove

/-- The entrypoint. -/
def lastCalls : List FolderCall :=
  ((changedFiles prevByPath nextByPath).filter fun file => file.1 = entrypoint).flatMap
    fun file => writeCalls file.1 file.2

/-- The calls of a publish once it has read the record, until it sets it. -/
def publishCalls : List FolderCall :=
  clearingCalls prevByPath nextByPath ++ (assetCalls prevByPath nextByPath ++
    (droppingCalls prevByPath nextByPath ++ lastCalls prevByPath nextByPath))

end Calls

section Folder

variable {folder folder' : Folder} {calls : List FolderCall} {view : Path → Option Sha}

theorem Folder.not_any_under {path : Path}
    (h : ∀ stored, folder.lookup stored ≠ none → Path.under path stored = false) :
    (folder.files.keys.any fun stored => Path.under path stored) = false := by
  rw [List.any_eq_false]
  intro stored hstored
  rw [h stored (Option.isSome_iff_ne_none.mp (AList.lookup_isSome.mpr (AList.mem_keys.mpr hstored)))]
  decide

theorem Folder.any_under {path stored : Path} (hstored : folder.lookup stored ≠ none)
    (hunder : Path.under path stored = true) :
    (folder.files.keys.any fun stored => Path.under path stored) = true :=
  List.any_eq_true.mpr ⟨stored, AList.mem_keys.mp (AList.lookup_isSome.mp
    (Option.isSome_iff_ne_none.mpr hstored)), hunder⟩

theorem Folder.put_isSome {path : Path} (sha256 : Sha)
    (h : ∀ stored, folder.lookup stored ≠ none →
      Path.under path stored = false ∧ Path.under stored path = false) :
    ∃ folder', folder.put path sha256 = some folder' := by
  unfold Folder.put
  rw [dif_pos]
  · exact ⟨_, rfl⟩
  · exact fun stored hstored => h stored (Option.isSome_iff_ne_none.mp
      (AList.lookup_isSome.mpr (AList.mem_keys.mpr hstored)))

theorem lookup_apply {call : FolderCall} (hsets : call.Sets view)
    (h : call.apply folder = some folder') (path : Path) :
    folder'.lookup path = if call.path? = some path then view path else folder.lookup path := by
  cases call with
  | keep =>
    cases h
    rfl
  | remove removed =>
    simp only [FolderCall.apply] at h
    split at h
    · cases h
    cases h
    rw [Folder.lookup_erase]
    by_cases hpath : path = removed
    · subst hpath
      rw [if_pos rfl, FolderCall.path?, if_pos rfl]
      exact hsets.symm
    · rw [if_neg hpath, FolderCall.path?, if_neg fun h => hpath (Option.some.inj h).symm]
  | write written sha256 =>
    rw [Folder.lookup_put h]
    by_cases hpath : path = written
    · subst hpath
      rw [if_pos rfl, FolderCall.path?, if_pos rfl]
      exact hsets.symm
    · rw [if_neg hpath, FolderCall.path?, if_neg fun h => hpath (Option.some.inj h).symm]

theorem applyAll_cons (call : FolderCall) (calls : List FolderCall) (folder : Folder) :
    applyAll (call :: calls) folder = (call.apply folder).bind (applyAll calls) :=
  List.foldlM_cons

theorem applyAll_append (calls calls' : List FolderCall) (folder : Folder) :
    applyAll (calls ++ calls') folder = (applyAll calls folder).bind (applyAll calls') :=
  List.foldlM_append

theorem applyAll_concat (calls : List FolderCall) (call : FolderCall) (folder : Folder) :
    applyAll (calls ++ [call]) folder = (applyAll calls folder).bind call.apply := by
  rw [applyAll_append]
  refine congrArg _ (funext fun folder => ?_)
  rw [applyAll_cons]
  exact Option.bind_fun_some _

theorem changedPaths_append (calls calls' : List FolderCall) :
    changedPaths (calls ++ calls') = changedPaths calls ++ changedPaths calls' :=
  List.filterMap_append

theorem mem_changedPaths_cons {call : FolderCall} {calls : List FolderCall} {path : Path} :
    path ∈ changedPaths (call :: calls) ↔ call.path? = some path ∨ path ∈ changedPaths calls := by
  simp [changedPaths]

/-- The paths that were changed are as the view has them. -/
theorem overwritten_of_applyAll (hsets : ∀ call ∈ calls, call.Sets view)
    (h : applyAll calls folder = some folder') :
    Overwritten folder view (changedPaths calls) folder' := by
  induction calls generalizing folder with
  | nil =>
    cases h
    exact fun path => by simp [changedPaths]
  | cons call calls ih =>
    rw [applyAll_cons] at h
    obtain ⟨middle, hcall, hrest⟩ := Option.bind_eq_some_iff.mp h
    intro path
    rw [ih (fun call hmem => hsets call (List.mem_cons_of_mem _ hmem)) hrest path,
      lookup_apply (hsets call List.mem_cons_self) hcall path]
    by_cases hlater : path ∈ changedPaths calls
    · rw [if_pos hlater, if_pos (mem_changedPaths_cons.mpr (.inr hlater))]
    · rw [if_neg hlater]
      by_cases hnow : call.path? = some path
      · rw [if_pos hnow, if_pos (mem_changedPaths_cons.mpr (.inl hnow))]
      · rw [if_neg hnow, if_neg fun h => (mem_changedPaths_cons.mp h).elim hnow hlater]

/-- Calls of which none is refused when its turn comes. -/
theorem applyAll_ne_none (h : ∀ past call rest middle, calls = past ++ call :: rest →
      applyAll past folder = some middle → call.apply middle ≠ none) :
    applyAll calls folder ≠ none := by
  induction calls generalizing folder with
  | nil => exact Option.some_ne_none folder
  | cons call calls ih =>
    obtain ⟨middle, hcall⟩ := Option.ne_none_iff_exists'.mp (h [] call calls folder rfl rfl)
    rw [applyAll_cons, hcall]
    refine ih fun past call' rest middle' hcalls hpast => ?_
    refine h (call :: past) call' rest middle' (by rw [hcalls, List.cons_append]) ?_
    rw [applyAll_cons, hcall]
    exact hpast

/-- No call was refused of those that were made before the last. -/
theorem apply_ne_none {past rest : List FolderCall} {call : FolderCall} {middle : Folder}
    (h : applyAll (past ++ call :: rest) folder ≠ none) (hpast : applyAll past folder = some middle) :
    call.apply middle ≠ none := fun hrefused => by
  rw [applyAll_append, hpast, Option.bind_some, applyAll_cons, hrefused] at h
  exact h rfl

end Folder

/-! ## The calls in their order -/

section Plan

variable {prevByPath : ByPath Sha} {nextByPath : ByPath Published} {path : Path}
  {past rest : List FolderCall}

theorem mem_stalePaths_iff : path ∈ stalePaths prevByPath nextByPath ↔
    prevByPath.lookup path ≠ none ∧ contents nextByPath path = none := by
  refine ⟨mem_stalePaths, fun ⟨hold, hnone⟩ => ?_⟩
  rcases stale_or_changed fun heq => hold (heq.trans hnone) with hstale | ⟨file, hfile⟩
  · exact hstale
  · have hsome := (mem_changedFiles hfile).2
    rw [hnone] at hsome
    cases hsome

theorem changedPaths_map_remove (paths : List Path) :
    changedPaths (paths.map .remove) = paths := by
  rw [changedPaths, List.filterMap_map]
  exact List.filterMap_some

theorem changedPaths_writeCalls (files : List (Sigma fun _ : Path => Published)) :
    changedPaths (files.flatMap fun file => writeCalls file.1 file.2) = files.map Sigma.fst := by
  induction files with
  | nil => rfl
  | cons file files ih =>
    rw [List.flatMap_cons, changedPaths_append, ih, List.map_cons]
    obtain ⟨path, content⟩ := file
    cases content <;> rfl

theorem mem_clearing : path ∈ changedPaths (clearingCalls prevByPath nextByPath) ↔
    path ∈ stalePaths prevByPath nextByPath ∧ collidesWithAny path nextByPath = true := by
  rw [clearingCalls, changedPaths_map_remove, List.mem_filter]

theorem mem_dropping : path ∈ changedPaths (droppingCalls prevByPath nextByPath) ↔
    path ∈ stalePaths prevByPath nextByPath ∧ collidesWithAny path nextByPath = false := by
  rw [droppingCalls, changedPaths_map_remove, List.mem_filter, Bool.not_eq_true']

theorem mem_assets : path ∈ changedPaths (assetCalls prevByPath nextByPath) ↔
    (∃ file, ⟨path, file⟩ ∈ changedFiles prevByPath nextByPath) ∧ path ≠ entrypoint := by
  rw [assetCalls, changedPaths_writeCalls, List.mem_map]
  constructor
  · rintro ⟨file, hfile, rfl⟩
    obtain ⟨hmem, hne⟩ := List.mem_filter.mp hfile
    exact ⟨⟨file.2, hmem⟩, of_decide_eq_true hne⟩
  · rintro ⟨⟨file, hmem⟩, hne⟩
    exact ⟨⟨path, file⟩, List.mem_filter.mpr ⟨hmem, decide_eq_true hne⟩, rfl⟩

theorem mem_last : path ∈ changedPaths (lastCalls prevByPath nextByPath) ↔
    (∃ file, ⟨path, file⟩ ∈ changedFiles prevByPath nextByPath) ∧ path = entrypoint := by
  rw [lastCalls, changedPaths_writeCalls, List.mem_map]
  constructor
  · rintro ⟨file, hfile, rfl⟩
    obtain ⟨hmem, heq⟩ := List.mem_filter.mp hfile
    exact ⟨⟨file.2, hmem⟩, of_decide_eq_true heq⟩
  · rintro ⟨⟨file, hmem⟩, heq⟩
    exact ⟨⟨path, file⟩, List.mem_filter.mpr ⟨hmem, decide_eq_true heq⟩, rfl⟩

/-- A publish changes the paths at which the folder is taken to differ from the next view. -/
theorem mem_changedPaths_publishCalls :
    path ∈ changedPaths (publishCalls prevByPath nextByPath) ↔
      prevByPath.lookup path ≠ contents nextByPath path := by
  rw [publishCalls, changedPaths_append, changedPaths_append, changedPaths_append,
    List.mem_append, List.mem_append, List.mem_append, mem_clearing, mem_assets, mem_dropping,
    mem_last]
  constructor
  · have hstale : path ∈ stalePaths prevByPath nextByPath →
        prevByPath.lookup path ≠ contents nextByPath path := fun h heq =>
      (mem_stalePaths h).1 (heq.trans (mem_stalePaths h).2)
    rintro (⟨h, -⟩ | ⟨⟨file, hfile⟩, -⟩ | ⟨h, -⟩ | ⟨⟨file, hfile⟩, -⟩)
    · exact hstale h
    · exact (mem_changedFiles hfile).1
    · exact hstale h
    · exact (mem_changedFiles hfile).1
  · intro hdiffer
    rcases stale_or_changed hdiffer with hstale | hchanged
    · cases hcollides : collidesWithAny path nextByPath with
      | true => exact .inl ⟨hstale, rfl⟩
      | false => exact .inr (.inr (.inl ⟨hstale, rfl⟩))
    · by_cases hentry : path = entrypoint
      · exact .inr (.inr (.inr ⟨hchanged, hentry⟩))
      · exact .inr (.inl ⟨hchanged, hentry⟩)

theorem writeCalls_sets {files : List (Sigma fun _ : Path => Published)}
    (h : ∀ file ∈ files, file ∈ changedFiles prevByPath nextByPath) :
    ∀ call ∈ files.flatMap (fun file => writeCalls file.1 file.2),
      call.Sets (contents nextByPath) ∧ ∀ path, call ≠ .remove path := by
  intro call hcall
  obtain ⟨⟨path, content⟩, hfile, hmem⟩ := List.mem_flatMap.mp hcall
  have hview := (mem_changedFiles (h _ hfile)).2
  cases content with
  | site entry =>
    rcases List.mem_cons.mp hmem with rfl | hmem
    · exact ⟨trivial, nofun⟩
    · rw [List.mem_singleton.mp hmem]
      exact ⟨hview, nofun⟩
  | sandbox sha256 =>
    rw [List.mem_singleton.mp hmem]
    exact ⟨hview, nofun⟩

theorem assetCalls_sets : ∀ call ∈ assetCalls prevByPath nextByPath,
    call.Sets (contents nextByPath) ∧ ∀ path, call ≠ .remove path :=
  writeCalls_sets fun _ h => List.mem_of_mem_filter h

theorem lastCalls_sets : ∀ call ∈ lastCalls prevByPath nextByPath,
    call.Sets (contents nextByPath) ∧ ∀ path, call ≠ .remove path :=
  writeCalls_sets fun _ h => List.mem_of_mem_filter h

/-- Everything that a publish changes becomes what the next view has. -/
theorem publishCalls_sets : ∀ call ∈ publishCalls prevByPath nextByPath,
    call.Sets (contents nextByPath) := by
  have hremove : ∀ paths : List Path, (∀ path ∈ paths, path ∈ stalePaths prevByPath nextByPath) →
      ∀ call ∈ paths.map FolderCall.remove, call.Sets (contents nextByPath) := by
    intro paths hpaths call hcall
    obtain ⟨path, hpath, rfl⟩ := List.mem_map.mp hcall
    exact (mem_stalePaths (hpaths path hpath)).2
  intro call hcall
  rcases List.mem_append.mp hcall with hcall | hcall
  · exact hremove _ (fun _ h => List.mem_of_mem_filter h) call hcall
  rcases List.mem_append.mp hcall with hcall | hcall
  · exact (assetCalls_sets call hcall).1
  rcases List.mem_append.mp hcall with hcall | hcall
  · exact hremove _ (fun _ h => List.mem_of_mem_filter h) call hcall
  · exact (lastCalls_sets call hcall).1

/-- Where a publish removes a path, no path of the next view that was written lies under it. -/
theorem of_remove (h : publishCalls prevByPath nextByPath = past ++ .remove path :: rest) :
    path ∈ stalePaths prevByPath nextByPath ∧ ∀ stored ∈ changedPaths past,
      contents nextByPath stored ≠ none → Path.under path stored = false := by
  have hmem : FolderCall.remove path ∈ publishCalls prevByPath nextByPath := by
    rw [h]
    exact List.mem_append_right _ List.mem_cons_self
  have hnone : contents nextByPath path = none := publishCalls_sets _ hmem
  have hdiffer := mem_changedPaths_publishCalls.mp (List.mem_filterMap.mpr ⟨_, hmem, rfl⟩)
  refine ⟨mem_stalePaths_iff.mpr ⟨hnone ▸ hdiffer, hnone⟩, fun stored hstored hsome => ?_⟩
  rcases List.append_eq_append_iff.mp h with ⟨later, -, hback⟩ | ⟨later, hfront, -⟩
  · -- the path shares its name with nothing new
    have hlate : FolderCall.remove path ∈ assetCalls prevByPath nextByPath ++
        (droppingCalls prevByPath nextByPath ++ lastCalls prevByPath nextByPath) := by
      rw [hback]
      exact List.mem_append_right _ List.mem_cons_self
    have hdropped : FolderCall.remove path ∈ droppingCalls prevByPath nextByPath := by
      rcases List.mem_append.mp hlate with hasset | hlate
      · exact absurd rfl ((assetCalls_sets _ hasset).2 path)
      · exact (List.mem_append.mp hlate).resolve_right fun hlast =>
          (lastCalls_sets _ hlast).2 path rfl
    have hcollides := (mem_dropping.mp (List.mem_filterMap.mpr ⟨_, hdropped, rfl⟩)).2
    by_contra hunder
    rw [collidesWithAny_iff.mpr ⟨stored, hsome, .inl (by simpa using hunder)⟩] at hcollides
    cases hcollides
  · -- nothing was written yet
    have hcleared : stored ∈ changedPaths (clearingCalls prevByPath nextByPath) := by
      rw [hfront, changedPaths_append]
      exact List.mem_append_left _ hstored
    exact absurd (mem_stalePaths (mem_clearing.mp hcleared).1).2 hsome

/-- Where a publish writes a path, what stands in the way of the next view is gone. -/
theorem of_write {sha256 : Sha}
    (h : publishCalls prevByPath nextByPath = past ++ .write path sha256 :: rest) :
    contents nextByPath path = some sha256 ∧ ∀ stored ∈ stalePaths prevByPath nextByPath,
      collidesWithAny stored nextByPath = true → stored ∈ changedPaths past := by
  have hmem : FolderCall.write path sha256 ∈ publishCalls prevByPath nextByPath := by
    rw [h]
    exact List.mem_append_right _ List.mem_cons_self
  refine ⟨publishCalls_sets _ hmem, fun stored hstale hcollides => ?_⟩
  have hcleared := mem_clearing.mpr ⟨hstale, hcollides⟩
  rcases List.append_eq_append_iff.mp h with ⟨later, rfl, -⟩ | ⟨later, hfront, hback⟩
  · rw [changedPaths_append]
    exact List.mem_append_left _ hcleared
  · cases later with
    | nil =>
      rw [List.append_nil] at hfront
      rwa [← hfront]
    | cons call later =>
      cases hback
      have hwrite : FolderCall.write path sha256 ∈ clearingCalls prevByPath nextByPath := by
        rw [hfront]
        exact List.mem_append_right _ List.mem_cons_self
      obtain ⟨_, _, hremove⟩ := List.mem_map.mp hwrite
      cases hremove

/-- Where a publish leaves the folder. -/
theorem lookup_of_publish {folder folder' : Folder}
    (h : applyAll (publishCalls prevByPath nextByPath) folder = some folder') (path : Path) :
    folder'.lookup path =
      if prevByPath.lookup path = contents nextByPath path then folder.lookup path
      else contents nextByPath path := by
  rw [overwritten_of_applyAll publishCalls_sets h path]
  by_cases hsame : prevByPath.lookup path = contents nextByPath path
  · rw [if_neg fun hmem => mem_changedPaths_publishCalls.mp hmem hsame, if_pos hsame]
  · rw [if_pos (mem_changedPaths_publishCalls.mpr hsame), if_neg hsame]

/-- No call of a publish is refused if nothing is stored under a path that is removed, and what is
stored is known to the publisher or has its place in the next view. -/
theorem applyAll_publishCalls {folder : Folder} (hview : Apart (contents nextByPath))
    (hfile : ∀ path stored, prevByPath.lookup path ≠ none → contents nextByPath path = none →
      folder.lookup stored ≠ none → Path.under path stored = false)
    (hknown : ∀ stored, folder.lookup stored ≠ none → contents nextByPath stored = none →
      prevByPath.lookup stored ≠ none) :
    applyAll (publishCalls prevByPath nextByPath) folder ≠ none := by
  refine applyAll_ne_none fun past call rest middle hcalls hpast => ?_
  have hmiddle := overwritten_of_applyAll (fun call hcall => publishCalls_sets call (by
    rw [hcalls]
    exact List.mem_append_left _ hcall)) hpast
  cases call with
  | keep => exact Option.some_ne_none _
  | remove path =>
    obtain ⟨hstale, hwritten⟩ := of_remove hcalls
    obtain ⟨hold, hnone⟩ := mem_stalePaths hstale
    rw [FolderCall.apply, Folder.not_any_under fun stored hstored => ?_]
    · exact Option.some_ne_none _
    rw [hmiddle] at hstored
    split at hstored
    · exact hwritten stored ‹_› hstored
    · exact hfile path stored hold hnone hstored
  | write path sha256 =>
    obtain ⟨hsome, hcleared⟩ := of_write hcalls
    have hpath : contents nextByPath path ≠ none := fun h => by
      rw [h] at hsome
      cases hsome
    have hfree : ∀ stored, middle.lookup stored ≠ none →
        Path.under path stored = false ∧ Path.under stored path = false := by
      intro stored hstored
      by_cases hnone : contents nextByPath stored = none
      · -- it was not removed, so it does not stand in the way
        rw [hmiddle] at hstored
        split at hstored
        · exact absurd hnone hstored
        rename_i hkept
        have hstale := mem_stalePaths_iff.mpr ⟨hknown stored hstored hnone, hnone⟩
        by_contra hunder
        refine hkept (hcleared stored hstale (collidesWithAny_iff.mpr ⟨path, hpath, ?_⟩))
        by_contra hneither
        rw [not_or, Bool.not_eq_true, Bool.not_eq_true] at hneither
        exact hunder hneither.symm
      · exact ⟨hview path stored hpath hnone, hview stored path hnone hpath⟩
    obtain ⟨folder', hput⟩ := Folder.put_isSome sha256 hfree
    rw [FolderCall.apply, hput]
    exact Option.some_ne_none _

end Plan

/-! ## The run -/

/-- These calls were made since `s`. -/
structure Made (s : DevStore) (calls : List FolderCall) (x : DevStore × ℕ) : Prop where
  count : x.2 = calls.length
  folder : applyAll calls s.folder = some x.1.folder
  blobs : x.1.blobs = s.blobs
  llms : x.1.llms = s.llms

/-- The call does to the folder what `op` says, or leaves it alone; it is refused where `op` is. -/
structure Does (op : FolderCall) (chance : Chance) (c : DevCall) (x : DevStore × ℕ) : Prop where
  folder : (perform chance c x.1).2.folder = x.1.folder ∨
    op.apply x.1.folder = some (perform chance c x.1).2.folder
  refused : Refused chance c x.1 → op.apply x.1.folder = none

section Run

variable {s : DevStore}

theorem Made.concat {calls : List FolderCall} {x : DevStore × ℕ} {op : FolderCall} {s' : DevStore}
    (h : Made s calls x) (hop : op.apply x.1.folder = some s'.folder) (hblobs : s'.blobs = x.1.blobs)
    (hllms : s'.llms = x.1.llms) : Made s (calls ++ [op]) (s', x.2 + 1) where
  count := by rw [h.count, List.length_append, List.length_singleton]
  folder := by rw [applyAll_concat, h.folder, Option.bind_some, hop]
  blobs := hblobs.trans h.blobs
  llms := hllms.trans h.llms

/-- A call is what it does when it does not fail. -/
theorem follows_folderCall {c : DevCall} {op : FolderCall} (hc : c.mayFail = true)
    (h : ∀ done x, Made s done x → ∀ chance : Chance, chance.fails = false →
      (∃ folder, op.apply x.1.folder = some folder ∧ ∃ reply,
        perform chance c x.1 = (.ok reply, { x.1.after chance.elapsed with folder })) ∨
      op.apply x.1.folder = none ∧ ∃ e, perform chance c x.1 = (.error e, x.1.after chance.elapsed)) :
    Follows (counting perform) (Made s) Does (call c) [op] := by
  refine follows_call (fun done x hmade chance => ?_) fun done x hmade chance reply hreply => ?_
  · cases hfails : chance.fails with
    | true =>
      refine ⟨.inl ?_, fun hrefused => ?_⟩
      · rw [perform_of_fails hfails hc]
        rfl
      · exact absurd (hfails.symm.trans hrefused.1) Bool.true_eq_false.mp
    | false =>
      rcases h done x hmade chance hfails with ⟨folder, hop, reply, hanswer⟩ | ⟨hop, e, hanswer⟩
      · refine ⟨.inr (by rw [hanswer, hop]), fun hrefused => ?_⟩
        obtain ⟨-, e, he⟩ := hrefused
        rw [hanswer] at he
        cases he
      · exact ⟨.inl (by rw [hanswer]; rfl), fun _ => hop⟩
  · have hreply : (perform chance c x.1).1 = .ok reply := hreply
    cases hfails : chance.fails with
    | true =>
      rw [perform_of_fails hfails hc] at hreply
      cases hreply
    | false =>
      rcases h done x hmade chance hfails with ⟨folder, hop, reply', hanswer⟩ | ⟨hop, e, hanswer⟩
      · refine hmade.concat ?_ ?_ ?_ <;> rw [hanswer]
        · exact hop
        · rfl
        · rfl
      · rw [hanswer] at hreply
        cases hreply

theorem follows_remove (path : Path) :
    Follows (counting perform) (Made s) Does (remove path) [.remove path] := by
  refine follows_bind (follows_folderCall rfl fun done x _ chance hfails => ?_)
    fun _ => follows_pure _
  rw [perform_of_not_fails hfails]
  have hfolder : (x.1.after chance.elapsed).folder = x.1.folder := rfl
  simp only [answer, FolderCall.apply, DevStore.isSiteDirectory, hfolder]
  split
  · exact .inr ⟨rfl, _, rfl⟩
  · exact .inl ⟨_, rfl, _, rfl⟩

theorem follows_put (path : Path) (sha256 : Sha) :
    Follows (counting perform) (Made s) Does (call (.putSite path sha256)) [.write path sha256] := by
  refine follows_folderCall rfl fun done x _ chance hfails => ?_
  rw [perform_of_not_fails hfails]
  simp only [answer, FolderCall.apply]
  split
  · rename_i folder hput
    exact .inl ⟨folder, hput, _, rfl⟩
  · rename_i hput
    exact .inr ⟨hput, _, rfl⟩

theorem follows_write (path : Path) {file : Published}
    (hblob : ∀ entry, file = .site entry → entry.sha256 ∈ s.blobs) :
    Follows (counting perform) (Made s) Does (write path file) (writeCalls path file) := by
  cases file with
  | sandbox sha256 =>
    exact follows_bind (follows_pure _) fun _ => follows_put path sha256
  | site entry =>
    refine follows_bind (follows_folderCall (c := .getBlob entry.sha256) rfl
      fun done x hmade chance hfails => ?_) fun _ => follows_put path entry.sha256
    have hstored : entry.sha256 ∈ (x.1.after chance.elapsed).blobs := by
      change entry.sha256 ∈ x.1.blobs
      rw [hmade.blobs]
      exact hblob entry rfl
    refine .inl ⟨x.1.folder, rfl, (), ?_⟩
    rw [perform_of_not_fails hfails]
    simp only [answer, if_pos hstored]
    rfl

/-- A publish reads the record, makes its calls and sets the record where it has to. -/
theorem publishSite_follows (prev : Option SiteManifest) (next : SiteManifest)
    (hblobs : ∀ entry ∈ next, entry.sha256 ∈ s.blobs) :
    let calls := .keep :: publishCalls (publishedBefore prev s.llms.publishedSha256)
      (publishedView next s.llms.text)
    Reaches (counting perform)
      (fun chance c x => ∃ past op rest, calls ++ [.keep] = past ++ op :: rest ∧ Made s past x ∧
        Does op chance c x)
      (publishSite prev next) (s, 0)
      fun _ x => applyAll calls s.folder = some x.1.folder ∧
        x.1.llms = ⟨s.llms.text, sandboxSha (publishedView next s.llms.text)⟩ := by
  intro calls
  have hstart : Made s [] (s, 0) := ⟨rfl, rfl, rfl, rfl⟩
  refine reaches_bind
    (M := fun recorded x => recorded = s.llms ∧ Made s [.keep] x) (reaches_call (fun chance => ?_)
      fun chance reply hreply => ?_) fun recorded x₁ h => ?_
  · refine ⟨[], .keep, _, rfl, hstart, .inl ?_, fun hrefused => ?_⟩
    · rw [perform_reads rfl]
      rfl
    · obtain ⟨hfails, e, he⟩ := hrefused
      rw [perform_of_not_fails hfails] at he
      cases he
  · have hanswer := answer_of_perform (Prod.ext hreply rfl)
    refine ⟨(Except.ok.inj (Prod.ext_iff.mp hanswer).1).symm, ?_⟩
    have hread := perform_reads (c := .llms) rfl chance s
    exact hstart.concat (by rw [hread]; rfl) (by rw [hread]; rfl) (by rw [hread]; rfl)
  obtain ⟨rfl, h₁⟩ := h
  extract_lets prevByPath nextByPath stale colliding rest changed assets last publishedNow
  have hwrite : ∀ files : List (Sigma fun _ : Path => Published), (∀ file ∈ files, file ∈ changed) →
      Follows (counting perform) (Made s) Does (files.forM fun file => write file.1 file.2)
        (files.flatMap fun file => writeCalls file.1 file.2) := by
    refine fun files hfiles => follows_forM fun file hfile => follows_write file.1 fun entry hentry => ?_
    have hlookup : nextByPath.lookup file.1 = some (.site entry) :=
      hentry ▸ mem_filesInOrder.mp (List.mem_of_mem_filter (hfiles file hfile))
    exact hblobs entry (mem_of_publishedView hlookup)
  have hremove : ∀ paths : List Path,
      Follows (counting perform) (Made s) Does (paths.forM remove) (paths.map .remove) := by
    intro paths
    rw [List.map_eq_flatMap]
    exact follows_forM fun path _ => follows_remove path
  have hcalls : calls ++ [.keep] = [.keep] ++ colliding.map .remove ++
      (assets.flatMap fun file => writeCalls file.1 file.2) ++ rest.map .remove ++
      (last.flatMap fun file => writeCalls file.1 file.2) ++ [.keep] := by
    simp only [calls, publishCalls, List.append_assoc, List.cons_append, List.nil_append]
    rfl
  refine (hremove colliding).reaches_bind h₁ (by simp [hcalls]) fun _ x₂ h₂ => ?_
  refine (hwrite assets fun file hfile => List.mem_of_mem_filter hfile).reaches_bind h₂
    (by simp [hcalls]) fun _ x₃ h₃ => ?_
  refine (hremove rest).reaches_bind h₃ (by simp [hcalls]) fun _ x₄ h₄ => ?_
  refine (hwrite last fun file hfile => List.mem_of_mem_filter hfile).reaches_bind h₄
    (by simp [hcalls]) fun _ x₅ h₅ => ?_
  rw [List.append_cancel_right hcalls.symm] at h₅
  split
  · refine reaches_bind (M := fun _ x => applyAll calls s.folder = some x.1.folder ∧
      x.1.llms = ⟨s.llms.text, publishedNow⟩) (reaches_call (fun chance => ?_)
        fun chance reply hreply => ?_) fun _ _ h => reaches_pure h
    · refine ⟨calls, .keep, [], rfl, h₅, .inl ?_, ?_⟩
      · unfold perform
        dsimp only
        split <;> rfl
      · rintro ⟨hfails, e, he⟩
        rw [perform_of_not_fails hfails] at he
        cases he
    · have hanswer := (Prod.ext_iff.mp (answer_of_perform (Prod.ext hreply rfl))).2
      have hset : (perform chance (.setLlmsPublished publishedNow) x₅.1).2 =
          { x₅.1.after chance.elapsed with llms := ⟨x₅.1.llms.text, publishedNow⟩ } := hanswer.symm
      constructor
      · rw [h₅.folder]
        exact congrArg some (congrArg DevStore.folder hset).symm
      · refine (congrArg DevStore.llms hset).trans ?_
        change LlmsRow.mk x₅.1.llms.text publishedNow = _
        rw [h₅.llms]
  · rename_i hrecorded
    have hrecord : sandboxSha (publishedView next s.llms.text) = s.llms.publishedSha256 :=
      not_not.mp hrecorded
    refine reaches_pure ⟨h₅.folder, ?_⟩
    rw [h₅.llms, hrecord]

theorem applyAll_keep_cons (calls : List FolderCall) (folder : Folder) :
    applyAll (.keep :: calls) folder = applyAll calls folder := by
  rw [applyAll_cons]
  rfl

variable {prev : Option SiteManifest} {next : SiteManifest} {chances : ℕ → Chance}

/-- A publish that stopped has made the calls before the one at which it stopped. -/
theorem stoppedAt_publishSite (hblobs : ∀ entry ∈ next, entry.sha256 ∈ s.blobs) {n : ℕ}
    {t : DevStore} (hstop : (publishSite prev next).run.stoppedAt perform chances n s = some t) :
    applyAll ((.keep :: publishCalls (publishedBefore prev s.llms.publishedSha256)
        (publishedView next s.llms.text)).take n) s.folder = some t.folder ∧
      t.blobs = s.blobs ∧ t.llms = s.llms := by
  obtain ⟨c, hat⟩ := Program.Walks.stoppedAt (publishSite_follows prev next hblobs)
    (Program.stoppedAt_counting hstop 0)
  obtain ⟨past, op, rest, hcalls, hmade, -⟩ := hat ⟨false, 0, 0, true⟩
  have hcount : n = past.length := (Nat.zero_add n).symm.trans hmade.count
  have htake : (FolderCall.keep :: publishCalls (publishedBefore prev s.llms.publishedSha256)
      (publishedView next s.llms.text)).take n = past := by
    have hlength : n ≤ (FolderCall.keep :: publishCalls
        (publishedBefore prev s.llms.publishedSha256) (publishedView next s.llms.text)).length := by
      have := congrArg List.length hcalls
      simp only [List.length_append, List.length_cons, List.length_nil] at this ⊢
      omega
    rw [← List.take_append_of_le_length hlength, hcalls, hcount, List.take_left]
  exact ⟨htake ▸ hmade.folder, hmade.blobs, hmade.llms⟩

/-- A publish that ended well has made all its calls, and the record says so. -/
theorem folder_of_publishSite (hblobs : ∀ entry ∈ next, entry.sha256 ∈ s.blobs) {touched : List Path}
    (hrun : ((publishSite prev next).run.run perform chances s).1 = .ok touched) :
    applyAll (publishCalls (publishedBefore prev s.llms.publishedSha256)
        (publishedView next s.llms.text)) s.folder =
      some ((publishSite prev next).run.run perform chances s).2.folder := by
  obtain ⟨n, hcounting⟩ :=
    Program.run_counting perform (publishSite prev next).run chances s 0
  have hfolder := ((publishSite_follows prev next hblobs).of_run
    (hcounting.trans (Prod.ext hrun rfl))).1
  rwa [applyAll_keep_cons] at hfolder

/-- A publish of which no call fails or is refused ends well. -/
theorem publishSite_ok (hblobs : ∀ entry ∈ next, entry.sha256 ∈ s.blobs)
    (hchances : ∀ n, (chances n).fails = false)
    (hfolder : applyAll (publishCalls (publishedBefore prev s.llms.publishedSha256)
      (publishedView next s.llms.text)) s.folder ≠ none) :
    ∃ touched, ((publishSite prev next).run.run perform chances s).1 = .ok touched := by
  have hrun := (publishSite_follows prev next hblobs).run (publishSite_prompt prev next) chances
    fun n c x ⟨past, op, rest, hcalls, hmade, hdoes⟩ => ?_
  · obtain ⟨touched, htouched, -⟩ := hrun
    obtain ⟨n, hcounting⟩ :=
      Program.run_counting perform (publishSite prev next).run chances s 0
    rw [hcounting] at htouched
    exact ⟨touched, htouched⟩
  · cases hanswer : (perform (chances n) c x.1).1 with
    | ok reply => exact ⟨reply, hanswer⟩
    | error e =>
      have hrefused := hdoes.refused ⟨hchances n, e, hanswer⟩
      obtain ⟨folder, hsome⟩ := Option.ne_none_iff_exists'.mp hfolder
      have hall : applyAll (past ++ op :: rest) s.folder ≠ none := by
        rw [← hcalls, applyAll_concat, applyAll_keep_cons, hsome]
        exact Option.some_ne_none folder
      exact absurd hrefused (apply_ne_none hall hmade.folder)

end Run

end Dev
