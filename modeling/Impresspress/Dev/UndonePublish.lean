import Impresspress.Dev.PublishOrder

/-!
# Undoing a publish

A publish that stopped is undone by publishing the old site over the new one. What the undoing
takes to be in the folder comes from the new site and the record, and not from the folder, which
holds what the calls that were made have left.

## Main definitions

* `Dev.changedBy`: the paths that the first calls of a publish have changed.
* `Dev.RolledBack`: the old site is back.
* `Dev.Undoable`: where the calls of a publish can be undone.

## Main results

* `Dev.undone_exactly`: a publish that stopped is undone if and only if it can be.
-/

namespace Dev

open Concurrent Concurrent.Fallible

/-- The paths that the first `n` calls of the publish of `next` over `prev` have changed. -/
def changedBy (llms : LlmsRow) (prev next : SiteManifest) (n : ℕ) : List Path :=
  changedPaths ((.keep :: publishCalls (publishedBefore (some prev) llms.publishedSha256)
    (publishedView next llms.text)).take n)

/-- The publish of `prev` over `next` ends well in every run from `s` that no call fails in, and
the folder holds exactly what `prev` shows then. -/
def RolledBack (prev next : SiteManifest) (s : DevStore) : Prop :=
  ∀ chances : ℕ → Chance, (∀ n, (chances n).fails = false) →
    (∃ touched, ((publishSite (some next) prev).run.run perform chances s).1 = .ok touched) ∧
      ∀ path, ((publishSite (some next) prev).run.run perform chances s).2.folder.lookup path =
        contents (publishedView prev s.llms.text) path

/-- Everything of the old site was removed that lies under a path which only the new one has, and
the sandbox's file was not written where neither the record nor the old site accounts for it. -/
structure Undoable (llms : LlmsRow) (prev next : SiteManifest) (n : ℕ) : Prop where
  cleared : ∀ path stored, (publishedBefore (some next) llms.publishedSha256).lookup path ≠ none →
    contents (publishedView prev llms.text) path = none →
    contents (publishedView prev llms.text) stored ≠ none → stored ∉ changedBy llms prev next n →
    Path.under path stored = false
  recorded : llmsPath ∈ changedBy llms prev next n →
    (publishedBefore (some next) llms.publishedSha256).lookup llmsPath =
      contents (publishedView prev llms.text) llmsPath →
    contents (publishedView next llms.text) llmsPath =
      contents (publishedView prev llms.text) llmsPath

section Known

variable {next : SiteManifest} {recorded text : Option Sha} {path stored : Path}

/-- The undoing is right about what the new site shows, but for the sandbox's file. -/
theorem publishedBefore_of_ne (recorded text : Option Sha) (h : path ≠ llmsPath) :
    (publishedBefore (some next) recorded).lookup path =
      contents (publishedView next text) path := by
  rw [contents_publishedView, publishedBefore, publishedBefore, lookup_withLlms_of_ne h,
    lookup_withLlms_of_ne h]

/-- Nothing that the new site shows lies under what the undoing takes to be there. -/
theorem not_under_known (hnext : PrefixFree next)
    (hpath : (publishedBefore (some next) recorded).lookup path ≠ none)
    (hstored : contents (publishedView next text) stored ≠ none) :
    Path.under path stored = false := by
  by_cases hllms : path = llmsPath
  · by_cases hself : stored = llmsPath
    · rw [hllms, hself]
      decide
    · rw [← publishedBefore_of_ne recorded text hself] at hstored
      exact apart_publishedBefore hnext recorded path stored hpath hstored
  · rw [publishedBefore_of_ne recorded text hllms] at hpath
    exact apart_publishedView hnext text path stored hpath hstored

end Known

section Undo

variable {llms : LlmsRow} {prev next : SiteManifest} {n : ℕ} {half : Folder}

/-- Where the calls can be undone, none of those that undo them is refused. -/
theorem Undoable.applies (h : Undoable llms prev next n) (hprev : PrefixFree prev)
    (hnext : PrefixFree next)
    (hhalf : ∀ path, half.lookup path = if path ∈ changedBy llms prev next n then
      contents (publishedView next llms.text) path
      else contents (publishedView prev llms.text) path) :
    applyAll (publishCalls (publishedBefore (some next) llms.publishedSha256)
      (publishedView prev llms.text)) half ≠ none := by
  refine applyAll_publishCalls (apart_publishedView hprev _) (fun path stored hpath hnone hstored =>
    ?_) fun stored hstored hnone => ?_
  · rw [hhalf] at hstored
    split at hstored
    · exact not_under_known hnext hpath hstored
    · exact h.cleared path stored hpath hnone hstored ‹_›
  · rw [hhalf] at hstored
    split at hstored
    · rename_i hchanged
      by_cases hllms : stored = llmsPath
      · subst hllms
        intro hunknown
        exact hstored ((h.recorded hchanged (hunknown.trans hnone.symm)).trans hnone)
      · rwa [publishedBefore_of_ne llms.publishedSha256 llms.text hllms]
    · exact absurd hnone hstored

/-- The undoing brings everything back, but for a sandbox's file that it does not know of. -/
theorem Undoable.exact (h : Undoable llms prev next n) {folder : Folder}
    (hhalf : ∀ path, half.lookup path = if path ∈ changedBy llms prev next n then
      contents (publishedView next llms.text) path
      else contents (publishedView prev llms.text) path)
    (hfolder : applyAll (publishCalls (publishedBefore (some next) llms.publishedSha256)
      (publishedView prev llms.text)) half = some folder) (path : Path) :
    folder.lookup path = contents (publishedView prev llms.text) path := by
  rw [lookup_of_publish hfolder]
  split
  · rename_i hsame
    rw [hhalf]
    split
    · rename_i hchanged
      by_cases hllms : path = llmsPath
      · subst hllms
        exact h.recorded hchanged hsame
      · rwa [publishedBefore_of_ne llms.publishedSha256 llms.text hllms] at hsame
    · rfl
  · rfl

/-- Calls that are undone can be undone. -/
theorem undoable_of_exact
    (hhalf : ∀ path, half.lookup path = if path ∈ changedBy llms prev next n then
      contents (publishedView next llms.text) path
      else contents (publishedView prev llms.text) path) {folder : Folder}
    (hfolder : applyAll (publishCalls (publishedBefore (some next) llms.publishedSha256)
      (publishedView prev llms.text)) half = some folder)
    (hexact : ∀ path, folder.lookup path = contents (publishedView prev llms.text) path) :
    Undoable llms prev next n where
  cleared := fun path stored hpath hnone hstored hkept => by
    by_contra hunder
    have hunder : Path.under path stored = true := by simpa using hunder
    -- the removal of the path is refused, whatever was undone before it
    have hremoved : FolderCall.remove path ∈ publishCalls
        (publishedBefore (some next) llms.publishedSha256) (publishedView prev llms.text) :=
      List.mem_append_left _ (List.mem_map.mpr ⟨path, List.mem_filter.mpr
        ⟨mem_stalePaths_iff.mpr ⟨hpath, hnone⟩,
          collidesWithAny_iff.mpr ⟨stored, hstored, .inl hunder⟩⟩, rfl⟩)
    obtain ⟨past, rest, hcalls⟩ := List.append_of_mem hremoved
    have hall : applyAll (past ++ .remove path :: rest) half ≠ none := by
      rw [← hcalls, hfolder]
      exact Option.some_ne_none folder
    obtain ⟨middle, hpast⟩ : ∃ middle, applyAll past half = some middle := by
      rw [← Option.ne_none_iff_exists']
      intro hnone
      rw [applyAll_append, hnone] at hall
      exact hall rfl
    have hmiddle := overwritten_of_applyAll (fun call hcall => publishCalls_sets call (by
      rw [hcalls]
      exact List.mem_append_left _ hcall)) hpast stored
    have hthere : middle.lookup stored ≠ none := by
      rw [hmiddle, hhalf, if_neg hkept, ite_self]
      exact hstored
    refine apply_ne_none hall hpast ?_
    rw [FolderCall.apply, Folder.any_under hthere hunder, if_pos rfl]
  recorded := fun hchanged hsame => by
    have hlookup := lookup_of_publish hfolder llmsPath
    rw [if_pos hsame, hhalf, if_pos hchanged, hexact] at hlookup
    exact hlookup.symm

end Undo

/-- A publish that stopped is undone if and only if it can be. -/
theorem undone_exactly (prev next : SiteManifest) (hprev : PrefixFree prev) (hnext : PrefixFree next)
    (s t : DevStore) (hblobs : ∀ entry ∈ prev ++ next, entry.sha256 ∈ s.blobs)
    (hfolder : ∀ path, s.folder.lookup path = contents (publishedView prev s.llms.text) path)
    (chances : ℕ → Chance) (n : ℕ)
    (hstop : (publishSite (some prev) next).run.stoppedAt perform chances n s = some t) :
    RolledBack prev next t ↔ Undoable s.llms prev next n := by
  obtain ⟨hleft, hsame, hllms⟩ := stoppedAt_publishSite
    (fun entry hentry => hblobs entry (List.mem_append_right _ hentry)) hstop
  have hstored : ∀ entry ∈ prev, entry.sha256 ∈ t.blobs := fun entry hentry => by
    rw [hsame]
    exact hblobs entry (List.mem_append_left _ hentry)
  have hsets : ∀ call ∈ (FolderCall.keep :: publishCalls
      (publishedBefore (some prev) s.llms.publishedSha256) (publishedView next s.llms.text)).take n,
      call.Sets (contents (publishedView next s.llms.text)) := fun call hcall => by
    rcases List.mem_cons.mp (List.mem_of_mem_take hcall) with rfl | hcall
    · trivial
    · exact publishCalls_sets call hcall
  have hhalf : ∀ path, t.folder.lookup path = if path ∈ changedBy s.llms prev next n then
      contents (publishedView next s.llms.text) path
      else contents (publishedView prev s.llms.text) path := fun path => by
    rw [overwritten_of_applyAll hsets hleft path, hfolder]
    rfl
  rw [← hllms] at hhalf ⊢
  constructor
  · intro hundone
    obtain ⟨⟨touched, hrun⟩, hexact⟩ := hundone (fun _ => ⟨false, 0, 0, true⟩) fun _ => rfl
    exact undoable_of_exact hhalf (folder_of_publishSite hstored hrun) hexact
  · intro hundoable chances hchances
    have hok : ∃ touched, ((publishSite (some next) prev).run.run perform chances t).1 =
        .ok touched := publishSite_ok hstored hchances (hundoable.applies hprev hnext hhalf)
    obtain ⟨touched, hrun⟩ := hok
    exact ⟨⟨touched, hrun⟩, hundoable.exact hhalf (folder_of_publishSite hstored hrun)⟩

/-- A style sheet that was written before the publish stopped is taken away again. -/
theorem undone_exactly_halfway :
    let prev : SiteManifest := [⟨entrypoint, 1, 1⟩]
    let next : SiteManifest := [⟨entrypoint, 3, 1⟩, ⟨["a.css"], 4, 1⟩]
    ∃ t, (publishSite (some prev) next).run.stoppedAt perform (fun _ => ⟨false, 0, 0, true⟩) 3
        (publishing prev next) = some t ∧ RolledBack prev next t := by
  intro prev next
  have hfolder : ∀ path, (publishing prev next).folder.lookup path =
      contents (publishedView prev none) path := fun path => by
    rw [contents_publishedView]
    rfl
  refine ⟨_, rfl, (undone_exactly prev next (by decide) (by decide) (publishing prev next) _
    (by decide) hfolder (fun _ => ⟨false, 0, 0, true⟩) 3 rfl).mpr ⟨?_, ?_⟩⟩
  · intro path stored hpath _ hstored _
    have hpath : path ∈ [["a.css"], entrypoint] := AList.mem_keys.mp (AList.lookup_isSome.mp
      (Option.isSome_iff_ne_none.mpr hpath))
    have hstored : stored ∈ [entrypoint] := by
      rw [contents_publishedView] at hstored
      exact AList.mem_keys.mp (AList.lookup_isSome.mp (Option.isSome_iff_ne_none.mpr hstored))
    rw [List.mem_singleton.mp hstored]
    rcases List.mem_cons.mp hpath with rfl | hpath
    · decide
    · rw [List.mem_singleton.mp hpath]
      decide
  · exact fun h => absurd h (by decide)

/-- A publish that makes a file of a directory, and stops before it has removed what lies in the
directory: the undoing is refused, for it removes a file of that name. -/
theorem not_always_undone : ¬ ∀ prev next : SiteManifest, PrefixFree prev → PrefixFree next →
    ∀ s t : DevStore, (∀ entry ∈ prev ++ next, entry.sha256 ∈ s.blobs) →
      (∀ path, s.folder.lookup path = contents (publishedView prev s.llms.text) path) →
      ∀ (chances : ℕ → Chance) (n : ℕ),
        (publishSite (some prev) next).run.stoppedAt perform chances n s = some t →
        RolledBack prev next t := by
  intro h
  let prev : SiteManifest := [⟨["a", "b"], 1, 1⟩]
  let next : SiteManifest := [⟨["a"], 2, 1⟩]
  have hfolder : ∀ path, (publishing prev next).folder.lookup path =
      contents (publishedView prev none) path := fun path => by
    rw [contents_publishedView]
    rfl
  have hundone := h prev next (by decide) (by decide) (publishing prev next) _ (by decide) hfolder
    (fun _ => ⟨false, 0, 0, true⟩) 1 rfl
  obtain ⟨⟨touched, hrun⟩, -⟩ := hundone (fun _ => ⟨false, 0, 0, true⟩) fun _ => rfl
  cases hrun

end Dev
