import Impresspress.Dev.PublishCalls

/-!
# The order of a publish

A publish removes what stands in the way, writes what changed, removes the rest, and writes the
entrypoint last. No write of it is refused by the folder, and a reader in the middle of it finds the
old entrypoint until everything else is in place.

## Main definitions

* `Dev.Sequenced`: what a reader finds in the folder in the middle of a publish.

## Main results

* `Dev.publish_exact`: no call of a publish is refused, what a reader finds after each of them, and
  what is in the folder at the end.
-/

namespace Dev

open Concurrent Concurrent.Fallible

/-- Where the entrypoint is not taken away, the old one is there until everything else is as the new
view has it. Where it is, and no path of the new view shares its name, the old one is there until
everything that the new view has is in place. -/
structure Sequenced (before view : Path → Option Sha) (folder : Folder) : Prop where
  replaced : (view entrypoint ≠ none ∨ before entrypoint = none) →
    folder.lookup entrypoint = before entrypoint ∨
      ∀ path, path ≠ entrypoint → folder.lookup path = view path
  removed : (∀ path, view path ≠ none →
      Path.under entrypoint path = false ∧ Path.under path entrypoint = false) →
    folder.lookup entrypoint = before entrypoint ∨
      ∀ path, path ≠ entrypoint → view path ≠ none → folder.lookup path = view path

/-! ## The folder in the middle of a publish -/

section Middle

variable {s s₁ : DevStore} {before view : Path → Option Sha} {done : List Path} {folder : Folder}

/-- The entrypoint was not touched yet. -/
theorem sequenced_of_early (hstart : ∀ path, s.folder.lookup path = before path)
    (hfolder : Overwritten s.folder view done folder) (hdone : entrypoint ∉ done) :
    Sequenced before view folder := by
  have hkept : folder.lookup entrypoint = before entrypoint := by
    rw [hfolder, if_neg hdone, hstart]
  exact ⟨fun _ => .inl hkept, fun _ => .inl hkept⟩

/-- The entrypoint is in the way of a path of the new view. -/
theorem sequenced_of_colliding (hstale : before entrypoint ≠ none ∧ view entrypoint = none)
    (hcollides : ∃ path, view path ≠ none ∧
      (Path.under entrypoint path = true ∨ Path.under path entrypoint = true)) :
    Sequenced before view folder := by
  refine ⟨fun h => ?_, fun h => ?_⟩
  · exact (h.elim (fun h => h hstale.2) fun h => hstale.1 h).elim
  · obtain ⟨path, hpath, hunder⟩ := hcollides
    obtain ⟨hleft, hright⟩ := h path hpath
    rcases hunder with hunder | hunder
    · rw [hleft] at hunder
      cases hunder
    · rw [hright] at hunder
      cases hunder

/-- Everything that the new view has is in place. -/
theorem sequenced_of_late (hstart : ∀ path, s.folder.lookup path = before path)
    (hfolder : Overwritten s.folder view done folder)
    (hplaced : ∀ path, path ≠ entrypoint → before path ≠ view path → view path ≠ none → path ∈ done)
    (hall : view entrypoint ≠ none ∨ before entrypoint = none →
      ∀ path, path ≠ entrypoint → before path ≠ view path → path ∈ done) :
    Sequenced before view folder := by
  have hlookup : ∀ path, (before path ≠ view path → path ∈ done) →
      folder.lookup path = view path := by
    intro path hpath
    rw [hfolder, hstart]
    split
    · rfl
    · rename_i hnot
      exact not_not.mp fun h => hnot (hpath h)
  refine ⟨fun h => .inr fun path hpath => ?_, fun _ => .inr fun path hpath hview => ?_⟩
  · exact hlookup path (hall h path hpath)
  · exact hlookup path fun h => hplaced path hpath h hview

/-- What a publish may do: it is not refused, and a reader finds what was promised. -/
def Orderly (before view : Path → Option Sha) (chance : Chance) (c : DevCall) (s : DevStore) :
    Prop :=
  ¬ Refused chance c s ∧ Sequenced before view (perform chance c s).2.folder

/-- The entrypoint is touched where it is in the way, or once everything else is in place. -/
theorem sequenced_of_done (hstart : ∀ path, s.folder.lookup path = before path)
    (hfolder : Overwritten s.folder view done folder)
    (hentry : entrypoint ∈ done →
      (before entrypoint ≠ none ∧ view entrypoint = none) ∧ (∃ path, view path ≠ none ∧
        (Path.under entrypoint path = true ∨ Path.under path entrypoint = true)) ∨
      (∀ path, path ≠ entrypoint → before path ≠ view path → view path ≠ none → path ∈ done) ∧
        (view entrypoint ≠ none ∨ before entrypoint = none →
          ∀ path, path ≠ entrypoint → before path ≠ view path → path ∈ done)) :
    Sequenced before view folder := by
  by_cases hdone : entrypoint ∈ done
  · rcases hentry hdone with ⟨hstale, hcollides⟩ | ⟨hplaced, hall⟩
    · exact sequenced_of_colliding hstale hcollides
    · exact sequenced_of_late hstart hfolder hplaced hall
  · exact sequenced_of_early hstart hfolder hdone

variable {prevByPath : ByPath Sha} {nextByPath : ByPath Published} {made front back : List FolderCall}

/-- Calls that were made go beyond the first of them, or are among these. -/
theorem mem_front_or_subset (hmade : made <+: front ++ back) {path : Path}
    (hpath : path ∈ changedPaths made) :
    path ∈ changedPaths front ∨ ∀ other ∈ changedPaths front, other ∈ changedPaths made := by
  rcases List.prefix_or_prefix_of_prefix hmade (List.prefix_append front back) with h | h
  · exact .inl ((h.sublist.filterMap _).subset hpath)
  · exact .inr fun other hother => (h.sublist.filterMap _).subset hother

/-- The folder is in order after some of the calls of a publish. -/
theorem sequenced_of_prefix (hstart : ∀ path, s.folder.lookup path = prevByPath.lookup path)
    (hmade : made <+: .keep :: publishCalls prevByPath nextByPath ++ [.keep])
    (h : applyAll made s.folder = some folder) :
    Sequenced prevByPath.lookup (contents nextByPath) folder := by
  have hsets : ∀ call ∈ made, call.Sets (contents nextByPath) := by
    intro call hcall
    have hmem := hmade.subset hcall
    simp only [List.cons_append, List.mem_cons, List.mem_append, List.not_mem_nil, or_false] at hmem
    rcases hmem with rfl | hmem | rfl
    · trivial
    · exact publishCalls_sets call hmem
    · trivial
  refine sequenced_of_done hstart (overwritten_of_applyAll hsets h) fun hentry => ?_
  have hassets : entrypoint ∉ changedPaths (assetCalls prevByPath nextByPath) :=
    fun h => (mem_assets.mp h).2 rfl
  have hfronts : made <+: (.keep :: clearingCalls prevByPath nextByPath ++
        assetCalls prevByPath nextByPath) ++
        (droppingCalls prevByPath nextByPath ++ (lastCalls prevByPath nextByPath ++ [.keep])) ∧
      made <+: (.keep :: clearingCalls prevByPath nextByPath ++ assetCalls prevByPath nextByPath ++
        droppingCalls prevByPath nextByPath) ++ (lastCalls prevByPath nextByPath ++ [.keep]) := by
    constructor <;> simpa [publishCalls] using hmade
  by_cases hcleared : entrypoint ∈ changedPaths (clearingCalls prevByPath nextByPath)
  · -- it makes way for a path of the new view
    obtain ⟨hstale, hcollides⟩ := mem_clearing.mp hcleared
    exact .inl ⟨mem_stalePaths hstale, collidesWithAny_iff.mp hcollides⟩
  refine .inr ⟨fun path hpath hdiffer hsome => ?_, fun hkept path hpath hdiffer => ?_⟩
  · -- every file that the new view has was written before
    have hchanged : path ∈ changedPaths (assetCalls prevByPath nextByPath) :=
      mem_assets.mpr ⟨(stale_or_changed hdiffer).resolve_left fun hstale =>
        hsome (mem_stalePaths hstale).2, hpath⟩
    rcases mem_front_or_subset hfronts.1 hentry with h | h
    · rw [changedPaths_append] at h
      exact absurd h fun h => (List.mem_append.mp h).elim hcleared hassets
    · refine h path ?_
      rw [changedPaths_append]
      exact List.mem_append_right _ hchanged
  · -- it is written last
    have hdropped : entrypoint ∉ changedPaths (droppingCalls prevByPath nextByPath) := fun h => by
      obtain ⟨hold, hnone⟩ := mem_stalePaths (mem_dropping.mp h).1
      exact hkept.elim (fun h => h hnone) hold
    rcases mem_front_or_subset hfronts.2 hentry with h | h
    · rw [changedPaths_append, changedPaths_append] at h
      exact absurd h fun h => (List.mem_append.mp h).elim
        (fun h => (List.mem_append.mp h).elim hcleared hassets) hdropped
    · refine h path ?_
      rw [changedPaths_append, changedPaths_append]
      have hall := mem_changedPaths_publishCalls.mpr hdiffer
      rw [publishCalls, changedPaths_append, changedPaths_append, changedPaths_append,
        ← List.append_assoc, ← List.append_assoc] at hall
      exact (List.mem_append.mp hall).resolve_right fun hlast => hpath (mem_last.mp hlast).2

end Middle

/-! ## The whole publish -/

/-- No call of a publish is refused, the folder goes from one view to the next in order, and it
holds exactly the next one at the end, which is reached if no call fails. -/
theorem publish_exact (prev : Option SiteManifest) (next : SiteManifest) (s : DevStore)
    (hprev : PrefixFree (prev.getD [])) (hnext : PrefixFree next)
    (hblobs : ∀ entry ∈ next, entry.sha256 ∈ s.blobs)
    (hfolder : ∀ path, s.folder.lookup path =
      (publishedBefore prev s.llms.publishedSha256).lookup path) :
    let before := (publishedBefore prev s.llms.publishedSha256).lookup
    let view := contents (publishedView next s.llms.text)
    let exact := fun s' : DevStore => (∀ path, s'.folder.lookup path = view path) ∧
      s'.llms = ⟨s.llms.text, sandboxSha (publishedView next s.llms.text)⟩
    Reaches perform (Orderly before view) (publishSite prev next) s (fun _ s' => exact s') ∧
      ∀ chances : ℕ → Chance, (∀ n, (chances n).fails = false) →
        ∃ touched, ((publishSite prev next).run.run perform chances s).1 = .ok touched ∧
          exact ((publishSite prev next).run.run perform chances s).2 := by
  intro before view exact
  suffices hreaches : Reaches perform (Orderly before view) (publishSite prev next) s
      fun _ s' => exact s' by
    refine ⟨hreaches, fun chances hchances => ?_⟩
    refine hreaches.run (publishSite_prompt prev next) chances fun n c t horderly => ?_
    cases hanswer : (perform (chances n) c t).1 with
    | ok reply => exact ⟨reply, rfl⟩
    | error e => exact absurd ⟨hchances n, e, hanswer⟩ horderly.1
  have happly : applyAll (publishCalls (publishedBefore prev s.llms.publishedSha256)
      (publishedView next s.llms.text)) s.folder ≠ none := by
    refine applyAll_publishCalls (apart_publishedView hnext _) (fun path stored hpath _ hstored => ?_)
      fun stored hstored _ => ?_
    · rw [hfolder] at hstored
      exact apart_publishedBefore hprev _ path stored hpath hstored
    · rwa [hfolder] at hstored
  refine (publishSite_follows prev next hblobs).of_counting
    (fun chance c x ⟨past, op, rest, hcalls, hmade, hdoes⟩ => ⟨fun hrefused => ?_, ?_⟩)
    fun touched x ⟨hall, hllms⟩ => ⟨fun path => ?_, hllms⟩
  · obtain ⟨folder, hsome⟩ := Option.ne_none_iff_exists'.mp happly
    have hcomplete : applyAll (past ++ op :: rest) s.folder ≠ none := by
      rw [← hcalls, applyAll_concat, applyAll_keep_cons, hsome]
      exact Option.some_ne_none folder
    exact apply_ne_none hcomplete hmade.folder (hdoes.refused hrefused)
  · rcases hdoes.folder with hkept | hop
    · rw [hkept]
      exact sequenced_of_prefix hfolder ⟨op :: rest, hcalls.symm⟩ hmade.folder
    · have hmade' : applyAll (past ++ [op]) s.folder =
          some (perform chance c x.1).2.folder := by
        rw [applyAll_concat, hmade.folder]
        exact hop
      exact sequenced_of_prefix hfolder ⟨rest, by simp [hcalls]⟩ hmade'
  · rw [applyAll_keep_cons] at hall
    rw [lookup_of_publish hall, hfolder]
    split
    · assumption
    · rfl

/-! ## Sites that drop the entrypoint -/

/-- An instance with nothing but the published site `files`, and the contents of some others. -/
def publishing (files next : SiteManifest) : DevStore where
  generations := .empty
  journal := ⟨none, none, .idle, 0⟩
  builds := .empty
  llms := ⟨none, none⟩
  folder := files.foldl (fun folder file => (folder.put file.path file.sha256).getD folder) .empty
  blobs := (files ++ next).foldl (fun blobs file => blobs.insert file.sha256 file.size) ∅
  artifacts := ∅
  workspace := .empty
  runtime := ⟨[], none⟩
  held := fun _ => false
  ids := []
  clock := 0

/-- The publish of `next` over `prev` finds the folder as it has to be, and keeps the old entrypoint
until everything else is as `next` has it, whatever becomes of the entrypoint. -/
def AlwaysOrdered (prev next : SiteManifest) : Prop :=
  let before := (publishedBefore (some prev) none).lookup
  let view := contents (publishedView next none)
  Reaches perform (fun chance c s =>
      let folder := (perform chance c s).2.folder
      folder.lookup entrypoint = before entrypoint ∨
        ∀ path, path ≠ entrypoint → folder.lookup path = view path)
    (publishSite (some prev) next) (publishing prev next) fun _ _ => True

/-- The folder holds exactly what the publish of `prev` left. -/
def HoldsPrev (prev next : SiteManifest) : Prop :=
  ∀ path, (publishing prev next).folder.lookup path = (publishedBefore (some prev) none).lookup path

/-- A page that makes room for a directory of its name, and one that is removed before another old
file, are gone before everything else is as the new site has it. -/
theorem publish_drops_entrypoint_first :
    (∃ prev next, PrefixFree prev ∧ PrefixFree next ∧ HoldsPrev prev next ∧
      (∃ file ∈ next, Path.under entrypoint file.path) ∧ ¬ AlwaysOrdered prev next) ∧
    ∃ prev next, PrefixFree prev ∧ PrefixFree next ∧ HoldsPrev prev next ∧
      (∀ file ∈ next, Path.under entrypoint file.path = false) ∧ ¬ AlwaysOrdered prev next := by
  refine ⟨⟨[⟨entrypoint, 1, 1⟩], [⟨["index.html", "a"], 2, 1⟩], by decide, by decide,
    fun _ => rfl, by decide, fun h => ?_⟩, [⟨["z.html"], 3, 1⟩, ⟨entrypoint, 1, 1⟩],
    [⟨["a.html"], 2, 1⟩], by decide, by decide, fun _ => rfl, by decide, fun h => ?_⟩
  · -- the removal of the page
    rcases ((h ⟨false, 0, 0, true⟩).2 ⟨false, 0, 0, true⟩).1 with hold | hnew
    · cases hold
    · cases hnew ["index.html", "a"] (by decide)
  · -- the write of the new page, and the removal of the first old one
    rcases ((((h ⟨false, 0, 0, true⟩).2 ⟨false, 0, 0, true⟩).2 ⟨false, 0, 0, true⟩).2
      ⟨false, 0, 0, true⟩).1 with hold | hnew
    · cases hold
    · cases hnew ["z.html"] (by decide)

/-- A page and a style sheet, edited together. -/
theorem publish_exact_edited :
    let prev : SiteManifest := [⟨entrypoint, 1, 1⟩, ⟨["a.css"], 2, 1⟩]
    let next : SiteManifest := [⟨entrypoint, 3, 1⟩, ⟨["a.css"], 4, 1⟩]
    let before := (publishedBefore (some prev) none).lookup
    let view := contents (publishedView next none)
    let exact := fun s' : DevStore => (∀ path, s'.folder.lookup path = view path) ∧
      s'.llms = ⟨none, sandboxSha (publishedView next none)⟩
    Reaches perform (Orderly before view) (publishSite (some prev) next) (publishing prev next)
      (fun _ s' => exact s') ∧
      ∀ chances : ℕ → Chance, (∀ n, (chances n).fails = false) →
        ∃ touched, ((publishSite (some prev) next).run.run perform chances
            (publishing prev next)).1 = .ok touched ∧
          exact ((publishSite (some prev) next).run.run perform chances (publishing prev next)).2 :=
  publish_exact (some [⟨entrypoint, 1, 1⟩, ⟨["a.css"], 2, 1⟩])
    [⟨entrypoint, 3, 1⟩, ⟨["a.css"], 4, 1⟩] (publishing _ _) (by decide) (by decide) (by decide)
    fun _ => rfl

end Dev
