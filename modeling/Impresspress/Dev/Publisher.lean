import Impresspress.Concurrent.Faults
import Impresspress.Dev.Store

/-!
# The site publisher

A publish turns the published folder from one site into the next: it removes and writes only what
differs, entrypoint last. The sandbox's own `llms.txt` is published beside a site that leaves the
name free, and a record says what an earlier publish left there.

## Main definitions

* `Dev.publishSite`: the publisher.
* `Dev.publishedView`: what a site and the sandbox's text put into the folder.
* `Dev.Overwritten`: a folder in which some of the paths were brought to another view.
* `Dev.Mixed`: a folder that a publish from one view to another may have left.

## Main results

* `Dev.publishSite_attains`: what a publish leaves, and what it leaves when a call of it fails.
* `Dev.restored`: a publish that stopped anywhere is undone by publishing the old site again.
-/

namespace Dev

open Concurrent Concurrent.Fallible

def entrypoint : Path := ["index.html"]

def llmsPath : Path := ["llms.txt"]

/-- One file of the published folder: one of the site, or the sandbox's `llms.txt`. -/
inductive Published
  | site (entry : FileEntry)
  | sandbox (sha256 : Sha)
  deriving DecidableEq

def Published.sha256 : Published → Sha
  | site entry => entry.sha256
  | sandbox sha256 => sha256

/-- The name is a directory for a path of `files`, or lies in one that is a file there. -/
def collidesWithAny {V : Type} (removed : Path) (files : ByPath V) : Bool :=
  files.keys.any fun path => Path.under removed path || Path.under path removed

/-- The published folder can hold a file at `path` beside `files`. -/
def nameIsFree {V : Type} (path : Path) (files : ByPath V) : Bool :=
  (files.lookup path).isNone && !collidesWithAny path files

/-- `files`, and the sandbox's file where they leave its name free. -/
def withLlms {V : Type} (files : ByPath V) (llms : Option V) : ByPath V :=
  match llms with
  | some file => if nameIsFree llmsPath files then files.insert llmsPath file else files
  | none => files

/-- What publishing `files` puts into the folder. -/
def publishedView (files : SiteManifest) (text : Option Sha) : ByPath Published :=
  withLlms (byPath .site files) (text.map .sandbox)

/-- What the publisher takes to be in the folder. -/
def publishedBefore (prev : Option SiteManifest) (published : Option Sha) : ByPath Sha :=
  withLlms (byPath (·.sha256) (prev.getD [])) published

/-- The paths, in their order. -/
def pathsInOrder {V : Type} (files : ByPath V) : List Path :=
  files.keys.insertionSort Path.Precedes

/-- The files, in the order of their paths. -/
def filesInOrder {V : Type} (files : ByPath V) : List (Sigma fun _ : Path => V) :=
  files.entries.insertionSort fun a b => Path.Precedes a.1 b.1

def isUnchanged (prev : ByPath Sha) (path : Path) (file : Published) : Bool :=
  prev.lookup path = some file.sha256

/-- Read the content of a file: a blob, or the text that was recorded. -/
def bytes : Published → Task Unit
  | .site entry => call (.getBlob entry.sha256)
  | .sandbox _ => pure ()

/-- Write one file into the published folder. -/
def write (path : Path) (file : Published) : Task Unit := do
  bytes file
  call (.putSite path file.sha256)

/-- Remove one path from the published folder; one that is already gone is as good. -/
def remove (path : Path) : Task Unit := do
  let _ ← call (.deleteSite path)

/-- The sandbox's file in a view, if it is there. -/
def sandboxSha (view : ByPath Published) : Option Sha :=
  match view.lookup llmsPath with
  | some (.sandbox sha256) => some sha256
  | _ => none

/-- Publish `next` over the manifest that is currently published. -/
def publishSite (prev : Option SiteManifest) (next : SiteManifest) : Task (List Path) := do
  let recorded ← call .llms
  let prevByPath := publishedBefore prev recorded.publishedSha256
  let nextByPath := publishedView next recorded.text
  let stale := (pathsInOrder prevByPath).filter fun path => (nextByPath.lookup path).isNone
  let colliding := stale.filter fun path => collidesWithAny path nextByPath
  let rest := stale.filter fun path => !collidesWithAny path nextByPath
  let changed := (filesInOrder nextByPath).filter fun file => !isUnchanged prevByPath file.1 file.2
  let assets := changed.filter fun file => file.1 ≠ entrypoint
  let last := changed.filter fun file => file.1 = entrypoint
  -- deletions that stand in the way of a write below
  colliding.forM remove
  assets.forM fun file => write file.1 file.2
  rest.forM remove
  last.forM fun file => write file.1 file.2
  let publishedNow := sandboxSha nextByPath
  if publishedNow ≠ recorded.publishedSha256 then
    call (.setLlmsPublished publishedNow)
  pure (colliding ++ assets.map (·.1) ++ rest ++ last.map (·.1))

/-- The paths that are in the folder and not in the next view. -/
def stalePaths (prevByPath : ByPath Sha) (nextByPath : ByPath Published) : List Path :=
  (pathsInOrder prevByPath).filter fun path => (nextByPath.lookup path).isNone

/-- The files of the next view that are not in the folder as they are. -/
def changedFiles (prevByPath : ByPath Sha) (nextByPath : ByPath Published) :
    List (Sigma fun _ : Path => Published) :=
  (filesInOrder nextByPath).filter fun file => !isUnchanged prevByPath file.1 file.2

/-- The content that a view has at each path. -/
def contents (view : ByPath Published) (path : Path) : Option Sha :=
  (view.lookup path).map Published.sha256

/-- Some of the paths were brought to `view`, the others are as `start` has them. -/
def Overwritten (start : Folder) (view : Path → Option Sha) (done : List Path)
    (folder : Folder) : Prop :=
  ∀ path, folder.lookup path = if path ∈ done then view path else start.lookup path

/-! ## Views -/

section Views

variable {V W : Type}

/-- Two ways of filing have the same paths. -/
def SamePaths (a : ByPath V) (b : ByPath W) : Prop := ∀ path, path ∈ a ↔ path ∈ b

theorem lookup_byPath (value : FileEntry → V) (files : SiteManifest) (path : Path) :
    (byPath value files).lookup path = ((byPath id files).lookup path).map value := by
  have hfold : ∀ (files : SiteManifest) (a : ByPath V) (b : ByPath FileEntry),
      (∀ path, a.lookup path = (b.lookup path).map value) →
      ∀ path, (files.foldl (fun filed file => filed.insert file.path (value file)) a).lookup path =
        ((files.foldl (fun filed file => filed.insert file.path (id file)) b).lookup path).map
          value := by
    intro files
    induction files with
    | nil => exact fun a b h => h
    | cons file files ih =>
      intro a b h
      refine ih _ _ fun path => ?_
      by_cases hpath : path = file.path
      · subst hpath
        simp
      · rw [AList.lookup_insert_ne hpath, AList.lookup_insert_ne hpath, h]
  exact hfold files ∅ ∅ (fun path => by simp) path

theorem samePaths_byPath (value : FileEntry → V) (value' : FileEntry → W) (files : SiteManifest) :
    SamePaths (byPath value files) (byPath value' files) := fun path => by
  rw [← AList.lookup_isSome, ← AList.lookup_isSome, lookup_byPath value, lookup_byPath value',
    Option.isSome_map, Option.isSome_map]

theorem nameIsFree_iff {path : Path} {files : ByPath V} :
    nameIsFree path files ↔ path ∉ files ∧
      ∀ stored ∈ files, Path.under path stored = false ∧ Path.under stored path = false := by
  simp [nameIsFree, collidesWithAny, AList.lookup_eq_none, AList.mem_keys]

theorem nameIsFree_congr {a : ByPath V} {b : ByPath W} (h : SamePaths a b) (path : Path) :
    nameIsFree path a = nameIsFree path b := by
  rw [Bool.eq_iff_iff, nameIsFree_iff, nameIsFree_iff, h path]
  exact and_congr_right fun _ => forall_congr' fun stored => imp_congr_left (h stored)

theorem lookup_withLlms_of_ne {files : ByPath V} {llms : Option V} {path : Path}
    (h : path ≠ llmsPath) : (withLlms files llms).lookup path = files.lookup path := by
  unfold withLlms
  split
  · split
    · exact AList.lookup_insert_ne h
    · rfl
  · rfl

theorem lookup_withLlms_of_free {files : ByPath V} {llms : Option V}
    (h : nameIsFree llmsPath files) : (withLlms files llms).lookup llmsPath = llms := by
  cases llms with
  | none => exact AList.lookup_eq_none.mpr (nameIsFree_iff.mp h).1
  | some file => simp [withLlms, h]

theorem withLlms_of_not_free {files : ByPath V} {llms : Option V}
    (h : ¬ nameIsFree llmsPath files) : withLlms files llms = files := by
  unfold withLlms
  split
  · rw [if_neg h]
  · rfl

end Views

section Passes

theorem mem_pathsInOrder {V : Type} {files : ByPath V} {path : Path} :
    path ∈ pathsInOrder files ↔ files.lookup path ≠ none := by
  rw [pathsInOrder, List.mem_insertionSort, ne_eq, AList.lookup_eq_none, AList.mem_keys, not_not]

theorem mem_filesInOrder {V : Type} {files : ByPath V} {file : Sigma fun _ : Path => V} :
    file ∈ filesInOrder files ↔ files.lookup file.1 = some file.2 := by
  rw [filesInOrder, List.mem_insertionSort]
  exact AList.mem_lookup_iff.symm

variable {prevByPath : ByPath Sha} {nextByPath : ByPath Published} {path : Path}

theorem mem_stalePaths (h : path ∈ stalePaths prevByPath nextByPath) :
    prevByPath.lookup path ≠ none ∧ contents nextByPath path = none := by
  obtain ⟨hmem, hnone⟩ := List.mem_filter.mp h
  rw [Option.isNone_iff_eq_none] at hnone
  refine ⟨mem_pathsInOrder.mp hmem, ?_⟩
  unfold contents
  rw [hnone, Option.map_none]

theorem mem_changedFiles {file : Sigma fun _ : Path => Published}
    (h : file ∈ changedFiles prevByPath nextByPath) :
    prevByPath.lookup file.1 ≠ contents nextByPath file.1 ∧
      contents nextByPath file.1 = some file.2.sha256 := by
  obtain ⟨hmem, hdiffer⟩ := List.mem_filter.mp h
  have hview : contents nextByPath file.1 = some file.2.sha256 := by
    unfold contents
    rw [mem_filesInOrder.mp hmem, Option.map_some]
  refine ⟨fun heq => ?_, hview⟩
  rw [hview] at heq
  simp only [isUnchanged] at hdiffer
  simp [heq] at hdiffer

/-- A path at which the folder differs from the next view is stale, or its file has changed. -/
theorem stale_or_changed (h : prevByPath.lookup path ≠ contents nextByPath path) :
    path ∈ stalePaths prevByPath nextByPath ∨
      ∃ file, ⟨path, file⟩ ∈ changedFiles prevByPath nextByPath := by
  unfold contents at h
  cases hview : nextByPath.lookup path with
  | none =>
    rw [hview, Option.map_none] at h
    exact .inl (List.mem_filter.mpr ⟨mem_pathsInOrder.mpr h, by simp [hview]⟩)
  | some file =>
    rw [hview, Option.map_some] at h
    refine .inr ⟨file, List.mem_filter.mpr ⟨mem_filesInOrder.mpr hview, ?_⟩⟩
    simp only [isUnchanged, Bool.not_eq_true', decide_eq_false_iff_not]
    exact h

end Passes

/-- The content of a view, by what the site has and by the sandbox's text. -/
theorem contents_publishedView (files : SiteManifest) (text : Option Sha) (path : Path) :
    contents (publishedView files text) path = (publishedBefore (some files) text).lookup path := by
  have hsame := samePaths_byPath Published.site (·.sha256) files
  unfold contents publishedView publishedBefore
  rw [Option.getD_some]
  by_cases hpath : path = llmsPath
  · subst hpath
    by_cases hfree : nameIsFree llmsPath (byPath Published.site files)
    · rw [lookup_withLlms_of_free hfree,
        lookup_withLlms_of_free ((nameIsFree_congr hsame llmsPath).symm.trans hfree)]
      cases text <;> rfl
    · rw [withLlms_of_not_free hfree,
        withLlms_of_not_free fun h => hfree ((nameIsFree_congr hsame llmsPath).trans h),
        lookup_byPath Published.site, lookup_byPath fun entry => entry.sha256, Option.map_map]
      rfl
  · rw [lookup_withLlms_of_ne hpath, lookup_withLlms_of_ne hpath, lookup_byPath Published.site,
      lookup_byPath fun entry => entry.sha256, Option.map_map]
    rfl

/-- The sandbox's file is in a view exactly if the site leaves the name free. -/
theorem sandboxSha_publishedView (files : SiteManifest) (text : Option Sha) :
    sandboxSha (publishedView files text) =
      if nameIsFree llmsPath (byPath (·.sha256) files) then text else none := by
  have hsame := samePaths_byPath Published.site (·.sha256) files
  unfold sandboxSha publishedView
  rw [← nameIsFree_congr hsame]
  by_cases hfree : nameIsFree llmsPath (byPath Published.site files)
  · rw [lookup_withLlms_of_free hfree, if_pos hfree]
    cases text <;> rfl
  · rw [withLlms_of_not_free hfree, if_neg hfree, lookup_byPath]
    cases (byPath id files).lookup llmsPath <;> rfl

/-- What the record of a publish says is what the publish has left. -/
theorem publishedBefore_of_record (files : SiteManifest) (text : Option Sha) (path : Path) :
    (publishedBefore (some files) (sandboxSha (publishedView files text))).lookup path =
      contents (publishedView files text) path := by
  rw [contents_publishedView, sandboxSha_publishedView]
  split
  · rfl
  · rename_i hfree
    unfold publishedBefore
    rw [Option.getD_some, withLlms_of_not_free hfree, withLlms_of_not_free hfree]

/-! ## Undoing -/

/-- Every path of the folder is as one of the two views has it. -/
def Mixed (a b : Path → Option Sha) (folder : Folder) : Prop :=
  ∀ path, folder.lookup path = a path ∨ folder.lookup path = b path

section Mixed

variable {a b : Path → Option Sha} {folder folder' : Folder} {done : List Path}

theorem mixed_of_left (h : ∀ path, folder.lookup path = a path) : Mixed a b folder :=
  fun path => .inl (h path)

theorem mixed_of_right (h : ∀ path, folder.lookup path = b path) : Mixed a b folder :=
  fun path => .inr (h path)

theorem Mixed.symm (h : Mixed a b folder) : Mixed b a folder := fun path => (h path).symm

theorem Mixed.overwritten (h : Mixed a b folder) (hfolder : Overwritten folder b done folder') :
    Mixed a b folder' := fun path => by
  rw [hfolder path]
  split
  · exact .inr rfl
  · exact h path

end Mixed

/-- A publish that stopped anywhere is undone by publishing the old site again. -/
theorem restored {old new : SiteManifest} {text : Option Sha} {half folder : Folder}
    {undone : List Path}
    (hhalf : Mixed (contents (publishedView old text)) (contents (publishedView new text)) half)
    (hundone : ∀ path, (publishedBefore (some new) (sandboxSha (publishedView old text))).lookup
      path ≠ contents (publishedView old text) path → path ∈ undone)
    (hfolder : Overwritten half (contents (publishedView old text)) undone folder) (path : Path) :
    folder.lookup path = contents (publishedView old text) path := by
  rw [hfolder]
  split
  · rfl
  rename_i hkept
  have hagree := not_not.mp fun h => hkept (hundone path h)
  rcases hhalf path with hold | hwritten
  · exact hold
  by_contra hlost
  -- only the sandbox's file can have been written without the old site's publisher knowing of it
  have hdiffer : contents (publishedView old text) path ≠ contents (publishedView new text) path :=
    fun heq => hlost (hwritten.trans heq.symm)
  rw [← hagree, contents_publishedView] at hdiffer
  have hllms : path = llmsPath := by
    by_contra hne
    refine hdiffer ?_
    unfold publishedBefore
    rw [lookup_withLlms_of_ne hne, lookup_withLlms_of_ne hne]
  subst hllms
  have hnew : nameIsFree llmsPath (byPath (·.sha256) new) := by
    by_contra hnot
    refine hdiffer ?_
    unfold publishedBefore
    rw [Option.getD_some, withLlms_of_not_free hnot, withLlms_of_not_free hnot]
  have hold : ¬ nameIsFree llmsPath (byPath (·.sha256) old) := by
    intro hfree
    rw [sandboxSha_publishedView, if_pos hfree] at hdiffer
    exact hdiffer rfl
  rw [sandboxSha_publishedView, if_neg hold] at hagree hundone hdiffer
  unfold publishedBefore at hagree hdiffer
  rw [Option.getD_some, lookup_withLlms_of_free hnew] at hagree hdiffer
  rw [lookup_withLlms_of_free hnew] at hdiffer
  -- the old site holds a path that collides with it, and that path was written back
  have habsent : llmsPath ∉ byPath (fun entry => entry.sha256) old := by
    rw [← AList.lookup_eq_none]
    rw [contents_publishedView, publishedBefore, Option.getD_some, withLlms_of_not_free hold]
      at hagree
    exact hagree.symm
  rw [nameIsFree_iff] at hold
  push Not at hold
  obtain ⟨stored, hstored, hcollides⟩ := hold habsent
  have hback : folder.lookup stored = contents (publishedView old text) stored := by
    rw [hfolder, if_pos]
    refine hundone stored fun h => ?_
    have hne : stored ≠ llmsPath := fun h => habsent (h ▸ hstored)
    rw [contents_publishedView, publishedBefore, publishedBefore, Option.getD_some,
      Option.getD_some, lookup_withLlms_of_ne hne, lookup_withLlms_of_ne hne,
      AList.lookup_eq_none.mpr] at h
    · exact absurd hstored (AList.lookup_eq_none.mp h.symm)
    · intro hmem
      have hboth := (nameIsFree_iff.mp hnew).2 stored hmem
      exact hcollides hboth.1 hboth.2
  have hsome : folder.lookup stored ≠ none := by
    have hne : stored ≠ llmsPath := fun h => habsent (h ▸ hstored)
    rw [hback, contents_publishedView, publishedBefore, Option.getD_some,
      lookup_withLlms_of_ne hne]
    exact fun h => AList.lookup_eq_none.mp h hstored
  have hllms : folder.lookup llmsPath ≠ none := by
    rw [hfolder, if_neg hkept, hwritten, contents_publishedView, publishedBefore,
      Option.getD_some, lookup_withLlms_of_free hnew]
    exact Ne.symm hdiffer
  exact hcollides (folder.not_under hllms hsome) (folder.not_under hsome hllms)

/-! ## What a publish leaves -/

/-- The calls of the publisher. -/
def DevCall.publishes : DevCall → Bool
  | .llms | .setLlmsPublished _ | .putSite .. | .deleteSite _ | .getBlob _ => true
  | _ => false

/-- Some of the paths at which `before` and `view` differ were brought to `view`, and nothing else
happened to the store `s`. -/
structure Reached (s : DevStore) (before view : Path → Option Sha) (done : List Path)
    (s' : DevStore) : Prop where
  differ : ∀ path ∈ done, before path ≠ view path
  folder : Overwritten s.folder view done s'.folder
  same : s' = { s with folder := s'.folder, clock := s'.clock }

/-- A call of the publisher failed on the way. -/
def Stopped (s : DevStore) (before view : Path → Option Sha) (_ : ActivationError) (c : DevCall)
    (s' : DevStore) : Prop :=
  c.publishes ∧ ∃ done, Reached s before view done s'

section Publish

variable {s s₁ : DevStore} {before view : Path → Option Sha} {done : List Path}

theorem Reached.refl (s : DevStore) (before view : Path → Option Sha) :
    Reached s before view [] s where
  differ := fun _ h => absurd h List.not_mem_nil
  folder := fun _ => by simp
  same := rfl

theorem Reached.later (h : Reached s before view done s₁) (elapsed : ℕ) :
    Reached s before view done (s₁.after elapsed) where
  differ := h.differ
  folder := h.folder
  same := by
    have hsame := h.same
    unfold DevStore.after
    rw [hsame]

/-- One path more was brought to the view. -/
theorem Reached.cons (h : Reached s before view done s₁) {path : Path}
    (hdiffer : before path ≠ view path) {folder : Folder}
    (hfolder : ∀ other, folder.lookup other =
      if other = path then view path else s₁.folder.lookup other) :
    Reached s before view (path :: done) { s₁ with folder } where
  differ := fun other hother => by
    rcases List.mem_cons.mp hother with rfl | hother
    · exact hdiffer
    · exact h.differ other hother
  folder := fun other => by
    rw [hfolder other, h.folder other]
    by_cases hother : other = path
    · subst hother
      simp
    · simp [hother]
  same := by
    have hsame := h.same
    rw [hsame]

theorem Stopped.of_error (h : Reached s before view done s₁) {c : DevCall}
    (hc : c.publishes) {chance : Chance} {e : ActivationError} {s' : DevStore}
    (hperform : perform chance c s₁ = (.error e, s')) : Stopped s before view e c s' :=
  ⟨hc, done, perform_error hperform ▸ h.later chance.elapsed⟩

theorem remove_attains (h : Reached s before view done s₁) {path : Path}
    (hdiffer : before path ≠ view path) (hnone : view path = none) :
    Attains perform (remove path) s₁ (fun _ s' => Reached s before view (path :: done) s')
      (Stopped s before view) := by
  refine attains_bind (Q := fun _ s' => Reached s before view (path :: done) s')
    (attains_call (fun chance _ s' hperform => ?_) fun chance e s' => .of_error h rfl)
    fun _ _ hreached => attains_pure hreached
  have hanswer := answer_of_perform hperform
  simp only [answer] at hanswer
  split at hanswer <;> cases hanswer
  refine (h.later chance.elapsed).cons hdiffer fun other => ?_
  rw [Folder.lookup_erase, hnone]

theorem write_attains (h : Reached s before view done s₁) {path : Path} {file : Published}
    (hdiffer : before path ≠ view path) (hfile : view path = some file.sha256) :
    Attains perform (write path file) s₁ (fun _ s' => Reached s before view (path :: done) s')
      (Stopped s before view) := by
  refine attains_bind (Q := fun _ s' => Reached s before view done s') ?_ fun _ s₂ h₂ => ?_
  · cases file with
    | site entry =>
      refine attains_call (fun chance _ s' hperform => ?_) fun chance e s' => .of_error h rfl
      have hanswer := answer_of_perform hperform
      simp only [answer] at hanswer
      split at hanswer <;> cases hanswer
      exact h.later chance.elapsed
    | sandbox sha256 => exact attains_pure h
  · refine attains_call (fun chance _ s' hperform => ?_) fun chance e s' => .of_error h₂ rfl
    have hanswer := answer_of_perform hperform
    simp only [answer] at hanswer
    split at hanswer
    · rename_i folder hput
      cases hanswer
      refine (h₂.later chance.elapsed).cons hdiffer fun other => ?_
      rw [Folder.lookup_put hput, hfile]
    · cases hanswer

/-- A loop of the publisher. -/
theorem Reached.forM {γ : Type} {k : γ → Path} {f : γ → Task Unit} {todo : List γ}
    (h : Reached s before view done s₁)
    (hf : ∀ x ∈ todo, ∀ done s₁, Reached s before view done s₁ →
      Attains perform (f x) s₁ (fun _ s' => Reached s before view (k x :: done) s')
        (Stopped s before view)) :
    Attains perform (todo.forM f) s₁
      (fun _ s' => Reached s before view (todo.reverse.map k ++ done) s')
      (Stopped s before view) :=
  (attains_forM (I := fun past s' => Reached s before view (past.map k ++ done) s')
    (l := []) h fun x hx past s₁ h₁ => hf x hx _ s₁ h₁).mono
    (fun _ _ h => by rwa [List.append_nil] at h) fun _ _ _ h => h

end Publish

/-- A publish brings every path at which the folder is taken to differ to the next view, and
records the sandbox's file; if a call of it fails, it has done so for some of the paths. -/
theorem publishSite_attains (s : DevStore) (prev : Option SiteManifest) (next : SiteManifest) :
    let before := (publishedBefore prev s.llms.publishedSha256).lookup
    let view := contents (publishedView next s.llms.text)
    Attains perform (publishSite prev next) s
      (fun _ s' => ∃ done, (∀ path, before path ≠ view path → path ∈ done) ∧
        Reached s before view done { s' with llms := s.llms } ∧
        s'.llms = ⟨s.llms.text, sandboxSha (publishedView next s.llms.text)⟩)
      (Stopped s before view) := by
  intro before view
  refine attains_bind (Q := fun recorded s' => recorded = s.llms ∧ Reached s before view [] s')
    (attains_call (fun chance _ s' hperform => ?_) fun chance e s' => .of_error (.refl ..) rfl)
    fun recorded s₁ h => ?_
  · have hanswer := answer_of_perform hperform
    cases hanswer
    exact ⟨rfl, (Reached.refl s before view).later chance.elapsed⟩
  obtain ⟨rfl, h₁⟩ := h
  extract_lets prevByPath nextByPath stale colliding rest changed assets last publishedNow
  have hstale : ∀ path, path ∈ stale → before path ≠ view path ∧ view path = none := by
    intro path hpath
    obtain ⟨hbefore, hnone⟩ := mem_stalePaths hpath
    exact ⟨fun heq => hbefore (heq.trans hnone), hnone⟩
  have hchanged : ∀ file, file ∈ changed →
      before file.1 ≠ view file.1 ∧ view file.1 = some file.2.sha256 :=
    fun file hfile => mem_changedFiles hfile
  have hremove : ∀ path ∈ stale, ∀ done s₁, Reached s before view done s₁ →
      Attains perform (remove path) s₁ (fun _ s' => Reached s before view (path :: done) s')
        (Stopped s before view) :=
    fun path hpath done s₁ h => remove_attains h (hstale path hpath).1 (hstale path hpath).2
  have hwrite : ∀ file ∈ changed, ∀ done s₁, Reached s before view done s₁ →
      Attains perform (write file.1 file.2) s₁
        (fun _ s' => Reached s before view (file.1 :: done) s') (Stopped s before view) :=
    fun file hfile done s₁ h => write_attains h (hchanged file hfile).1 (hchanged file hfile).2
  refine attains_bind (h₁.forM (k := id) fun path hpath =>
    hremove path (List.mem_of_mem_filter hpath)) fun _ s₂ h₂ => ?_
  refine attains_bind (h₂.forM (k := Sigma.fst) fun file hfile =>
    hwrite file (List.mem_of_mem_filter hfile)) fun _ s₃ h₃ => ?_
  refine attains_bind (h₃.forM (k := id) fun path hpath =>
    hremove path (List.mem_of_mem_filter hpath)) fun _ s₄ h₄ => ?_
  refine attains_bind (h₄.forM (k := Sigma.fst) fun file hfile =>
    hwrite file (List.mem_of_mem_filter hfile)) fun _ s₅ h₅ => ?_
  have hall : ∀ path, before path ≠ view path → path ∈ last.reverse.map Sigma.fst ++
      (rest.reverse.map id ++ (assets.reverse.map Sigma.fst ++ (colliding.reverse.map id ++ []))) := by
    intro path hdiffer
    rcases stale_or_changed hdiffer with hpath | ⟨file, hfile⟩
    · by_cases hcollides : collidesWithAny path nextByPath
      · have hmem : path ∈ colliding := List.mem_filter.mpr ⟨hpath, hcollides⟩
        simp [hmem]
      · have hmem : path ∈ rest := List.mem_filter.mpr ⟨hpath, by simpa using hcollides⟩
        simp [hmem]
    · by_cases hentry : path = entrypoint
      · refine List.mem_append_left _ (List.mem_map.mpr ⟨⟨path, file⟩, ?_, rfl⟩)
        exact List.mem_reverse.mpr (List.mem_filter.mpr ⟨hfile, decide_eq_true hentry⟩)
      · refine List.mem_append_right _ (List.mem_append_right _ (List.mem_append_left _
          (List.mem_map.mpr ⟨⟨path, file⟩, ?_, rfl⟩)))
        exact List.mem_reverse.mpr (List.mem_filter.mpr ⟨hfile, decide_eq_true hentry⟩)
  have hsame : s₅.llms = s.llms := by rw [h₅.same]
  split
  · refine attains_bind (attains_call (fun chance _ s' hperform => ?_)
      fun chance e s' => .of_error h₅ rfl) fun _ _ h => attains_pure h
    cases answer_of_perform hperform
    refine ⟨_, hall, hsame ▸ h₅.later chance.elapsed, ?_⟩
    change LlmsRow.mk s₅.llms.text publishedNow = _
    rw [hsame]
  · rename_i hrecorded
    refine attains_pure ⟨_, hall, hsame ▸ h₅, ?_⟩
    have hrecord : sandboxSha (publishedView next s.llms.text) = s.llms.publishedSha256 :=
      not_not.mp hrecorded
    rw [hsame, hrecord]

end Dev
