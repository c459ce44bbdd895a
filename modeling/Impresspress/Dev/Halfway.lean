import Impresspress.Dev.Publisher

/-!
# The folder between two sites

An activation publishes a new site over the old one, or over nothing, and may publish the old one
again. Wherever that stops, each path of the folder belongs to one of the two, and publishing either
of them to the end leaves exactly it.

## Main definitions

* `Dev.Between`: what the folder and the record may be in the meantime.
* `Dev.OwnText`: a site that brings the very text that the sandbox would publish.

## Main results

* `Dev.Between.forward`, `Dev.Between.backward`: a publish that stops stays between the two.
* `Dev.Between.published`, `Dev.Between.republished`: a publish that ends leaves its site.
-/

namespace Dev

/-- The site brings the sandbox's text as a file of its own. -/
def OwnText (files : SiteManifest) (text : Option Sha) : Prop :=
  text ≠ none ∧ (byPath (·.sha256) files).lookup llmsPath = text

/-- What is in the folder, and what the record of it says, between the site `previous`, or an empty
folder, and the site `new`. -/
def Between (previous : Option SiteManifest) (new : SiteManifest) (folder : Folder)
    (llms : LlmsRow) : Prop :=
  match previous with
  | some old =>
    Mixed (contents (publishedView old llms.text)) (contents (publishedView new llms.text)) folder ∧
      (llms.publishedSha256 = sandboxSha (publishedView old llms.text) ∨
        llms.publishedSha256 = sandboxSha (publishedView new llms.text))
  | none =>
    (∀ path, path ≠ llmsPath → folder.lookup path = none ∨
      folder.lookup path = contents (publishedView new llms.text) path) ∧
    (folder.lookup llmsPath = contents (publishedView new llms.text) llmsPath ∨
      folder.lookup llmsPath = llms.text ∨
      folder.lookup llmsPath = none ∧ llms.publishedSha256 = none) ∧
    (llms.publishedSha256 = none ∨ llms.publishedSha256 = llms.text)

section Views

variable {files : SiteManifest} {text record : Option Sha} {path : Path}

theorem lookup_publishedBefore_of_ne (h : path ≠ llmsPath) :
    (publishedBefore (some files) record).lookup path = (byPath (·.sha256) files).lookup path := by
  unfold publishedBefore
  rw [Option.getD_some, lookup_withLlms_of_ne h]

theorem lookup_publishedBefore_of_free (h : nameIsFree llmsPath (byPath (·.sha256) files)) :
    (publishedBefore (some files) record).lookup llmsPath = record := by
  unfold publishedBefore
  rw [Option.getD_some, lookup_withLlms_of_free h]

theorem lookup_publishedBefore_of_not_free
    (h : ¬ nameIsFree llmsPath (byPath (·.sha256) files)) :
    (publishedBefore (some files) record).lookup path = (byPath (·.sha256) files).lookup path := by
  unfold publishedBefore
  rw [Option.getD_some, withLlms_of_not_free h]

theorem lookup_byPath_nil (value : FileEntry → Sha) (path : Path) :
    (byPath value []).lookup path = none := rfl

theorem free_nil : nameIsFree llmsPath (byPath (·.sha256) []) := rfl

/-- Where nothing was published there is at most the sandbox's own file. -/
theorem lookup_publishedBefore_none_of_ne (h : path ≠ llmsPath) :
    (publishedBefore none record).lookup path = none :=
  @lookup_publishedBefore_of_ne [] record path h

theorem lookup_publishedBefore_none (record : Option Sha) :
    (publishedBefore none record).lookup llmsPath = record :=
  @lookup_publishedBefore_of_free [] record free_nil

theorem sandboxSha_cases (files : SiteManifest) (text : Option Sha) :
    sandboxSha (publishedView files text) = none ∨ sandboxSha (publishedView files text) = text := by
  rw [sandboxSha_publishedView]
  split
  · exact .inr rfl
  · exact .inl rfl

end Views

/-! ## One publish -/

section Publish

variable {old new : SiteManifest} {text record : Option Sha} {folder folder' : Folder}
  {done : List Path}

/-- A publish to the end, over what a publish in either direction has left, leaves its site. -/
theorem exact_of_mixed
    (hmixed : Mixed (contents (publishedView old text)) (contents (publishedView new text)) folder)
    (hrecord : record = sandboxSha (publishedView old text) ∨
      record = sandboxSha (publishedView new text))
    (hdone : ∀ path, (publishedBefore (some old) record).lookup path ≠
      contents (publishedView new text) path → path ∈ done)
    (hfolder : Overwritten folder (contents (publishedView new text)) done folder') (path : Path) :
    folder'.lookup path = contents (publishedView new text) path := by
  rcases hrecord with rfl | rfl
  · rw [hfolder]
    split
    · rfl
    · rename_i hkept
      have hagree := not_not.mp fun hdiffer => hkept (hdone path hdiffer)
      rw [publishedBefore_of_record] at hagree
      rcases hmixed path with hold | hnew
      · exact hold.trans hagree
      · exact hnew
  · exact restored hmixed.symm hdone hfolder path

/-- The first publish to the end, over what a first publish has left, leaves its site. -/
theorem exact_of_first
    (hfiles : ∀ path, path ≠ llmsPath → folder.lookup path = none ∨
      folder.lookup path = contents (publishedView new text) path)
    (hllms : folder.lookup llmsPath = contents (publishedView new text) llmsPath ∨
      folder.lookup llmsPath = text ∨ folder.lookup llmsPath = none ∧ record = none)
    (hrecord : record = none ∨ record = text)
    (hdone : ∀ path, (publishedBefore none record).lookup path ≠
      contents (publishedView new text) path → path ∈ done)
    (hfolder : Overwritten folder (contents (publishedView new text)) done folder') (path : Path) :
    folder'.lookup path = contents (publishedView new text) path := by
  have hbefore : ∀ path, path ≠ llmsPath → (publishedBefore none record).lookup path = none :=
    fun path hpath => lookup_publishedBefore_none_of_ne hpath
  rw [hfolder]
  split
  · rfl
  rename_i hkept
  have hagree := not_not.mp fun hdiffer => hkept (hdone path hdiffer)
  by_cases hpath : path = llmsPath
  · subst hpath
    have hrecorded : record = contents (publishedView new text) llmsPath :=
      (lookup_publishedBefore_none record).symm.trans hagree
    rcases hllms with hnew | htext | ⟨hnone, rfl⟩
    · exact hnew
    · rcases hrecord with rfl | rfl
      · -- the sandbox's file was put back, and the new site holds a path that collides with it
        by_contra hlost
        have hfree : ¬ nameIsFree llmsPath (byPath (·.sha256) new) := fun hfree => by
          rw [contents_publishedView, lookup_publishedBefore_of_free hfree, htext] at hlost
          exact hlost rfl
        rw [contents_publishedView, lookup_publishedBefore_of_not_free hfree] at hrecorded
        have habsent := AList.lookup_eq_none.mp hrecorded.symm
        rw [nameIsFree_iff] at hfree
        push Not at hfree
        obtain ⟨stored, hstored, hcollides⟩ := hfree habsent
        have hne : stored ≠ llmsPath := fun h => habsent (h ▸ hstored)
        have hsome : contents (publishedView new text) stored ≠ none := by
          rw [contents_publishedView, lookup_publishedBefore_of_ne hne]
          exact fun h => AList.lookup_eq_none.mp h hstored
        have hwritten : folder'.lookup stored ≠ none := by
          rw [hfolder, if_pos]
          · exact hsome
          · refine hdone stored ?_
            rw [hbefore stored hne]
            exact hsome.symm
        have hleft : folder'.lookup llmsPath ≠ none := by
          rw [hfolder, if_neg hkept]
          intro hnone
          rw [hnone, contents_publishedView] at hlost
          rw [contents_publishedView] at hagree
          exact hlost (hrecorded.trans (by
            rw [lookup_publishedBefore_of_not_free]
            rw [nameIsFree_iff]
            push Not
            exact fun _ => ⟨stored, hstored, hcollides⟩))
        exact hcollides (folder'.not_under hleft hwritten) (folder'.not_under hwritten hleft)
      · exact htext.trans hrecorded
    · exact hnone.trans hrecorded
  · have hnone := (hbefore path hpath).symm.trans hagree
    rcases hfiles path hpath with hempty | hnew
    · exact hempty.trans hnone
    · exact hnew

end Publish

/-! ## Publishes at a store -/

section Store

variable {s s' : DevStore} {prev previous : Option SiteManifest} {next old new : SiteManifest}

/-- The publish of `next` over `prev` has stopped somewhere. -/
def Half (s : DevStore) (prev : Option SiteManifest) (next : SiteManifest) (s' : DevStore) : Prop :=
  ∃ done, Reached s (publishedBefore prev s.llms.publishedSha256).lookup
    (contents (publishedView next s.llms.text)) done s'

/-- The publish of `next` over `prev` has come to its end. -/
def Finished (s : DevStore) (prev : Option SiteManifest) (next : SiteManifest) (s' : DevStore) :
    Prop :=
  ∃ done, (∀ path, (publishedBefore prev s.llms.publishedSha256).lookup path ≠
      contents (publishedView next s.llms.text) path → path ∈ done) ∧
    Reached s (publishedBefore prev s.llms.publishedSha256).lookup
      (contents (publishedView next s.llms.text)) done { s' with llms := s.llms } ∧
    s'.llms = ⟨s.llms.text, sandboxSha (publishedView next s.llms.text)⟩

theorem Half.llms (h : Half s prev next s') : s'.llms = s.llms := by
  obtain ⟨done, hreached⟩ := h
  rw [hreached.same]

/-- A publish changes nothing but the folder and the record. -/
theorem Half.same (h : Half s prev next s') :
    s' = { s with folder := s'.folder, clock := s'.clock } := h.choose_spec.same

theorem Finished.same (h : Finished s prev next s') :
    s' = { s with folder := s'.folder, llms := s'.llms, clock := s'.clock } := by
  obtain ⟨done, -, hreached, -⟩ := h
  have hsame := hreached.same
  cases s'
  simp only [DevStore.mk.injEq] at hsame ⊢
  simpa using hsame

theorem Finished.text (h : Finished s prev next s') : s'.llms.text = s.llms.text := by
  obtain ⟨done, -, -, hllms⟩ := h
  rw [hllms]

/-- Publishing the new site, as far as it comes. -/
theorem Between.forward (h : Between previous new s.folder s.llms) (hhalf : Half s previous new s') :
    Between previous new s'.folder s'.llms := by
  rw [hhalf.llms]
  obtain ⟨done, hreached⟩ := hhalf
  have hfolder := hreached.folder
  cases previous with
  | some old => exact ⟨h.1.overwritten hfolder, h.2⟩
  | none =>
    obtain ⟨hfiles, hllms, hrecord⟩ := h
    refine ⟨fun path hpath => ?_, ?_, hrecord⟩
    · rw [hfolder path]
      split
      · exact .inr rfl
      · exact hfiles path hpath
    · rw [hfolder llmsPath]
      split
      · exact .inl rfl
      · exact hllms

/-- Publishing the old site again, as far as it comes. -/
theorem Between.backward (h : Between previous new s.folder s.llms)
    (hhalf : Half s (some new) (previous.getD []) s') :
    Between previous new s'.folder s'.llms := by
  rw [hhalf.llms]
  obtain ⟨done, hreached⟩ := hhalf
  have hfolder := hreached.folder
  cases previous with
  | some old => exact ⟨(h.1.symm.overwritten hfolder).symm, h.2⟩
  | none =>
    obtain ⟨hfiles, hllms, hrecord⟩ := h
    refine ⟨fun path hpath => ?_, ?_, hrecord⟩
    · rw [hfolder path]
      split
      · exact .inl ((contents_publishedView [] s.llms.text path).trans
          (lookup_publishedBefore_of_ne hpath))
      · exact hfiles path hpath
    · rw [hfolder llmsPath]
      split
      · exact .inr (.inl ((contents_publishedView [] s.llms.text llmsPath).trans
          (lookup_publishedBefore_of_free free_nil)))
      · exact hllms

/-- The new site has been published to the end. -/
theorem Between.published (h : Between previous new s.folder s.llms)
    (hfinished : Finished s previous new s') (path : Path) :
    s'.folder.lookup path = contents (publishedView new s'.llms.text) path := by
  rw [hfinished.text]
  obtain ⟨done, hall, hreached, -⟩ := hfinished
  cases previous with
  | some old => exact exact_of_mixed h.1 h.2 hall hreached.folder path
  | none => exact exact_of_first h.1 h.2.1 h.2.2 hall hreached.folder path

/-- A published site is where a publish leads to. -/
theorem between_of_published (hrecord : s.llms.publishedSha256 =
      sandboxSha (publishedView new s.llms.text))
    (h : ∀ path, s.folder.lookup path = contents (publishedView new s.llms.text) path) :
    Between previous new s.folder s.llms := by
  cases previous with
  | some old => exact ⟨mixed_of_right h, .inr hrecord⟩
  | none =>
    refine ⟨fun path _ => .inr (h path), .inl (h llmsPath), ?_⟩
    rw [hrecord]
    exact sandboxSha_cases new s.llms.text

/-- The old site has been published again, to the end. -/
theorem Between.republished (h : Between (some old) new s.folder s.llms)
    (hfinished : Finished s (some new) old s') (path : Path) :
    s'.folder.lookup path = contents (publishedView old s'.llms.text) path := by
  rw [hfinished.text]
  obtain ⟨done, hall, hreached, -⟩ := hfinished
  exact exact_of_mixed h.1.symm h.2.symm hall hreached.folder path

/-- What was published has been taken back, to the end. -/
theorem Between.undone (h : Between previous new s.folder s.llms)
    (hown : previous = none → ¬ OwnText new s.llms.text)
    (hfinished : Finished s (some new) (previous.getD []) s') :
    Between previous new s'.folder s'.llms := by
  cases previous with
  | some old =>
    have hfolder := h.republished hfinished
    obtain ⟨done, -, -, hllms⟩ := hfinished
    rw [hllms] at hfolder ⊢
    exact ⟨mixed_of_left hfolder, .inl rfl⟩
  | none =>
    obtain ⟨hfiles, hcurrent, hrecord⟩ := h
    obtain ⟨done, hall, hreached, hllms⟩ := hfinished
    have hfolder : Overwritten s.folder (contents (publishedView [] s.llms.text)) done s'.folder :=
      hreached.folder
    have htext : contents (publishedView [] s.llms.text) llmsPath = s.llms.text :=
      (contents_publishedView [] s.llms.text llmsPath).trans
        (lookup_publishedBefore_of_free free_nil)
    rw [hllms]
    refine ⟨fun path hpath => ?_, ?_, sandboxSha_cases [] s.llms.text⟩
    · rw [hfolder path]
      split
      · exact .inl ((contents_publishedView [] s.llms.text path).trans
          (lookup_publishedBefore_of_ne hpath))
      · exact hfiles path hpath
    · rw [hfolder llmsPath]
      split
      · exact .inr (.inl htext)
      rename_i hkept
      rcases hcurrent with hnew | hsandbox | ⟨hnone, hunrecorded⟩
      · exact .inl hnew
      · exact .inr (.inl hsandbox)
      · -- the record says nothing, so that the new site would have to bring the text itself
        have hagree : (publishedBefore (some new) s.llms.publishedSha256).lookup llmsPath =
            s.llms.text := (not_not.mp fun hdiffer => hkept (hall llmsPath hdiffer)).trans htext
        refine .inr (.inl (hnone.trans ?_))
        by_cases hfree : nameIsFree llmsPath (byPath (·.sha256) new)
        · rw [lookup_publishedBefore_of_free hfree, hunrecorded] at hagree
          exact hagree
        · rw [lookup_publishedBefore_of_not_free hfree] at hagree
          by_contra hdiffer
          exact hown rfl ⟨fun h => hdiffer h.symm, hagree⟩

end Store

end Dev
