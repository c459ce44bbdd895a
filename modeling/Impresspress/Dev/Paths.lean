import Mathlib.Data.String.Basic
import Impresspress.Dev.Handlers
import Mathlib.Data.List.Infix

/-!
# Workspace paths

What the sandbox accepts as the name of a file, the area of the workspace it lies in, and the
requests to the files endpoints as they arrive: a path is checked and a body decoded before the
workspace is looked at.

## Main definitions

* `Dev.validatePath`, `Dev.blockNameIsValid`: what is accepted as a path, and as a block's name.
* `Dev.Accepted`: the segments of a path that was accepted.
* `Dev.serveWrite`, `Dev.serveWriteBatch`, `Dev.serveDelete`, `Dev.handleCreate`: the requests.

## Main results

* `Dev.Accepted.ofText`: a path is accepted as what its text splits into.
* `Dev.decodeBatch_ok`: a batch that is decoded writes to accepted paths of one area.
-/

namespace Dev

open Concurrent Concurrent.Fallible

/-! ## Paths -/

def maxFileBytes : ℕ := 512 * 1024

def maxBatchFiles : ℕ := 64

def maxSegmentBytes : ℕ := 255

def maxPathBytes : ℕ := 1024

/-- The suffix of the metadata that the browser's storage files beside each object. -/
def metaSuffix : String := ".__meta__"

/-- Why a path was refused. -/
inductive PathError
  | empty
  | tooLong
  | badSegment (segment : String)
  | outsideWorkspace
  | badBlockName (name : String)
  | metadataSidecar (segment : String)
  deriving DecidableEq

namespace Path

/-- The path as it is spelt. -/
def text (path : Path) : String := String.ofList (['/'].intercalate (path.map String.toList))

/-- The segments of a path that is spelt `text`. -/
def ofText (text : String) : Path := (text.toList.splitOn '/').map String.ofList

theorem text_ofText (spelt : String) : (ofText spelt).text = spelt := by
  have hsegments : ((spelt.toList.splitOn '/').map String.ofList).map String.toList =
      spelt.toList.splitOn '/' := by
    rw [List.map_map]
    exact (List.map_congr_left fun _ _ => String.toList_ofList).trans (List.map_id _)
  rw [text, ofText, hsegments, List.intercalate_splitOn, String.ofList_toList]

end Path

def isControl (c : Char) : Bool := c.toNat < 32 || (127 ≤ c.toNat && c.toNat < 160)

/-- What is wrong with a segment. -/
def segmentError (segment : String) : Option PathError :=
  if segment = "" ∨ segment = "." ∨ segment = ".." ∨ maxSegmentBytes < segment.utf8ByteSize ∨
      segment.toList.contains '\\' = true ∨ segment.toList.any isControl = true then
    some (.badSegment segment)
  else if metaSuffix.toList.isSuffixOf segment.toList then some (.metadataSidecar segment)
  else none

/-- `^[a-z][a-z0-9-]{1,31}$`, without a doubled hyphen or one at the end. -/
def blockNameIsValid (name : String) : Bool :=
  match name.toList with
  | [] => false
  | first :: rest =>
    first.isLower && (1 ≤ rest.length && rest.length ≤ 31) &&
      (rest.all fun c => c.isLower || c.isDigit || c == '-') &&
      !decide (['-', '-'] <:+: name.toList) && !decide (['-'] <:+ name.toList)

/-- The area that a path of good segments lies in. -/
def areaOf : Path → Except PathError WorkspaceArea
  | first :: second :: rest =>
    if first = Workspace.sitePrefix then .ok .site
    else if first = Workspace.blocksPrefix ∧ rest ≠ [] then
      if blockNameIsValid second then .ok (.block second) else .error (.badBlockName second)
    else .error .outsideWorkspace
  | _ => .error .outsideWorkspace

/-- The area that the path lies in, if it is accepted. -/
def validatePath (path : String) : Except PathError WorkspaceArea :=
  if path = "" then .error .empty
  else if maxPathBytes < path.utf8ByteSize then .error .tooLong
  else
    match (Path.ofText path).findSome? segmentError with
    | some e => .error e
    | none => areaOf (Path.ofText path)

/-- The segments of a path that is accepted, and its area. -/
structure Accepted (path : Path) (area : WorkspaceArea) : Prop where
  segments : Path.ofText path.text = path
  valid : validatePath path.text = .ok area

theorem Accepted.ofText {path : String} {area : WorkspaceArea} (h : validatePath path = .ok area) :
    Accepted (Path.ofText path) area where
  segments := by rw [Path.text_ofText]
  valid := by rw [Path.text_ofText, h]

theorem Accepted.area {path : Path} {area : WorkspaceArea} (h : Accepted path area) :
    areaOf path = .ok area := by
  have hvalid := h.valid
  unfold validatePath at hvalid
  rw [h.segments] at hvalid
  split at hvalid
  · cases hvalid
  split at hvalid
  · cases hvalid
  split at hvalid
  · cases hvalid
  · exact hvalid

theorem areaOf_site {path : Path} (h : areaOf path = .ok .site) :
    ∃ second rest, path = Workspace.sitePrefix :: second :: rest := by
  unfold areaOf at h
  split at h
  · rename_i first second rest
    by_cases hsite : first = Workspace.sitePrefix
    · exact ⟨second, rest, by rw [hsite]⟩
    · rw [if_neg hsite] at h
      split at h
      · split at h <;> cases h
      · cases h
  · cases h

theorem areaOf_block {path : Path} {name : String} (h : areaOf path = .ok (.block name)) :
    ∃ third rest, path = Workspace.blocksPrefix :: name :: third :: rest := by
  unfold areaOf at h
  split at h
  · rename_i first second rest
    by_cases hsite : first = Workspace.sitePrefix
    · rw [if_pos hsite] at h
      cases h
    · rw [if_neg hsite] at h
      by_cases hblock : first = Workspace.blocksPrefix ∧ rest ≠ []
      · rw [if_pos hblock] at h
        split at h
        · cases h
          obtain ⟨third, rest', rfl⟩ := List.exists_cons_of_ne_nil hblock.2
          exact ⟨third, rest', by rw [hblock.1]⟩
        · cases h
      · rw [if_neg hblock] at h
        cases h
  · cases h

/-! ## Paths of plain characters -/

/-- The characters of a block's name. -/
def isPlain (c : Char) : Bool := c.isLower || c.isDigit || c == '-'

theorem utf8Len_le (cs : List Char) : String.utf8Len cs ≤ 4 * cs.length := by
  induction cs with
  | nil => exact Nat.le_refl _
  | cons c cs ih =>
    have := c.utf8Size_le_four
    rw [String.utf8Len_cons, List.length_cons]
    omega

theorem not_control_of_plain {c : Char} (h : isPlain c = true) : isControl c = false := by
  have hrange : 45 ≤ c.toNat ∧ c.toNat ≤ 122 := by
    unfold isPlain Char.isLower Char.isDigit at h
    simp only [Bool.or_eq_true, beq_iff_eq, Bool.and_eq_true, decide_eq_true_eq, ge_iff_le,
      UInt32.le_iff_toNat_le] at h
    have hval : c.val.toNat = c.toNat := rfl
    rcases h with (h | h) | rfl
    · simp at h; omega
    · simp at h; omega
    · decide
  simp [isControl]
  omega

theorem ne_of_plain {c d : Char} (h : isPlain c = true) (hd : isPlain d = false) : c ≠ d := by
  rintro rfl
  rw [h] at hd
  cases hd

/-- A short segment of plain characters is a good one. -/
theorem segmentError_of_plain {segment : String} (hne : segment.toList ≠ [])
    (hlength : segment.toList.length ≤ 63) (h : ∀ c ∈ segment.toList, isPlain c = true) :
    segmentError segment = none := by
  have hnot : ∀ d, isPlain d = false → d ∉ segment.toList := fun d hd hmem =>
    ne_of_plain (h d hmem) hd rfl
  unfold segmentError
  rw [if_neg, if_neg]
  · intro hsuffix
    exact hnot '_' (by decide) ((List.isSuffixOf_iff_suffix.mp hsuffix).subset (by decide))
  · rintro (rfl | rfl | rfl | hsize | hslash | hcontrol)
    · exact hne rfl
    · exact hnot '.' (by decide) (by decide)
    · exact hnot '.' (by decide) (by decide)
    · rw [← String.ofList_toList (s := segment), String.utf8ByteSize_ofList] at hsize
      have := utf8Len_le segment.toList
      unfold maxSegmentBytes at hsize
      omega
    · exact hnot '\\' (by decide) (by simpa using hslash)
    · obtain ⟨c, hc, hcontrol⟩ := List.any_eq_true.mp hcontrol
      rw [not_control_of_plain (h c hc)] at hcontrol
      cases hcontrol

theorem slash_notMem_of_plain {segment : String} (h : ∀ c ∈ segment.toList, isPlain c = true) :
    '/' ∉ segment.toList := fun hmem => ne_of_plain (h '/' hmem) (by decide) rfl

/-- A short path of good segments is accepted. -/
theorem Accepted.of_segments {path : Path} {area : WorkspaceArea}
    (hslash : ∀ segment ∈ path, '/' ∉ segment.toList)
    (hgood : ∀ segment ∈ path, segmentError segment = none)
    (hlength : (['/'].intercalate (path.map String.toList)).length ≤ 256)
    (harea : areaOf path = .ok area) : Accepted path area := by
  have hne : path ≠ [] := by
    rintro rfl
    cases harea
  have hsegments : Path.ofText path.text = path := by
    rw [Path.ofText, Path.text, String.toList_ofList, List.splitOn_intercalate]
    · rw [List.map_map]
      exact (List.map_congr_left fun _ _ => String.ofList_toList).trans (List.map_id _)
    · intro cs hcs
      obtain ⟨segment, hsegment, rfl⟩ := List.mem_map.mp hcs
      exact hslash segment hsegment
    · simpa using hne
  refine ⟨hsegments, ?_⟩
  unfold validatePath
  rw [hsegments, if_neg, if_neg]
  · have hnone : path.findSome? segmentError = none := by simpa using hgood
    rw [hnone]
    exact harea
  · rw [Path.text, String.utf8ByteSize_ofList]
    have := utf8Len_le (['/'].intercalate (path.map String.toList))
    unfold maxPathBytes
    omega
  · intro hempty
    have hpath : path = Path.ofText "" := by rw [← hempty, hsegments]
    rw [hpath] at harea
    cases harea

theorem blockName_plain {name : String} (h : blockNameIsValid name = true) :
    name.toList ≠ [] ∧ name.toList.length ≤ 32 ∧ ∀ c ∈ name.toList, isPlain c = true := by
  unfold blockNameIsValid at h
  split at h
  · cases h
  rename_i first rest hname
  simp only [Bool.and_eq_true, decide_eq_true_eq, List.all_eq_true] at h
  obtain ⟨⟨⟨⟨hfirst, hlength⟩, hrest⟩, -⟩, -⟩ := h
  rw [hname]
  refine ⟨List.cons_ne_nil _ _, ?_, ?_⟩
  · rw [List.length_cons]
    omega
  · intro c hc
    rcases List.mem_cons.mp hc with rfl | hc
    · simp [isPlain, hfirst]
    · exact hrest c hc

theorem accepted_template {name : String} (h : blockNameIsValid name = true) (file : List String)
    (hfile : file = ["Cargo.toml"] ∨ file = ["src", "lib.rs"]) :
    Accepted (Workspace.blocksPrefix :: name :: file) (.block name) := by
  obtain ⟨hne, hlength, hplain⟩ := blockName_plain h
  have hslash := slash_notMem_of_plain hplain
  have hgood := segmentError_of_plain hne (hlength.trans (by decide)) hplain
  refine .of_segments ?_ ?_ ?_ ?_
  · rcases hfile with rfl | rfl <;> simp [hslash] <;> decide
  · rcases hfile with rfl | rfl <;> simp [hgood] <;> decide
  · have hprefix : Workspace.blocksPrefix.toList.length = 6 := rfl
    rcases hfile with rfl | rfl <;>
    · simp [List.intercalate, List.intersperse]
      omega
  · rcases hfile with rfl | rfl <;> simp [areaOf, h, Workspace.blocksPrefix, Workspace.sitePrefix]

/-! ## Bodies -/

/-- The decoded content of a file: its hash stands for it. -/
structure FileContent where
  sha256 : Sha
  size : ℕ
  deriving DecidableEq

/-- The content as it is sent: a lower bound on its decoded length, and what it decodes to. -/
structure Body where
  minDecodedLen : ℕ
  content : Option FileContent
  deriving DecidableEq

/-- One file of a request; `expected` is `none` where the hash was left out. -/
structure FileWriteRequest where
  path : String
  body : Body
  expected : Option (Option Sha)
  deriving DecidableEq

/-- The rules of the service worker that keep a request from the runtime. -/
structure BypassRules where
  exactPaths : List String
  prefixes : List String
  deriving DecidableEq

/-- The rule that a path matches. -/
inductive BypassRule
  | exactPath (path : String)
  | leading (start : String)
  deriving DecidableEq

namespace BypassRules

def shadowing (rules : BypassRules) (requestPath : String) : Option BypassRule :=
  match rules.exactPaths.find? fun path => path = requestPath with
  | some path => some (.exactPath path)
  | none =>
    (rules.prefixes.find? fun start => start.toList.isPrefixOf requestPath.toList).map .leading

/-- The rule that shadows the file where the site serves it; only the site is served. -/
def refuseShadowed (rules : BypassRules) (area : WorkspaceArea) (path : String) :
    Option BypassRule :=
  match area with
  | .site => rules.shadowing ("/" ++ Path.text (Path.ofText path).tail)
  | .block _ => none

end BypassRules

/-- Why a request to the files or the blocks is refused. -/
inductive WriteRefusal
  | badPath (path : String) (error : PathError)
  | badName (name : String)
  | missingHash (paths : List String)
  | tooLarge (path : String)
  | undecodable (path : String)
  | shadowed (path : String) (rule : BypassRule)
  | batchSize (files : ℕ)
  | mixedAreas (path : String)
  | repeated (path : String)
  | blockTaken (path : Path)
  | refused (refusal : Refusal)
  deriving DecidableEq

/-- The content of a body, which is refused over its bound before it is decoded. -/
def decodeContent (path : String) (body : Body) : Except WriteRefusal FileContent :=
  if maxFileBytes < body.minDecodedLen then .error (.tooLarge path)
  else
    match body.content with
    | none => .error (.undecodable path)
    | some content => if maxFileBytes < content.size then .error (.tooLarge path) else .ok content

/-- Refuse a write that left the hash out. The message says what the files have. -/
def refuseMissingExpectedHash (paths : List String) : Task (Except WriteRefusal Unit) := do
  let _ ← call .loadWorkspace
  pure (.error (.missingHash paths))

/-- A refusal of the workspace, as a request answers it. -/
def answerRefusal : Except Refusal Unit → Except WriteRefusal Unit
  | .ok () => .ok ()
  | .error refusal => .error (.refused refusal)

/-- `POST /b/dev/api/files/write`, as it arrives. -/
def serveWrite (rules : BypassRules) (request : FileWriteRequest) :
    Task (Except WriteRefusal Unit) :=
  match validatePath request.path with
  | .error e => pure (.error (.badPath request.path e))
  | .ok area =>
    match request.expected with
    | none => refuseMissingExpectedHash [request.path]
    | some expected =>
      match decodeContent request.path request.body with
      | .error refusal => pure (.error refusal)
      | .ok content =>
        match rules.refuseShadowed area request.path with
        | some rule => pure (.error (.shadowed request.path rule))
        | none =>
          answerRefusal <$> handleWrite area
            ⟨Path.ofText request.path, content.sha256, content.size, expected⟩

/-- What is known of a batch once some of its files are decoded. -/
structure DecodedBatch where
  area : Option WorkspaceArea
  seen : List String
  missing : List String
  decoded : List FileWrite

/-- Decode one file after another. Once a hash is found to be missing, paths are checked only. -/
def decodeBatch : DecodedBatch → List FileWriteRequest → Except WriteRefusal DecodedBatch
  | batch, [] => .ok batch
  | batch, file :: files =>
    match validatePath file.path with
    | .error e => .error (.badPath file.path e)
    | .ok area =>
      if batch.area.any (· != area) then .error (.mixedAreas file.path)
      else if batch.seen.contains file.path then .error (.repeated file.path)
      else
        let batch := { batch with area := some area, seen := file.path :: batch.seen }
        match file.expected with
        | none => decodeBatch { batch with missing := batch.missing ++ [file.path] } files
        | some expected =>
          if batch.missing ≠ [] then decodeBatch batch files
          else
            match decodeContent file.path file.body with
            | .error refusal => .error refusal
            | .ok content =>
              decodeBatch { batch with decoded := batch.decoded ++
                [⟨Path.ofText file.path, content.sha256, content.size, expected⟩] } files

/-- A batch that is decoded writes to accepted paths of one area. -/
theorem decodeBatch_ok {batch batch' : DecodedBatch} {files : List FileWriteRequest}
    (hbatch : ∀ file ∈ batch.decoded, ∃ area ∈ batch.area, Accepted file.path area)
    (h : decodeBatch batch files = .ok batch') :
    ∀ file ∈ batch'.decoded, ∃ area ∈ batch'.area, Accepted file.path area := by
  induction files generalizing batch with
  | nil =>
    cases h
    exact hbatch
  | cons first files ih =>
    unfold decodeBatch at h
    cases hvalid : validatePath first.path with
    | error e =>
      rw [hvalid] at h
      cases h
    | ok area =>
      rw [hvalid] at h
      dsimp only at h
      split at h
      · cases h
      rename_i harea
      split at h
      · cases h
      -- the files decoded so far are in the area of this one
      have hsame : ∀ file ∈ batch.decoded, Accepted file.path area := by
        intro file hfile
        obtain ⟨area', harea', haccepted⟩ := hbatch file hfile
        rw [harea'] at harea
        obtain rfl : area' = area := by simpa using harea
        exact haccepted
      split at h
      · refine ih ?_ h
        exact fun file hfile => ⟨area, rfl, hsame file hfile⟩
      · split at h
        · refine ih ?_ h
          exact fun file hfile => ⟨area, rfl, hsame file hfile⟩
        · split at h
          · cases h
          · refine ih ?_ h
            refine fun file hfile => ⟨area, rfl, ?_⟩
            rcases List.mem_append.mp hfile with hfile | hfile
            · exact hsame file hfile
            · rw [List.mem_singleton.mp hfile]
              exact .ofText hvalid

/-- The first file of a batch that is shadowed. -/
def shadowedFile (rules : BypassRules) (area : WorkspaceArea) (files : List FileWriteRequest) :
    Option WriteRefusal :=
  files.findSome? fun file => (rules.refuseShadowed area file.path).map (.shadowed file.path)

/-- `POST /b/dev/api/files/write-batch`, as it arrives. -/
def serveWriteBatch (rules : BypassRules) (files : List FileWriteRequest) :
    Task (Except WriteRefusal Unit) :=
  if files = [] ∨ maxBatchFiles < files.length then pure (.error (.batchSize files.length))
  else
    match decodeBatch ⟨none, [], [], []⟩ files with
    | .error refusal => pure (.error refusal)
    | .ok batch =>
      if batch.missing ≠ [] then refuseMissingExpectedHash batch.missing
      else
        match batch.area with
        | none => pure (.error (.batchSize 0))
        | some area =>
          match shadowedFile rules area files with
          | some refusal => pure (.error refusal)
          | none => answerRefusal <$> handleWriteBatch area batch.decoded

/-- `POST /b/dev/api/files/delete`, as it arrives; a collection may follow the reply. -/
def serveDelete (path : String) (expected : Sha) : Task (Except WriteRefusal Unit) :=
  match validatePath path with
  | .error e => pure (.error (.badPath path e))
  | .ok area => answerRefusal <$> handleDelete area (Path.ofText path) expected

/-- The two files that a block starts as, instantiated from its template. -/
structure TemplateFiles where
  cargoToml : FileContent
  libRs : FileContent

/-- Store the template's files, unless the block has a file already. -/
def storeTemplate (name : String) (files : List FileWrite) : Task (Except WriteRefusal Unit) := do
  let ws ← call .loadWorkspace
  match ws.files.keys.find? fun path => [Workspace.blocksPrefix, name].isPrefixOf path &&
      [Workspace.blocksPrefix, name] != path with
  | some existing => pure (.error (.blockTaken existing))
  | none =>
    match refuseFiles (.block name) ws files with
    | some refusal => pure (.error (.refused refusal))
    | none => do
      let charged ← storeBlobs ws files
      call (.saveWorkspace
        (files.foldl (fun ws file => ws.insert file.path file.sha256 file.size) charged))
      pure (.ok ())

/-- `POST /b/dev/api/blocks`: write a new block's two files. -/
def handleCreate (name : String) (template : TemplateFiles) : Task (Except WriteRefusal Unit) :=
  if blockNameIsValid name then
    holding .workspaceManifest (storeTemplate name
      [⟨[Workspace.blocksPrefix, name, "Cargo.toml"], template.cargoToml.sha256,
        template.cargoToml.size, none⟩,
       ⟨[Workspace.blocksPrefix, name, "src", "lib.rs"], template.libRs.sha256,
        template.libRs.size, none⟩])
  else pure (.error (.badName name))

end Dev
