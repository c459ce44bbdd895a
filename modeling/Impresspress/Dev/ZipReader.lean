import Mathlib.Algebra.BigOperators.Group.List.Basic
import Impresspress.Dev.Zip

/-!
# Reading the export's archive

A reader takes the record at the archive's end, from it the central directory, and from each entry
of the directory the header and the data that it points at. It has every field of every record.
The archive that the writer finishes is the one in which every field holds its true value, whatever
was added and refused before.

## Main definitions

* `Dev.Zip.readArchive`: the reader.
* `Dev.Zip.endRecord`, `Dev.Zip.centralRecords`, `Dev.Zip.localRecord`: the true values.
* `Dev.Zip.addAll`: a sequence of calls and those of them that were accepted.
* `Dev.Zip.Written`: the writer that has accepted some files.

## Main results

* `Dev.Zip.addAll_written`: any calls leave a writer that has accepted some files.
* `Dev.Zip.readArchive_finish`: what such a writer finishes is read back.
-/

namespace Dev

namespace Zip

open Records
open Percent (bytesOf length_bytesOf fromUTF8_bytesOf)

/-! ## The reader -/

structure LocalRecord where
  version : ℕ
  flags : ℕ
  method : ℕ
  time : ℕ
  date : ℕ
  crc32 : ℕ
  compressedSize : ℕ
  size : ℕ
  nameLength : ℕ
  extraLength : ℕ
  name : List UInt8
  extra : List UInt8
  deriving DecidableEq

structure CentralRecord where
  madeBy : ℕ
  needed : ℕ
  flags : ℕ
  method : ℕ
  time : ℕ
  date : ℕ
  crc32 : ℕ
  compressedSize : ℕ
  size : ℕ
  nameLength : ℕ
  extraLength : ℕ
  commentLength : ℕ
  disk : ℕ
  internalAttributes : ℕ
  externalAttributes : ℕ
  offset : ℕ
  name : List UInt8
  extra : List UInt8
  comment : List UInt8
  deriving DecidableEq

structure EndRecord where
  disk : ℕ
  directoryDisk : ℕ
  diskEntries : ℕ
  entries : ℕ
  directorySize : ℕ
  directoryOffset : ℕ
  comment : List UInt8
  deriving DecidableEq

structure Archive where
  endRecord : EndRecord
  directory : List CentralRecord
  headers : List LocalRecord
  files : List (String × List UInt8)
  deriving DecidableEq

def readLocalHeader : Reader LocalRecord := do
  expect 4 localHeaderSig
  let version ← number 2
  let flags ← number 2
  let method ← number 2
  let time ← number 2
  let date ← number 2
  let crc32 ← number 4
  let compressedSize ← number 4
  let size ← number 4
  let nameLength ← number 2
  let extraLength ← number 2
  let name ← bytes nameLength
  let extra ← bytes extraLength
  pure ⟨version, flags, method, time, date, crc32, compressedSize, size, nameLength, extraLength,
    name, extra⟩

def readCentralHeader : Reader CentralRecord := do
  expect 4 centralHeaderSig
  let madeBy ← number 2
  let needed ← number 2
  let flags ← number 2
  let method ← number 2
  let time ← number 2
  let date ← number 2
  let crc32 ← number 4
  let compressedSize ← number 4
  let size ← number 4
  let nameLength ← number 2
  let extraLength ← number 2
  let commentLength ← number 2
  let disk ← number 2
  let internalAttributes ← number 2
  let externalAttributes ← number 4
  let offset ← number 4
  let name ← bytes nameLength
  let extra ← bytes extraLength
  let comment ← bytes commentLength
  pure ⟨madeBy, needed, flags, method, time, date, crc32, compressedSize, size, nameLength,
    extraLength, commentLength, disk, internalAttributes, externalAttributes, offset, name, extra,
    comment⟩

def readEnd : Reader EndRecord := do
  expect 4 eocdSig
  let disk ← number 2
  let directoryDisk ← number 2
  let diskEntries ← number 2
  let entries ← number 2
  let directorySize ← number 4
  let directoryOffset ← number 4
  let commentLength ← number 2
  let comment ← bytes commentLength
  pure ⟨disk, directoryDisk, diskEntries, entries, directorySize, directoryOffset, comment⟩

variable (inflate : List UInt8 → Option (List UInt8)) (crc32 : List UInt8 → UInt32)

/-- The bytes that a method packed. -/
def unpack (method : ℕ) (data : List UInt8) : Option (List UInt8) :=
  if method = methodStored then some data
  else if method = methodDeflated then inflate data
  else none

/-- The file that an entry of the directory points at. -/
def readFile (archive : List UInt8) (central : CentralRecord) :
    Option (LocalRecord × String × List UInt8) := do
  let (header, rest) ← readLocalHeader.run (archive.drop central.offset)
  guard (header.method = central.method ∧ header.crc32 = central.crc32 ∧
    header.compressedSize = central.compressedSize ∧ header.size = central.size ∧
    header.name = central.name)
  let (data, _) ← (bytes central.compressedSize).run rest
  let content ← unpack inflate central.method data
  guard (content.length = central.size ∧ (crc32 content).toNat = central.crc32)
  let name ← String.fromUTF8? ⟨central.name.toArray⟩
  some (header, name, content)

def readArchive (archive : List UInt8) : Option Archive := do
  let (endRecord, rest) ← readEnd.run (archive.drop (archive.length - eocdLen))
  guard (rest = [])
  let (directory, rest) ← (times readCentralHeader endRecord.entries).run
    ((archive.drop endRecord.directoryOffset).take endRecord.directorySize)
  guard (rest = [])
  let read ← directory.mapM (readFile inflate crc32 archive)
  some ⟨endRecord, directory, read.map Prod.fst, read.map Prod.snd⟩

/-! ## The true values -/

variable (tools : ZipTools)

/-- The size of a file's header and data. -/
def localSize (file : String × List UInt8) : ℕ :=
  localHeaderFixedLen + file.1.utf8ByteSize + (ZipWriter.packed tools file.2).2.length

/-- The size of a file's entry in the directory. -/
def centralSize (file : String × List UInt8) : ℕ := centralHeaderFixedLen + file.1.utf8ByteSize

def localRecord (file : String × List UInt8) : LocalRecord where
  version := zipVersion
  flags := flagUtf8
  method := (ZipWriter.packed tools file.2).1
  time := dosTime
  date := dosDate
  crc32 := (tools.crc32 file.2).toNat
  compressedSize := (ZipWriter.packed tools file.2).2.length
  size := file.2.length
  nameLength := file.1.utf8ByteSize
  extraLength := 0
  name := bytesOf file.1
  extra := []

def centralRecord (offset : ℕ) (file : String × List UInt8) : CentralRecord where
  madeBy := zipVersion
  needed := zipVersion
  flags := flagUtf8
  method := (ZipWriter.packed tools file.2).1
  time := dosTime
  date := dosDate
  crc32 := (tools.crc32 file.2).toNat
  compressedSize := (ZipWriter.packed tools file.2).2.length
  size := file.2.length
  nameLength := file.1.utf8ByteSize
  extraLength := 0
  commentLength := 0
  disk := 0
  internalAttributes := 0
  externalAttributes := 0
  offset := offset
  name := bytesOf file.1
  extra := []
  comment := []

/-- Each file stands after those before it. -/
def centralRecords : ℕ → List (String × List UInt8) → List CentralRecord
  | _, [] => []
  | offset, file :: files =>
    centralRecord tools offset file :: centralRecords (offset + localSize tools file) files

def endRecord (files : List (String × List UInt8)) : EndRecord where
  disk := 0
  directoryDisk := 0
  diskEntries := files.length
  entries := files.length
  directorySize := (files.map centralSize).sum
  directoryOffset := (files.map (localSize tools)).sum
  comment := []

/-- The archive of some files. -/
def archiveOf (files : List (String × List UInt8)) : Archive where
  endRecord := endRecord tools files
  directory := centralRecords tools 0 files
  headers := files.map (localRecord tools)
  files := files

/-! ## Reading one record -/

/-- The fields of a file's records fit. -/
structure Fits (file : String × List UInt8) : Prop where
  nameLength : file.1.utf8ByteSize ≤ u16Max
  size : file.2.length ≤ u32Max
  compressedSize : (ZipWriter.packed tools file.2).2.length ≤ u32Max

variable {tools} {file : String × List UInt8}

theorem method_fits : (ZipWriter.packed tools file.2).1 < 256 ^ 2 := by
  change (if _ then (methodDeflated, _) else (methodStored, _) : ℕ × List UInt8).1 < _
  split_ifs
  · change methodDeflated < _
    decide
  · change methodStored < _
    decide

theorem u16_fits {n : ℕ} (h : n ≤ u16Max) : n < 256 ^ 2 := Nat.lt_succ_of_le h

theorem u32_fits {n : ℕ} (h : n ≤ u32Max) : n < 256 ^ 4 := Nat.lt_succ_of_le h

theorem reads_localHeader (h : Fits tools file) :
    Reads readLocalHeader
      (ZipWriter.writeLocalHeader file.1 (ZipWriter.factsOf tools file.2))
      (localRecord tools file) := by
  simp only [ZipWriter.writeLocalHeader, List.append_assoc]
  refine (reads_expect (by decide)).bind ?_
  refine (reads_number (by decide)).bind ?_
  refine (reads_number (by decide)).bind ?_
  refine (reads_number method_fits).bind ?_
  refine (reads_number (by decide)).bind ?_
  refine (reads_number (by decide)).bind ?_
  refine (reads_number (UInt32.toNat_lt _)).bind ?_
  refine (reads_number (u32_fits h.compressedSize)).bind ?_
  refine (reads_number (u32_fits h.size)).bind ?_
  refine (reads_number (u16_fits h.nameLength)).bind ?_
  refine (reads_number (by decide)).bind ?_
  exact (reads_bytes (bytesOf file.1)).bind_last (.bytes_zero_bind (reads_pure _))

theorem reads_centralHeader {offset : ℕ} (h : Fits tools file) (hoffset : offset ≤ u32Max) :
    Reads readCentralHeader
      (ZipWriter.writeCentralHeader ⟨file.1, ZipWriter.factsOf tools file.2, offset⟩)
      (centralRecord tools offset file) := by
  simp only [ZipWriter.writeCentralHeader, List.append_assoc]
  refine (reads_expect (by decide)).bind ?_
  refine (reads_number (by decide)).bind ?_
  refine (reads_number (by decide)).bind ?_
  refine (reads_number (by decide)).bind ?_
  refine (reads_number method_fits).bind ?_
  refine (reads_number (by decide)).bind ?_
  refine (reads_number (by decide)).bind ?_
  refine (reads_number (UInt32.toNat_lt _)).bind ?_
  refine (reads_number (u32_fits h.compressedSize)).bind ?_
  refine (reads_number (u32_fits h.size)).bind ?_
  refine (reads_number (u16_fits h.nameLength)).bind ?_
  refine (reads_number (by decide)).bind ?_
  refine (reads_number (by decide)).bind ?_
  refine (reads_number (by decide)).bind ?_
  refine (reads_number (by decide)).bind ?_
  refine (reads_number (by decide)).bind ?_
  refine (reads_number (u32_fits hoffset)).bind ?_
  exact (reads_bytes (bytesOf file.1)).bind_last
    (.bytes_zero_bind (.bytes_zero_bind (reads_pure _)))

theorem reads_eocd {entries size offset : ℕ} (hentries : entries ≤ u16Max) (hsize : size ≤ u32Max)
    (hoffset : offset ≤ u32Max) :
    Reads readEnd (ZipWriter.writeEocd entries size offset)
      ⟨0, 0, entries, entries, size, offset, []⟩ := by
  simp only [ZipWriter.writeEocd, List.append_assoc]
  refine (reads_expect (by decide)).bind ?_
  refine (reads_number (by decide)).bind ?_
  refine (reads_number (by decide)).bind ?_
  refine (reads_number (u16_fits hentries)).bind ?_
  refine (reads_number (u16_fits hentries)).bind ?_
  refine (reads_number (u32_fits hsize)).bind ?_
  refine (reads_number (u32_fits hoffset)).bind ?_
  exact (reads_number (by decide)).bind_last (.bytes_zero_bind (reads_pure _))

/-! ## The writer that has accepted some files -/

variable (tools)

/-- A file's header and data. -/
def localBytes (file : String × List UInt8) : List UInt8 :=
  ZipWriter.writeLocalHeader file.1 (ZipWriter.factsOf tools file.2) ++
    (ZipWriter.packed tools file.2).2

/-- What the writer remembers of the files. -/
def centralEntries : ℕ → List (String × List UInt8) → List CentralEntry
  | _, [] => []
  | offset, file :: files => ⟨file.1, ZipWriter.factsOf tools file.2, offset⟩ ::
      centralEntries (offset + localSize tools file) files

structure Written (files : List (String × List UInt8)) (writer : ZipWriter) : Prop where
  buf : writer.buf = files.flatMap (localBytes tools)
  entries : writer.entries = centralEntries tools 0 files
  names : ∀ path, path ∈ writer.names ↔ path ∈ files.map Prod.fst
  centralDirBytes : writer.centralDirBytes = (files.map centralSize).sum
  count : files.length ≤ u16Max
  total : (files.map (localSize tools)).sum + (files.map centralSize).sum + eocdLen ≤ u32Max
  fits : ∀ file ∈ files, Fits tools file
  distinct : (files.map Prod.fst).Nodup
  safe : ∀ file ∈ files, file.1.contains '\\' = false ∧ tools.isTraversalSafePath file.1 = true

attribute [local simp] localSize centralSize localBytes centralEntries

variable {tools}

theorem length_writeLocalHeader (path : String) (facts : EntryFacts) :
    (ZipWriter.writeLocalHeader path facts).length = localHeaderFixedLen + path.utf8ByteSize := by
  simp only [ZipWriter.writeLocalHeader, List.length_append, length_encode, length_bytesOf]
  rfl

theorem length_writeCentralHeader (entry : CentralEntry) :
    (ZipWriter.writeCentralHeader entry).length =
      centralHeaderFixedLen + entry.name.utf8ByteSize := by
  simp only [ZipWriter.writeCentralHeader, List.length_append, length_encode, length_bytesOf]
  rfl

theorem length_writeEocd (entries size offset : ℕ) :
    (ZipWriter.writeEocd entries size offset).length = eocdLen := by
  simp only [ZipWriter.writeEocd, List.length_append, length_encode]
  rfl

theorem length_localBytes (file : String × List UInt8) :
    (localBytes tools file).length = localSize tools file := by
  rw [localBytes, List.length_append, length_writeLocalHeader, localSize]

theorem length_flatMap_localBytes (files : List (String × List UInt8)) :
    (files.flatMap (localBytes tools)).length = (files.map (localSize tools)).sum := by
  rw [List.length_flatMap]
  simp only [length_localBytes]

theorem length_centralEntries (offset : ℕ) (files : List (String × List UInt8)) :
    (centralEntries tools offset files).length = files.length := by
  induction files generalizing offset with
  | nil => rfl
  | cons file files ih => rw [centralEntries, List.length_cons, ih, List.length_cons]

theorem length_flatMap_writeCentralHeader (offset : ℕ) (files : List (String × List UInt8)) :
    ((centralEntries tools offset files).flatMap ZipWriter.writeCentralHeader).length =
      (files.map centralSize).sum := by
  induction files generalizing offset with
  | nil => rfl
  | cons file files ih =>
    rw [centralEntries, List.flatMap_cons, List.length_append, length_writeCentralHeader, ih,
      List.map_cons, List.sum_cons, centralSize]

/-- One more file stands after all the others. -/
theorem centralEntries_concat (offset : ℕ) (files : List (String × List UInt8))
    (file : String × List UInt8) :
    centralEntries tools offset (files ++ [file]) = centralEntries tools offset files ++
      [⟨file.1, ZipWriter.factsOf tools file.2, offset + (files.map (localSize tools)).sum⟩] := by
  induction files generalizing offset with
  | nil => rfl
  | cons first files ih =>
    rw [List.cons_append, centralEntries, ih, centralEntries, List.cons_append, List.map_cons,
      List.sum_cons, Nat.add_assoc]

/-- A total within the limit is not one that was cut. -/
theorem projectedTotal_le {offset compressedSize centralDirBytes pathLen : ℕ}
    (h : ZipWriter.projectedTotal offset compressedSize centralDirBytes pathLen ≤
      maxArchiveBytes) :
    offset + (localHeaderFixedLen + pathLen + compressedSize) + centralDirBytes +
      (centralHeaderFixedLen + pathLen) + eocdLen ≤ u32Max := by
  have hmax : u32Max < u64Max := by decide
  simp only [ZipWriter.projectedTotal, saturatingAdd, maxArchiveBytes] at h
  omega

theorem written_new : Written tools [] ZipWriter.new where
  buf := rfl
  entries := rfl
  names _ := by simp [ZipWriter.new]
  centralDirBytes := rfl
  count := Nat.zero_le _
  total := (by decide : 0 + 0 + eocdLen ≤ u32Max)
  fits _ hfile := nomatch hfile
  distinct := List.nodup_nil
  safe _ hfile := nomatch hfile

/-- A file that passed the checks is one more accepted file. -/
theorem Written.withFile {files : List (String × List UInt8)} {writer : ZipWriter} {path : String}
    {bytes : List UInt8} (h : Written tools files writer)
    (haccepts : ZipWriter.Accepts tools writer path bytes) :
    Written tools (files ++ [(path, bytes)]) (writer.withFile tools path bytes) where
  buf := by
    rw [ZipWriter.withFile, h.buf, List.flatMap_append, List.append_assoc, List.flatMap_singleton,
      localBytes]
  entries := by
    rw [ZipWriter.withFile, h.entries, centralEntries_concat, h.buf, length_flatMap_localBytes,
      Nat.zero_add]
  names other := by
    rw [ZipWriter.withFile, Finset.mem_insert, h.names, List.map_append, List.mem_append, or_comm,
      List.map_singleton, List.mem_singleton]
  centralDirBytes := by
    rw [ZipWriter.withFile, h.centralDirBytes, List.map_append, List.sum_append, List.map_singleton,
      List.sum_singleton, centralSize]
  count := by
    have hentries := haccepts.entries
    rw [h.entries, length_centralEntries] at hentries
    rw [List.length_append]
    exact hentries
  total := by
    have htotal := projectedTotal_le haccepts.total
    rw [h.buf, length_flatMap_localBytes, h.centralDirBytes] at htotal
    rw [List.map_append, List.map_append, List.sum_append, List.sum_append, List.map_singleton,
      List.map_singleton, List.sum_singleton, List.sum_singleton, localSize, centralSize]
    change _ + (_ + path.utf8ByteSize + (ZipWriter.packed tools bytes).2.length) +
      (_ + (_ + path.utf8ByteSize)) + _ ≤ _
    omega
  fits file hfile := by
    rcases List.mem_append.mp hfile with hfile | hfile
    · exact h.fits file hfile
    · rw [List.mem_singleton.mp hfile]
      exact ⟨haccepts.pathLen, haccepts.size, haccepts.compressedSize⟩
  distinct := by
    rw [List.map_append, List.map_singleton]
    refine h.distinct.append (List.nodup_singleton path) ?_
    exact List.disjoint_singleton.mpr fun hmem => haccepts.isNew ((h.names path).mpr hmem)
  safe file hfile := by
    rcases List.mem_append.mp hfile with hfile | hfile
    · exact h.safe file hfile
    · rw [List.mem_singleton.mp hfile]
      exact ⟨haccepts.noBackslash, haccepts.safe⟩

/-! ## Any calls -/

variable (tools)

/-- The files that are accepted of a sequence of calls, and the writer after all of them. -/
def addAll (writer : ZipWriter) :
    List (String × List UInt8) → List (String × List UInt8) × ZipWriter
  | [] => ([], writer)
  | (path, bytes) :: calls =>
    match (ZipWriter.add tools path bytes).run.run writer with
    | (.ok (), writer) =>
      ((path, bytes) :: (addAll writer calls).1, (addAll writer calls).2)
    | (.error _, writer) => addAll writer calls

attribute [local simp] addAll

variable {tools}

variable {writer : ZipWriter} {path : String} {bytes : List UInt8}

theorem addAll_of_refused (calls : List (String × List UInt8))
    (h : ZipWriter.Refused writer ((ZipWriter.add tools path bytes).run.run writer)) :
    addAll tools writer ((path, bytes) :: calls) = addAll tools writer calls := by
  obtain ⟨error, hadd⟩ := h
  rw [addAll, hadd]

theorem addAll_of_accepted (calls : List (String × List UInt8))
    (h : (ZipWriter.add tools path bytes).run.run writer =
      (.ok (), writer.withFile tools path bytes)) :
    addAll tools writer ((path, bytes) :: calls) =
      ((path, bytes) :: (addAll tools (writer.withFile tools path bytes) calls).1,
        (addAll tools (writer.withFile tools path bytes) calls).2) := by
  rw [addAll, h]

/-- Any calls leave a writer that has accepted some files. -/
theorem addAll_written (calls : List (String × List UInt8)) {files : List (String × List UInt8)}
    (h : Written tools files writer) :
    Written tools (files ++ (addAll tools writer calls).1) (addAll tools writer calls).2 := by
  induction calls generalizing files writer with
  | nil => rwa [addAll, List.append_nil]
  | cons call calls ih =>
    rcases ZipWriter.add_cases tools writer call.1 call.2 with hadd | ⟨haccepts, hadd⟩
    · rw [addAll_of_refused calls hadd]
      exact ih h
    · have hfile := ih (h.withFile haccepts)
      rw [addAll_of_accepted calls hadd]
      rwa [List.append_assoc, List.singleton_append] at hfile

/-- A call that is refused could as well not have been made. -/
theorem addAll_refused (before after : List (String × List UInt8)) {error : ZipError}
    (h : ((ZipWriter.add tools path bytes).run.run (addAll tools writer before).2).1 =
      .error error) :
    addAll tools writer (before ++ (path, bytes) :: after) =
      addAll tools writer (before ++ after) := by
  induction before generalizing writer with
  | nil =>
    rcases ZipWriter.add_cases tools writer path bytes with hadd | ⟨_, hadd⟩
    · exact addAll_of_refused after hadd
    · rw [addAll, hadd] at h
      exact nomatch h
  | cons call before ih =>
    rcases ZipWriter.add_cases tools writer call.1 call.2 with hadd | ⟨_, hadd⟩
    · rw [addAll_of_refused before hadd] at h
      rw [List.cons_append, List.cons_append, addAll_of_refused _ hadd, addAll_of_refused _ hadd]
      exact ih h
    · rw [addAll_of_accepted before hadd] at h
      rw [List.cons_append, List.cons_append, addAll_of_accepted _ hadd, addAll_of_accepted _ hadd,
        ih h]

/-! ## Reading what was finished -/

variable {inflate : List UInt8 → Option (List UInt8)}

/-- A file's bytes are unpacked by the method that packed them. -/
theorem unpack_packed (hinflate : ∀ bytes, inflate (tools.deflate bytes) = some bytes)
    (bytes : List UInt8) :
    unpack inflate (ZipWriter.packed tools bytes).1 (ZipWriter.packed tools bytes).2 =
      some bytes := by
  by_cases hshorter : (tools.deflate bytes).length < bytes.length
  · have hpacked : ZipWriter.packed tools bytes = (methodDeflated, tools.deflate bytes) :=
      if_pos hshorter
    have hmethod : methodDeflated ≠ methodStored := by decide
    rw [hpacked, unpack, if_neg hmethod, if_pos rfl, hinflate]
  · have hpacked : ZipWriter.packed tools bytes = (methodStored, bytes) := if_neg hshorter
    rw [hpacked, unpack, if_pos rfl]

theorem guard_of {p : Prop} [Decidable p] (h : p) : (guard p : Option Unit) = some () := if_pos h

theorem bind_of {α β : Type} {x : Option α} {f : α → Option β} {a : α} {b : β} (hx : x = some a)
    (hf : f a = some b) : (x >>= f) = some b := by
  rw [hx]
  exact hf

/-- The file that stands at an offset is read there. -/
theorem readFile_of (hinflate : ∀ bytes, inflate (tools.deflate bytes) = some bytes)
    {file : String × List UInt8} (hfits : Fits tools file) (front back : List UInt8) :
    readFile inflate tools.crc32 (front ++ (localBytes tools file ++ back))
        (centralRecord tools front.length file) =
      some (localRecord tools file, file) := by
  have hheader : readLocalHeader.run (localBytes tools file ++ back) = some (localRecord tools file,
      (ZipWriter.packed tools file.2).2 ++ back) := by
    rw [localBytes, List.append_assoc]
    exact reads_localHeader hfits _
  have hdata : (bytes (ZipWriter.packed tools file.2).2.length).run
      ((ZipWriter.packed tools file.2).2 ++ back) =
        some ((ZipWriter.packed tools file.2).2, back) := reads_bytes _ back
  have hdrop : (front ++ (localBytes tools file ++ back)).drop front.length =
      localBytes tools file ++ back := List.drop_left
  rw [← hdrop] at hheader
  exact bind_of hheader (bind_of (guard_of ⟨rfl, rfl, rfl, rfl, rfl⟩) (bind_of hdata
    (bind_of (unpack_packed hinflate file.2) (bind_of (guard_of ⟨rfl, rfl⟩)
      (bind_of (fromUTF8_bytesOf file.1) rfl)))))

/-- The files that stand after one another are read one after another. -/
theorem mapM_readFile (hinflate : ∀ bytes, inflate (tools.deflate bytes) = some bytes)
    (files : List (String × List UInt8)) (hfits : ∀ file ∈ files, Fits tools file)
    (front back : List UInt8) :
    (centralRecords tools front.length files).mapM
        (readFile inflate tools.crc32 (front ++ (files.flatMap (localBytes tools) ++ back))) =
      some (files.map fun file => (localRecord tools file, file)) := by
  induction files generalizing front with
  | nil => rfl
  | cons file files ih =>
    have hfile := readFile_of hinflate (hfits file List.mem_cons_self) front
      (files.flatMap (localBytes tools) ++ back)
    have hfiles := ih (fun other hother => hfits other (List.mem_cons_of_mem file hother))
      (front ++ localBytes tools file)
    rw [List.length_append, length_localBytes, List.append_assoc] at hfiles
    rw [centralRecords, List.mapM_cons, List.flatMap_cons, List.append_assoc, hfile, hfiles]
    rfl

/-- The directory has one record for each entry. -/
theorem reads_directory (files : List (String × List UInt8))
    (hfits : ∀ file ∈ files, Fits tools file) (offset : ℕ)
    (hoffset : offset + (files.map (localSize tools)).sum ≤ u32Max) :
    Reads (times readCentralHeader files.length)
      ((centralEntries tools offset files).flatMap ZipWriter.writeCentralHeader)
      (centralRecords tools offset files) := by
  induction files generalizing offset with
  | nil => exact reads_pure []
  | cons file files ih =>
    rw [List.map_cons, List.sum_cons, ← Nat.add_assoc] at hoffset
    have hfile := reads_centralHeader (hfits file List.mem_cons_self)
      (Nat.le_trans (Nat.le_add_right offset _) (Nat.le_trans (Nat.le_add_right _ _) hoffset))
    have hfiles := ih (fun other hother => hfits other (List.mem_cons_of_mem file hother)) _ hoffset
    exact hfile.bind (hfiles.bind_last (reads_pure _))

/-- What a writer finishes is read back, with every field's true value. -/
theorem readArchive_finish (hinflate : ∀ bytes, inflate (tools.deflate bytes) = some bytes)
    {files : List (String × List UInt8)} (h : Written tools files writer) :
    readArchive inflate tools.crc32 writer.finish = some (archiveOf tools files) := by
  set back := (centralEntries tools 0 files).flatMap ZipWriter.writeCentralHeader with hback
  set last := ZipWriter.writeEocd files.length (files.map centralSize).sum
    (files.map (localSize tools)).sum with hlast
  have hlength : (files.flatMap (localBytes tools)).length = (files.map (localSize tools)).sum :=
    length_flatMap_localBytes files
  have hbackLength : back.length = (files.map centralSize).sum :=
    length_flatMap_writeCentralHeader 0 files
  have hfinish : writer.finish = files.flatMap (localBytes tools) ++ (back ++ last) := by
    rw [ZipWriter.finish, h.buf, h.entries, length_centralEntries, List.length_append, ← hback,
      Nat.add_sub_cancel_left, hlength, hbackLength, List.append_assoc]
  have hend : readEnd.run (writer.finish.drop (writer.finish.length - eocdLen)) =
      some (endRecord tools files, []) := by
    have htotal := h.total
    have hskip : writer.finish.length - eocdLen =
        (files.flatMap (localBytes tools) ++ back).length := by
      rw [hfinish, ← List.append_assoc, List.length_append, length_writeEocd, Nat.add_sub_cancel]
    rw [hskip, hfinish, ← List.append_assoc, List.drop_left]
    exact (reads_eocd h.count (by omega) (by omega)).all
  have hdirectory : (times readCentralHeader files.length).run
      ((writer.finish.drop (files.map (localSize tools)).sum).take (files.map centralSize).sum) =
        some (centralRecords tools 0 files, []) := by
    rw [hfinish, ← hlength, List.drop_left, ← hbackLength, List.take_left]
    exact (reads_directory files h.fits 0 (by have := h.total; omega)).all
  have hfiles : (centralRecords tools 0 files).mapM (readFile inflate tools.crc32 writer.finish) =
      some (files.map fun file => (localRecord tools file, file)) := by
    rw [hfinish]
    exact mapM_readFile hinflate files h.fits [] (back ++ last)
  refine bind_of hend (bind_of (guard_of rfl) (bind_of hdirectory (bind_of (guard_of rfl)
    (bind_of hfiles ?_))))
  simp only [List.map_map, Function.comp_def, List.map_id']
  rfl

/-! ## The archive of any calls -/

/-- The archive decodes to what was added, in order; every field of its records holds its true
value; and a file that was refused is as if it had not been tried. -/
theorem archive_decodes (tools : ZipTools) (inflate : List UInt8 → Option (List UInt8))
    (hinflate : ∀ bytes, inflate (tools.deflate bytes) = some bytes)
    (calls : List (String × List UInt8)) :
    readArchive inflate tools.crc32 (addAll tools .new calls).2.finish =
        some (archiveOf tools (addAll tools .new calls).1) ∧
      (∀ file ∈ (addAll tools .new calls).1, file.1.contains '\\' = false ∧
        tools.isTraversalSafePath file.1 = true) ∧
      ((addAll tools .new calls).1.map Prod.fst).Nodup ∧
      ∀ before path bytes after, calls = before ++ (path, bytes) :: after → ∀ error,
        ((ZipWriter.add tools path bytes).run.run (addAll tools .new before).2).1 = .error error →
          (addAll tools .new calls).2.finish = (addAll tools .new (before ++ after)).2.finish := by
  have hnew : Written tools [] .new := written_new
  have hwritten := addAll_written calls hnew
  rw [List.nil_append] at hwritten
  refine ⟨readArchive_finish hinflate hwritten, hwritten.safe, hwritten.distinct, ?_⟩
  rintro before path bytes after rfl error herror
  rw [addAll_refused before after herror]

/-- Twenty letters. -/
def sampleText : List UInt8 := List.replicate 20 97

/-- The compressor and the checksum on the sample text and on no bytes. -/
def sampleTools : ZipTools where
  deflate bytes := if bytes = sampleText then [75, 76, 196, 4, 0] else 3 :: 0 :: bytes
  crc32 bytes := if bytes = sampleText then 0x266f8bce else 0
  isTraversalSafePath path :=
    (path.splitOn "/").all fun segment => segment ≠ "" && segment ≠ "." && segment ≠ ".."

def sampleInflate (data : List UInt8) : Option (List UInt8) :=
  if data = [75, 76, 196, 4, 0] then some sampleText
  else match data with
    | 3 :: 0 :: bytes => some bytes
    | _ => none

theorem sampleInflate_deflate (bytes : List UInt8) :
    sampleInflate (sampleTools.deflate bytes) = some bytes := by
  by_cases hbytes : bytes = sampleText
  · have hdeflate : sampleTools.deflate bytes = [75, 76, 196, 4, 0] := if_pos hbytes
    rw [hdeflate, hbytes]
    rfl
  · have hdeflate : sampleTools.deflate bytes = 3 :: 0 :: bytes := if_neg hbytes
    have hother : (3 :: 0 :: bytes : List UInt8) ≠ [75, 76, 196, 4, 0] := fun h =>
      absurd (List.cons.inj h).1 (by decide)
    rw [hdeflate, sampleInflate, if_neg hother]

theorem archive_decodes_sample :
    readArchive sampleInflate sampleTools.crc32 (addAll sampleTools .new
        [("a.txt", sampleText), ("a.txt", []), ("b/empty", [])]).2.finish =
      some (archiveOf sampleTools (addAll sampleTools .new
        [("a.txt", sampleText), ("a.txt", []), ("b/empty", [])]).1) :=
  (archive_decodes sampleTools sampleInflate sampleInflate_deflate _).1

end Zip

end Dev
