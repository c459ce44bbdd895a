import Mathlib.Data.Finset.Insert
import Impresspress.Dev.Manifest
import Impresspress.Encoding.Percent
import Impresspress.Encoding.Records

/-!
# The writer of the export's archive

The export is a ZIP archive. Each file is written with a header ahead of it as it is added; the
central directory, which repeats the headers with their offsets, and the record that points at the
directory come last, when the archive is finished. Every field of a header is cut to its width, so
that a file which would carry the archive past what the fields hold has to be refused when it is
added.

## Main definitions

* `Dev.ZipTools`: what the writer takes from other crates.
* `Dev.ZipWriter`: the bytes so far and what the directory will say.
* `Dev.ZipWriter.add`, `Dev.ZipWriter.finish`: the writer's calls.

## Main results

* `Dev.ZipWriter.add_cases`: a file is refused with nothing written, or it passed every check.
-/

namespace Dev

open Records
open Percent (bytesOf)

/-! ## Constants -/

def dosTime : ℕ := 0

/-- 2026-01-01. -/
def dosDate : ℕ := 0x5C21

def zipVersion : ℕ := 20

def flagUtf8 : ℕ := 0x0800

def methodStored : ℕ := 0

def methodDeflated : ℕ := 8

def localHeaderSig : ℕ := 0x04034b50

def centralHeaderSig : ℕ := 0x02014b50

def eocdSig : ℕ := 0x06054b50

def localHeaderFixedLen : ℕ := 30

def centralHeaderFixedLen : ℕ := 46

def eocdLen : ℕ := 22

def u16Max : ℕ := 65535

def maxArchiveBytes : ℕ := u32Max

def maxEntries : ℕ := u16Max

/-! ## The writer -/

/-- What the writer takes from other crates: the compressor, the checksum, and the check of a
path's segments. -/
structure ZipTools where
  deflate : List UInt8 → List UInt8
  crc32 : List UInt8 → UInt32
  isTraversalSafePath : String → Bool

inductive ZipError
  | badPath (path : String)
  | duplicate (path : String)
  | pathTooLong (path : String)
  | tooLarge
  | tooManyEntries
  deriving DecidableEq, Repr

/-- What both of an entry's records say about its data. -/
structure EntryFacts where
  method : ℕ
  /-- Of the bytes as they were before they were compressed. -/
  crc32 : UInt32
  compressedSize : ℕ
  size : ℕ

structure CentralEntry where
  name : String
  facts : EntryFacts
  offset : ℕ

structure ZipWriter where
  buf : List UInt8
  entries : List CentralEntry
  names : Finset String
  /-- How long the directory will be. -/
  centralDirBytes : ℕ

namespace ZipWriter

/-- A call of the writer changes it and can fail; what it did before it failed stays. -/
abbrev Call := ExceptT ZipError (StateM ZipWriter)

def new : ZipWriter := ⟨[], [], ∅, 0⟩

def refuseIf (condition : Prop) [Decidable condition] (error : ZipError) : Call Unit :=
  if condition then throw error else pure ()

/-- The number as one of 32 bits. -/
def toU32 (n : ℕ) : Call ℕ := if n ≤ u32Max then pure n else throw .tooLarge

def writeLocalHeader (path : String) (facts : EntryFacts) : List UInt8 :=
  encode 4 localHeaderSig ++ encode 2 zipVersion ++ encode 2 flagUtf8 ++ encode 2 facts.method ++
    encode 2 dosTime ++ encode 2 dosDate ++ encode 4 facts.crc32.toNat ++
    encode 4 facts.compressedSize ++ encode 4 facts.size ++ encode 2 path.utf8ByteSize ++
    encode 2 0 ++ bytesOf path

def writeCentralHeader (entry : CentralEntry) : List UInt8 :=
  encode 4 centralHeaderSig ++ encode 2 zipVersion ++ encode 2 zipVersion ++ encode 2 flagUtf8 ++
    encode 2 entry.facts.method ++ encode 2 dosTime ++ encode 2 dosDate ++
    encode 4 entry.facts.crc32.toNat ++ encode 4 entry.facts.compressedSize ++
    encode 4 entry.facts.size ++ encode 2 entry.name.utf8ByteSize ++ encode 2 0 ++ encode 2 0 ++
    encode 2 0 ++ encode 2 0 ++ encode 4 0 ++ encode 4 entry.offset ++ bytesOf entry.name

def writeEocd (entryCount centralSize centralOffset : ℕ) : List UInt8 :=
  encode 4 eocdSig ++ encode 2 0 ++ encode 2 0 ++ encode 2 entryCount ++ encode 2 entryCount ++
    encode 4 centralSize ++ encode 4 centralOffset ++ encode 2 0

variable (tools : ZipTools)

/-- The method and the bytes that are written: compressed where that is shorter. -/
def packed (bytes : List UInt8) : ℕ × List UInt8 :=
  let deflated := tools.deflate bytes
  if deflated.length < bytes.length then (methodDeflated, deflated) else (methodStored, bytes)

/-- The size of what `finish` would write with one more entry. -/
def projectedTotal (offset compressedSize centralDirBytes pathLen : ℕ) : ℕ :=
  let growsBy := localHeaderFixedLen + pathLen + compressedSize
  let centralEntryLen := centralHeaderFixedLen + pathLen
  let total := saturatingAdd u64Max (saturatingAdd u64Max offset growsBy) centralDirBytes
  saturatingAdd u64Max (saturatingAdd u64Max total centralEntryLen) eocdLen

/-- Adds one file. -/
def add (path : String) (bytes : List UInt8) : Call Unit := do
  let writer ← get
  refuseIf (path.contains '\\' || !tools.isTraversalSafePath path) (.badPath path)
  refuseIf (u16Max < path.utf8ByteSize) (.pathTooLong path)
  refuseIf (path ∈ writer.names) (.duplicate path)
  refuseIf (maxEntries ≤ writer.entries.length) .tooManyEntries
  let offset ← toU32 writer.buf.length
  let size ← toU32 bytes.length
  let (method, data) := packed tools bytes
  let compressedSize ← toU32 data.length
  let pathLen := path.utf8ByteSize
  refuseIf (maxArchiveBytes <
    projectedTotal offset compressedSize writer.centralDirBytes pathLen) .tooLarge
  let facts : EntryFacts := ⟨method, tools.crc32 bytes, compressedSize, size⟩
  modify fun writer => { writer with buf := writer.buf ++ writeLocalHeader path facts }
  modify fun writer => { writer with buf := writer.buf ++ data }
  modify fun writer => { writer with names := insert path writer.names }
  modify fun writer => { writer with
    centralDirBytes := writer.centralDirBytes + (centralHeaderFixedLen + pathLen) }
  modify fun writer => { writer with entries := writer.entries ++ [⟨path, facts, offset⟩] }

/-- The whole archive. -/
def finish (writer : ZipWriter) : List UInt8 :=
  let centralStart := writer.buf.length
  let buf := writer.buf ++ writer.entries.flatMap writeCentralHeader
  let centralSize := buf.length - centralStart
  buf ++ writeEocd writer.entries.length centralSize centralStart

/-! ## What a call can do -/

section Call

variable {α : Type} (writer : ZipWriter)

theorem run_get_bind (next : ZipWriter → Call α) :
    (get >>= next).run.run writer = (next writer).run.run writer := rfl

theorem run_refuseIf_bind (condition : Prop) [Decidable condition] (error : ZipError)
    (next : Unit → Call α) : (refuseIf condition error >>= next).run.run writer =
      if condition then (.error error, writer) else (next ()).run.run writer := by
  by_cases h : condition
  · rw [if_pos h, refuseIf, if_pos h]
    rfl
  · rw [if_neg h, refuseIf, if_neg h]
    rfl

theorem run_toU32_bind (n : ℕ) (next : ℕ → Call α) :
    (toU32 n >>= next).run.run writer =
      if n ≤ u32Max then (next n).run.run writer else (.error .tooLarge, writer) := by
  by_cases hn : n ≤ u32Max
  · rw [if_pos hn, toU32, if_pos hn]
    rfl
  · rw [if_neg hn, toU32, if_neg hn]
    rfl

/-- The call failed and left the writer as it was. -/
def Refused (answer : Except ZipError α × ZipWriter) : Prop :=
  ∃ error, answer = (.error error, writer)

variable {writer} {condition p : Prop} [Decidable condition] {error : ZipError}
  {answer expected : Except ZipError α × ZipWriter}

theorem refused_or_of_not (h : ¬condition → Refused writer answer ∨ p ∧ answer = expected) :
    Refused writer (if condition then (.error error, writer) else answer) ∨
      p ∧ (if condition then (.error error, writer) else answer) = expected := by
  by_cases hcondition : condition
  · rw [if_pos hcondition]
    exact .inl ⟨error, rfl⟩
  · rw [if_neg hcondition]
    exact h hcondition

theorem refused_or_of (h : condition → Refused writer answer ∨ p ∧ answer = expected) :
    Refused writer (if condition then answer else (.error error, writer)) ∨
      p ∧ (if condition then answer else (.error error, writer)) = expected := by
  by_cases hcondition : condition
  · rw [if_pos hcondition]
    exact h hcondition
  · rw [if_neg hcondition]
    exact .inl ⟨error, rfl⟩

end Call

/-- The checks a file passes. -/
structure Accepts (writer : ZipWriter) (path : String) (bytes : List UInt8) : Prop where
  noBackslash : path.contains '\\' = false
  safe : tools.isTraversalSafePath path = true
  pathLen : path.utf8ByteSize ≤ u16Max
  isNew : path ∉ writer.names
  entries : writer.entries.length < maxEntries
  offset : writer.buf.length ≤ u32Max
  size : bytes.length ≤ u32Max
  compressedSize : (packed tools bytes).2.length ≤ u32Max
  total : projectedTotal writer.buf.length (packed tools bytes).2.length writer.centralDirBytes
    path.utf8ByteSize ≤ maxArchiveBytes

/-- What the records say of a file. -/
def factsOf (bytes : List UInt8) : EntryFacts :=
  ⟨(packed tools bytes).1, tools.crc32 bytes, (packed tools bytes).2.length, bytes.length⟩

/-- The writer with one more file. -/
def withFile (writer : ZipWriter) (path : String) (bytes : List UInt8) : ZipWriter where
  buf := writer.buf ++ writeLocalHeader path (factsOf tools bytes) ++ (packed tools bytes).2
  entries := writer.entries ++ [⟨path, factsOf tools bytes, writer.buf.length⟩]
  names := insert path writer.names
  centralDirBytes := writer.centralDirBytes + (centralHeaderFixedLen + path.utf8ByteSize)

/-- A file is refused with nothing written, or it passed every check and is added. -/
theorem add_cases (writer : ZipWriter) (path : String) (bytes : List UInt8) :
    Refused writer ((add tools path bytes).run.run writer) ∨
      Accepts tools writer path bytes ∧
        (add tools path bytes).run.run writer = (.ok (), writer.withFile tools path bytes) := by
  rw [add, run_get_bind]
  simp only [run_refuseIf_bind, run_toU32_bind]
  refine refused_or_of_not fun hpath => refused_or_of_not fun hlen => refused_or_of_not fun hdup =>
    refused_or_of_not fun hcount => refused_or_of fun hoffset => refused_or_of fun hsize =>
      refused_or_of fun hdata => refused_or_of_not fun htotal => .inr ⟨?_, rfl⟩
  obtain ⟨hslash, hunsafe⟩ := Bool.or_eq_false_iff.mp (Bool.eq_false_of_not_eq_true hpath)
  exact {
    noBackslash := hslash
    safe := Bool.not_eq_eq_eq_not.mp hunsafe
    pathLen := Nat.le_of_not_lt hlen
    isNew := hdup
    entries := Nat.lt_of_not_le hcount
    offset := hoffset
    size := hsize
    compressedSize := hdata
    total := Nat.le_of_not_lt htotal }

end ZipWriter

end Dev
