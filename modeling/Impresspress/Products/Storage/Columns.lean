import Impresspress.Products.Pricing.Inputs
import Impresspress.Products.Repo

/-!
# Columns

A row has columns, each with a JSON value: a text, a number or none. A column may hold the JSON text
of something larger; reading and writing such texts is left to a library, and is a parameter here.

A missing column, the absent value and an empty text are often read alike.

## Main definitions

* `Products.Storage.Record`: a row, with the readers of its columns.
* `Products.Storage.Codec`: a type that has JSON texts.
* `Products.Storage.jsonText`, `Products.Storage.requiredJson`: reading a column with such a text.
* `Products.Storage.Record.Has`: a row has been written.

Source: `util.rs`, `blocks/products/repo/offers.rs`.
-/

namespace Products

namespace Storage

open Checked Pricing

/-- The columns that a write sets. -/
abbrev Columns := List (String × Value)

structure Record where
  id : String
  data : Columns

/-! ### Readers -/

/-- The number, or the number that a text spells. -/
def jsonAsI64 (value : Value) : Option I64 := value.asI64.or (value.asStr.bind parseI64)

/-- Whether a column that stands for a Boolean is set. -/
def flagIsSet : Value → Bool
  | .bool b => b
  | .number (.int n) => n ≠ 0
  | .number (.float printed) => printed ≠ "0.0" ∧ printed ≠ "-0.0"
  | .string s => s = "true" ∨ s = "1"
  | _ => false

namespace Record

variable (record : Record)

def get (field : String) : Option Value := record.data.lookup field

def strField (key : String) : String := ((record.get key).bind Value.asStr).getD ""

def i64Field (key : String) : ℤ := ((record.get key).bind jsonAsI64).elim 0 Subtype.val

def boolField (key : String) : Bool := (record.get key).any flagIsSet

end Record

/-- A text that is not empty. -/
def optionalText (record : Record) (field : String) : Option String :=
  ((record.get field).bind Value.asStr).filter (· ≠ "")

def decodeError (entity id message : String) : WaferError :=
  ⟨.internal, s!"invalid persisted {entity} {id}: {message}"⟩

/-- The `Display` of a failed conversion of integers. -/
def outOfRange : String := "out of range integral type conversion attempted"

def u32 (value : ℤ) : Option ℕ := if 0 ≤ value ∧ value < 2 ^ 32 then some value.toNat else none

def usize (value : ℤ) : Option ℕ := if 0 ≤ value ∧ value < 2 ^ 64 then some value.toNat else none

def i32 (value : ℤ) : Option ℤ := if -2 ^ 31 ≤ value ∧ value < 2 ^ 31 then some value else none

/-! ### Enumerations -/

/-- An enumeration with the texts that its values are stored as. -/
class StoredEnum (α : Type) extends WireEnum α where
  all : List α
  read : ∀ value, enumColumn all (wireEnum value) = some value
  nonempty : ∀ value, wireEnum value ≠ ""

/-- The value of an enumeration; an empty column is read as `empty`. -/
def enumColumnOr {α : Type} [StoredEnum α] (debug : String → String) (record : Record)
    (column : String) (empty : α) : Except WaferError α :=
  let value := record.strField column
  if value = "" then .ok empty
  else okOr (enumColumn StoredEnum.all value)
    ⟨.internal, s!"row {record.id} holds {column} {debug value}, which the contract does not " ++
      "define"⟩

/-! ### JSON texts -/

/-- How values of a type are written as JSON, and read from a text or from a value. -/
structure Codec (α : Type) where
  toText : α → String
  fromText : String → Except String α
  fromValue : Value → Except String α

variable {α : Type}

/-- The column as it is decoded; one without a text is the default. -/
def jsonText (codec : Codec α) (empty : α) (record : Record) (field entity : String) :
    Except WaferError α :=
  match record.get field with
  | none | some .null => .ok empty
  | some (.string raw) =>
    if raw = "" then .ok empty else mapErr (decodeError entity record.id) (codec.fromText raw)
  | some value => mapErr (decodeError entity record.id) (codec.fromValue value)

def requiredJson (codec : Codec α) (record : Record) (field entity : String) :
    Except WaferError α :=
  match record.get field with
  | some (.string raw) => mapErr (decodeError entity record.id) (codec.fromText raw)
  | some value => mapErr (decodeError entity record.id) (codec.fromValue value)
  | none => .error (decodeError entity record.id s!"missing {field}")

/-- Whether a column stands for an absent object. -/
def emptyJsonField (record : Record) (field : String) : Bool :=
  match record.get field with
  | none | some .null => true
  | some (.string raw) => raw = "" ∨ raw = "\x7b\x7d"
  | some (.object fields) => fields = []
  | _ => false

/-- The value is read from its text, which is a text of something. -/
structure Codec.ReadsBack (codec : Codec α) (value : α) : Prop where
  fromText : codec.fromText (codec.toText value) = .ok value
  nonempty : codec.toText value ≠ ""

theorem asI64_int {n : ℤ} (hn : -2 ^ 63 ≤ n ∧ n < 2 ^ 63) :
    (Value.number (.int n)).asI64 = some ⟨n, hn⟩ := dif_pos hn

theorem u32_eq_some {value : ℤ} {n : ℕ} : u32 value = some n ↔ value = n ∧ n < 2 ^ 32 := by
  unfold u32
  split_ifs with h
  · rw [Option.some.injEq]
    omega
  · exact iff_of_false nofun (by omega)

theorem usize_natCast {n : ℕ} (hn : (n : ℤ) < 2 ^ 64) : usize n = some n :=
  if_pos ⟨Int.natCast_nonneg n, hn⟩

/-! ### Rows that were written -/

/-- What a database gives back for a Boolean: SQLite has numbers for them. -/
structure Flags where
  flag : Bool → Value
  flagIsSet_flag : ∀ b, flagIsSet (flag b) = b

/-- What a column gives back for the value that was written. -/
def Flags.column (flags : Flags) : Value → Value
  | .bool b => flags.flag b
  | value => value

/-- The row has the columns of a write. -/
def Record.Has (flags : Flags) (record : Record) (data : Columns) : Prop :=
  ∀ column ∈ data, record.get column.1 = some (flags.column column.2)

variable {flags : Flags} {record : Record} {data : Columns} {field : String}

namespace Record

variable (h : record.Has flags data)

include h

theorem Has.text {text : String} (hmem : (field, .string text) ∈ data) :
    record.get field = some (.string text) := h _ hmem

theorem Has.absent (hmem : (field, .null) ∈ data) : record.get field = some .null := h _ hmem

theorem Has.strField {text : String} (hmem : (field, .string text) ∈ data) :
    record.strField field = text := by
  rw [Record.strField, h.text hmem]
  rfl

theorem Has.boolField {b : Bool} (hmem : (field, .bool b) ∈ data) : record.boolField field = b := by
  rw [Record.boolField, h _ hmem]
  exact flags.flagIsSet_flag b

theorem Has.get_int {n : ℤ} (hmem : (field, .number (.int n)) ∈ data) :
    record.get field = some (.number (.int n)) := h _ hmem

theorem Has.i64Field {n : ℤ} (hmem : (field, .number (.int n)) ∈ data)
    (hn : -2 ^ 63 ≤ n ∧ n < 2 ^ 63) : record.i64Field field = n := by
  have hread : jsonAsI64 (.number (.int n)) = some ⟨n, hn⟩ := by
    rw [jsonAsI64, asI64_int hn, Option.some_or]
  rw [Record.i64Field, h.get_int hmem, Option.bind_some, hread]
  rfl

theorem Has.enumColumnOr [StoredEnum α] {debug : String → String} {value empty : α}
    (hmem : (field, .string (wireEnum value)) ∈ data) :
    enumColumnOr debug record field empty = .ok value := by
  rw [Storage.enumColumnOr, h.strField hmem, if_neg (StoredEnum.nonempty value),
    StoredEnum.read value]
  rfl

theorem Has.optionalText {text : String} (htext : text ≠ "")
    (hmem : (field, .string text) ∈ data) : optionalText record field = some text := by
  rw [Storage.optionalText, h.text hmem, Option.bind_some, Value.asStr, Option.filter_some,
    if_pos (decide_eq_true htext)]

theorem Has.optionalText_empty (hmem : (field, .string "") ∈ data) :
    Storage.optionalText record field = none := by
  rw [Storage.optionalText, h.text hmem]
  rfl

theorem Has.jsonText {codec : Codec α} {value empty : α} {entity : String}
    (hcodec : codec.ReadsBack value) (hmem : (field, .string (codec.toText value)) ∈ data) :
    jsonText codec empty record field entity = .ok value := by
  rw [Storage.jsonText, h.text hmem]
  dsimp only
  rw [if_neg hcodec.nonempty, hcodec.fromText]
  rfl

theorem Has.requiredJson {codec : Codec α} {value : α} {entity : String}
    (hcodec : codec.ReadsBack value) (hmem : (field, .string (codec.toText value)) ∈ data) :
    requiredJson codec record field entity = .ok value := by
  rw [Storage.requiredJson, h.text hmem]
  dsimp only
  rw [hcodec.fromText]
  rfl

theorem Has.emptyJsonField {text : String} (hmem : (field, .string text) ∈ data) :
    emptyJsonField record field = decide (text = "" ∨ text = "\x7b\x7d") := by
  rw [Storage.emptyJsonField, h.text hmem]

end Record

/-! ### Writing -/

/-- The columns as they are given back. -/
def Flags.columns (flags : Flags) (data : Columns) : Columns :=
  data.map fun column => (column.1, flags.column column.2)

theorem lookup_of_mem {column : String × Value} (hnodup : (data.map (·.1)).Nodup)
    (hmem : column ∈ data) : data.lookup column.1 = some column.2 := by
  induction data with
  | nil => exact absurd hmem List.not_mem_nil
  | cons first data ih =>
    obtain ⟨hlater, hnodup⟩ := List.nodup_cons.mp hnodup
    rcases List.mem_cons.mp hmem with rfl | hmem
    · exact List.lookup_cons_self
    · have hne : (column.1 == first.1) = false :=
        beq_false_of_ne fun hsame => hlater (List.mem_map.mpr ⟨column, hmem, hsame⟩)
      rw [List.lookup_cons, hne]
      exact ih hnodup hmem

theorem lookup_append_of_mem {column : String × Value} {old : Columns}
    (hnodup : (data.map (·.1)).Nodup) (hmem : column ∈ data) :
    (data ++ old).lookup column.1 = some column.2 := by
  rw [List.lookup_append, lookup_of_mem hnodup hmem, Option.some_or]

/-- A row that was created or updated has the columns of the write. -/
theorem Record.has_columns (flags : Flags) (id : String) (old : Columns)
    (hnodup : (data.map (·.1)).Nodup) :
    Record.Has flags ⟨id, flags.columns data ++ old⟩ data := by
  intro column hcolumn
  have hnodup' : ((flags.columns data).map (·.1)).Nodup := by
    rw [Flags.columns, List.map_map]
    exact hnodup
  exact lookup_append_of_mem hnodup' (List.mem_map_of_mem hcolumn)

end Storage

end Products
