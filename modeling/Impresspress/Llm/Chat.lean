import Mathlib.Data.Int.Basic
import Mathlib.Data.List.DropRight

/-!
# Conversations

What a language model is asked: the messages of a conversation, with the parts of their contents and
the calls of tools, and the documents in which providers are asked and answer.

## Main definitions

* `Llm.Json`: a document.
* `Llm.ChatRequest`: the messages, tools and parameters of a request.
-/

namespace Llm

/-- A number as it is written: a float by its bits. -/
inductive Number
  | int (n : ℤ)
  | single (bits : UInt32)
  | double (bits : UInt64)
  deriving DecidableEq, Repr

inductive Json
  | null
  | bool (b : Bool)
  | num (n : Number)
  | str (s : String)
  | arr (items : List Json)
  | obj (fields : List (String × Json))

namespace Json

/-- A field of an object. -/
def field (name : String) : Json → Option Json
  | obj fields => fields.lookup name
  | _ => none

def text : Json → Option String
  | str s => some s
  | _ => none

def items : Json → List Json
  | arr items => items
  | _ => []

/-- A float; those that are none are written as `null`. -/
def ofSingle (bits : UInt32) : Json :=
  if (bits >>> 23) &&& 0xFF = 0xFF then null else num (.single bits)

end Json

inductive ChatRole
  | system
  | user
  | assistant
  | tool
  deriving DecidableEq, Repr

inductive ContentPart
  | text (s : String)
  | imageUrl (url : String) (detail : Option String)
  | imageBytes (bytes : List UInt8) (mime : String)
  deriving DecidableEq, Repr

inductive ChatContent
  | text (s : String)
  | parts (parts : List ContentPart)
  deriving DecidableEq, Repr

structure ToolCall where
  id : String
  name : String
  arguments : Json

structure ChatMessage where
  role : ChatRole
  content : ChatContent
  toolCalls : List ToolCall
  toolCallId : Option String

structure ToolDefinition where
  name : String
  description : String
  parameters : Json

structure ChatParams where
  maxTokens : Option UInt32
  temperature : Option UInt32
  topP : Option UInt32
  stopSequences : List String

structure ChatRequest where
  model : String
  messages : List ChatMessage
  params : ChatParams
  tools : List ToolDefinition

end Llm
