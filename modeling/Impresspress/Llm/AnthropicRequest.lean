import Impresspress.Llm.Chat

/-!
# Requests to Anthropic

The body of a request to Anthropic. System messages are taken out of the conversation into a field
of their own, and every other message becomes one of a user or of the assistant.

## Main definitions

* `Llm.AnthropicRequest.fromChatRequest`: the request that stands for a conversation.
* `Llm.AnthropicRequest.toJson`: its document.
* `Llm.encodeChatRequest`: what is sent.
-/

namespace Llm

inductive EncodeError
  | missingApiKey
  | missingMaxTokens
  deriving DecidableEq, Repr

inductive AnthropicContentBlock
  | text (text : String)
  | image (url : String)
  | toolUse (id name : String) (input : Json)
  | toolResult (toolUseId content : String)

inductive AnthropicContent
  | text (s : String)
  | blocks (blocks : List AnthropicContentBlock)

structure AnthropicMessage where
  role : String
  content : AnthropicContent

structure AnthropicTool where
  name : String
  description : String
  inputSchema : Json

structure AnthropicRequest where
  model : String
  maxTokens : UInt32
  stream : Bool
  system : Option String
  messages : List AnthropicMessage
  temperature : Option UInt32
  topP : Option UInt32
  stopSequences : List String
  tools : List AnthropicTool

/-! ## Encoding -/

/-- The text of a plain system message. -/
def systemText (m : ChatMessage) : Option String :=
  match m.role, m.content with
  | .system, .text s => some s
  | _, _ => none

def extractSystem (msgs : List ChatMessage) : Option String := msgs.findSome? systemText

def encodeRole : ChatRole → String
  | .assistant => "assistant"
  -- results of tools are messages of the user
  | .tool => "user"
  | _ => "user"

def encodePart : ContentPart → AnthropicContentBlock
  | .text s => .text s
  | .imageUrl url _ => .image url
  | .imageBytes _ _ => .text "[image bytes unsupported — use ImageUrl]"

def encodeContent : ChatContent → AnthropicContent
  | .text s => .text s
  | .parts parts => .blocks (parts.map encodePart)

def encodeToolCall (call : ToolCall) : AnthropicContentBlock :=
  .toolUse call.id call.name call.arguments

/-- What an assistant says before the tools it calls. -/
def leadingText : ChatContent → List AnthropicContentBlock
  | .text s => if s.isEmpty then [] else [.text s]
  | .parts _ => []

def encodeMessage (m : ChatMessage) : AnthropicMessage :=
  match m.role, m.content with
  | .tool, .text s => ⟨"user", .blocks [.toolResult (m.toolCallId.getD "") s]⟩
  | role, content =>
    if role = .assistant ∧ m.toolCalls ≠ [] then
      ⟨"assistant", .blocks (leadingText content ++ m.toolCalls.map encodeToolCall)⟩
    else ⟨encodeRole role, encodeContent content⟩

def encodeTool (t : ToolDefinition) : AnthropicTool := ⟨t.name, t.description, t.parameters⟩

def AnthropicRequest.fromChatRequest (req : ChatRequest) : Except EncodeError AnthropicRequest :=
  match req.params.maxTokens with
  | none => .error .missingMaxTokens
  | some maxTokens => .ok {
      model := req.model
      maxTokens
      stream := true
      system := extractSystem req.messages
      messages := (req.messages.filter fun m => m.role ≠ .system).map encodeMessage
      temperature := req.params.temperature
      topP := req.params.topP
      stopSequences := req.params.stopSequences
      tools := req.tools.map encodeTool }

/-! ## Documents -/

def AnthropicContentBlock.toJson : AnthropicContentBlock → Json
  | text s => .obj [("type", .str "text"), ("text", .str s)]
  | image url => .obj [("type", .str "image"),
      ("source", .obj [("type", .str "url"), ("url", .str url)])]
  | toolUse id name input => .obj [("type", .str "tool_use"), ("id", .str id), ("name", .str name),
      ("input", input)]
  | toolResult toolUseId content => .obj [("type", .str "tool_result"),
      ("tool_use_id", .str toolUseId), ("content", .str content)]

def AnthropicContent.toJson : AnthropicContent → Json
  | text s => .str s
  | blocks list => .arr (list.map AnthropicContentBlock.toJson)

def AnthropicMessage.toJson (m : AnthropicMessage) : Json :=
  .obj [("role", .str m.role), ("content", m.content.toJson)]

def AnthropicTool.toJson (t : AnthropicTool) : Json :=
  .obj [("name", .str t.name), ("description", .str t.description), ("input_schema", t.inputSchema)]

/-- A field that is left out when there is nothing in it. -/
def optionalField (name : String) (value : Option Json) : List (String × Json) :=
  (value.map fun value => (name, value)).toList

def AnthropicRequest.toJson (req : AnthropicRequest) : Json :=
  .obj ([("model", .str req.model), ("max_tokens", .num (.int req.maxTokens.toNat)),
      ("stream", .bool req.stream)] ++
    optionalField "system" (req.system.map .str) ++
    [("messages", .arr (req.messages.map AnthropicMessage.toJson))] ++
    optionalField "temperature" (req.temperature.map .ofSingle) ++
    optionalField "top_p" (req.topP.map .ofSingle) ++
    (if req.stopSequences.isEmpty then []
      else [("stop_sequences", .arr (req.stopSequences.map .str))]) ++
    (if req.tools.isEmpty then [] else [("tools", .arr (req.tools.map AnthropicTool.toJson))]))

structure EncodedRequest where
  url : String
  headers : List (String × String)
  body : Json

def encodeChatRequest (req : ChatRequest) (endpoint : String) (resolvedApiKey : Option String) :
    Except EncodeError EncodedRequest := do
  let url := String.ofList (endpoint.toList.rdropWhile (· == '/')) ++ "/messages"
  match resolvedApiKey with
  | none => throw .missingApiKey
  | some key =>
    let body ← AnthropicRequest.fromChatRequest req
    pure ⟨url, [("Content-Type", "application/json"), ("anthropic-version", "2023-06-01"),
      ("x-api-key", key)], body.toJson⟩

end Llm
