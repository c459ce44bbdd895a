import Impresspress.Llm.AnthropicRequest

/-!
# Conversations read back

What a conversation says is read back from the body of a request: the system texts, and for each
other message who speaks, the parts of its content and the tools it calls. What the encoding drops
is missing there: every system text but that of the first plain message, the parts of a message
that calls tools, the calls of one who is not the assistant, and the call that a result in parts
answers.

## Main definitions

* `Llm.Said`: what a conversation says.
* `Llm.readBody`: what the body of a request says.
* `Llm.ChatRequest.Kept`: nothing of a conversation is dropped.

## Main results

* `Llm.read_encodeMessage_iff`: when a message is read back.
-/

namespace Llm

/-! ## What is said -/

inductive Part
  | text (s : String)
  | image (url : String)
  deriving DecidableEq, Repr

/-- Who speaks; for the result of a tool, with the call that it answers. -/
inductive Speaker
  | user
  | assistant
  | tool (callId : Option String)
  deriving DecidableEq, Repr

structure Turn where
  speaker : Speaker
  parts : List Part
  toolCalls : List ToolCall

structure Said where
  system : List String
  turns : List Turn

/-- An empty plain content says nothing. -/
def plainParts (s : String) : List Part := if s.isEmpty then [] else [.text s]

def ContentPart.part : ContentPart → Option Part
  | .text s => some (.text s)
  | .imageUrl url _ => some (.image url)
  | .imageBytes _ _ => none

def ChatContent.said : ChatContent → List Part
  | .text s => plainParts s
  | .parts list => list.filterMap ContentPart.part

def Part.text? : Part → Option String
  | .text s => some s
  | .image _ => none

def ChatMessage.speaker (m : ChatMessage) : Speaker :=
  match m.role with
  | .assistant => .assistant
  | .tool => .tool m.toolCallId
  | _ => .user

def ChatMessage.turn (m : ChatMessage) : Turn := ⟨m.speaker, m.content.said, m.toolCalls⟩

def ChatMessage.texts (m : ChatMessage) : List String := m.content.said.filterMap Part.text?

def ChatRequest.said (req : ChatRequest) : Said where
  system := (req.messages.filter fun m => m.role = .system).flatMap ChatMessage.texts
  turns := (req.messages.filter fun m => m.role ≠ .system).map ChatMessage.turn

/-! ## Reading -/

/-- A block of a message. -/
inductive Piece
  | said (p : Part)
  | call (c : ToolCall)
  | result (callId : String) (content : List Part)

def readBlock (block : Json) : Option Piece := do
  match ← (← block.field "type").text with
  | "text" => pure (.said (.text (← (← block.field "text").text)))
  | "image" => pure (.said (.image (← (← (← block.field "source").field "url").text)))
  | "tool_use" =>
    pure (.call ⟨← (← block.field "id").text, ← (← block.field "name").text, ← block.field "input"⟩)
  | "tool_result" =>
    pure (.result (← (← block.field "tool_use_id").text)
      (plainParts (← (← block.field "content").text)))
  | _ => none

def Piece.parts : Piece → List Part
  | .said p => [p]
  | .call _ => []
  | .result _ content => content

def Piece.call? : Piece → Option ToolCall
  | .call c => some c
  | _ => none

def Piece.answers? : Piece → Option String
  | .result callId _ => some callId
  | _ => none

def readContent : Json → List Piece
  | .str s => (plainParts s).map .said
  | content => content.items.filterMap readBlock

def readMessage (m : Json) : Turn :=
  let pieces := ((m.field "content").map readContent).getD []
  { speaker :=
      if (m.field "role").bind Json.text = some "assistant" then .assistant
      else match pieces.findSome? Piece.answers? with
        | some callId => .tool (some callId)
        | none => .user
    parts := pieces.flatMap Piece.parts
    toolCalls := pieces.filterMap Piece.call? }

/-- What the body of a request says, by the schema of the messages. -/
def readBody (body : Json) : Said where
  system := (((body.field "system").bind Json.text).map plainParts).getD [] |>.filterMap Part.text?
  turns := ((body.field "messages").map fun messages => messages.items.map readMessage).getD []

/-! ## What is kept -/

def ContentPart.isBytes : ContentPart → Bool
  | .imageBytes _ _ => true
  | _ => false

def ChatContent.noBytes : ChatContent → Bool
  | .text _ => true
  | .parts list => list.all fun p => !p.isBytes

/-- No part of a message is an image by its bytes. -/
def ChatRequest.NoImageBytes (req : ChatRequest) : Prop :=
  ∀ m ∈ req.messages, m.content.noBytes = true

/-- Nothing of a message is dropped: one that calls tools is the assistant's, and plain; the result
of a tool is plain and has the call that it answers. -/
def ChatMessage.Kept (m : ChatMessage) : Prop :=
  match m.role, m.content with
  | .assistant, .parts parts => m.toolCalls = [] ∨ parts = []
  | .assistant, .text _ => True
  | .tool, .text _ => m.toolCallId ≠ none ∧ m.toolCalls = []
  | .tool, .parts _ => False
  | _, _ => m.toolCalls = []

/-- No system message but the first plain one says anything. -/
def KeptSystem (msgs : List ChatMessage) : Prop :=
  ∀ m ∈ msgs.eraseP fun m => (systemText m).isSome, m.role = .system → m.texts = []

structure ChatRequest.Kept (req : ChatRequest) : Prop where
  system : KeptSystem req.messages
  messages : ∀ m ∈ req.messages, m.role ≠ .system → m.Kept

/-! ## Messages -/

variable {m : ChatMessage} {msgs : List ChatMessage} {req : ChatRequest}

/-- What a block says. -/
def AnthropicContentBlock.piece : AnthropicContentBlock → Piece
  | text s => .said (.text s)
  | image url => .said (.image url)
  | toolUse id name input => .call ⟨id, name, input⟩
  | toolResult toolUseId content => .result toolUseId (plainParts content)

@[simp] theorem readBlock_toJson (block : AnthropicContentBlock) :
    readBlock block.toJson = some block.piece := by
  cases block <;> rfl

def AnthropicContent.pieces : AnthropicContent → List Piece
  | text s => (plainParts s).map .said
  | blocks list => list.map AnthropicContentBlock.piece

theorem readContent_toJson (content : AnthropicContent) :
    readContent content.toJson = content.pieces := by
  cases content with
  | text s => rfl
  | blocks list =>
    rw [AnthropicContent.toJson, readContent, Json.items, List.filterMap_map, AnthropicContent.pieces,
      ← List.filterMap_eq_map]
    · exact List.filterMap_congr fun block _ => readBlock_toJson block
    · exact (fun _ h => by cases h)

theorem readMessage_toJson (m : AnthropicMessage) : readMessage m.toJson =
    { speaker :=
        if m.role = "assistant" then .assistant
        else match m.content.pieces.findSome? Piece.answers? with
          | some callId => .tool (some callId)
          | none => .user
      parts := m.content.pieces.flatMap Piece.parts
      toolCalls := m.content.pieces.filterMap Piece.call? } := by
  have hrole : m.toJson.field "role" = some (.str m.role) := rfl
  have hcontent : m.toJson.field "content" = some m.content.toJson := rfl
  unfold readMessage
  rw [hrole, hcontent, Option.map_some, Option.getD_some, readContent_toJson, Option.bind_some,
    Json.text]
  simp only [Option.some.injEq]

/-- Texts and images, and behind them calls. -/
theorem findSome?_answers (parts : List Part) (calls : List ToolCall) :
    (parts.map .said ++ calls.map .call : List Piece).findSome? Piece.answers? = none := by
  refine List.findSome?_eq_none_iff.mpr fun piece hpiece => ?_
  rcases List.mem_append.mp hpiece with h | h <;> obtain ⟨_, -, rfl⟩ := List.mem_map.mp h <;> rfl

theorem flatMap_parts (parts : List Part) (calls : List ToolCall) :
    (parts.map .said ++ calls.map .call : List Piece).flatMap Piece.parts = parts := by
  rw [List.flatMap_append, List.flatMap_map, List.flatMap_map]
  simp [Piece.parts]

theorem filterMap_call (parts : List Part) (calls : List ToolCall) :
    (parts.map .said ++ calls.map .call : List Piece).filterMap Piece.call? = calls := by
  rw [List.filterMap_append, List.filterMap_map, List.filterMap_map]
  simp [Piece.call?, Function.comp_def]

/-- A message of texts, images and calls is read. -/
theorem readMessage_of_pieces {message : AnthropicMessage} {parts : List Part}
    {calls : List ToolCall} (h : message.content.pieces = parts.map .said ++ calls.map .call) :
    readMessage message.toJson =
      ⟨if message.role = "assistant" then .assistant else .user, parts, calls⟩ := by
  rw [readMessage_toJson, h, findSome?_answers, flatMap_parts, filterMap_call]

theorem pieces_encodeContent {content : ChatContent} (h : content.noBytes = true) :
    (encodeContent content).pieces = content.said.map .said ++ ([] : List ToolCall).map .call := by
  rw [List.map_nil, List.append_nil]
  cases content with
  | text s => rfl
  | parts list =>
    change (list.map encodePart).map AnthropicContentBlock.piece = _
    rw [ChatContent.said, List.map_map, List.map_filterMap, ← List.filterMap_eq_map]
    refine List.filterMap_congr fun p hp => ?_
    have hp := List.all_eq_true.mp h p hp
    cases p with
    | text s => rfl
    | imageUrl url detail => rfl
    | imageBytes bytes mime => cases hp

/-- What is said before the tools that are called. -/
def leadingParts : ChatContent → List Part
  | .text s => plainParts s
  | .parts _ => []

theorem pieces_calls (content : ChatContent) (calls : List ToolCall) :
    (AnthropicContent.blocks (leadingText content ++ calls.map encodeToolCall)).pieces =
      (leadingParts content).map .said ++ calls.map .call := by
  have hcalls : (calls.map encodeToolCall).map AnthropicContentBlock.piece = calls.map .call := by
    rw [List.map_map]
    rfl
  have hleading : (leadingText content).map AnthropicContentBlock.piece =
      (leadingParts content).map .said := by
    cases content with
    | text s =>
      rw [leadingText, leadingParts, plainParts]
      split_ifs <;> rfl
    | parts list => rfl
  rw [AnthropicContent.pieces, List.map_append, hleading, hcalls]

/-- A message that neither calls tools as the assistant nor is the plain result of one. -/
theorem read_encodeMessage_of_content (hbytes : m.content.noBytes = true)
    (h : encodeMessage m = ⟨encodeRole m.role, encodeContent m.content⟩) :
    readMessage (encodeMessage m).toJson =
      ⟨if encodeRole m.role = "assistant" then .assistant else .user, m.content.said, []⟩ := by
  rw [h]
  exact readMessage_of_pieces (pieces_encodeContent hbytes)

theorem read_encodeMessage_of_calls (hrole : m.role = .assistant) (hcalls : m.toolCalls ≠ []) :
    readMessage (encodeMessage m).toJson = ⟨.assistant, leadingParts m.content, m.toolCalls⟩ := by
  have h : encodeMessage m =
      ⟨"assistant", .blocks (leadingText m.content ++ m.toolCalls.map encodeToolCall)⟩ := by
    unfold encodeMessage
    split
    · rename_i htool _
      cases hrole.symm.trans htool
    · exact if_pos ⟨hrole, hcalls⟩
  rw [h, readMessage_of_pieces (pieces_calls m.content m.toolCalls)]
  rfl

/-- Every part says something. -/
theorem said_parts_eq_nil {list : List ContentPart} (h : (ChatContent.parts list).noBytes = true) :
    (ChatContent.parts list).said = [] ↔ list = [] := by
  cases list with
  | nil => exact iff_of_true rfl rfl
  | cons p list =>
    refine iff_of_false (fun hnil => ?_) (List.cons_ne_nil _ _)
    have hp := List.all_eq_true.mp h p List.mem_cons_self
    have hnone := List.filterMap_eq_nil_iff.mp hnil p List.mem_cons_self
    cases p with
    | text s => cases hnone
    | imageUrl url detail => cases hnone
    | imageBytes bytes mime => cases hp

theorem turn_of_calls_iff (hbytes : m.content.noBytes = true) (hrole : m.role = .assistant)
    (hcalls : m.toolCalls ≠ []) :
    (⟨.assistant, leadingParts m.content, m.toolCalls⟩ : Turn) = m.turn ↔ m.Kept := by
  have hspeaker : m.speaker = .assistant := by rw [ChatMessage.speaker, hrole]
  have hturn : (⟨.assistant, leadingParts m.content, m.toolCalls⟩ : Turn) = m.turn ↔
      leadingParts m.content = m.content.said := by
    rw [ChatMessage.turn, hspeaker, Turn.mk.injEq]
    exact ⟨fun h => h.2.1, fun h => ⟨rfl, h, rfl⟩⟩
  rw [hturn]
  cases hcontent : m.content with
  | text s => exact iff_of_true rfl (by simp only [ChatMessage.Kept, hrole, hcontent])
  | parts list =>
    simp only [ChatMessage.Kept, hrole, hcontent, or_iff_right hcalls]
    rw [leadingParts, eq_comm]
    exact said_parts_eq_nil (hcontent ▸ hbytes)

theorem turn_of_content_iff
    (hcalls : ¬ (m.role = .assistant ∧ m.toolCalls ≠ []))
    (htool : ∀ s, ¬ (m.role = .tool ∧ m.content = .text s)) :
    (⟨if encodeRole m.role = "assistant" then .assistant else .user, m.content.said, []⟩ : Turn) =
      m.turn ↔ m.Kept := by
  have hturn (speaker : Speaker) : (⟨speaker, m.content.said, []⟩ : Turn) = m.turn ↔
      speaker = m.speaker ∧ m.toolCalls = [] := by
    rw [ChatMessage.turn, Turn.mk.injEq]
    exact ⟨fun h => ⟨h.1, h.2.2.symm⟩, fun h => ⟨h.1, rfl, h.2.symm⟩⟩
  rw [hturn]
  cases hrole : m.role with
  | assistant =>
    have hnil : m.toolCalls = [] := by
      by_contra hne
      exact hcalls ⟨hrole, hne⟩
    refine iff_of_true ⟨by rw [ChatMessage.speaker, hrole]; rfl, hnil⟩ ?_
    cases hcontent : m.content with
    | text s => simp only [ChatMessage.Kept, hrole, hcontent]
    | parts list => simp only [ChatMessage.Kept, hrole, hcontent]; exact .inl hnil
  | tool =>
    cases hcontent : m.content with
    | text s => exact absurd ⟨hrole, hcontent⟩ (htool s)
    | parts list =>
      refine iff_of_false (fun h => ?_) (by simp only [ChatMessage.Kept, hrole, hcontent]; exact id)
      have hspeaker := h.1
      rw [ChatMessage.speaker, hrole] at hspeaker
      cases hspeaker
  | user =>
    have hspeaker : m.speaker = .user := by rw [ChatMessage.speaker, hrole]
    rw [hspeaker]
    simp only [ChatMessage.Kept, hrole]
    exact and_iff_right rfl
  | system =>
    have hspeaker : m.speaker = .user := by rw [ChatMessage.speaker, hrole]
    rw [hspeaker]
    simp only [ChatMessage.Kept, hrole]
    exact and_iff_right rfl

/-- The plain result of a tool. -/
theorem turn_of_result_iff {s : String} (hrole : m.role = .tool) (hcontent : m.content = .text s) :
    readMessage (encodeMessage m).toJson = m.turn ↔ m.Kept := by
  have hencode : encodeMessage m = ⟨"user", .blocks [.toolResult (m.toolCallId.getD "") s]⟩ := by
    unfold encodeMessage
    simp only [hrole, hcontent]
  have hread : readMessage (encodeMessage m).toJson =
      ⟨.tool (some (m.toolCallId.getD "")), plainParts s ++ [], []⟩ := by
    rw [hencode, readMessage_toJson]
    rfl
  have hspeaker : m.speaker = .tool m.toolCallId := by rw [ChatMessage.speaker, hrole]
  rw [hread, List.append_nil, ChatMessage.turn, hspeaker, hcontent, Turn.mk.injEq,
    Speaker.tool.injEq]
  simp only [ChatMessage.Kept, hrole, hcontent]
  cases m.toolCallId with
  | none => exact iff_of_false (fun h => nomatch h.1) fun h => h.1 rfl
  | some callId =>
    exact ⟨fun h => ⟨nofun, h.2.2.symm⟩, fun h => ⟨rfl, rfl, h.2.symm⟩⟩

/-- A message is read back exactly when nothing of it is dropped. -/
theorem read_encodeMessage_iff (hbytes : m.content.noBytes = true) :
    readMessage (encodeMessage m).toJson = m.turn ↔ m.Kept := by
  by_cases hcalls : m.role = .assistant ∧ m.toolCalls ≠ []
  · rw [read_encodeMessage_of_calls hcalls.1 hcalls.2]
    exact turn_of_calls_iff hbytes hcalls.1 hcalls.2
  by_cases htool : ∃ s, m.role = .tool ∧ m.content = .text s
  · obtain ⟨s, hrole, hcontent⟩ := htool
    exact turn_of_result_iff hrole hcontent
  · have hencode : encodeMessage m = ⟨encodeRole m.role, encodeContent m.content⟩ := by
      unfold encodeMessage
      split
      · rename_i s hrole hcontent
        exact absurd ⟨s, hrole, hcontent⟩ htool
      · exact if_neg hcalls
    rw [read_encodeMessage_of_content hbytes hencode]
    exact turn_of_content_iff hcalls fun s h => htool ⟨s, h⟩

/-! ## System messages -/

theorem systemText_eq_some {s : String} :
    systemText m = some s ↔ m.role = .system ∧ m.content = .text s := by
  unfold systemText
  split
  · rename_i hrole hcontent
    rw [hrole, hcontent, Option.some_inj, ChatContent.text.injEq, and_iff_right rfl]
  · rename_i hnot
    exact iff_of_false nofun fun h => hnot _ h.1 h.2

/-- The texts of the field are those of the first plain system message. -/
def fieldTexts (system : Option String) : List String :=
  ((system.map plainParts).getD []).filterMap Part.text?

theorem texts_of_plain {s : String} (h : m.content = .text s) :
    m.texts = fieldTexts (some s) := by
  rw [ChatMessage.texts, h]
  rfl

def systemTexts (msgs : List ChatMessage) : List String :=
  (msgs.filter fun m => m.role = .system).flatMap ChatMessage.texts

theorem systemTexts_cons (m : ChatMessage) (msgs : List ChatMessage) :
    systemTexts (m :: msgs) = (if m.role = .system then m.texts else []) ++ systemTexts msgs := by
  rw [systemTexts, List.filter_cons]
  by_cases hrole : m.role = .system
  · simp only [hrole, decide_true, ↓reduceIte, List.flatMap_cons]
    rfl
  · simp only [hrole, decide_false, Bool.false_eq_true, ↓reduceIte, List.nil_append]
    rfl

theorem systemTexts_eq_nil : systemTexts msgs = [] ↔
    ∀ m ∈ msgs, m.role = .system → m.texts = [] := by
  rw [systemTexts, List.flatMap_eq_nil_iff]
  simp only [List.mem_filter, decide_eq_true_iff, and_imp]

theorem extractSystem_of_some {s : String} (h : systemText m = some s) :
    extractSystem (m :: msgs) = some s := (List.findSome?_cons_of_isSome (by rw [h]; rfl)).trans h

theorem extractSystem_of_none (h : systemText m = none) :
    extractSystem (m :: msgs) = extractSystem msgs := List.findSome?_cons_of_isNone (by rw [h]; rfl)

theorem systemTexts_of_some {s : String} (h : systemText m = some s) :
    systemTexts (m :: msgs) = fieldTexts (some s) ++ systemTexts msgs := by
  obtain ⟨hrole, hcontent⟩ := systemText_eq_some.mp h
  rw [systemTexts_cons, if_pos hrole, texts_of_plain hcontent]

/-- What stands in the field is among the texts. -/
theorem fieldTexts_sublist (msgs : List ChatMessage) :
    (fieldTexts (extractSystem msgs)).Sublist (systemTexts msgs) := by
  induction msgs with
  | nil => exact List.Sublist.slnil
  | cons m msgs ih =>
    cases hplain : systemText m with
    | some s =>
      rw [extractSystem_of_some hplain, systemTexts_of_some hplain]
      exact List.sublist_append_left _ _
    | none =>
      rw [extractSystem_of_none hplain, systemTexts_cons]
      exact ih.trans (List.sublist_append_right _ _)

/-- The system texts are read back exactly when no other message has any. -/
theorem fieldTexts_extractSystem_iff :
    fieldTexts (extractSystem msgs) = systemTexts msgs ↔ KeptSystem msgs := by
  induction msgs with
  | nil => exact iff_of_true rfl (List.forall_mem_nil _)
  | cons m msgs ih =>
    cases hplain : systemText m with
    | some s =>
      rw [extractSystem_of_some hplain, systemTexts_of_some hplain, List.self_eq_append_right,
        systemTexts_eq_nil, KeptSystem, List.eraseP_cons_of_pos (by rw [hplain]; rfl)]
    | none =>
      have hkept : KeptSystem (m :: msgs) ↔
          (m.role = .system → m.texts = []) ∧ KeptSystem msgs := by
        rw [KeptSystem, List.eraseP_cons_of_neg (by rw [hplain]; exact Bool.false_ne_true),
          List.forall_mem_cons, KeptSystem]
      rw [hkept, ← ih, extractSystem_of_none hplain, systemTexts_cons]
      constructor
      · intro heq
        have hlength := congrArg List.length heq
        have hle := (fieldTexts_sublist msgs).length_le
        rw [List.length_append] at hlength
        have hnil : (if m.role = .system then m.texts else []) = [] :=
          List.length_eq_zero_iff.mp (by omega)
        refine ⟨fun hrole => ?_, by rwa [hnil, List.nil_append] at heq⟩
        rwa [if_pos hrole] at hnil
      · rintro ⟨hnone, heq⟩
        rw [heq]
        split_ifs with hrole
        · rw [hnone hrole, List.nil_append]
        · rfl

/-! ## Requests -/

variable {maxTokens : UInt32} {endpoint key : String}

theorem fromChatRequest_eq (hmax : req.params.maxTokens = some maxTokens) :
    AnthropicRequest.fromChatRequest req = .ok {
      model := req.model
      maxTokens
      stream := true
      system := extractSystem req.messages
      messages := (req.messages.filter fun m => m.role ≠ .system).map encodeMessage
      temperature := req.params.temperature
      topP := req.params.topP
      stopSequences := req.params.stopSequences
      tools := req.tools.map encodeTool } := by
  unfold AnthropicRequest.fromChatRequest
  rw [hmax]

theorem field_system (req : AnthropicRequest) :
    req.toJson.field "system" = req.system.map .str := by
  unfold AnthropicRequest.toJson Json.field
  cases req.system with
  | none =>
    simp only [optionalField, Option.map_none, Option.toList_none, List.append_nil]
    cases req.temperature <;> cases req.topP <;> simp [List.lookup_cons, List.lookup_append]
  | some s => simp [optionalField, List.lookup_cons]

theorem field_messages (req : AnthropicRequest) :
    req.toJson.field "messages" = some (.arr (req.messages.map AnthropicMessage.toJson)) := by
  unfold AnthropicRequest.toJson Json.field
  cases req.system with
  | none => simp [optionalField, List.lookup_cons]
  | some s => simp [optionalField, List.lookup_cons]

/-- What the body of a request says. -/
theorem readBody_toJson (request : AnthropicRequest) : readBody request.toJson =
    ⟨fieldTexts request.system,
      request.messages.map fun message => readMessage message.toJson⟩ := by
  unfold readBody
  rw [field_system, field_messages, Option.map_some, Option.getD_some, Json.items, List.map_map]
  cases request.system <;> rfl

theorem read_turns_iff (hbytes : req.NoImageBytes) :
    ((req.messages.filter fun m => m.role ≠ .system).map fun m =>
        readMessage (encodeMessage m).toJson) =
      (req.messages.filter fun m => m.role ≠ .system).map ChatMessage.turn ↔
    ∀ m ∈ req.messages, m.role ≠ .system → m.Kept := by
  rw [List.map_inj_left]
  simp only [List.mem_filter, decide_eq_true_iff, and_imp]
  refine forall₂_congr fun m hm => forall_congr' fun _ => ?_
  exact read_encodeMessage_iff (hbytes m hm)

theorem readBody_fromChatRequest_iff (hmax : req.params.maxTokens = some maxTokens)
    (hbytes : req.NoImageBytes) :
    (AnthropicRequest.fromChatRequest req).map (fun request => readBody request.toJson) =
      .ok req.said ↔ req.Kept := by
  rw [fromChatRequest_eq hmax, Except.map, Except.ok.injEq, readBody_toJson, ChatRequest.said,
    Said.mk.injEq, List.map_map]
  refine (and_congr fieldTexts_extractSystem_iff (read_turns_iff hbytes)).trans ?_
  exact ⟨fun h => ⟨h.1, h.2⟩, fun h => ⟨h.system, h.messages⟩⟩

theorem encodeChatRequest_eq : (encodeChatRequest req endpoint (some key)).map (·.body) =
    (AnthropicRequest.fromChatRequest req).map AnthropicRequest.toJson := by
  unfold encodeChatRequest
  cases AnthropicRequest.fromChatRequest req <;> rfl

/-- From the body of a request what the conversation says is read back, exactly when nothing of it
is dropped; and of two such requests that say different things the bodies are different. -/
theorem encode_loses_nothing_iff (hmax : req.params.maxTokens = some maxTokens)
    (hbytes : req.NoImageBytes) (endpoint key : String) :
    ((encodeChatRequest req endpoint (some key)).map (fun sent => readBody sent.body) =
        .ok req.said ↔ req.Kept) ∧
      (req.Kept → ∀ req' : ChatRequest, req'.params.maxTokens ≠ none → req'.NoImageBytes →
        req'.Kept → (encodeChatRequest req endpoint (some key)).map (·.body) =
          (encodeChatRequest req' endpoint (some key)).map (·.body) → req.said = req'.said) := by
  have hread (req : ChatRequest) :
      (encodeChatRequest req endpoint (some key)).map (fun sent => readBody sent.body) =
        (AnthropicRequest.fromChatRequest req).map (fun request => readBody request.toJson) := by
    unfold encodeChatRequest
    cases AnthropicRequest.fromChatRequest req <;> rfl
  rw [hread]
  refine ⟨readBody_fromChatRequest_iff hmax hbytes, fun hkept req' hmax' hbytes' hkept' hsame => ?_⟩
  obtain ⟨maxTokens', hmax'⟩ := Option.ne_none_iff_exists'.mp hmax'
  have hsaid := (readBody_fromChatRequest_iff hmax hbytes).mpr hkept
  have hsaid' := (readBody_fromChatRequest_iff hmax' hbytes').mpr hkept'
  rw [encodeChatRequest_eq, encodeChatRequest_eq, fromChatRequest_eq hmax,
    fromChatRequest_eq hmax'] at hsame
  rw [fromChatRequest_eq hmax, Except.map, Except.ok.injEq] at hsaid
  rw [fromChatRequest_eq hmax', Except.map, Except.ok.injEq] at hsaid'
  rw [← hsaid, ← hsaid', Except.ok.inj hsame]

def params : ChatParams := ⟨some 1024, none, none, []⟩

/-- A tool is called for a picture and its result is answered. -/
def weather : ChatRequest where
  model := "claude"
  messages := [⟨.system, .text "be terse", [], none⟩,
    ⟨.user, .parts [.text "what is this?", .imageUrl "https://x/cloud.png" none], [], none⟩,
    ⟨.assistant, .text "", [⟨"call_1", "look", .obj [("at", .str "cloud.png")]⟩], none⟩,
    ⟨.tool, .text "a cloud", [], some "call_1"⟩]
  params := params
  tools := []

theorem weather_kept : weather.Kept where
  system := by
    refine List.forall_mem_cons.mpr ⟨nofun, List.forall_mem_cons.mpr ⟨nofun, ?_⟩⟩
    exact List.forall_mem_cons.mpr ⟨nofun, List.forall_mem_nil _⟩
  messages := by
    refine List.forall_mem_cons.mpr ⟨fun h => absurd rfl h, List.forall_mem_cons.mpr
      ⟨fun _ => rfl, List.forall_mem_cons.mpr ⟨fun _ => trivial, List.forall_mem_cons.mpr
        ⟨fun _ => ⟨nofun, rfl⟩, List.forall_mem_nil _⟩⟩⟩⟩

theorem weather_noImageBytes : weather.NoImageBytes := by
  refine List.forall_mem_cons.mpr ⟨rfl, List.forall_mem_cons.mpr ⟨rfl, ?_⟩⟩
  exact List.forall_mem_cons.mpr ⟨rfl, List.forall_mem_cons.mpr ⟨rfl, List.forall_mem_nil _⟩⟩

theorem encode_loses_nothing_weather :
    (encodeChatRequest weather "https://api.anthropic.com/v1" (some "sk")).map
      (fun sent => readBody sent.body) = .ok weather.said :=
  have hmax : weather.params.maxTokens = some 1024 := rfl
  (encode_loses_nothing_iff hmax weather_noImageBytes _ _).1.mpr weather_kept

/-- Two system messages, and the first of them alone. -/
def twoSystems : ChatRequest :=
  ⟨"claude", [⟨.system, .text "be terse", [], none⟩, ⟨.system, .text "in French", [], none⟩,
    ⟨.user, .text "hi", [], none⟩], params, []⟩

def oneSystem : ChatRequest :=
  ⟨"claude", [⟨.system, .text "be terse", [], none⟩, ⟨.user, .text "hi", [], none⟩], params, []⟩

/-- Both are sent as the same body. -/
theorem not_encode_loses_nothing :
    (encodeChatRequest twoSystems "https://api.anthropic.com/v1" (some "sk")).map (·.body) =
      (encodeChatRequest oneSystem "https://api.anthropic.com/v1" (some "sk")).map (·.body) ∧
      twoSystems.said ≠ oneSystem.said := by
  refine ⟨?_, fun hsaid => ?_⟩
  · rw [encodeChatRequest_eq, encodeChatRequest_eq]
    rfl
  · have hsystem := congrArg (·.system.length) hsaid
    exact absurd hsystem (by decide)

end Llm
