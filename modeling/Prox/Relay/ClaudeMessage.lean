import Prox.Lib.Go

/-! # Claude messages

The data types of `dto/claude.go` that the conversions between the Claude and the OpenAI format share.
`V` are the values of fields of type `any`, and a `JsonCodec` is the encoding of such values. -/

namespace Prox

/-- `json.Marshal` and `json.Unmarshal` for values of type `any`. -/
structure JsonCodec (V : Type) where
  encode : V → String
  decode : String → Option V
  decode_encode : ∀ v, decode (encode v) = some v

/-- What `json.Marshal` makes of a field of type `any`, which may be nil. -/
def JsonCodec.marshal {V : Type} (codec : JsonCodec V) : Option V → String
  | none => "null"
  | some v => codec.encode v

/-- What a field `Content any` holds. -/
inductive AnyContent (V : Type) where
  | null
  | string (text : String)
  | value (v : V)
  deriving DecidableEq

/-- `ClaudeMessageSource`; `data` is what `%s` prints of it. -/
structure ClaudeMessageSource where
  type : String := ""
  mediaType : String := ""
  data : String := ""
  deriving DecidableEq

/-- `ClaudeMediaMessage`: a block of a message, or the changing part of an event. -/
structure ClaudeMediaMessage (V : Type) where
  type : String := ""
  text : Option String := none
  model : String := ""
  source : Option ClaudeMessageSource := none
  stopReason : Option String := none
  partialJson : Option String := none
  thinking : Option String := none
  cacheControl : Option V := none
  id : String := ""
  name : String := ""
  input : Option V := none
  content : AnyContent V := .null
  toolUseId : String := ""
  deriving DecidableEq

variable {V : Type}

/-- `GetText`. -/
def ClaudeMediaMessage.getText (b : ClaudeMediaMessage V) : String := b.text.getD ""

/-- A text block. -/
def ClaudeMediaMessage.textBlock (text : String) : ClaudeMediaMessage V :=
  { type := "text", text := some text }

/-- A thinking block. -/
def ClaudeMediaMessage.thinkingBlock (thinking : String) : ClaudeMediaMessage V :=
  { type := "thinking", thinking := some thinking }

/-- A tool call. -/
def ClaudeMediaMessage.toolUseBlock (id name : String) (input : V) : ClaudeMediaMessage V :=
  { type := "tool_use", id, name, input := some input }

end Prox
