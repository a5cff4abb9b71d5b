import Prox.Routing.StatusMirror
import Prox.Lib.Lines

/-! # Editing the keys of a multi-key channel

`delete_key` and `delete_disabled_keys` of `ManageMultiKeys` and the append mode of `UpdateChannel`, all of
`controller/channel.go`. Each builds a key list, joins it by newlines and hands the channel to `Update`. Status,
disabled time and disabled reason of a key are attached by position, so that the two deletions renumber them.

The checks of `UpdateChannel` on columns that are left out, and what the JSON decoder makes of a text, are
parameters. -/

namespace Prox.Routing

/-! ## Keys with what is attached to them -/

/-- `m[i]`; the nil map holds nothing. -/
def entryAt {α : Type} (m : Option (List (Int × α))) (i : Nat) : Option α := (m.getD []).lookup (i : Int)

/-- A key with what is attached to its position. -/
structure KeyRecord where
  key : String
  status : Int
  disabledTime : Option Int
  disabledReason : Option String
  deriving DecidableEq

/-- The record of a position that holds a given key. -/
def ChannelInfo.record (info : ChannelInfo) (key : String) (i : Nat) : KeyRecord :=
  { key := key
    status := info.getStatus i
    disabledTime := entryAt info.multiKeyDisabledTime i
    disabledReason := entryAt info.multiKeyDisabledReason i }

/-- The keys of a channel as they are read from its row, with what is attached to them. -/
def Channel.keyRecords (c : Channel) (decodeArray : String → Option (List String)) : List KeyRecord :=
  (c.getKeys decodeArray).zipIdx.map fun entry => c.channelInfo.record entry.1 entry.2

/-! ## The deletions -/

/-- `remainingKeys` and the three new maps. -/
structure RemainingKeys where
  keys : List String := []
  statusList : Option (List (Int × Int)) := some []
  disabledTime : Option (List (Int × Int)) := some []
  disabledReason : Option (List (Int × String)) := some []

/-- An entry of the old map moves to the new index. -/
def moveEntry {α : Type} (old new : Option (List (Int × α))) (i newIndex : Nat) : Option (List (Int × α)) :=
  match entryAt old i with
  | none => new
  | some value => assign new newIndex value

/-- A key remains: its status comes along unless it is the enabled one, and with `dated` what was noted when it
was disabled. -/
def RemainingKeys.add (info : ChannelInfo) (dated : Bool) (r : RemainingKeys) (key : String) (i : Nat) :
    RemainingKeys :=
  let newIndex := r.keys.length
  { keys := r.keys ++ [key]
    statusList :=
      if info.getStatus i ≠ channelStatusEnabled then assign r.statusList newIndex (info.getStatus i)
      else r.statusList
    disabledTime := if dated then moveEntry info.multiKeyDisabledTime r.disabledTime i newIndex else r.disabledTime
    disabledReason :=
      if dated then moveEntry info.multiKeyDisabledReason r.disabledReason i newIndex else r.disabledReason }

/-- The loop of the two deletions. -/
def remainingKeys (info : ChannelInfo) (keeps dated : Nat → Bool) (keys : List String) : RemainingKeys :=
  keys.zipIdx.foldl (fun r entry => if keeps entry.2 then r.add info (dated entry.2) entry.1 entry.2 else r) {}

/-- The channel with the remaining keys, as it is handed to `Update`. -/
def Channel.withRemaining (c : Channel) (r : RemainingKeys) : Channel :=
  { c with
    key := "\n".intercalate r.keys
    channelInfo :=
      { c.channelInfo with
        multiKeySize := r.keys.length
        multiKeyStatusList := r.statusList
        multiKeyDisabledTime := r.disabledTime
        multiKeyDisabledReason := r.disabledReason } }

/-- The error of a request. -/
inductive EditError where
  /-- The message of the answer. -/
  | refused (message : String)
  | database (e : DbError)
  deriving DecidableEq

/-- `common.ApiError` on the error of `Update`. -/
def reportUpdate (r : Except DbError Unit × DB) : Except EditError Unit × DB := (r.1.mapError .database, r.2)

section Requests

variable (decodeArray : String → Option (List String))

/-- The first part of `ManageMultiKeys`. -/
def manageMultiKeys (channelId : Int) (act : Channel → DB → Except EditError Unit × DB) (db : DB) :
    Except EditError Unit × DB :=
  match db.channels.find? fun row => row.id = channelId with
  | none => (.error (.refused "渠道不存在"), db)
  | some channel =>
    if !channel.channelInfo.isMultiKey then (.error (.refused "该渠道不是多密钥模式"), db) else act channel db

/-- The action `delete_key`. -/
def deleteKey (keyIndex : Option Int) (channel : Channel) (db : DB) : Except EditError Unit × DB :=
  match keyIndex with
  | none => (.error (.refused "未指定要删除的密钥索引"), db)
  | some keyIndex =>
    if keyIndex < 0 ∨ (channel.channelInfo.multiKeySize : Int) ≤ keyIndex then
      (.error (.refused "密钥索引超出范围"), db)
    else
      let remaining := remainingKeys channel.channelInfo (fun i => (i : Int) ≠ keyIndex) (fun _ => true)
        (channel.getKeys decodeArray)
      if remaining.keys = [] then (.error (.refused "不能删除最后一个密钥"), db)
      else reportUpdate (update decodeArray noFaults (channel.withRemaining remaining) db)

/-- The action `delete_disabled_keys`. -/
def deleteDisabledKeys (channel : Channel) (db : DB) : Except EditError Unit × DB :=
  let keys := channel.getKeys decodeArray
  let remaining := remainingKeys channel.channelInfo
    (fun i => channel.channelInfo.getStatus i ≠ channelStatusAutoDisabled)
    (fun i => channel.channelInfo.getStatus i ≠ channelStatusEnabled) keys
  let deletedCount := (List.range keys.length).countP fun i =>
    channel.channelInfo.getStatus i = channelStatusAutoDisabled
  if deletedCount = 0 then (.error (.refused "没有需要删除的自动禁用密钥"), db)
  else reportUpdate (update decodeArray noFaults (channel.withRemaining remaining) db)

end Requests

/-! ## Appending -/

/-- An element of a decoded JSON array: a string, or anything else with what `json.Marshal` makes of it. -/
inductive KeyElement where
  | string (v : String)
  | other (encoded : String)

/-- What an update of a channel reads besides the tables. -/
structure EditEnv where
  /-- A JSON array as the texts of its elements. -/
  decodeArray : String → Option (List String)
  /-- A JSON array as its elements, or the error text. -/
  decodeElements : String → Except String (List KeyElement)

/-- `PatchChannel`, with the columns of the channel that decide how keys are read. -/
structure PatchChannel where
  channel : Channel
  type : Int := 0
  /-- `GetOtherSettings().VertexKeyType`. -/
  vertexKeyType : String := ""
  multiKeyMode : Option String := none
  keyMode : Option String := none
  /-- The error text of `validateChannel`, which reads columns that are left out. -/
  invalid : Option String := none

/-- `constant.ChannelTypeVertexAi`. -/
def channelTypeVertexAi : Int := 41

/-- `getVertexArrayKeys`. -/
def getVertexArrayKeys (env : EditEnv) (keys : String) : Except String (List String) :=
  if keys = "" then .ok []
  else
    match env.decodeElements keys with
    | .error e =>
      .error ("批量添加 Vertex AI 必须使用标准的JsonArray格式，例如[\x7bkey1\x7d, \x7bkey2\x7d...]，请检查输入: " ++ e)
    | .ok elements =>
      let cleanKeys := (elements.map fun
        | .string v => trimSpace v
        | .other encoded => encoded).filter (· ≠ "")
      if cleanKeys = [] then .error "批量添加 Vertex AI 的 keys 不能为空" else .ok cleanKeys

/-- `existingKeys`: an array that cannot be decoded has no keys. -/
def existingKeys (env : EditEnv) (key : String) : List String :=
  if hasPrefix (trimSpace key) "[" then (env.decodeArray (trimSpace key)).getD []
  else splitOn '\n' (trimChar '\n' key)

/-- `newKeys`. -/
def PatchChannel.newKeys (p : PatchChannel) (env : EditEnv) : Except String (List String) :=
  if p.type = channelTypeVertexAi ∧ p.vertexKeyType ≠ "api_key" then
    if hasPrefix (trimSpace p.channel.key) "[" then getVertexArrayKeys env p.channel.key
    else .ok [p.channel.key]
  else .ok (((splitOn '\n' p.channel.key).map trimSpace).filter (· ≠ ""))

/-- The loop that builds `dedupedNewKeys` with the set of the keys seen so far. -/
def dedupedNewKeys : List String → List String → List String
  | _, [] => []
  | seen, key :: rest =>
    let normalized := trimSpace key
    if normalized = "" ∨ normalized ∈ seen then dedupedNewKeys seen rest
    else normalized :: dedupedNewKeys (normalized :: seen) rest

/-- The keys that the set holds before the loop. -/
def seenKeys (existing : List String) : List String := (existing.map trimSpace).filter (· ≠ "")

/-- The append branch of `UpdateChannel`. -/
def appendKeys (env : EditEnv) (p : PatchChannel) (originKey : String) : Except String String :=
  if originKey = "" then .ok p.channel.key
  else do
    let newKeys ← p.newKeys env
    let existing := existingKeys env originKey
    return "\n".intercalate (existing ++ dedupedNewKeys (seenKeys existing) newKeys)

/-- A mode that the request names replaces the old one. -/
def ChannelInfo.withMode (info : ChannelInfo) (mode : Option String) : ChannelInfo :=
  if mode.getD "" = "" then info else { info with multiKeyMode := mode.getD "" }

/-- `UpdateChannel`. -/
def updateChannel (env : EditEnv) (p : PatchChannel) (db : DB) : Except EditError Unit × DB :=
  match p.invalid with
  | some message => (.error (.refused message), db)
  | none =>
    match db.channels.find? fun row => row.id = p.channel.id with
    | none => (.error (.refused "record not found"), db)
    | some originChannel =>
      let info := originChannel.channelInfo.withMode p.multiKeyMode
      let key :=
        if p.keyMode = some "append" ∧ info.isMultiKey then appendKeys env p originChannel.key
        else .ok p.channel.key
      match key with
      | .error e => (.error (.refused ("追加密钥解析失败: " ++ e)), db)
      | .ok key => reportUpdate (update env.decodeArray noFaults { p.channel with key := key, channelInfo := info } db)

end Prox.Routing
