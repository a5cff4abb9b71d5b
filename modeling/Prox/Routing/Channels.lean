import Prox.Lib.Go
import Prox.Lib.Run
import Prox.Lib.Batch
import Prox.Lib.Mirror

/-! # Channels and abilities

The `channels` table and its denormalised copy, the `abilities` table, with every operation of
`model/channel.go` and `model/ability.go` that writes them. A database statement may fail: `fails`
says which of an operation's statements do, a single statement and an explicit transaction being
atomic. The conventions of the ORM are part of the model: `Create` fills zero columns from their
`default:` tag, and `Updates` with a struct skips its zero fields.

Columns that none of these functions reads (names, balances, settings, `other_info`) are left out. -/

namespace Prox.Routing

/-! ## Rows -/

/-- `common.ChannelStatusEnabled`. -/
def channelStatusEnabled : Int := 1

/-- `common.ChannelStatusManuallyDisabled`. -/
def channelStatusManuallyDisabled : Int := 2

/-- `common.ChannelStatusAutoDisabled`. -/
def channelStatusAutoDisabled : Int := 3

/-- `model.ChannelInfo`; a map is the list of its entries, and `none` is the nil map. -/
structure ChannelInfo where
  isMultiKey : Bool := false
  multiKeySize : Nat := 0
  multiKeyStatusList : Option (List (Int × Int)) := none
  multiKeyDisabledReason : Option (List (Int × String)) := none
  multiKeyDisabledTime : Option (List (Int × Int)) := none
  multiKeyPollingIndex : Int := 0
  multiKeyMode : String := ""
  deriving DecidableEq

/-- `model.Channel`; a pointer is an `Option`. -/
structure Channel where
  id : Int := 0
  key : String := ""
  status : Int := 0
  weight : Option UInt64 := none
  responseTime : Int := 0
  models : String := ""
  group : String := ""
  modelMapping : Option String := none
  priority : Option Int := none
  tag : Option String := none
  paramOverride : Option String := none
  headerOverride : Option String := none
  channelInfo : ChannelInfo := {}
  deriving DecidableEq

/-- `model.Ability`. -/
structure Ability where
  group : String := ""
  model : String := ""
  channelId : Int := 0
  enabled : Bool := false
  priority : Option Int := none
  weight : UInt64 := 0
  tag : Option String := none
  deriving DecidableEq

/-- The primary key of an ability. -/
def Ability.key (a : Ability) : String × String × Int := (a.group, a.model, a.channelId)

/-- The two tables and the last value of the `channels` auto-increment column. -/
structure DB where
  channels : List Channel := []
  abilities : List Ability := []
  lastId : Int := 0

/-- The database before the first channel. -/
def DB.empty : DB := {}

/-- The statements of an operation, in the order they are sent. -/
inductive Statement where
  /-- A row is read before anything is written. -/
  | lookup
  /-- The channel rows are written. -/
  | write
  /-- The written rows are read back. -/
  | reload
  /-- The ability rows are written, with one or more statements. -/
  | index (n : Nat)
  deriving DecidableEq

/-- Why an operation returns an error. -/
inductive DbError where
  | failed (statement : Statement)
  | duplicatedKey
  | missingWhereClause
  deriving DecidableEq

/-- No statement fails. -/
def noFaults (_ : Statement) : Bool := false

/-! ## Zero values -/

/-- A zero field of `update` leaves the column as it is. -/
def keepZero {α : Type} [DecidableEq α] (zero update column : α) : α :=
  if update = zero then column else update

/-- `Updates(update)` on one channel row. -/
def Channel.updates (update row : Channel) : Channel :=
  { id := row.id
    key := keepZero "" update.key row.key
    status := keepZero 0 update.status row.status
    weight := update.weight.or row.weight
    responseTime := keepZero 0 update.responseTime row.responseTime
    models := keepZero "" update.models row.models
    group := keepZero "" update.group row.group
    modelMapping := update.modelMapping.or row.modelMapping
    priority := update.priority.or row.priority
    tag := update.tag.or row.tag
    paramOverride := update.paramOverride.or row.paramOverride
    headerOverride := update.headerOverride.or row.headerOverride
    channelInfo := keepZero {} update.channelInfo row.channelInfo }

/-- `Updates(update)` on one ability row. -/
def Ability.updates (update row : Ability) : Ability :=
  { group := keepZero "" update.group row.group
    model := keepZero "" update.model row.model
    channelId := keepZero 0 update.channelId row.channelId
    enabled := keepZero false update.enabled row.enabled
    priority := update.priority.or row.priority
    weight := keepZero 0 update.weight row.weight
    tag := update.tag.or row.tag }

/-- What `Create` fills in: `status` and `group`, `weight` and `priority` have a `default:` tag. -/
def Channel.withDefaults (c : Channel) : Channel :=
  { c with
    status := keepZero 0 c.status channelStatusEnabled
    group := keepZero "" c.group "default"
    weight := c.weight.or (some 0)
    priority := c.priority.or (some 0) }

/-- What `Create` fills in: `priority` has a `default:` tag. -/
def Ability.withDefaults (a : Ability) : Ability := { a with priority := a.priority.or (some 0) }

/-! ## The ability rows of a channel -/

/-- `GetWeight`: the conversion `int(*weight)` makes the upper half of the range negative. -/
def Channel.getWeight (c : Channel) : Int :=
  match c.weight with
  | none => 0
  | some weight => wrapInt64 weight.toNat

/-- `GetPriority`. -/
def Channel.getPriority (c : Channel) : Int := c.priority.getD 0

/-- `strings.Split(channel.Models, ",")`. -/
def Channel.modelList (c : Channel) : List String := splitOn ',' c.models

/-- `strings.Split(channel.Group, ",")`. -/
def Channel.groupList (c : Channel) : List String := splitOn ',' c.group

/-- The row for one group and one model. -/
def Channel.ability (c : Channel) (group model : String) : Ability :=
  { group := group
    model := model
    channelId := c.id
    enabled := c.status = channelStatusEnabled
    priority := c.priority
    weight := UInt64.ofInt c.getWeight
    tag := c.tag }

/-- The pairs in the order of the two loops: models outside, groups inside. -/
def Channel.entries (c : Channel) : List (String × String) :=
  c.modelList.flatMap fun model => c.groupList.map fun group => (group, model)

/-- The key of the loops' set. -/
def entryKey (entry : String × String) : String := entry.1 ++ "|" ++ entry.2

/-- The two loops, which skip a pair whose key has been seen. -/
def Channel.collect (c : Channel) : List String → List (String × String) → List Ability
  | _, [] => []
  | seen, entry :: rest =>
    if entryKey entry ∈ seen then c.collect seen rest
    else c.ability entry.1 entry.2 :: c.collect (entryKey entry :: seen) rest

/-- The rows that `AddAbilities` and `UpdateAbilities` write. -/
def Channel.abilities (c : Channel) : List Ability := c.collect [] c.entries

/-- `Clauses(OnConflict{DoNothing: true}).Create(&rows)`. -/
def insertAbilities (table rows : List Ability) : List Ability :=
  insertAll Ability.key table (rows.map Ability.withDefaults)

/-- The insertion loop of `AddAbilities` outside a transaction: a statement for each chunk. -/
def addChunks (fails : Statement → Bool) : Nat → List (List Ability) → DB → Except DbError Unit × DB
  | _, [], db => (.ok (), db)
  | n, chunk :: rest, db =>
    if fails (.index n) then (.error (.failed (.index n)), db)
    else addChunks fails (n + 1) rest { db with abilities := insertAbilities db.abilities chunk }

/-- `channel.AddAbilities(nil)`. -/
def Channel.addAbilities (c : Channel) (fails : Statement → Bool) (db : DB) :
    Except DbError Unit × DB :=
  addChunks fails 0 (chunks 50 c.abilities) db

/-- `channel.AddAbilities(tx)`. -/
def Channel.addAbilitiesTx (c : Channel) (db : DB) : DB :=
  { db with abilities := (chunks 50 c.abilities).foldl insertAbilities db.abilities }

/-- `channel.UpdateAbilities(tx)`: the rows of this channel are deleted and written anew. -/
def Channel.updateAbilitiesTx (c : Channel) (db : DB) : DB :=
  c.addAbilitiesTx { db with abilities := db.abilities.filter fun a => a.channelId ≠ c.id }

/-- `channel.UpdateAbilities(nil)`: a transaction of its own. -/
def Channel.updateAbilities (c : Channel) (failed : Bool) (db : DB) : DB :=
  if failed then db else c.updateAbilitiesTx db

/-! ## Inserting, deleting and updating one channel -/

/-- `Create(&channel)` assigns an identifier unless the caller brings one. -/
def DB.create (db : DB) (c : Channel) : Except DbError (Channel × DB) :=
  let c := { c.withDefaults with id := if c.id = 0 then db.lastId + 1 else c.id }
  if c.id ∈ db.channels.map Channel.id then .error .duplicatedKey
  else .ok (c, { db with channels := db.channels ++ [c], lastId := max db.lastId c.id })

/-- `Channel.Insert`. -/
def insert (fails : Statement → Bool) (c : Channel) (db : DB) : Except DbError Unit × DB :=
  if fails .write then (.error (.failed .write), db)
  else
    match db.create c with
    | .error e => (.error e, db)
    | .ok (c, db) => c.addAbilities fails db

/-- `Create(&chunk)`, one statement for several channels. -/
def DB.createAll (db : DB) : List Channel → Except DbError (List Channel × DB)
  | [] => .ok ([], db)
  | c :: cs => do
    let (c, db) ← db.create c
    let (cs, db) ← db.createAll cs
    return (c :: cs, db)

/-- One round of `BatchInsertChannels`: the channels of a chunk, then their abilities. -/
def insertChunk (db : DB) (chunk : List Channel) : Except DbError DB := do
  let (chunk, db) ← db.createAll chunk
  return chunk.foldl (fun db c => c.addAbilitiesTx db) db

/-- `BatchInsertChannels`, one transaction. -/
def batchInsertChannels (fails : Statement → Bool) (cs : List Channel) (db : DB) :
    Except DbError Unit × DB :=
  if fails .write then (.error (.failed .write), db)
  else
    match (chunks 50 cs).foldlM insertChunk db with
    | .error e => (.error e, db)
    | .ok db => (.ok (), db)

/-- `Delete(&Channel{})` by identifiers. -/
def DB.deleteChannels (db : DB) (ids : List Int) : DB :=
  { db with channels := db.channels.filter fun c => c.id ∉ ids }

/-- `Delete(&Ability{})` by channel identifiers. -/
def DB.deleteAbilities (db : DB) (ids : List Int) : DB :=
  { db with abilities := db.abilities.filter fun a => a.channelId ∉ ids }

/-- `Channel.Delete`. -/
def delete (fails : Statement → Bool) (id : Int) (db : DB) : Except DbError Unit × DB :=
  if id = 0 then (.error .missingWhereClause, db)
  else if fails .write then (.error (.failed .write), db)
  else if fails (.index 0) then (.error (.failed (.index 0)), db.deleteChannels [id])
  else (.ok (), (db.deleteChannels [id]).deleteAbilities [id])

/-- `BatchDeleteChannels`, one transaction over chunks of 200. -/
def batchDeleteChannels (fails : Statement → Bool) (ids : List Int) (db : DB) :
    Except DbError Unit × DB :=
  if fails .write then (.error (.failed .write), db)
  else (.ok (), (chunks 200 ids).foldl (fun db ids => (db.deleteChannels ids).deleteAbilities ids) db)

section Keys

-- `common.Unmarshal` of a JSON array into the raw texts of its elements
variable (decodeArray : String → Option (List String))

/-- `GetKeys` of a channel read from the database: the elements of a JSON array, or lines. -/
def Channel.getKeys (c : Channel) : List String :=
  if c.key = "" then []
  else
    let lines := splitOn '\n' (trimChar '\n' c.key)
    let trimmed := trimSpace c.key
    if hasPrefix trimmed "[" then (decodeArray trimmed).getD lines else lines

/-- The key list that `Update` counts: like `getKeys`, but an empty array is read as lines. -/
def updateKeys (keyStr : String) : List String :=
  if keyStr = "" then []
  else
    let lines := splitOn '\n' (trimChar '\n' keyStr)
    let trimmed := trimSpace keyStr
    let keys := if hasPrefix trimmed "[" then (decodeArray trimmed).getD [] else []
    if keys = [] then lines else keys

/-- The first part of `Update`: the number of keys, and the statuses of keys that are gone. -/
def Channel.recountKeys (c : Channel) (fails : Statement → Bool) (db : DB) : Channel :=
  if c.channelInfo.isMultiKey then
    let existing := if fails .lookup then none else db.channels.find? (fun row => row.id = c.id)
    let keyStr := if c.key = "" then (existing.map Channel.key).getD "" else c.key
    let size := (updateKeys decodeArray keyStr).length
    { c with
      channelInfo :=
        { c.channelInfo with
          multiKeySize := size
          multiKeyStatusList :=
            c.channelInfo.multiKeyStatusList.map (·.filter fun entry => entry.1 < size) } }
  else c

/-- `Updates` on the channel row with a given identifier. -/
def DB.updateChannel (db : DB) (update : Channel) : DB :=
  { db with
    channels := db.channels.map fun row => if row.id = update.id then update.updates row else row }

/-- `Channel.Update`: the row is read back, and when this finds nothing or fails the request itself is
indexed. -/
def update (fails : Statement → Bool) (c : Channel) (db : DB) : Except DbError Unit × DB :=
  let c := c.recountKeys decodeArray fails db
  if c.id = 0 then (.error .missingWhereClause, db)
  else if fails .write then (.error (.failed .write), db)
  else
    let db := db.updateChannel c
    let row := if fails .reload then none else db.channels.find? fun row => row.id = c.id
    if fails (.index 0) then (.error (.failed (.index 0)), db)
    else (.ok (), (row.getD c).updateAbilitiesTx db)

end Keys

/-! ## Status updates -/

/-- `m[key] = value`; assigning to a nil map is preceded by `make`. -/
def assign {α : Type} (m : Option (List (Int × α))) (key : Int) (value : α) :
    Option (List (Int × α)) :=
  some ((key, value) :: (m.getD []).filter fun entry => entry.1 ≠ key)

/-- `delete(m, key)`, after the nil map has been replaced. -/
def remove {α : Type} (m : Option (List (Int × α))) (key : Int) : Option (List (Int × α)) :=
  some ((m.getD []).filter fun entry => entry.1 ≠ key)

/-- `hasEnabledMultiKey`. -/
def hasEnabledMultiKey (keys : List String) (statusList : Option (List (Int × Int))) : Bool :=
  (List.range keys.length).any fun i =>
    match statusList with
    | none => true
    | some statuses =>
      match statuses.lookup (i : Int) with
      | none => true
      | some status => status = channelStatusEnabled

/-- The status list of a multi-key channel after the status of one key was set. -/
def setKeyStatus (info : ChannelInfo) (index : Int) (status : Int) (reason : String) (now : Int) :
    ChannelInfo :=
  if status = channelStatusEnabled then
    { info with multiKeyStatusList := remove info.multiKeyStatusList index }
  else
    { info with
      multiKeyStatusList := assign info.multiKeyStatusList index status
      multiKeyDisabledReason := assign info.multiKeyDisabledReason index reason
      multiKeyDisabledTime := assign info.multiKeyDisabledTime index now }

/-- `handlerMultiKeyUpdate`. -/
def handlerMultiKeyUpdate (keys : List String) (c : Channel) (usingKey : String) (status : Int)
    (reason : String) (now : Int) : Channel :=
  if keys = [] then { c with status := status }
  else
    match keys.findIdx? (· = usingKey) with
    | none => if usingKey ≠ "" then c else { c with status := status }
    | some index =>
      let info := setKeyStatus c.channelInfo index status reason now
      if !hasEnabledMultiKey keys info.multiKeyStatusList then
        { c with channelInfo := info, status := channelStatusAutoDisabled }
      else if status = channelStatusEnabled then
        { c with channelInfo := info, status := channelStatusEnabled }
      else { c with channelInfo := info }

/-- `UpdateAbilityStatus`. -/
def DB.setAbilityStatus (db : DB) (channelId : Int) (enabled : Bool) : DB :=
  { db with
    abilities := db.abilities.map fun a =>
      if a.channelId = channelId then { a with enabled := enabled } else a }

/-- `SaveWithoutKey`: every column but the key. -/
def DB.saveWithoutKey (db : DB) (c : Channel) : DB :=
  { db with
    channels := db.channels.map fun row => if row.id = c.id then { c with key := row.key } else row }

/-- The arguments of a status update. -/
structure StatusUpdate where
  channelId : Int
  usingKey : String := ""
  status : Int
  reason : String := ""
  /-- `common.GetTimestamp()`. -/
  now : Int := 0
  /-- The memory cache is on and has no such channel, or already has this status for it. -/
  cached : Bool := false

/-- The channel row as `UpdateChannelStatus` is about to save it. -/
def StatusUpdate.apply (u : StatusUpdate) (decodeArray : String → Option (List String)) (c : Channel) :
    Channel :=
  if c.channelInfo.isMultiKey then
    handlerMultiKeyUpdate (c.getKeys decodeArray) c u.usingKey u.status u.reason u.now
  else { c with status := u.status }

/-- `UpdateChannelStatus`; the abilities follow in a deferred call when the status has changed, also
after a failed save. It reports success as a boolean. -/
def updateChannelStatus (decodeArray : String → Option (List String)) (fails : Statement → Bool)
    (u : StatusUpdate) (db : DB) : Bool × DB :=
  if u.cached then (false, db)
  else if fails .lookup then (false, db)
  else
    match db.channels.find? fun row => row.id = u.channelId with
    | none => (false, db)
    | some c =>
      if c.status = u.status then (false, db)
      else
        let c' := u.apply decodeArray c
        let saved := !fails .write && c'.id ≠ 0
        let db := if saved then db.saveWithoutKey c' else db
        let shouldUpdateAbilities := !c.channelInfo.isMultiKey || c'.status ≠ c.status
        let db :=
          if shouldUpdateAbilities && !fails (.index 0) then
            db.setAbilityStatus u.channelId (u.status = channelStatusEnabled)
          else db
        (saved, db)

/-! ## Operations on all channels of a tag or a status -/

/-- `Model(&Channel{}).Where("tag = ?", tag)`: an assignment to every channel of a tag. -/
def DB.mapTagged (db : DB) (tag : String) (f : Channel → Channel) : DB :=
  { db with channels := db.channels.map fun c => if c.tag = some tag then f c else c }

/-- `Model(&Ability{}).Where("tag = ?", tag)`: an assignment to every ability of a tag. -/
def DB.mapTaggedAbilities (db : DB) (tag : String) (f : Ability → Ability) : DB :=
  { db with abilities := db.abilities.map fun a => if a.tag = some tag then f a else a }

/-- `UpdateAbilityStatusByTag`. -/
def DB.updateAbilityStatusByTag (db : DB) (tag : String) (status : Bool) : DB :=
  db.mapTaggedAbilities tag fun a => { a with enabled := status }

/-- `EnableChannelByTag` and `DisableChannelByTag` differ in the status they write. -/
def setStatusByTag (fails : Statement → Bool) (tag : String) (status : Int) (db : DB) :
    Except DbError Unit × DB :=
  if fails .write then (.error (.failed .write), db)
  else
    let db := db.mapTagged tag fun c => { c with status := status }
    if fails (.index 0) then (.error (.failed (.index 0)), db)
    else (.ok (), db.updateAbilityStatusByTag tag (status = channelStatusEnabled))

/-- `EnableChannelByTag`. -/
def enableChannelByTag (fails : Statement → Bool) (tag : String) (db : DB) :
    Except DbError Unit × DB :=
  setStatusByTag fails tag channelStatusEnabled db

/-- `DisableChannelByTag`. -/
def disableChannelByTag (fails : Statement → Bool) (tag : String) (db : DB) :
    Except DbError Unit × DB :=
  setStatusByTag fails tag channelStatusManuallyDisabled db

/-- The optional arguments of `EditChannelByTag`. -/
structure TagEdit where
  newTag : Option String := none
  modelMapping : Option String := none
  models : Option String := none
  group : Option String := none
  priority : Option Int := none
  weight : Option UInt64 := none
  paramOverride : Option String := none
  headerOverride : Option String := none

/-- The channel struct that `EditChannelByTag` passes to `Updates`. -/
def TagEdit.updateData (e : TagEdit) (tag : String) : Channel :=
  { tag := if e.newTag = some tag then none else e.newTag
    modelMapping := e.modelMapping
    models := e.models.getD ""
    group := e.group.getD ""
    priority := e.priority
    weight := e.weight
    paramOverride := e.paramOverride
    headerOverride := e.headerOverride }

/-- `shouldReCreateAbilities`. -/
def TagEdit.shouldReCreateAbilities (e : TagEdit) : Bool :=
  e.models.getD "" ≠ "" || e.group.getD "" ≠ ""

/-- `updatedTag`. -/
def TagEdit.updatedTag (e : TagEdit) (tag : String) : String := e.newTag.getD tag

/-- The ability struct that `UpdateAbilityByTag` passes to `Updates`. -/
def TagEdit.abilityData (e : TagEdit) : Ability :=
  { tag := e.newTag, priority := e.priority, weight := e.weight.getD 0 }

/-- The loop of `EditChannelByTag`, which logs a failed transaction and goes on. -/
def updateEach (fails : Statement → Bool) : Nat → List Channel → DB → DB
  | _, [], db => db
  | n, c :: cs, db => updateEach fails (n + 1) cs (c.updateAbilities (fails (.index n)) db)

/-- `EditChannelByTag`. -/
def editChannelByTag (fails : Statement → Bool) (tag : String) (e : TagEdit) (db : DB) :
    Except DbError Unit × DB :=
  if fails .write then (.error (.failed .write), db)
  else
    let db := db.mapTagged tag (e.updateData tag).updates
    if e.shouldReCreateAbilities then
      if fails .reload then (.ok (), db)
      else
        let channels := db.channels.filter fun c => c.tag = some (e.updatedTag tag)
        (.ok (), updateEach fails 0 channels db)
    else if fails (.index 0) then (.error (.failed (.index 0)), db)
    else (.ok (), db.mapTaggedAbilities tag e.abilityData.updates)

/-- `DeleteChannelByStatus`, which leaves the abilities alone. -/
def deleteChannelByStatus (fails : Statement → Bool) (status : Int) (db : DB) :
    Except DbError Unit × DB :=
  if fails .write then (.error (.failed .write), db)
  else (.ok (), { db with channels := db.channels.filter fun c => c.status ≠ status })

/-- `DeleteDisabledChannel`, which leaves the abilities alone. -/
def deleteDisabledChannel (fails : Statement → Bool) (db : DB) : Except DbError Unit × DB :=
  if fails .write then (.error (.failed .write), db)
  else
    (.ok (), { db with
      channels := db.channels.filter fun c =>
        c.status ≠ channelStatusAutoDisabled ∧ c.status ≠ channelStatusManuallyDisabled })

/-- `BatchSetChannelTag`, one transaction. The channels that are indexed anew are read outside it, so
they come with the tags they had before. -/
def batchSetChannelTag (fails : Statement → Bool) (ids : List Int) (tag : Option String) (db : DB) :
    Except DbError Unit × DB :=
  if fails .write then (.error (.failed .write), db)
  else
    let read := db.channels.filter fun c => c.id ∈ ids
    let db := { db with
      channels := db.channels.map fun c => if c.id ∈ ids then { c with tag := tag } else c }
    (.ok (), read.foldl (fun db c => c.updateAbilitiesTx db) db)

end Prox.Routing
