import Mathlib.Data.List.AList
import Prox.Lib.Threads
import Prox.Task.Outbox

/-! # The batch updater

The embedding of the batch updater of `model/utils.go` with the calls that feed it: `IncreaseTokenQuota`,
`DecreaseTokenQuota`, `UpdateUserUsedQuotaAndRequestCount`, `UpdateChannelUsedQuota` and, on top of them,
`PreConsumeTokenQuota` of `service/quota.go`. With batch updates a call only adds to a store in memory,
and a pass writes the stores to the database from time to time.

The system is a list of threads over shared state. A step of a thread is one critical section of a lock,
one SQL update or one read of a token; everything a thread does in between is local to it. An event names
the thread that runs next and resolves what the scheduler, the map iteration and the cache leave open. -/

namespace Prox

/-! ## Counters -/

/-- The counters of a row of `users`. -/
structure UserCounters where
  id : Int
  usedQuota : Int := 0
  requestCount : Int := 0

instance : Row UserCounters Int := ⟨UserCounters.id, UserCounters.id⟩

/-- `used_quota = used_quota + quota, request_count = request_count + count`. -/
def UserCounters.add (quota count : Int) : Patch UserCounters :=
  ⟨fun u => { u with usedQuota := u.usedQuota + quota, requestCount := u.requestCount + count },
    fun _ => rfl, fun _ => rfl⟩

/-- `used_quota = used_quota + quota`. -/
def Channel.addUsed (quota : Int) : Patch Channel :=
  ⟨fun c => { c with usedQuota := c.usedQuota + quota }, fun _ => rfl, fun _ => rfl⟩

/-- The tables with counters. -/
structure CounterDB where
  tokens : Table Token
  users : Table UserCounters
  channels : Table Channel

/-- The SQL updates of counters, under the names of the functions that issue them. -/
inductive CounterUpdate where
  | increaseTokenQuota (id quota : Int)
  | decreaseTokenQuota (id quota : Int)
  | updateChannelUsedQuota (id quota : Int)
  | updateUserUsedQuotaAndRequestCount (id quota count : Int)

/-- The database after an update; a missing row is no error. -/
def CounterUpdate.apply (db : CounterDB) : CounterUpdate → CounterDB
  | .increaseTokenQuota id quota =>
    { db with tokens := (db.tokens.updateWhere (fun t => t.id = id) (Token.charge (-quota))).1 }
  | .decreaseTokenQuota id quota =>
    { db with tokens := (db.tokens.updateWhere (fun t => t.id = id) (Token.charge quota)).1 }
  | .updateChannelUsedQuota id quota =>
    { db with channels := (db.channels.updateWhere (fun c => c.id = id) (Channel.addUsed quota)).1 }
  | .updateUserUsedQuotaAndRequestCount id quota count =>
    { db with users := (db.users.updateWhere (fun u => u.id = id) (UserCounters.add quota count)).1 }

/-! ## Stores -/

/-- The kinds of batched updates. -/
inductive BatchUpdateType where
  | tokenQuota
  | usedQuota
  | channelUsedQuota
  | requestCount
  deriving DecidableEq

/-- All kinds, in the order of their numbers. -/
def BatchUpdateType.all : List BatchUpdateType :=
  [.tokenQuota, .usedQuota, .channelUsedQuota, .requestCount]

/-- A `map[int]int`. -/
abbrev QuotaStore := AList fun _ : Int => Int

/-- `store[id]`, zero when the key is missing. -/
def QuotaStore.get (store : QuotaStore) (id : Int) : Int := (store.lookup id).getD 0

/-- The stores of all kinds. -/
abbrev QuotaStores := BatchUpdateType → QuotaStore

/-- `batchUpdateStores[type_] = store`. -/
def QuotaStores.set (stores : QuotaStores) (type : BatchUpdateType) (store : QuotaStore) : QuotaStores :=
  Function.update stores type store

/-- The critical section of `addNewRecord`. -/
def addNewRecord (stores : QuotaStores) (type : BatchUpdateType) (id value : Int) : QuotaStores :=
  stores.set type
    (match (stores type).lookup id with
    | none => (stores type).insert id value
    | some old => (stores type).insert id (old + value))

/-! ## Calls -/

/-- What `PreConsumeTokenQuota` is asked for. -/
structure PreConsume where
  tokenId : Int
  tokenUnlimited : Bool
  isPlayground : Bool
  quota : Int

/-- The calls that change counters. -/
inductive CounterCall where
  | increaseTokenQuota (id quota : Int)
  | decreaseTokenQuota (id quota : Int)
  | updateUserUsedQuotaAndRequestCount (id quota : Int)
  | updateChannelUsedQuota (id quota : Int)
  | preConsumeTokenQuota (c : PreConsume)

/-- One access of a call to shared state: a record for the next pass or an update. -/
inductive CounterAccess where
  | record (type : BatchUpdateType) (id value : Int)
  | update (u : CounterUpdate)

/-- The accesses of `IncreaseTokenQuota`; a negative quota is an error. -/
def increaseTokenQuotaActions (batchUpdateEnabled : Bool) (id quota : Int) : List CounterAccess :=
  if quota < 0 then []
  else if batchUpdateEnabled then [.record .tokenQuota id quota]
  else [.update (.increaseTokenQuota id quota)]

/-- The accesses of `DecreaseTokenQuota`; a negative quota is an error. -/
def decreaseTokenQuotaActions (batchUpdateEnabled : Bool) (id quota : Int) : List CounterAccess :=
  if quota < 0 then []
  else if batchUpdateEnabled then [.record .tokenQuota id (-quota)]
  else [.update (.decreaseTokenQuota id quota)]

/-- The accesses of `UpdateUserUsedQuotaAndRequestCount`: with batch updates, two critical sections. -/
def updateUserActions (batchUpdateEnabled : Bool) (id quota : Int) : List CounterAccess :=
  if batchUpdateEnabled then [.record .usedQuota id quota, .record .requestCount id 1]
  else [.update (.updateUserUsedQuotaAndRequestCount id quota 1)]

/-- The accesses of `UpdateChannelUsedQuota`. -/
def updateChannelActions (batchUpdateEnabled : Bool) (id quota : Int) : List CounterAccess :=
  if batchUpdateEnabled then [.record .channelUsedQuota id quota]
  else [.update (.updateChannelUsedQuota id quota)]

/-! ## Threads -/

/-- Where a thread stands. -/
inductive CounterThread where
  /-- A call with the accesses it still makes. -/
  | call (rest : List CounterAccess)
  /-- `PreConsumeTokenQuota` before it reads the token. -/
  | preConsume (c : PreConsume) (batchUpdateEnabled : Bool)
  /-- `batchUpdate` while it looks for data in these stores. -/
  | peek (types : List BatchUpdateType)
  /-- `batchUpdate` while it swaps these stores, with the ones it has. -/
  | swap (types : List BatchUpdateType) (stores : QuotaStores)
  /-- `batchUpdate` while it writes, one loop after the other. -/
  | flush (loops : List (List CounterUpdate))

/-- A thread that is done. -/
def CounterThread.done : CounterThread := .call []

/-- The loops of a pass over the stores it has taken: tokens, channels, and the users of either store. -/
def passLoops (stores : QuotaStores) : List (List CounterUpdate) :=
  let usedQuotaStore := stores .usedQuota
  let requestCountStore := stores .requestCount
  let userIDs := (usedQuotaStore.keys ++ requestCountStore.keys).dedup
  [(stores .tokenQuota).entries.map fun e => .increaseTokenQuota e.1 e.2,
    (stores .channelUsedQuota).entries.map fun e => .updateChannelUsedQuota e.1 e.2,
    userIDs.map fun id =>
      .updateUserUsedQuotaAndRequestCount id (usedQuotaStore.get id) (requestCountStore.get id)]

/-- A call begins; the flag is read once. -/
def CounterCall.begin (batchUpdateEnabled : Bool) : CounterCall → CounterThread
  | .increaseTokenQuota id quota => .call (increaseTokenQuotaActions batchUpdateEnabled id quota)
  | .decreaseTokenQuota id quota => .call (decreaseTokenQuotaActions batchUpdateEnabled id quota)
  | .updateUserUsedQuotaAndRequestCount id quota => .call (updateUserActions batchUpdateEnabled id quota)
  | .updateChannelUsedQuota id quota => .call (updateChannelActions batchUpdateEnabled id quota)
  | .preConsumeTokenQuota c => .preConsume c batchUpdateEnabled

/-- The shared state: the database and the batch stores. -/
structure CounterState where
  db : CounterDB
  stores : QuotaStores

/-- The threads over the shared state. -/
abbrev CounterSystem := Pool CounterState CounterThread

/-- The remaining quota of the token as `GetTokenByKey` finds it: in a copy of the cache, if it has one,
or in the database. -/
def CounterDB.remainQuota (db : CounterDB) (cached : Option Int) (tokenId : Int) : Option Int :=
  match cached with
  | some remainQuota => some remainQuota
  | none => (db.tokens.byId tokenId).map Token.remainQuota

/-- The check of `PreConsumeTokenQuota` and what the call does after it. A playground request, a negative
quota and a token that is not found end the call without a change. -/
def PreConsume.decide (c : PreConsume) (batchUpdateEnabled : Bool) (remainQuota : Option Int) :
    List CounterAccess :=
  if c.quota < 0 then []
  else if c.isPlayground then []
  else
    match remainQuota with
    | none => []
    | some remainQuota =>
      if c.tokenUnlimited = false ∧ remainQuota < c.quota then []
      else decreaseTokenQuotaActions batchUpdateEnabled c.tokenId c.quota

/-- One step of a thread. `pick` chooses what a map iteration comes to next, `cached` is what the cache
has of the token. -/
def CounterThread.step (pick : Nat) (cached : Option Int) :
    CounterThread → CounterState → CounterThread × CounterState
  | .call [], s => (.done, s)
  | .call (.record type id value :: rest), s =>
    (.call rest, { s with stores := addNewRecord s.stores type id value })
  | .call (.update u :: rest), s => (.call rest, { s with db := u.apply s.db })
  | .preConsume c batchUpdateEnabled, s =>
    (.call (c.decide batchUpdateEnabled (s.db.remainQuota cached c.tokenId)), s)
  | .peek [], s => (.done, s)
  | .peek (type :: types), s =>
    if (s.stores type).entries = [] then (.peek types, s)
    else (.swap BatchUpdateType.all fun _ => ∅, s)
  | .swap [] taken, s => (.flush (passLoops taken), s)
  | .swap (type :: types) taken, s =>
    (.swap types (taken.set type (s.stores type)), { s with stores := s.stores.set type ∅ })
  | .flush [], s => (.done, s)
  | .flush ([] :: loops), s => (.flush loops, s)
  | .flush (updates :: loops), s =>
    match updates[pick]? with
    | none => (.flush (updates :: loops), s)
    | some u => (.flush (updates.eraseIdx pick :: loops), { s with db := u.apply s.db })

/-- What happens next: a call begins, a pass begins, or a thread makes a step. -/
inductive CounterEvent where
  | begin (batchUpdateEnabled : Bool) (c : CounterCall)
  | beginPass
  | step (thread pick : Nat) (cached : Option Int)

/-- The system after an event. -/
def CounterSystem.step (s : CounterSystem) : CounterEvent → CounterSystem
  | .begin batchUpdateEnabled c => s.spawn (c.begin batchUpdateEnabled)
  | .beginPass => s.spawn (.peek BatchUpdateType.all)
  | .step thread pick cached => s.stepAt (CounterThread.step pick cached) thread

/-- A system with a token, a user and a channel, and nothing under way. -/
def CounterSystem.sample : CounterSystem where
  shared := ⟨⟨⟨[{ id := 1, remainQuota := 100 }], by decide, by decide, by decide⟩,
    ⟨[{ id := 1 }], by decide, by decide, by decide⟩, ⟨[{ id := 1 }], by decide, by decide, by decide⟩⟩,
    fun _ => ∅⟩
  threads := []

end Prox
