import Mathlib.Data.Rat.Defs
import Mathlib.Logic.Function.Basic
import Prox.Task.Outbox

/-! # Finishing an asynchronous task

The embedding of `FinalizeTaskTransition` (`service/task_billing_operation.go`), of the compare and
swap below it (`model/task_billing_operation.go`) and of the loops that call it: the pollers and the
timeout sweeper of `service/task_polling.go` and the status refresh `tryRealtimeFetch` of
`relay/relay_task.go`. Each of them reads a task row, changes the copy it holds in memory and writes
the whole row back where the persisted status is still the one it read; a terminal status and the
billing operation it calls for are written in one transaction.

A handler is split in two: a pure decision, which says what becomes of the copy and whether to write
it, and `attempt`, which writes it. `TaskSystem` is the database with any number of workers that hold
copies of rows, and as ghost state the terminal transitions that were won. -/

namespace Prox

/-! ## Rows -/

/-- The `status` column of a task; upstream may report texts that are none of the constants. -/
inductive TaskStatus where
  | notStart
  | submitted
  | queued
  | inProgress
  | failure
  | success
  | unknown
  | other (text : String)
  deriving DecidableEq

namespace TaskStatus

/-- `TaskStatus(s)`. -/
def ofString (s : String) : TaskStatus :=
  if s = "NOT_START" then .notStart
  else if s = "SUBMITTED" then .submitted
  else if s = "QUEUED" then .queued
  else if s = "IN_PROGRESS" then .inProgress
  else if s = "FAILURE" then .failure
  else if s = "SUCCESS" then .success
  else if s = "UNKNOWN" then .unknown
  else .other s

/-- `SUCCESS` or `FAILURE`. -/
def isTerminal (s : TaskStatus) : Bool := s = .success ∨ s = .failure

theorem isTerminal_iff {s : TaskStatus} : s.isTerminal = true ↔ s = .success ∨ s = .failure := by
  simp [isTerminal]

end TaskStatus

/-- The model names of a task. -/
structure TaskProperties where
  upstreamModelName : String := ""
  originModelName : String := ""
  deriving DecidableEq

/-- The billing parameters frozen at submission. -/
structure TaskBillingContext where
  modelPrice : Rat
  groupRatio : Rat
  modelRatio : Rat
  otherRatios : List (String × Rat)
  originModelName : String
  perCallBilling : Bool
  deriving DecidableEq

/-- The columns of a task that users do not see. -/
structure TaskPrivateData where
  resultURL : String := ""
  billingSource : String := ""
  subscriptionId : Int := 0
  tokenId : Int := 0
  billingContext : Option TaskBillingContext := none
  deriving DecidableEq

/-- An asynchronous task. `quota` is the quota that was consumed for it so far. -/
structure Task where
  id : Int
  taskID : String
  userId : Int
  group : String := ""
  channelId : Int := 0
  quota : Int
  status : TaskStatus
  failReason : String := ""
  submitTime : Int := 0
  startTime : Int := 0
  finishTime : Int := 0
  progress : String := ""
  properties : TaskProperties := {}
  privateData : TaskPrivateData := {}
  data : String := ""
  deriving DecidableEq

instance : Row Task Int := ⟨Task.id, Task.id⟩

/-- The tables of the transition. -/
structure TaskStore where
  tasks : Table Task
  operations : Table TaskBillingOperation

/-- The first task of a user with a public identifier. -/
def getByTaskId (tasks : Table Task) (userId : Int) (taskID : String) : Option Task :=
  if taskID = "" then none
  else tasks.rows.find? fun row => row.userId = userId ∧ row.taskID = taskID

/-! ## The billing operation of a transition -/

/-- A value of the map that becomes the `other` column of a log. -/
inductive OtherValue where
  | number (x : Rat)
  | int (n : Int)
  | text (s : String)
  | bool (b : Bool)

/-- `map[string]interface{}`, by its entries. -/
abbrev OtherMap := List (String × OtherValue)

/-- `other[key] = value`. -/
def OtherMap.set (other : OtherMap) (key : String) (value : OtherValue) : OtherMap :=
  other.filter (fun entry => entry.1 ≠ key) ++ [(key, value)]

/-- What the code takes from libraries and settings: the hexadecimal SHA-256 digest, the two JSON
encoders and the address of the server. Nothing is assumed of them. -/
structure TaskLib where
  sha256Hex : String → String
  mapToJsonStr : OtherMap → String
  marshal : String → List Char
  serverAddress : String

/-- The two kinds of task billing operation. -/
inductive TaskBillingKind where
  | refund
  | settle
  deriving DecidableEq

/-- The constant behind a kind. -/
def TaskBillingKind.name : TaskBillingKind → String
  | .refund => "refund"
  | .settle => "settle"

/-- The key of a mutation of a task, hashed when it would be too long. -/
def taskBillingMutationID (lib : TaskLib) (task : Task) (stage : String) : String :=
  let taskID := trimSpace task.taskID
  let taskID := if taskID = "" then "db-" ++ toString task.id else taskID
  let mutationID := "task:" ++ taskID ++ ":" ++ trimSpace stage
  if 128 < byteLen mutationID then "task:" ++ lib.sha256Hex mutationID else mutationID

/-- The key of an operation: one per task for a refund, one per final quota for a settlement. -/
def taskBillingOperationKey (lib : TaskLib) (task : Task) (operation : TaskBillingKind)
    (actualQuota : Int) : String :=
  taskBillingMutationID lib task (match operation with
    | .settle => "recalculate_" ++ toString actualQuota
    | .refund => operation.name)

/-- The billing parameters that go into the log. -/
def taskBillingOther (task : Task) : OtherMap :=
  let other : OtherMap :=
    match task.privateData.billingContext with
    | none => []
    | some bc =>
      let other := OtherMap.set [] "model_price" (.number bc.modelPrice)
      let other := if 0 < bc.modelRatio then other.set "model_ratio" (.number bc.modelRatio)
        else other
      let other := other.set "group_ratio" (.number bc.groupRatio)
      bc.otherRatios.foldl (fun other ratio => other.set ratio.1 (.number ratio.2)) other
  let props := task.properties
  if props.upstreamModelName ≠ "" ∧ props.upstreamModelName ≠ props.originModelName then
    (other.set "is_model_mapped" (.bool true)).set "upstream_model_name"
      (.text props.upstreamModelName)
  else other

/-- The model a task is billed for. -/
def taskModelName (task : Task) : String :=
  match task.privateData.billingContext with
  | some bc => if bc.originModelName ≠ "" then bc.originModelName else task.properties.originModelName
  | none => task.properties.originModelName

/-- The adjustment a transition calls for, or `none` when there is nothing to adjust. -/
def newTaskBillingOperation (lib : TaskLib) (task : Task) (operation : TaskBillingKind)
    (actualQuota : Int) (reason : String) : Option TaskBilling :=
  let preConsumedQuota := task.quota
  let actualQuota := if operation = .refund then 0 else actualQuota
  let delta := actualQuota - preConsumedQuota
  let logType : LogType := if operation = .refund ∨ delta < 0 then .refund else .consume
  let logQuota := if operation = .refund then preConsumedQuota else if delta < 0 then -delta else delta
  if delta = 0 then none else
  let billingSource := trimSpace task.privateData.billingSource
  let billingSource := if billingSource = "" then "wallet" else billingSource
  let other := (((taskBillingOther task).set "task_id" (.text task.taskID)).set "reason"
    (.text reason)).set "pre_consumed_quota" (.int preConsumedQuota)
  let other := other.set "actual_quota" (.int actualQuota)
  some
    { id := 0
      operationKey := taskBillingOperationKey lib task operation actualQuota
      taskKind := "task"
      taskRecordId := task.id
      taskId := task.taskID
      operation := operation.name
      userId := task.userId
      tokenId := task.privateData.tokenId
      channelId := task.channelId
      subscriptionId := task.privateData.subscriptionId
      billingSource
      group := task.group
      modelName := taskModelName task
      reason
      preConsumedQuota
      actualQuota
      fundingDelta := delta
      usageDelta := delta
      logType
      logQuota
      logOther := lib.mapToJsonStr other }

/-! ## The compare and swap -/

/-- `Select("*").Updates(task)`: every column but the primary key is written. -/
def Task.overwrite (task : Task) : Patch Task :=
  ⟨fun row => { task with id := row.id }, fun _ => rfl, fun _ => rfl⟩

/-- `UPDATE … WHERE id = ? AND status = ?`. -/
def compareAndSwap (tasks : Table Task) (task : Task) (fromStatus : TaskStatus) : Table Task × Nat :=
  tasks.updateWhere (fun row => row.id = task.id ∧ row.status = fromStatus) task.overwrite

/-- Inserts an operation after its checks. -/
def createTaskBillingOperationTx (operation : TaskBilling)
    (operations : Table TaskBillingOperation) :
    Except Err (Table TaskBillingOperation) := do
  let operation ← normalizeTaskBillingOperation operation
  match operations.create { operation with id := operations.nextId } with
  | none => throw (.sentinel .duplicatedKey)
  | some operations => return operations

/-- Writes the task and its operation in one transaction; whether the swap was won. -/
def transitionTaskWithBillingOperation (fault : Option Err) (task : Task) (fromStatus : TaskStatus)
    (operation : Option TaskBilling) : TaskStore → Except Err Bool × TaskStore :=
  checked (failIf (task.id ≤ 0) (.text "task is not persisted")) fun _ =>
    transaction fault fun db => do
      let (tasks, rowsAffected) := compareAndSwap db.tasks task fromStatus
      if rowsAffected = 0 then return (false, db) else
      match operation with
      | none => return (true, { db with tasks })
      | some operation =>
        let operations ← createTaskBillingOperationTx
          { operation with taskKind := "task", taskRecordId := task.id, taskId := task.taskID }
          db.operations
        return (true, { tasks, operations })

/-- The compare and swap of an unfinished task. -/
def updateWithStatus (fault : Option Err) (task : Task) (fromStatus : TaskStatus) :
    TaskStore → Except Err Bool × TaskStore :=
  transaction fault fun db =>
    let (tasks, rowsAffected) := compareAndSwap db.tasks task fromStatus
    return (decide (0 < rowsAffected), { db with tasks })

/-- The operation of a transition and the copy as it is written: a settlement also changes the
quota of the copy in memory. -/
def finalOperation (lib : TaskLib) (task : Task) (actualQuota : Int) (reason : String) :
    Task × Option TaskBilling :=
  match task.status with
  | .failure => (task, newTaskBillingOperation lib task .refund 0 reason)
  | .success =>
    if 0 < actualQuota ∧ actualQuota ≠ task.quota then
      ({ task with quota := actualQuota },
        newTaskBillingOperation lib task .settle actualQuota reason)
    else (task, none)
  | _ => (task, none)

/-- Persists a terminal task with its operation. The outbox worker that is started at once
afterwards is a separate step. Also returns the copy, whose quota may have changed. -/
def finalizeTaskTransition (lib : TaskLib) (fault : Option Err) (task : Task)
    (fromStatus : TaskStatus) (actualQuota : Int) (reason : String) (db : TaskStore) :
    Task × Except Err Bool × TaskStore :=
  let (task, operation) := finalOperation lib task actualQuota reason
  (task, transitionTaskWithBillingOperation fault task fromStatus operation db)

/-! ## Decisions of the handlers -/

/-- What a handler does with the copy it has changed. -/
inductive Decision where
  /-- Nothing is written. -/
  | skip
  /-- An unfinished task is written back. -/
  | update
  /-- A terminal task is written through `FinalizeTaskTransition`. -/
  | finalize (actualQuota : Int) (reason : String)
  /-- A terminal task is written without any billing operation. -/
  | close

/-- `ProgressComplete`. -/
def progressComplete : String := "100%"

/-- `snap.Equal(task.Snapshot())`. -/
def sameSnapshot (snap task : Task) : Bool :=
  snap.status = task.status ∧ snap.progress = task.progress ∧ snap.startTime = task.startTime ∧
    snap.finishTime = task.finishTime ∧ snap.failReason = task.failReason ∧
    snap.privateData.resultURL = task.privateData.resultURL ∧ snap.data = task.data

/-- The decision all pollers and the refresh end with. -/
def decideWrite (snap task : Task) (actualQuota : Int) (reason : String) : Decision :=
  if task.status.isTerminal = true ∧ snap.status ≠ task.status then .finalize actualQuota reason
  else if sameSnapshot snap task then .skip else .update

/-- A failed copy. -/
def Task.failed (task : Task) (now : Int) (reason : String) : Task :=
  { task with
    status := .failure, progress := progressComplete, finishTime := now, failReason := reason }

/-- Marks a task as failed unless it is terminal already. -/
def failTaskWithBilling (now : Int) (reason : String) (task : Task) : Task × Decision :=
  if task.status.isTerminal then (task, .skip)
  else (task.failed now reason, .finalize 0 reason)

/-- Tasks submitted before this moment are not refunded when they time out. -/
def legacyTaskCutoff : Int := 1740182400

/-- Whether a task comes from the system before the cutoff. -/
def Task.isLegacy (task : Task) : Bool := 0 < task.submitTime ∧ task.submitTime < legacyTaskCutoff

/-- The body of the loop of `sweepTimedOutTasks`. -/
def sweepTimedOutTask (now taskTimeoutMinutes : Int) (task : Task) : Task × Decision :=
  let reason := "任务超时（" ++ toString taskTimeoutMinutes ++ "分钟）"
  if task.isLegacy then
    (task.failed now "任务超时（旧系统遗留任务，不进行退款，请联系管理员）", .close)
  else (task.failed now reason, .finalize 0 reason)

/-- One item of a Suno response. -/
structure SunoDataResponse where
  status : String
  failReason : String
  submitTime : Int
  startTime : Int
  finishTime : Int
  data : String

/-- Whether an item says anything new. -/
def taskNeedsUpdate (lib : TaskLib) (oldTask : Task) (newTask : SunoDataResponse) : Bool :=
  oldTask.submitTime ≠ newTask.submitTime ∨ oldTask.startTime ≠ newTask.startTime ∨
    oldTask.finishTime ≠ newTask.finishTime ∨
    oldTask.status ≠ TaskStatus.ofString newTask.status ∨
    oldTask.failReason ≠ newTask.failReason ∨
    (oldTask.status.isTerminal = true ∧ oldTask.progress ≠ "100%") ∨
    -- The source sorts the bytes of both encodings before it compares them.
    (lib.marshal oldTask.data).isPerm (lib.marshal newTask.data) = false

/-- The copy after a Suno item. -/
def Task.withSunoItem (task : Task) (item : SunoDataResponse) : Task :=
  let status := if item.status ≠ "" then TaskStatus.ofString item.status else task.status
  let failReason := if item.failReason ≠ "" then item.failReason else task.failReason
  let failed := item.failReason ≠ "" ∨ status = .failure
  { task with
    status := if failed then .failure else status
    failReason
    submitTime := if item.submitTime ≠ 0 then item.submitTime else task.submitTime
    startTime := if item.startTime ≠ 0 then item.startTime else task.startTime
    finishTime := if item.finishTime ≠ 0 then item.finishTime else task.finishTime
    progress := if failed ∨ TaskStatus.ofString item.status = .success then progressComplete
      else task.progress
    data := item.data }

/-- The body of the loop of `updateSunoTasks`. -/
def updateSunoTask (lib : TaskLib) (item : SunoDataResponse) (task : Task) : Task × Decision :=
  if taskNeedsUpdate lib task item then
    let task' := task.withSunoItem item
    (task', decideWrite task task' 0 task'.failReason)
  else (task, .skip)

/-- What an adaptor reads from an upstream response. -/
structure TaskInfo where
  status : String
  reason : String := ""
  url : String := ""
  progress : String := ""
  totalTokens : Int := 0

/-- `FailTaskInfo(reason)`. -/
def failTaskInfo (reason : String) : TaskInfo := { status := "FAILURE", reason }

/-- How a body without a status reads as an error response. -/
inductive ErrorBody where
  /-- It is no JSON object. -/
  | unreadable
  /-- An error with code 429. -/
  | tooManyRequests
  /-- Any other error. -/
  | error
  /-- An object without an error. -/
  | unrecognized

/-- An upstream response, with what the billing code computes from it: the quota the adaptor asks
for and the quota and reason recomputed from the tokens. -/
structure TaskResponse where
  info : TaskInfo
  errorBody : ErrorBody := .unreadable
  data : String := ""
  adjusted : Int := 0
  byTokens : Int × String := (0, "")

/-- The final quota of a successful task and its reason; `0` keeps the quota. -/
def calculateTaskBillingOnComplete (task : Task) (response : TaskResponse) : Int × String :=
  if (task.privateData.billingContext.any (·.perCallBilling)) then (0, "")
  else if 0 < response.adjusted then (response.adjusted, "adaptor计费调整")
  else if 0 < response.info.totalTokens then response.byTokens
  else (0, "")

/-- The address under which the server hands out a result. -/
def buildProxyURL (lib : TaskLib) (taskID : String) : String :=
  lib.serverAddress ++ "/v1/videos/" ++ taskID ++ "/content"

/-- Sets the result address of a copy. -/
def Task.withResultURL (task : Task) (resultURL : String) : Task :=
  { task with privateData := { task.privateData with resultURL } }

/-- The result of a response, where a missing status is read as a failure unless the request was
only rate limited. -/
def effectiveResult (response : TaskResponse) : Option TaskInfo :=
  if response.info.status ≠ "" then some response.info else
  match response.errorBody with
  | .unreadable => some response.info
  | .tooManyRequests => none
  | .error => some (failTaskInfo "upstream returned error")
  | .unrecognized => some (failTaskInfo "upstream returned unrecognized message")

/-- `updateVideoSingleTask`, from the parsed response on. An unknown status is an error that leaves
the changed copy behind, unwritten. -/
def updateVideoSingleTask (lib : TaskLib) (now : Int) (response : TaskResponse) (task : Task) :
    Task × Decision :=
  let snap := task
  let task := { task with data := response.data }
  match effectiveResult response with
  | none => (task, .skip)
  | some result =>
    let task := { task with status := TaskStatus.ofString result.status }
    let progressed (task : Task) (progress : String) :=
      { task with progress := if result.progress ≠ "" then result.progress else progress }
    match task.status with
    | .submitted =>
      let task := progressed task "10%"
      (task, decideWrite snap task 0 "")
    | .queued =>
      let task := progressed task "20%"
      (task, decideWrite snap task 0 "")
    | .inProgress =>
      let task := progressed
        { task with startTime := if task.startTime = 0 then now else task.startTime } "30%"
      (task, decideWrite snap task 0 "")
    | .success =>
      let task := { task with finishTime := if task.finishTime = 0 then now else task.finishTime }
      let task := task.withResultURL (if result.url.startsWith "data:" then
        buildProxyURL lib task.taskID else if result.url ≠ "" then result.url
        else buildProxyURL lib task.taskID)
      let billing := calculateTaskBillingOnComplete task { response with info := result }
      let task := progressed task progressComplete
      (task, decideWrite snap task billing.1 billing.2)
    | .failure =>
      let task := { task with
        finishTime := if task.finishTime = 0 then now else task.finishTime
        failReason := result.reason
        progress := progressComplete }
      (task, decideWrite snap task 0 task.failReason)
    | _ => (task, .skip)

/-- The result address a refresh sets; a `data:` address is left to the body. -/
def Task.withRealtimeURL (task : Task) (lib : TaskLib) (url : String) : Task :=
  if url.startsWith "data:" then task
  else if url ≠ "" then task.withResultURL url
  else if task.status = .success then task.withResultURL (buildProxyURL lib task.taskID)
  else task

/-- `tryRealtimeFetch`, from the parsed response up to the write. -/
def tryRealtimeFetch (lib : TaskLib) (response : TaskResponse) (task : Task) : Task × Decision :=
  let snap := task
  let ti := response.info
  let task := { task with
    status := if ti.status ≠ "" then TaskStatus.ofString ti.status else task.status
    progress := if ti.progress ≠ "" then ti.progress else task.progress
    failReason := if ti.reason ≠ "" then ti.reason else task.failReason }
  let task := task.withRealtimeURL lib ti.url
  let billing := if task.status = .success then calculateTaskBillingOnComplete task response
    else (0, task.failReason)
  (task, decideWrite snap task billing.1 billing.2)

/-! ## The system -/

/-- What a worker holds: nothing, a copy from the query for unfinished tasks, a copy from the query
for timed-out tasks, or a copy a status request has read. -/
inductive TaskWorker where
  | idle
  | polling (task : Task)
  | sweeping (task : Task)
  | requested (task : Task)

/-- The copy a worker holds. -/
def TaskWorker.copy : TaskWorker → Option Task
  | .idle => none
  | .polling task | .sweeping task | .requested task => some task

/-- A terminal transition that was won, with the quota it was finalized with. -/
structure TaskWin where
  id : Int
  status : TaskStatus
  actualQuota : Int
  deriving DecidableEq

/-- The result of a handler: the copy in memory, the database, and what the write returned. -/
structure TaskAttempt where
  copy : Task
  db : TaskStore
  result : Except Err Bool
  actualQuota : Int

/-- Carries out a decision about a copy that was read with status `fromStatus`. -/
def attempt (lib : TaskLib) (fault : Option Err) (fromStatus : TaskStatus) (task : Task)
    (decision : Decision) (db : TaskStore) : TaskAttempt :=
  match decision with
  | .skip => ⟨task, db, .ok false, 0⟩
  | .update =>
    let r := updateWithStatus fault task fromStatus db
    ⟨task, r.2, r.1, 0⟩
  | .finalize actualQuota reason =>
    let r := finalizeTaskTransition lib fault task fromStatus actualQuota reason db
    ⟨r.1, r.2.2, r.2.1, actualQuota⟩
  | .close =>
    let r := transitionTaskWithBillingOperation fault task fromStatus none db
    ⟨task, r.2, r.1, 0⟩

/-- The transition an attempt won, if it wrote a terminal status. -/
def TaskAttempt.win (a : TaskAttempt) : List TaskWin :=
  match a.result with
  | .ok true =>
    if a.copy.status.isTerminal then [⟨a.copy.id, a.copy.status, a.actualQuota⟩] else []
  | _ => []

/-- The database, the workers with their copies, and the ghost list of terminal transitions. -/
structure TaskSystem where
  db : TaskStore
  workers : Nat → TaskWorker
  wins : List TaskWin

/-- What a step reads from outside. -/
structure TaskEnv where
  now : Int
  fault : Option Err

/-- What can happen next. -/
inductive TaskEvent where
  /-- A task is submitted. -/
  | submit (task : Task)
  /-- Worker `i` reads a task with `GetAllUnFinishSyncTasks`. -/
  | loadUnfinished (i : Nat) (id : Int)
  /-- Worker `i` reads a task with `GetTimedOutUnfinishedTasks`. -/
  | loadTimedOut (i : Nat) (id cutoff : Int)
  /-- Worker `i` reads the task of a status request with `GetByTaskId`. -/
  | request (i : Nat) (userId : Int) (taskID : String)
  /-- Polling worker `i` gives its task up. -/
  | fail (i : Nat) (env : TaskEnv) (reason : String)
  /-- Polling worker `i` handles an item of a Suno response. -/
  | suno (i : Nat) (env : TaskEnv) (item : SunoDataResponse)
  /-- Polling worker `i` handles the response about a video task. -/
  | video (i : Nat) (env : TaskEnv) (response : TaskResponse)
  /-- Sweeping worker `i` times its task out. -/
  | sweep (i : Nat) (env : TaskEnv) (taskTimeoutMinutes : Int)
  /-- The status request of worker `i` refreshes its task. -/
  | refresh (i : Nat) (env : TaskEnv) (response : TaskResponse)
  /-- Worker `i` lets go of its copy, or dies. -/
  | release (i : Nat)
  /-- An outbox worker changes the progress columns of an operation. -/
  | process (operationKey : String) (progress : TaskBillingOperation → TaskBillingOperation)
  /-- Another kind of task creates an operation. -/
  | midjourney (operation : TaskBilling)

/-- A write of the outbox worker: the columns an operation was created with stay. -/
def TaskBillingOperation.progressed (progress : TaskBillingOperation → TaskBillingOperation) :
    Patch TaskBillingOperation :=
  ⟨fun o => { progress o with toTaskBilling := o.toTaskBilling }, fun _ => rfl, fun _ => rfl⟩

namespace TaskSystem

/-- Worker `i` becomes `w`. -/
def setWorker (s : TaskSystem) (i : Nat) (w : TaskWorker) : TaskSystem :=
  { s with workers := Function.update s.workers i w }

/-- The system after worker `i` finished an attempt and holds `w`. -/
def finish (s : TaskSystem) (i : Nat) (a : TaskAttempt) (w : TaskWorker) : TaskSystem :=
  { s with db := a.db, wins := s.wins ++ a.win }.setWorker i w

/-- Worker `i` handles a copy it has polled. -/
def poll (lib : TaskLib) (s : TaskSystem) (i : Nat) (fault : Option Err)
    (handler : Task → Task × Decision) : TaskSystem :=
  match s.workers i with
  | .polling task =>
    let d := handler task
    let a := attempt lib fault task.status d.1 d.2 s.db
    s.finish i a (.polling a.copy)
  | _ => s

/-- What a status request holds after its write: the copy when it was won or not tried, the stored
row when the swap was lost, the copy as it was before on an error. -/
def afterRefresh (task : Task) (decision : Decision) (a : TaskAttempt) : Task :=
  match decision, a.result with
  | .skip, _ => a.copy
  | _, .error _ => task
  | _, .ok true => a.copy
  | _, .ok false => (getByTaskId a.db.tasks a.copy.userId a.copy.taskID).getD task

/-- The row a query finds, as the copy of a worker. -/
def load (s : TaskSystem) (i : Nat) (row : Option Task) (role : Task → TaskWorker) : TaskSystem :=
  match row with
  | none => s
  | some task => s.setWorker i (role task)

/-- The system after an event. -/
def step (lib : TaskLib) (s : TaskSystem) : TaskEvent → TaskSystem
  | .submit task =>
    match s.db.tasks.create { task with id := s.db.tasks.nextId } with
    | none => s
    | some tasks => { s with db := { s.db with tasks } }
  | .loadUnfinished i id =>
    s.load i ((s.db.tasks.byId id).filter fun task =>
      task.progress ≠ "100%" ∧ task.status ≠ .failure ∧ task.status ≠ .success) .polling
  | .loadTimedOut i id cutoff =>
    s.load i ((s.db.tasks.byId id).filter fun task =>
      task.progress ≠ "100%" ∧ task.status ≠ .failure ∧ task.status ≠ .success ∧
        task.submitTime < cutoff) .sweeping
  | .request i userId taskID =>
    s.load i (getByTaskId s.db.tasks userId taskID) .requested
  | .fail i env reason => s.poll lib i env.fault (failTaskWithBilling env.now reason)
  | .suno i env item => s.poll lib i env.fault (updateSunoTask lib item)
  | .video i env response => s.poll lib i env.fault (updateVideoSingleTask lib env.now response)
  | .sweep i env taskTimeoutMinutes =>
    match s.workers i with
    | .sweeping task =>
      let d := sweepTimedOutTask env.now taskTimeoutMinutes task
      s.finish i (attempt lib env.fault task.status d.1 d.2 s.db) .idle
    | _ => s
  | .refresh i env response =>
    match s.workers i with
    | .requested task =>
      let d := tryRealtimeFetch lib response task
      let a := attempt lib env.fault task.status d.1 d.2 s.db
      s.finish i a (.requested (afterRefresh task d.2 a))
    | _ => s
  | .release i => s.setWorker i .idle
  | .process operationKey progress =>
    { s with db := { s.db with
        operations := (s.db.operations.updateWhere (fun o => o.operationKey = operationKey)
          (TaskBillingOperation.progressed progress)).1 } }
  | .midjourney operation =>
    match createTaskBillingOperationTx { operation with taskKind := "midjourney" }
        s.db.operations with
    | .error _ => s
    | .ok operations => { s with db := { s.db with operations } }

end TaskSystem

end Prox
