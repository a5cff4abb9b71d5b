import Prox.Task.Transition

/-! # A task is finished and settled once

Over every interleaving of pollers, the timeout sweeper and status refreshes, with any stale copies,
lost swaps and rolled back transactions: as long as no handler works on a copy that is terminal
already, a task gets one terminal status, keeps it, and the operations created for it request
exactly the adjustment that status calls for.

The condition is needed. The pollers and the sweeper read unfinished rows only and
`failTaskWithBilling` looks at its copy first, but `tryRealtimeFetch` has no such guard: it takes a
finished task from one terminal status to the other. -/

namespace Prox

open List Option Table TaskBillingOperation TaskSystem

/-! ## What is observed of a task -/

/-- Whether an operation was created for task `id`. -/
def TaskBillingOperation.isOf (id : Int) (o : TaskBillingOperation) : Bool :=
  o.taskKind = "task" ∧ o.taskRecordId = id

/-- The operations created for a task. -/
def TaskStore.operationsOf (db : TaskStore) (id : Int) : List TaskBillingOperation :=
  db.operations.rows.filter (·.isOf id)

/-- The total funding adjustment requested for a task. -/
def TaskStore.requestedFor (db : TaskStore) (id : Int) : Int :=
  ((db.operationsOf id).map (·.fundingDelta)).sum

/-- The terminal transitions of a task that were won. -/
def TaskSystem.winsOf (s : TaskSystem) (id : Int) : List TaskWin := s.wins.filter (·.id = id)

/-- The adjustment a transition calls for, given the quota consumed before. -/
def TaskWin.due (w : TaskWin) (q : Int) : Int :=
  if w.status = .failure then -q else if 0 < w.actualQuota then w.actualQuota - q else 0

/-! ## The operation of a transition -/

variable (lib : TaskLib)

theorem newTaskBillingOperation_fundingDelta (task : Task) (kind : TaskBillingKind)
    (actualQuota : Int) (reason : String) :
    ((newTaskBillingOperation lib task kind actualQuota reason).map (·.fundingDelta)).getD 0
      = (if kind = .refund then 0 else actualQuota) - task.quota := by
  unfold newTaskBillingOperation
  by_cases hdelta : (if kind = .refund then 0 else actualQuota) - task.quota = 0
  · rw [if_pos hdelta, hdelta]
    rfl
  · rw [if_neg hdelta]
    rfl

/-- Only the quota of the copy may change on the way to the write. -/
theorem finalOperation_fst (task : Task) (actualQuota : Int) (reason : String) :
    ∃ quota, (finalOperation lib task actualQuota reason).1 = { task with quota } := by
  unfold finalOperation
  split
  · exact ⟨task.quota, rfl⟩
  · split
    · exact ⟨actualQuota, rfl⟩
    · exact ⟨task.quota, rfl⟩
  · exact ⟨task.quota, rfl⟩

variable {task : Task}

/-- **The operation requests what the transition calls for.** -/
theorem finalOperation_due (actualQuota : Int) (reason : String)
    (hterminal : task.status.isTerminal = true) :
    ((finalOperation lib task actualQuota reason).2.map (·.fundingDelta)).getD 0
      = TaskWin.due ⟨task.id, task.status, actualQuota⟩ task.quota := by
  rcases TaskStatus.isTerminal_iff.mp hterminal with hs | hs
  · simp only [finalOperation, hs, TaskWin.due, reduceCtorEq, if_false]
    by_cases hpos : 0 < actualQuota
    · by_cases hne : actualQuota = task.quota
      · simp [hne]
      · rw [if_pos ⟨hpos, hne⟩, if_pos hpos, newTaskBillingOperation_fundingDelta]
        simp
    · simp [hpos]
  · simp only [finalOperation, hs, TaskWin.due, if_true, newTaskBillingOperation_fundingDelta]
    omega

/-! ## Decisions -/

/-- A decision about a copy that was unfinished when it was read: only a terminal status goes through
a transition, only an unfinished one through a plain update. -/
def Decision.Fits (task : Task) : Decision → Prop
  | .skip => True
  | .update => task.status.isTerminal = false
  | .finalize _ _ => task.status.isTerminal = true
  | .close => task.status.isTerminal = true

/-- What a handler may do with a copy: it keeps the identity and the quota, and what it decides fits
the new status. -/
structure Handled (task : Task) (d : Task × Decision) : Prop where
  id_eq : d.1.id = task.id
  quota_eq : d.1.quota = task.quota
  fits : task.status.isTerminal = false → d.2.Fits d.1

theorem decideWrite_fits {snap : Task} (actualQuota : Int) (reason : String)
    (h : snap.status.isTerminal = false) :
    (decideWrite snap task actualQuota reason).Fits task := by
  unfold decideWrite
  split
  · next hc => exact hc.1
  · next hc =>
    split
    · trivial
    · show task.status.isTerminal = false
      by_contra hterminal
      have hterminal : task.status.isTerminal = true := by simpa using hterminal
      refine hc ⟨hterminal, fun heq => ?_⟩
      rw [heq, hterminal] at h
      cases h

/-- A handler that ends with the common decision. -/
theorem Handled.of_decideWrite {task' : Task} {actualQuota : Int} {reason : String}
    (hid : task'.id = task.id) (hquota : task'.quota = task.quota) :
    Handled task (task', decideWrite task task' actualQuota reason) :=
  ⟨hid, hquota, decideWrite_fits actualQuota reason⟩

theorem handled_failTaskWithBilling (now : Int) (reason : String) (task : Task) :
    Handled task (failTaskWithBilling now reason task) := by
  unfold failTaskWithBilling
  split
  · exact ⟨rfl, rfl, fun _ => trivial⟩
  · exact ⟨rfl, rfl, fun _ => rfl⟩

theorem handled_sweepTimedOutTask (now minutes : Int) (task : Task) :
    Handled task (sweepTimedOutTask now minutes task) := by
  unfold sweepTimedOutTask
  split
  · exact ⟨rfl, rfl, fun _ => rfl⟩
  · exact ⟨rfl, rfl, fun _ => rfl⟩

theorem handled_updateSunoTask (item : SunoDataResponse) (task : Task) :
    Handled task (updateSunoTask lib item task) := by
  unfold updateSunoTask
  split
  · exact .of_decideWrite rfl rfl
  · exact ⟨rfl, rfl, fun _ => trivial⟩

theorem handled_updateVideoSingleTask (now : Int) (response : TaskResponse)
    (task : Task) : Handled task (updateVideoSingleTask lib now response task) := by
  unfold updateVideoSingleTask
  dsimp only
  split
  · exact ⟨rfl, rfl, fun _ => trivial⟩
  · split
    · exact .of_decideWrite rfl rfl
    · exact .of_decideWrite rfl rfl
    · exact .of_decideWrite rfl rfl
    · exact .of_decideWrite rfl rfl
    · exact .of_decideWrite rfl rfl
    · exact ⟨rfl, rfl, fun _ => trivial⟩

/-- Setting the result address changes neither identity nor quota. -/
theorem withRealtimeURL_keeps (task : Task) (lib : TaskLib) (url : String) :
    (task.withRealtimeURL lib url).id = task.id ∧
      (task.withRealtimeURL lib url).quota = task.quota := by
  unfold Task.withRealtimeURL
  split
  · exact ⟨rfl, rfl⟩
  · split
    · exact ⟨rfl, rfl⟩
    · split <;> exact ⟨rfl, rfl⟩

theorem handled_tryRealtimeFetch (response : TaskResponse) (task : Task) :
    Handled task (tryRealtimeFetch lib response task) := by
  refine .of_decideWrite ?_ ?_
  · exact (withRealtimeURL_keeps _ lib _).1
  · exact (withRealtimeURL_keeps _ lib _).2

/-! ## Attempts -/

/-- An operation as it is stored: the row that `createTaskBillingOperationTx` inserts. -/
def TaskBillingOperation.Stores (b : TaskBilling) (o : TaskBillingOperation) : Prop :=
  o.taskKind = b.taskKind ∧ o.taskRecordId = b.taskRecordId ∧ o.fundingDelta = b.fundingDelta

/-- A creation appends one row, which stores the operation. -/
theorem rows_createTaskBillingOperationTx {b : TaskBilling}
    {operations operations' : Table TaskBillingOperation}
    (h : createTaskBillingOperationTx b operations = .ok operations') :
    ∃ o, Stores b o ∧ operations'.rows = operations.rows ++ [o] := by
  simp only [createTaskBillingOperationTx, bind_eq_ok] at h
  obtain ⟨o, ho, h⟩ := h
  simp only [normalizeTaskBillingOperation, ok_iff] at ho
  obtain ⟨-, -, -, rfl⟩ := ho
  split at h
  · cases h
  · next hcreate =>
    cases h
    exact ⟨_, ⟨rfl, rfl, rfl⟩, rows_of_create hcreate⟩

/-- The operation a decision creates. -/
def Decision.operation (lib : TaskLib) (task : Task) : Decision → Option TaskBilling
  | .finalize actualQuota reason => (finalOperation lib task actualQuota reason).2
  | _ => none

/-- The rows an operation of task `id` becomes. -/
def StoredAs (id : Int) (operation : Option TaskBilling) (rows : List TaskBillingOperation) :
    Prop :=
  rows.map (·.fundingDelta) = operation.toList.map (·.fundingDelta) ∧
    ∀ o ∈ rows, o.taskKind = "task" ∧ o.taskRecordId = id

/-- What a write returns: it was not won and changed nothing, or the swap matched and the operation
was stored with it. -/
def Writes (db : TaskStore) (task : Task) (fromStatus : TaskStatus)
    (operation : Option TaskBilling) (r : Except Err Bool × TaskStore) : Prop :=
  (r.1 ≠ .ok true ∧ r.2 = db) ∨
    (r.1 = .ok true ∧ (compareAndSwap db.tasks task fromStatus).2 ≠ 0 ∧
      r.2.tasks = (compareAndSwap db.tasks task fromStatus).1 ∧
      ∃ rows, r.2.operations.rows = db.operations.rows ++ rows ∧ StoredAs task.id operation rows)

theorem updateWithStatus_writes (fault : Option Err) (task : Task) (fromStatus : TaskStatus)
    (db : TaskStore) : Writes db task fromStatus none (updateWithStatus fault task fromStatus db) := by
  refine transaction_elim (P := Writes db task fromStatus none)
    (fun e => .inl ⟨nofun, rfl⟩) fun won db' hbody => ?_
  simp only [pure_eq_ok, Prod.mk.injEq] at hbody
  obtain ⟨rfl, rfl⟩ := hbody
  by_cases hzero : (compareAndSwap db.tasks task fromStatus).2 = 0
  · have hsame : (compareAndSwap db.tasks task fromStatus).1 = db.tasks :=
      updateWhere_of_rowsAffected_eq_zero hzero
    refine .inl ⟨?_, ?_⟩
    · rw [hzero]; simp
    · rw [hsame]
  · refine .inr ⟨?_, hzero, rfl, [], (append_nil _).symm, rfl, fun o ho => by cases ho⟩
    rw [decide_eq_true (Nat.pos_of_ne_zero hzero)]

theorem transitionTaskWithBillingOperation_writes (fault : Option Err) (task : Task)
    (fromStatus : TaskStatus) (operation : Option TaskBilling) (db : TaskStore) :
    Writes db task fromStatus operation
      (transitionTaskWithBillingOperation fault task fromStatus operation db) := by
  unfold transitionTaskWithBillingOperation
  rcases checked_transaction_cases (failIf (task.id ≤ 0) (.text "task is not persisted")) fault
    (fun _ => _) db with ⟨e, he⟩ | ⟨u, won, db', -, hbody, he⟩
  · rw [he]; exact .inl ⟨nofun, rfl⟩
  rw [he]
  dsimp only at hbody
  split at hbody
  · cases hbody; exact .inl ⟨nofun, rfl⟩
  · next hzero =>
    cases operation with
    | none =>
      cases hbody
      exact .inr ⟨rfl, hzero, rfl, [], (append_nil _).symm, rfl, fun o ho => by cases ho⟩
    | some b =>
      simp only [ok_iff, Prod.mk.injEq] at hbody
      obtain ⟨operations, hcreate, rfl, rfl⟩ := hbody
      obtain ⟨o, ⟨hkind, hrecord, hdelta⟩, hrows⟩ := rows_createTaskBillingOperationTx hcreate
      refine .inr ⟨rfl, hzero, rfl, [o], hrows, ?_, ?_⟩
      · simp [hdelta]
      · intro o' ho'
        rw [mem_singleton.mp ho']
        exact ⟨hkind, hrecord⟩

variable {a : TaskAttempt}

section Attempt

variable {db : TaskStore} {id : Int} {row : Task} {fromStatus : TaskStatus}

theorem byId_compareAndSwap (hrow : db.tasks.byId id = some row) :
    (compareAndSwap db.tasks task fromStatus).1.byId id
      = some (if id = task.id ∧ row.status = fromStatus then task else row) := by
  have hid : row.id = id := (byId_eq_some.mp hrow).2
  unfold compareAndSwap
  rw [byId_updateWhere, hrow, map_some]
  by_cases hc : id = task.id ∧ row.status = fromStatus
  · have hrid : row.id = task.id := hid.trans hc.1
    simp [hrid, hc, Task.overwrite]
  · rw [if_neg hc, if_neg]
    simpa [hid] using hc

/-- A swap that matches has found the row of its task in the expected status. -/
theorem status_of_compareAndSwap (hrow : db.tasks.byId id = some row) (hid : id = task.id)
    (hne : (compareAndSwap db.tasks task fromStatus).2 ≠ 0) : row.status = fromStatus := by
  obtain ⟨x, hx, hp⟩ := exists_of_rowsAffected_ne_zero hne
  obtain ⟨hxid, hxs⟩ : x.id = task.id ∧ x.status = fromStatus := by simpa using hp
  obtain ⟨hmem, hrid⟩ := byId_eq_some.mp hrow
  obtain rfl : x = row := eq_of_id_eq hx hmem (hxid.trans (hid.symm.trans hrid.symm))
  exact hxs

/-- A step leaves task `id` alone: its row and the adjustments requested for it are the same. -/
def Untouched (id : Int) (db db' : TaskStore) : Prop :=
  db'.tasks.byId id = db.tasks.byId id ∧
    (db'.operationsOf id).map (·.fundingDelta) = (db.operationsOf id).map (·.fundingDelta)

/-- A write leaves task `id` alone, or it is a won write of that task. -/
theorem Writes.cases {operation : Option TaskBilling} {r : Except Err Bool × TaskStore}
    (h : Writes db task fromStatus operation r) (hrow : db.tasks.byId id = some row) :
    (Untouched id db r.2 ∧ (id = task.id → r.1 ≠ .ok true)) ∨
      (id = task.id ∧ row.status = fromStatus ∧ r.1 = .ok true ∧
        r.2.tasks.byId id = some task ∧
        ∃ rows, r.2.operationsOf id = db.operationsOf id ++ rows ∧
          rows.map (·.fundingDelta) = operation.toList.map (·.fundingDelta)) := by
  rcases h with ⟨hlost, hsame⟩ | ⟨hwon, hne, htasks, rows, hrows, hdelta, hof⟩
  · left
    rw [hsame]
    exact ⟨⟨rfl, rfl⟩, fun _ => hlost⟩
  · have hops : r.2.operationsOf id = db.operationsOf id ++ rows.filter (·.isOf id) := by
      rw [TaskStore.operationsOf, hrows, filter_append]
      rfl
    by_cases hid : id = task.id
    · right
      have hstatus := status_of_compareAndSwap hrow hid hne
      refine ⟨hid, hstatus, hwon, ?_, rows, ?_, hdelta⟩
      · rw [htasks, byId_compareAndSwap hrow, if_pos ⟨hid, hstatus⟩]
      · rw [hops, filter_eq_self.mpr]
        intro o ho
        simpa [isOf, hid] using hof o ho
    · left
      refine ⟨⟨?_, ?_⟩, fun h => absurd h hid⟩
      · rw [htasks, byId_compareAndSwap hrow, if_neg fun h => hid h.1, hrow]
      · have hother : rows.filter (·.isOf id) = [] := by
          refine filter_eq_nil_iff.mpr fun o ho => ?_
          have hrecord := (hof o ho).2
          simpa [isOf, hrecord] using fun _ => fun h => hid h.symm
        rw [hops, hother, append_nil]

/-- An attempt that was not won adds no transition. -/
theorem TaskAttempt.win_eq_nil (h : a.result ≠ .ok true) : a.win = [] := by
  unfold TaskAttempt.win
  split
  · next hwon => exact absurd hwon h
  · rfl

/-- A won attempt adds a transition when its status is terminal. -/
theorem TaskAttempt.win_of_won (h : a.result = .ok true) :
    a.win = if a.copy.status.isTerminal then [⟨a.copy.id, a.copy.status, a.actualQuota⟩] else [] := by
  simp [TaskAttempt.win, h]

/-- An attempt is no transition of another task. -/
theorem TaskAttempt.filter_win_of_ne (h : a.copy.id ≠ id) : a.win.filter (·.id = id) = [] := by
  unfold TaskAttempt.win
  split
  · split <;> simp [h]
  · rfl

/-- The write of an attempt, and the copy it leaves. -/
theorem attempt_writes (fault : Option Err) (fromStatus : TaskStatus) (task : Task)
    (d : Decision) (db : TaskStore) :
    let a := attempt lib fault fromStatus task d db
    (∃ quota, a.copy = { task with quota }) ∧
      Writes db a.copy fromStatus (d.operation lib task) (a.result, a.db) := by
  cases d with
  | skip => exact ⟨⟨task.quota, rfl⟩, .inl ⟨nofun, rfl⟩⟩
  | update => exact ⟨⟨task.quota, rfl⟩, updateWithStatus_writes fault task fromStatus db⟩
  | finalize actualQuota reason =>
    exact ⟨finalOperation_fst lib task actualQuota reason,
      transitionTaskWithBillingOperation_writes fault _ fromStatus _ db⟩
  | close =>
    exact ⟨⟨task.quota, rfl⟩,
      transitionTaskWithBillingOperation_writes fault task fromStatus none db⟩

/-- An attempt that leaves an unfinished copy has not changed it. -/
theorem attempt_copy_of_open {lib : TaskLib} {fault : Option Err} {d : Decision}
    (h : (attempt lib fault fromStatus task d db).copy.status.isTerminal = false) :
    (attempt lib fault fromStatus task d db).copy = task := by
  cases d with
  | skip => rfl
  | update => rfl
  | close => rfl
  | finalize actualQuota reason =>
    obtain ⟨quota, hcopy⟩ := finalOperation_fst lib task actualQuota reason
    have hopen : task.status.isTerminal = false := by
      have h : (finalOperation lib task actualQuota reason).1.status.isTerminal = false := h
      rw [hcopy] at h
      exact h
    show (finalOperation lib task actualQuota reason).1 = task
    unfold finalOperation
    split
    · rfl
    · next hs => rw [hs] at hopen; cases hopen
    · rfl

/-- An attempt leaves task `id` alone, or it is a won write of the copy of that task. -/
theorem attempt_cases (fault : Option Err) (fromStatus : TaskStatus) (task : Task)
    (d : Decision) (hrow : db.tasks.byId id = some row) :
    let a := attempt lib fault fromStatus task d db
    (Untouched id db a.db ∧ a.win.filter (·.id = id) = []) ∨
      (id = task.id ∧ row.status = fromStatus ∧ a.result = .ok true ∧
        a.db.tasks.byId id = some a.copy ∧
        ∃ rows, a.db.operationsOf id = db.operationsOf id ++ rows ∧
          rows.map (·.fundingDelta) = (d.operation lib task).toList.map (·.fundingDelta)) := by
  intro a
  obtain ⟨⟨quota, hcopy⟩, hwrites⟩ := attempt_writes lib fault fromStatus task d db
  have hid : a.copy.id = task.id := by
    rw [hcopy]
  rcases hwrites.cases hrow with ⟨huntouched, hlost⟩ | ⟨heq, hstatus, hwon, hwritten, hrows⟩
  · left
    refine ⟨huntouched, ?_⟩
    by_cases heq : id = a.copy.id
    · rw [TaskAttempt.win_eq_nil (hlost heq), filter_nil]
    · exact TaskAttempt.filter_win_of_ne fun h => heq h.symm
  · right
    exact ⟨heq.trans hid, hstatus, hwon, hwritten, hrows⟩

end Attempt

/-! ## The invariant -/

/-- A task that is not finished: its quota is what was consumed, and nothing was requested. -/
def OpenRow (id q : Int) (row : Task) (db : TaskStore) (wins : List TaskWin) : Prop :=
  row.status.isTerminal = false ∧ row.quota = q ∧ db.operationsOf id = [] ∧
    wins.filter (·.id = id) = []

/-- A finished task: one transition was won, and what it calls for was requested by at most one
operation. -/
def ClosedRow (id q : Int) (row : Task) (db : TaskStore) (wins : List TaskWin) : Prop :=
  ∃ w, wins.filter (·.id = id) = [w] ∧ w.status = row.status ∧ row.status.isTerminal = true ∧
    (db.operationsOf id).length ≤ 1 ∧ db.requestedFor id = w.due q

/-- A task is open or closed. -/
def RowInv (id q : Int) (db : TaskStore) (wins : List TaskWin) : Prop :=
  ∃ row, db.tasks.byId id = some row ∧ (OpenRow id q row db wins ∨ ClosedRow id q row db wins)

/-- A copy that is not finished has the quota that was consumed. -/
def CopyInv (id q : Int) (task : Task) : Prop :=
  task.id = id → task.status.isTerminal = false → task.quota = q

/-- **The invariant of a task** with consumed quota `q`. -/
structure TaskInv (id q : Int) (s : TaskSystem) : Prop where
  copies : ∀ i task, (s.workers i).copy = some task → CopyInv id q task
  row : RowInv id q s.db s.wins

section Inv

variable {id q : Int} {db db' : TaskStore} {wins : List TaskWin}

/-- What leaves the observations of a task alone keeps its row. -/
theorem RowInv.of_untouched (h : RowInv id q db wins) (hdb : Untouched id db db')
    {new : List TaskWin} (hnew : new.filter (·.id = id) = []) : RowInv id q db' (wins ++ new) := by
  obtain ⟨row, hrow, hcase⟩ := h
  have hwins : (wins ++ new).filter (·.id = id) = wins.filter (·.id = id) := by
    rw [filter_append, hnew, append_nil]
  refine ⟨row, hdb.1.trans hrow, ?_⟩
  rcases hcase with ⟨hopen, hquota, hops, hw⟩ | ⟨w, hw, hstatus, hterminal, hlen, hsum⟩
  · have hnone : (db'.operationsOf id).map (·.fundingDelta) = [] := by rw [hdb.2, hops]; rfl
    exact .inl ⟨hopen, hquota, map_eq_nil_iff.mp hnone, hwins.trans hw⟩
  · refine .inr ⟨w, hwins.trans hw, hstatus, hterminal, ?_, ?_⟩
    · have hlength := congrArg List.length hdb.2
      rw [length_map, length_map] at hlength
      omega
    · rw [TaskStore.requestedFor, hdb.2]; exact hsum

/-- The step lemma of the writes: an attempt on a copy that was read unfinished keeps the row. -/
theorem RowInv.attempt (h : RowInv id q db wins) (lib : TaskLib) (fault : Option Err)
    {fromStatus : TaskStatus} (hfrom : fromStatus.isTerminal = false) {d : Decision}
    (hquota : task.id = id → task.quota = q) (hfits : d.Fits task) (hclose : d ≠ .close) :
    RowInv id q (attempt lib fault fromStatus task d db).db
      (wins ++ (attempt lib fault fromStatus task d db).win) := by
  obtain ⟨row, hrow, hcase⟩ := h
  rcases attempt_cases lib fault fromStatus task d hrow with
    ⟨huntouched, hnew⟩ | ⟨hid, hstatus, hwon, hwritten, rows, hops, hdelta⟩
  · exact RowInv.of_untouched ⟨row, hrow, hcase⟩ huntouched hnew
  -- The swap has found an unfinished row, so the task was still open.
  obtain ⟨-, -, hnone, hw⟩ : OpenRow id q row db wins := by
    rcases hcase with hopen | ⟨w, -, -, hterminal, -⟩
    · exact hopen
    · rw [hstatus, hfrom] at hterminal; cases hterminal
  have hq : task.quota = q := hquota hid.symm
  rw [hnone, nil_append] at hops
  refine ⟨_, hwritten, ?_⟩
  cases d with
  | skip => cases hwon
  | close => exact absurd rfl hclose
  | update =>
    left
    have hopen : task.status.isTerminal = false := hfits
    refine ⟨hopen, hq, ?_, ?_⟩
    · rw [hops]; exact map_eq_nil_iff.mp hdelta
    · rw [TaskAttempt.win_of_won hwon, filter_append, hw]
      show List.filter _ (if task.status.isTerminal then _ else _) = _
      rw [hopen]
      rfl
  | finalize actualQuota reason =>
    right
    have hterminal : task.status.isTerminal = true := hfits
    obtain ⟨quota, hcopy⟩ := finalOperation_fst lib task actualQuota reason
    have hcopy : (Prox.attempt lib fault fromStatus task (.finalize actualQuota reason) db).copy
        = { task with quota } := hcopy
    refine ⟨⟨task.id, task.status, actualQuota⟩, ?_, ?_, ?_, ?_, ?_⟩
    · rw [TaskAttempt.win_of_won hwon, filter_append, hw, hcopy]
      rw [hterminal]
      simp [hid, Prox.attempt]
    · rw [hcopy]
    · rw [hcopy]; exact hterminal
    · rw [hops, ← length_map (f := (·.fundingDelta)), hdelta]
      cases Decision.operation lib task (.finalize actualQuota reason) <;> simp
    · rw [TaskStore.requestedFor, hops, hdelta, ← hq, ← finalOperation_due lib actualQuota reason
        hterminal]
      show (List.map _ (finalOperation lib task actualQuota reason).2.toList).sum = _
      cases (finalOperation lib task actualQuota reason).2 <;> simp

/-- A stored row satisfies what is asked of a copy. -/
theorem RowInv.copyInv (h : RowInv id q db wins) (hmem : task ∈ db.tasks.rows) :
    CopyInv id q task := by
  intro hid hopen
  obtain ⟨row, hrow, hcase⟩ := h
  obtain rfl : task = row :=
    eq_of_id_eq hmem (byId_eq_some.mp hrow).1 (hid.trans (byId_eq_some.mp hrow).2.symm)
  rcases hcase with ⟨-, hquota, -⟩ | ⟨w, -, -, hterminal, -⟩
  · exact hquota
  · rw [hopen] at hterminal; cases hterminal

variable {s : TaskSystem}

/-- A worker may take any copy that satisfies the invariant. -/
theorem TaskInv.setWorker (h : TaskInv id q s) (i : Nat) {w : TaskWorker}
    (hw : ∀ task, w.copy = some task → CopyInv id q task) : TaskInv id q (s.setWorker i w) := by
  refine ⟨fun j task htask => ?_, h.row⟩
  by_cases hj : j = i
  · subst hj
    exact hw task (by simpa [TaskSystem.setWorker] using htask)
  · exact h.copies j task (by simpa [TaskSystem.setWorker, hj] using htask)

/-- A row that a query finds is a good copy. -/
theorem TaskInv.load (h : TaskInv id q s) (i : Nat) {row : Option Task} {role : Task → TaskWorker}
    (hmem : ∀ task, row = some task → task ∈ s.db.tasks.rows)
    (hrole : ∀ task, (role task).copy = some task) : TaskInv id q (s.load i row role) := by
  cases row with
  | none => exact h
  | some found =>
    refine h.setWorker i fun task htask => ?_
    rw [hrole] at htask
    cases htask
    exact h.row.copyInv (hmem found rfl)

/-- The step lemma of the handlers that keep their copy. -/
theorem TaskInv.handled (h : TaskInv id q s) (lib : TaskLib) (fault : Option Err) {i : Nat}
    (hcopy : (s.workers i).copy = some task) (hopen : task.status.isTerminal = false)
    {d : Task × Decision} (hd : Handled task d) (hclose : d.2 ≠ .close) :
    RowInv id q (attempt lib fault task.status d.1 d.2 s.db).db
        (s.wins ++ (attempt lib fault task.status d.1 d.2 s.db).win) ∧
      CopyInv id q (attempt lib fault task.status d.1 d.2 s.db).copy := by
  have hquota : d.1.id = id → d.1.quota = q := fun hid => by
    rw [hd.quota_eq]
    exact h.copies i task hcopy (hd.id_eq.symm.trans hid) hopen
  refine ⟨h.row.attempt lib fault hopen hquota (hd.fits hopen) hclose, ?_⟩
  intro hid hterminal
  rw [attempt_copy_of_open hterminal] at hid ⊢
  exact hquota hid

/-- A worker that finishes an attempt keeps the invariant. -/
theorem TaskInv.finish (h : TaskInv id q s) (i : Nat) {w : TaskWorker}
    (hrow : RowInv id q a.db (s.wins ++ a.win))
    (hw : ∀ task, w.copy = some task → CopyInv id q task) : TaskInv id q (s.finish i a w) :=
  have hdb : TaskInv id q { s with db := a.db, wins := s.wins ++ a.win } := ⟨h.copies, hrow⟩
  hdb.setWorker i hw

end Inv

/-! ## The conditions on a run -/

/-- The worker whose handler an event runs. -/
def TaskEvent.handler? : TaskEvent → Option Nat
  | .fail i _ _ | .suno i _ _ | .video i _ _ | .sweep i _ _ | .refresh i _ _ => some i
  | _ => none

/-- The handler of an event works on a copy that is not terminal yet. -/
def WorksOnOpenCopy (s : TaskSystem) (e : TaskEvent) : Prop :=
  ∀ i ∈ e.handler?, ∀ task ∈ (s.workers i).copy, task.status.isTerminal = false

/-- The sweeper does not take its branch for tasks of the old system, which it closes without
`FinalizeTaskTransition`. -/
def FinishesThroughFinalize (s : TaskSystem) : TaskEvent → Prop
  | .sweep i _ _ => ∀ task ∈ (s.workers i).copy, task.isLegacy = false
  | _ => True

instance (s : TaskSystem) (e : TaskEvent) : Decidable (WorksOnOpenCopy s e) := by
  unfold WorksOnOpenCopy
  infer_instance

instance (s : TaskSystem) (e : TaskEvent) : Decidable (FinishesThroughFinalize s e) := by
  cases e <;> unfold FinishesThroughFinalize <;> infer_instance

/-! ## Steps and runs -/

section Steps

variable {id q : Int} {s : TaskSystem}

theorem idle_copies (task : Task) (h : TaskWorker.idle.copy = some task) : CopyInv id q task := by
  cases h

/-- A step that only changes the database, and leaves the task alone there. -/
theorem TaskInv.of_untouched (h : TaskInv id q s) {db' : TaskStore} (hdb : Untouched id s.db db') :
    TaskInv id q { s with db := db' } := by
  refine ⟨h.copies, ?_⟩
  have hrow := h.row.of_untouched hdb filter_nil
  rwa [append_nil] at hrow

theorem TaskInv.poll (h : TaskInv id q s) (lib : TaskLib) {i : Nat} (fault : Option Err)
    {handler : Task → Task × Decision} (hhandler : ∀ task, Handled task (handler task))
    (hclose : ∀ task, (handler task).2 ≠ .close)
    (hopen : ∀ task ∈ (s.workers i).copy, task.status.isTerminal = false) :
    TaskInv id q (s.poll lib i fault handler) := by
  unfold TaskSystem.poll
  split
  · next task hworker =>
    have hcopy : (s.workers i).copy = some task := by rw [hworker]; rfl
    obtain ⟨hrow, hkept⟩ :=
      h.handled lib fault hcopy (hopen task hcopy) (hhandler task) (hclose task)
    refine h.finish i hrow fun task' htask' => ?_
    cases htask'
    exact hkept
  · exact h

theorem decideWrite_ne_close (snap task : Task) (actualQuota : Int) (reason : String) :
    decideWrite snap task actualQuota reason ≠ .close := by
  unfold decideWrite
  split
  · nofun
  · split <;> nofun

theorem updateSunoTask_ne_close (item : SunoDataResponse) (task : Task) :
    (updateSunoTask lib item task).2 ≠ .close := by
  unfold updateSunoTask
  split
  · exact decideWrite_ne_close _ _ _ _
  · nofun

theorem updateVideoSingleTask_ne_close (now : Int) (response : TaskResponse)
    (task : Task) : (updateVideoSingleTask lib now response task).2 ≠ .close := by
  unfold updateVideoSingleTask
  dsimp only
  split
  · nofun
  · split
    all_goals first
      | exact decideWrite_ne_close _ _ _ _
      | nofun

/-- What a status request holds in the end is the attempted copy, the copy it began with or a stored
row. -/
theorem afterRefresh_cases (task : Task) (d : Decision) (a : TaskAttempt) :
    afterRefresh task d a = a.copy ∨ afterRefresh task d a = task ∨
      afterRefresh task d a ∈ a.db.tasks.rows := by
  unfold afterRefresh
  split
  · exact .inl rfl
  · exact .inr (.inl rfl)
  · exact .inl rfl
  · unfold getByTaskId
    split
    · exact .inr (.inl rfl)
    · cases hfind : a.db.tasks.rows.find? _ with
      | none => exact .inr (.inl rfl)
      | some row => exact .inr (.inr (List.mem_of_find?_eq_some hfind))

/-- The progress of the outbox changes no request. -/
theorem untouched_process (db : TaskStore) (p : TaskBillingOperation → Bool)
    (progress : TaskBillingOperation → TaskBillingOperation) :
    Untouched id db { db with
      operations := (db.operations.updateWhere p (progressed progress)).1 } := by
  refine ⟨rfl, ?_⟩
  simp only [TaskStore.operationsOf, rows_updateWhere]
  induction db.operations.rows with
  | nil => rfl
  | cons o rows ih =>
    have hof : (if p o then (progressed progress).apply o else o).isOf id
        = o.isOf id := by split <;> rfl
    have hdelta : (if p o then (progressed progress).apply o
        else o).fundingDelta = o.fundingDelta := by split <;> rfl
    rw [map_cons, filter_cons, filter_cons, hof]
    split
    · rw [map_cons, map_cons, hdelta, ih]
    · exact ih

/-- An operation of another kind is no request for a task. -/
theorem untouched_midjourney {db : TaskStore} {b : TaskBilling}
    {operations : Table TaskBillingOperation}
    (h : createTaskBillingOperationTx { b with taskKind := "midjourney" } db.operations
      = .ok operations) : Untouched id db { db with operations } := by
  obtain ⟨o, ⟨hkind, -, -⟩, hrows⟩ := rows_createTaskBillingOperationTx h
  have hother : o.isOf id = false := by simp [isOf, hkind]
  refine ⟨rfl, ?_⟩
  simp [TaskStore.operationsOf, hrows, hother]

/-- **The step lemma**: every step that works on an unfinished copy keeps the invariant. -/
theorem TaskInv.step (h : TaskInv id q s) (lib : TaskLib) {e : TaskEvent}
    (hopen : WorksOnOpenCopy s e) (hfinal : FinishesThroughFinalize s e) :
    TaskInv id q (s.step lib e) := by
  cases e with
  | submit task =>
    dsimp only [TaskSystem.step]
    split
    · exact h
    · next tasks hcreate =>
      obtain ⟨row, hrow, -⟩ := h.row
      obtain ⟨hmem, hid⟩ := byId_eq_some.mp hrow
      -- The new row takes the next primary key, which no stored row has.
      have hlt : id < s.db.tasks.nextId := hid ▸ id_lt_nextId hmem
      refine h.of_untouched ⟨byId_of_create hcreate ?_, rfl⟩
      exact ne_of_lt hlt
  | loadUnfinished i id' =>
    refine h.load i (fun task htask => ?_) fun _ => rfl
    exact (byId_eq_some.mp (eq_some_of_filter_eq_some htask)).1
  | loadTimedOut i id' cutoff =>
    refine h.load i (fun task htask => ?_) fun _ => rfl
    exact (byId_eq_some.mp (eq_some_of_filter_eq_some htask)).1
  | request i userId taskID =>
    refine h.load i (fun task htask => ?_) fun _ => rfl
    unfold getByTaskId at htask
    split at htask
    · cases htask
    · exact List.mem_of_find?_eq_some htask
  | fail i env reason =>
    refine h.poll lib env.fault (handled_failTaskWithBilling env.now reason) (fun task => ?_)
      (hopen i rfl)
    unfold failTaskWithBilling
    split <;> nofun
  | suno i env item =>
    exact h.poll lib env.fault (handled_updateSunoTask lib item) (updateSunoTask_ne_close lib item)
      (hopen i rfl)
  | video i env response =>
    exact h.poll lib env.fault (handled_updateVideoSingleTask lib env.now response)
      (updateVideoSingleTask_ne_close lib env.now response) (hopen i rfl)
  | sweep i env minutes =>
    dsimp only [TaskSystem.step]
    split
    · next task hworker =>
      have hcopy : (s.workers i).copy = some task := by rw [hworker]; rfl
      have hclose : (sweepTimedOutTask env.now minutes task).2 ≠ .close := by
        unfold sweepTimedOutTask
        rw [if_neg (by rw [hfinal task hcopy]; nofun)]
        nofun
      obtain ⟨hrow, -⟩ := h.handled lib env.fault hcopy (hopen i rfl task hcopy)
        (handled_sweepTimedOutTask env.now minutes task) hclose
      exact h.finish i hrow idle_copies
    · exact h
  | refresh i env response =>
    dsimp only [TaskSystem.step]
    split
    · next task hworker =>
      have hcopy : (s.workers i).copy = some task := by rw [hworker]; rfl
      obtain ⟨hrow, hkept⟩ := h.handled lib env.fault hcopy (hopen i rfl task hcopy)
        (handled_tryRealtimeFetch lib response task) (decideWrite_ne_close _ _ _ _)
      refine h.finish i hrow fun task' htask' => ?_
      obtain rfl := Option.some.inj htask'
      rcases afterRefresh_cases task (tryRealtimeFetch lib response task).2
        (attempt lib env.fault task.status (tryRealtimeFetch lib response task).1
          (tryRealtimeFetch lib response task).2 s.db) with heq | heq | hmem
      · rw [heq]; exact hkept
      · rw [heq]; exact h.copies i task hcopy
      · exact hrow.copyInv hmem
    · exact h
  | release i => exact h.setWorker i idle_copies
  | process key progress => exact h.of_untouched (untouched_process s.db _ progress)
  | midjourney b =>
    dsimp only [TaskSystem.step]
    split
    · exact h
    · next operations hcreate => exact h.of_untouched (untouched_midjourney hcreate)

/-- The transitions won so far are never forgotten. -/
theorem wins_prefix_step (s : TaskSystem) (e : TaskEvent) :
    s.wins <+: (s.step lib e).wins := by
  have hpoll : ∀ (i : Nat) (fault : Option Err) (handler : Task → Task × Decision),
      s.wins <+: (s.poll lib i fault handler).wins := by
    intro i fault handler
    unfold poll
    split
    · exact prefix_append _ _
    · exact prefix_refl _
  have hload : ∀ (i : Nat) (row : Option Task) (role : Task → TaskWorker),
      s.wins <+: (s.load i row role).wins := by
    intro i row role
    cases row <;> exact prefix_refl _
  cases e with
  | submit task => dsimp only [TaskSystem.step]; split <;> exact prefix_refl _
  | loadUnfinished i id => exact hload i _ _
  | loadTimedOut i id cutoff => exact hload i _ _
  | request i userId taskID => exact hload i _ _
  | fail i env reason => exact hpoll i _ _
  | suno i env item => exact hpoll i _ _
  | video i env response => exact hpoll i _ _
  | sweep i env minutes =>
    dsimp only [TaskSystem.step]
    split
    · exact prefix_append _ _
    · exact prefix_refl _
  | refresh i env response =>
    dsimp only [TaskSystem.step]
    split
    · exact prefix_append _ _
    · exact prefix_refl _
  | release i => exact prefix_refl _
  | process key progress => exact prefix_refl _
  | midjourney b => dsimp only [TaskSystem.step]; split <;> exact prefix_refl _

/-- The run lemma. -/
theorem TaskInv.run (h : TaskInv id q s) (lib : TaskLib) {es : List TaskEvent}
    (hes : Along (TaskSystem.step lib)
      (fun s e => WorksOnOpenCopy s e ∧ FinishesThroughFinalize s e) s es) :
    TaskInv id q (run (TaskSystem.step lib) s es) ∧
      s.wins <+: (Prox.run (TaskSystem.step lib) s es).wins :=
  run_keeps_along (I := fun s' => TaskInv id q s' ∧ s.wins <+: s'.wins)
    (fun s' e hs he => ⟨hs.1.step lib he.1 he.2, hs.2.trans (wins_prefix_step lib s' e)⟩)
    ⟨h, prefix_refl _⟩ hes

end Steps

/-! ## One terminal status, one settlement -/

/-- A task right after its submission: persisted and unfinished, nothing requested for it, and read
by nobody yet. -/
structure TaskSystem.JustSubmitted (s : TaskSystem) (task : Task) : Prop where
  stored : s.db.tasks.byId task.id = some task
  unfinished : task.status.isTerminal = false
  no_operation : s.db.operationsOf task.id = []
  no_win : s.winsOf task.id = []
  unread : ∀ i copy, (s.workers i).copy = some copy → copy.id ≠ task.id

theorem TaskSystem.JustSubmitted.inv {s : TaskSystem} (h : s.JustSubmitted task) :
    TaskInv task.id task.quota s where
  copies i copy hcopy hid := absurd hid (h.unread i copy hcopy)
  row := ⟨task, h.stored, .inl ⟨h.unfinished, rfl, h.no_operation, h.no_win⟩⟩

/-- **A task is finished and settled once**: in every run whose handlers work on unfinished copies,
at most one terminal transition of the task is won and at most one operation is created for it, a
terminal status is never changed again, and the adjustment requested is `-quota` after a failure, the
difference to a positive final quota after a success, and nothing otherwise. -/
theorem task_settled_once (lib : TaskLib) {s : TaskSystem} {task : Task}
    (hsubmitted : s.JustSubmitted task) (es es' : List TaskEvent)
    (hrun : Along (TaskSystem.step lib)
      (fun s e => WorksOnOpenCopy s e ∧ FinishesThroughFinalize s e) s (es ++ es')) :
    let s₁ := run (TaskSystem.step lib) s es
    let s₂ := run (TaskSystem.step lib) s₁ es'
    (s₁.winsOf task.id).length ≤ 1 ∧ (s₁.db.operationsOf task.id).length ≤ 1 ∧
      ∃ row row', s₁.db.tasks.byId task.id = some row ∧ s₂.db.tasks.byId task.id = some row' ∧
        (row.status.isTerminal = true → row'.status = row.status) ∧
        (row.status.isTerminal = false →
          s₁.winsOf task.id = [] ∧ s₁.db.requestedFor task.id = 0) ∧
        (row.status = .failure → s₁.db.requestedFor task.id = -task.quota) ∧
        (row.status = .success → ∃ w, s₁.winsOf task.id = [w] ∧
          s₁.db.requestedFor task.id
            = if 0 < w.actualQuota then w.actualQuota - task.quota else 0) := by
  intro s₁ s₂
  obtain ⟨hes, hes'⟩ := along_append.mp hrun
  have hinv₁ : TaskInv task.id task.quota s₁ := (hsubmitted.inv.run lib hes).1
  obtain ⟨hinv₂, hstart⟩ : TaskInv task.id task.quota s₂ ∧ s₁.wins <+: s₂.wins :=
    hinv₁.run lib hes'
  obtain ⟨row, hrow, hcase⟩ := hinv₁.row
  obtain ⟨row', hrow', hcase'⟩ := hinv₂.row
  have hwins : s₁.winsOf task.id <+: s₂.winsOf task.id := hstart.filter _
  rcases hcase with ⟨hopen, -, hops, hw⟩ | ⟨w, hw, hstatus, hterminal, hlen, hsum⟩
  · have hw : s₁.winsOf task.id = [] := hw
    have hsum : s₁.db.requestedFor task.id = 0 := by rw [TaskStore.requestedFor, hops]; rfl
    refine ⟨by simp [hw], by simp [hops], row, row', hrow, hrow', ?_, fun _ => ⟨hw, hsum⟩, ?_, ?_⟩
    · intro hterminal; rw [hopen] at hterminal; cases hterminal
    · intro hs; rw [hs] at hopen; cases hopen
    · intro hs; rw [hs] at hopen; cases hopen
  · have hw : s₁.winsOf task.id = [w] := hw
    refine ⟨by simp [hw], hlen, row, row', hrow, hrow', fun _ => ?_, ?_, ?_, ?_⟩
    · -- The one transition known before is the first one later, and there is no second.
      rcases hcase' with ⟨-, -, -, hw'⟩ | ⟨w', hw', hstatus', -⟩
      · have hw' : s₂.winsOf task.id = [] := hw'
        rw [hw, hw'] at hwins
        exact absurd (prefix_nil.mp hwins) (cons_ne_nil _ _)
      · have hw' : s₂.winsOf task.id = [w'] := hw'
        rw [hw, hw'] at hwins
        obtain rfl : w = w' := (cons_prefix_cons.mp hwins).1
        rw [← hstatus', hstatus]
    · intro hopen; rw [hopen] at hterminal; cases hterminal
    · intro hs
      rw [hsum, TaskWin.due, hstatus, hs, if_pos rfl]
    · intro hs
      refine ⟨w, hw, ?_⟩
      rw [hsum, TaskWin.due, hstatus, hs, if_neg nofun]

/-! ## Sample runs -/

/-- A library for sample runs; the keys below are short, so nothing is hashed. -/
def TaskLib.sample : TaskLib where
  sha256Hex := id
  mapToJsonStr _ := "\x7b\"actual_quota\":0,\"pre_consumed_quota\":100,\"reason\":\"任务超时（1440分钟）\",\"task_id\":\"task_1\"\x7d"
  marshal := String.toList
  serverAddress := "http://localhost:3000"

/-- A video task in progress. -/
def Task.sample : Task :=
  { id := 1, taskID := "task_1", userId := 1, quota := 100, status := .inProgress,
    submitTime := 1750000000, startTime := 1750000010, progress := "50%" }

/-- A system with one submitted task and idle workers. -/
def TaskSystem.sample : TaskSystem where
  db := ⟨⟨[.sample], by decide, by decide, by decide⟩, .empty⟩
  workers _ := .idle
  wins := []

theorem TaskSystem.sample_submitted : sample.JustSubmitted .sample where
  stored := by decide
  unfinished := rfl
  no_operation := rfl
  no_win := rfl
  unread i copy hcopy := by cases hcopy

/-- The sweeper times the sample task out. -/
def sampleTimeout : List TaskEvent :=
  [.loadTimedOut 0 1 1760000000, .sweep 0 ⟨1760000000, none⟩ 1440]

/-- A poller that has read the task before the sweep. -/
def sampleSweep : List TaskEvent := .loadUnfinished 1 1 :: sampleTimeout

/-- The poller reports a success with a final quota of 130, too late. -/
def samplePoll : List TaskEvent :=
  [.video 1 ⟨1760000005, none⟩ { info := { status := "SUCCESS" }, adjusted := 130 }]

/-- The stale poller loses: the task stays failed, and its quota is requested back once. -/
theorem task_settled_once_stale_poll :
    let s := run (TaskSystem.step .sample) .sample sampleSweep
    (s.winsOf 1).length ≤ 1 ∧ (s.db.operationsOf 1).length ≤ 1 ∧ s.db.requestedFor 1 = -100 ∧
      ((run (TaskSystem.step .sample) s samplePoll).db.tasks.byId 1).map (·.status)
        = some .failure := by
  have hrun : Along (TaskSystem.step .sample)
      (fun s e => WorksOnOpenCopy s e ∧ FinishesThroughFinalize s e) .sample
      (sampleSweep ++ samplePoll) := by decide
  obtain ⟨hwins, hops, row, row', hrow, hrow', hkept, -, hfailed, -⟩ :=
    task_settled_once .sample TaskSystem.sample_submitted sampleSweep samplePoll hrun
  have hstatus : row.status = .failure := by
    have hmap : ((run (TaskSystem.step .sample) .sample sampleSweep).db.tasks.byId 1).map
        (·.status) = some .failure := by decide +kernel
    have hrow : (run (TaskSystem.step .sample) .sample sampleSweep).db.tasks.byId 1 = some row :=
      hrow
    rw [hrow] at hmap
    exact Option.some.inj hmap
  refine ⟨hwins, hops, hfailed hstatus, ?_⟩
  have hrow' : (run (TaskSystem.step .sample) (run (TaskSystem.step .sample) .sample sampleSweep)
      samplePoll).db.tasks.byId 1 = some row' := hrow'
  rw [hrow', map_some, hkept (by rw [hstatus]; rfl), hstatus]

/-- A status request about the sample task, for which upstream reports a success. -/
def sampleRefresh : List TaskEvent :=
  [.request 1 1 "task_1",
    .refresh 1 ⟨1760000100, none⟩ { info := { status := "SUCCESS", progress := "100%" } }]

/-- **A refresh finishes a task a second time.** After the timeout has failed the task and requested
its quota back, a status request takes it to success: two terminal transitions are won, and the quota
of a successful task stays refunded. -/
theorem terminal_task_finished_again :
    TaskSystem.sample.JustSubmitted .sample ∧
      let s₁ := run (TaskSystem.step .sample) .sample sampleTimeout
      let s₂ := run (TaskSystem.step .sample) s₁ sampleRefresh
      (s₁.db.tasks.byId 1).map (·.status) = some .failure ∧
        (s₂.db.tasks.byId 1).map (·.status) = some .success ∧
        s₂.winsOf 1 = [⟨1, .failure, 0⟩, ⟨1, .success, 0⟩] ∧ s₂.db.requestedFor 1 = -100 := by
  refine ⟨TaskSystem.sample_submitted, ?_⟩
  decide +kernel

end Prox
