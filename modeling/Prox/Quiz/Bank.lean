import Prox.Agent.Actions
import Prox.Lib.Threads
import Prox.Lib.Time
import Prox.Reward.Grant

/-! # The quiz bank

The embedding of `quizQuestionDraw` and `quizAnswerSubmit` of `service/quiz_bank.go` with the functions
they call. A draw opens a round with one question for a scope, which is a group or one user of it, and a
round takes answers until it is closed or its time is over. A caller is known by a user id, by an external
id, or by both, and has an entry in every round that he drew or answered.

The site is fixed, so the column `site_id` is left out, and so are the columns that none of the functions
reads. The rules of a group and the questions of its bank are the policy of a run. -/

namespace Prox

/-! ## Rows -/

/-- Whose round it is: one user's or the whole group's. -/
inductive QuizScopeMode where
  | perUser
  | perGroup
  deriving DecidableEq

/-- A question of a bank. -/
structure QuizQuestion where
  id : Int
  bankId : Int
  externalKey : String := ""
  prompt : String := ""
  /-- `options_json`, unless it is not a list of texts. -/
  options : Option (List String)
  correctIndex : Int
  explanation : String := ""
  difficulty : String := ""
  language : String := ""
  published : Bool
  weight : Int

/-- The rules that a draw stores in `rules_json`. -/
structure QuizDrawRules where
  maxAttempts : Int
  rewardQuota : Int
  budgetPool : String
  closeOnCorrect : Bool
  maxWinners : Int

/-- The status of a draw; the other three are closed. -/
inductive QuizDrawStatus where
  | «open»
  | answered
  | locked
  | expired
  deriving DecidableEq

/-- A row of `quiz_question_draws`. -/
structure QuizQuestionDraw where
  id : Int
  bankId : Int
  questionId : Int
  roundId : Int
  drawKey : String
  platform : String
  groupId : String
  scopeMode : QuizScopeMode
  scopeKey : String
  businessDate : Civil
  optionOrder : List Nat
  rules : QuizDrawRules
  status : QuizDrawStatus
  expiresAt : Int
  answeredAt : Int := 0

instance : Row QuizQuestionDraw String := ⟨QuizQuestionDraw.id, QuizQuestionDraw.drawKey⟩

/-- A row of `game_rounds`. -/
structure GameRound where
  id : Int
  roundKey : String
  isOpen : Bool
  openedAt : Int
  closedAt : Int := 0

instance : Row GameRound String := ⟨GameRound.id, GameRound.roundKey⟩

/-- The status of an entry. -/
inductive GameEntryStatus where
  | active
  | answered
  | locked
  deriving DecidableEq

/-- A row of `game_entries`; of the payload only the number of attempts is read. -/
structure GameEntry where
  id : Int
  roundId : Int
  userId : Int
  externalUserId : String
  attempts : Int
  status : GameEntryStatus
  createdAt : Int
  updatedAt : Int

instance : Row GameEntry Int := ⟨GameEntry.id, GameEntry.id⟩

/-- The tables of the quiz and the money that its rewards are paid from. -/
structure QuizDB where
  draws : Table QuizQuestionDraw
  rounds : Table GameRound
  entries : Table GameEntry
  money : RewardDB

/-! ## Policy -/

/-- `quizBoundedInt` of the first integer found under its keys. -/
def quizBoundedInt (value : Option Int) (fallback minimum maximum : Int) : Int :=
  let value := value.getD fallback
  let value := if value < minimum then minimum else value
  if maximum < value then maximum else value

/-- What `quizMapInt` reads of an integer that was stored as JSON. It is read as a float, whose text has an
exponent from a million on, and then the fallback counts. -/
def quizMapInt (fallback stored : Int) : Int :=
  quizBoundedInt (if -1000000 < stored ∧ stored < 1000000 then some stored else none) fallback
    (-1000000000) 1000000000

/-- The rules of a group as its configuration, its binding and the defaults leave them. -/
structure QuizRuleValues where
  questionScope : String := ""
  scopeMode : String := ""
  questionTTLSeconds : Option Int := none
  maxAttemptsPerQuestion : Option Int := none
  rewardQuota : Option Int := none
  quizLimitPerGroup : Option Int := none
  maxPerUserDay : Option Int := none
  budgetPool : String := "activity"
  closeOnCorrect : Bool := false
  maxWinnersPerQuestion : Option Int := none

/-- The policy of a group with its bank. -/
structure QuizRuntimePolicy where
  bankId : Int
  scopeMode : QuizScopeMode
  ttlSeconds : Int
  maxAttempts : Int
  rewardQuota : Int
  groupLimit : Int
  userLimit : Int
  budgetPool : String
  closeOnCorrect : Bool
  maxWinners : Int

/-- The end of `resolveQuizRuntimePolicyTx`: the policy of the rules. -/
def QuizRuleValues.policy (bankId : Int) (rules : QuizRuleValues) : QuizRuntimePolicy :=
  let scopeMode := toLowerAscii (firstAgentNonEmpty [rules.questionScope, rules.scopeMode, "per_user"])
  let scopeMode : QuizScopeMode :=
    if scopeMode ∈ ["group", "shared", "room", "per_group"] then .perGroup else .perUser
  { bankId, scopeMode
    ttlSeconds := quizBoundedInt rules.questionTTLSeconds 600 60 86400
    maxAttempts := quizBoundedInt rules.maxAttemptsPerQuestion 2 1 20
    rewardQuota := quizBoundedInt rules.rewardQuota 100000 0 1000000000
    groupLimit := quizBoundedInt rules.quizLimitPerGroup 0 0 100000
    userLimit := quizBoundedInt rules.maxPerUserDay 10 0 100000
    budgetPool := rules.budgetPool
    closeOnCorrect := rules.closeOnCorrect || scopeMode ≠ .perGroup
    maxWinners := quizBoundedInt rules.maxWinnersPerQuestion 0 0 100000 }

/-- The rules that a draw under a policy stores. -/
def QuizRuntimePolicy.drawRules (p : QuizRuntimePolicy) : QuizDrawRules where
  maxAttempts := p.maxAttempts
  rewardQuota := p.rewardQuota
  budgetPool := p.budgetPool
  closeOnCorrect := p.closeOnCorrect
  maxWinners := p.maxWinners

/-- The site, the bank and the rules of each group, the questions, and the library functions that the quiz
needs. -/
structure QuizEnv where
  siteID : String
  /-- The bank and the rules of a platform and group, or why there are none. -/
  policy : String → String → Except Err (Int × QuizRuleValues)
  /-- All questions, in the order of their ids. -/
  questions : List QuizQuestion
  sha256 : String → List UInt8
  equalFold : String → String → Bool
  /-- The metadata text of a reward. -/
  rewardMetadata : QuizQuestionDraw → String

/-! ## Callers -/

/-- Who draws or answers. -/
structure QuizCaller where
  userID : Int
  externalUserID : String

/-- The caller of a payload: the user id it carries, and its external id or else the target of the
action. -/
def quizCaller (userID : Int) (targetExternalID targetId : String) : QuizCaller where
  userID := userID
  externalUserID := firstAgentNonEmpty [targetExternalID, targetId]

/-- `agentQuizPlatform` of the text in the payload. -/
def agentQuizPlatform (platform : String) : String :=
  let platform := firstAgentNonEmpty [platform, "unknown"]
  if toLowerAscii platform = "telegram" then "tg" else platform

/-- `agentQuizGroupID` of the text in the payload. -/
def agentQuizGroupID (groupID : String) : String := firstAgentNonEmpty [groupID, "dm"]

/-- The texts with a separator in between. -/
def joinTexts (sep : String) : List String → String
  | [] => ""
  | [t] => t
  | t :: ts => t ++ sep ++ joinTexts sep ts

/-- The scope that a draw belongs to. -/
def quizScopeKey (platform groupID : String) (scopeMode : QuizScopeMode) (c : QuizCaller) : String :=
  let identity := if 0 < c.userID then toString c.userID else c.externalUserID
  let identity := if identity = "" then "anonymous" else identity
  match scopeMode with
  | .perGroup => joinTexts ":" [platform, groupID, "group"]
  | .perUser => joinTexts ":" [platform, groupID, "user", identity]

/-! ## Questions -/

/-- The two digits of a byte. -/
def hexByte (b : UInt8) : List Char := [Nat.digitChar (b.toNat / 16), Nat.digitChar (b.toNat % 16)]

/-- The digest of the values with a null character in between, in hexadecimal. -/
def quizStableKey (env : QuizEnv) (values : List String) : String :=
  String.ofList ((env.sha256 (joinTexts "\x00" values)).flatMap hexByte)

/-- The first eight bytes of the digest as a number. -/
def quizSeedUint64 (env : QuizEnv) (value : String) : Nat :=
  ((env.sha256 value).take 8).foldl (fun n b => n * 256 + b.toNat) 0

/-- Between two and ten options, none of them blank. -/
def quizDecodeOptions (raw : Option (List String)) : Except Err (List String) := do
  match raw with
  | none => throw (.text "quiz options are invalid")
  | some options =>
    failIf (options.length < 2 ∨ 10 < options.length) (.text "quiz question must have 2 to 10 options")
    let options := options.map trimSpace
    failIf ("" ∈ options) (.text "quiz option is empty")
    return options

/-- The exchange of the positions `index` and below with positions that the seed picks. -/
def quizShuffle (env : QuizEnv) (seed : String) : Nat → List Nat → List Nat
  | 0, order => order
  | index + 1, order =>
    let other := quizSeedUint64 env (seed ++ ":" ++ toString (index + 1)) % (index + 2)
    let order := (order.set (index + 1) (order.getD other 0)).set other (order.getD (index + 1) 0)
    quizShuffle env seed index order

/-- The order in which the options are shown. -/
def quizDeterministicOrder (env : QuizEnv) (size : Nat) (seed : String) : List Nat :=
  quizShuffle env seed (size - 1) (List.range size)

/-- The sum of the weights, unless it leaves the 64 bits. -/
def quizTotalWeight : List QuizQuestion → Nat → Except Err Nat
  | [], total => .ok total
  | q :: qs, total => do
    failIf (q.weight ≤ 0) (.text ("quiz question " ++ toString q.id ++ " has invalid weight"))
    failIf (2 ^ 64 - 1 - total < q.weight.toNat) (.text "quiz question weights overflow")
    quizTotalWeight qs (total + q.weight.toNat)

/-- The question that a ticket draws. -/
def quizTicketQuestion : List QuizQuestion → Nat → Except Err QuizQuestion
  | [], _ => .error (.text "quiz weighted selection failed")
  | q :: qs, ticket =>
    if ticket < q.weight.toNat then .ok q else quizTicketQuestion qs (ticket - q.weight.toNat)

/-- A weighted choice among the questions that the scope did not have on the date, or among all of them. -/
def quizSelectQuestionTx (env : QuizEnv) (draws : Table QuizQuestionDraw) (bankID : Int)
    (scopeKey : String) (businessDate : Civil) (seed : String) : Except Err QuizQuestion := do
  let questions := env.questions.filter fun q => q.bankId = bankID ∧ q.published ∧ 0 < q.weight
  failIf (questions = []) (.text "quiz bank has no published questions")
  let used := (draws.rows.filter fun d =>
    d.bankId = bankID ∧ d.scopeKey = scopeKey ∧ d.businessDate = businessDate).map
      QuizQuestionDraw.questionId
  let candidates := questions.filter fun q => q.id ∉ used
  let candidates := if candidates = [] then questions else candidates
  let totalWeight ← quizTotalWeight candidates 0
  failIf (totalWeight = 0) (.text "quiz bank has no weighted questions")
  quizTicketQuestion candidates
    (quizSeedUint64 env (seed ++ ":" ++ scopeKey ++ ":" ++ toString used.length) % totalWeight)

/-! ## Draws and entries -/

/-- Whether a draw takes answers at a time, in seconds. -/
def QuizQuestionDraw.activeAt (now : Int) (d : QuizQuestionDraw) : Bool :=
  d.status = .open ∧ now < d.expiresAt

/-- The newest draw of a scope that takes answers. -/
def quizFindActiveDrawTx (draws : Table QuizQuestionDraw) (scopeKey : String) (now : Int) :
    Option QuizQuestionDraw :=
  draws.rows.reverse.find? fun d => d.scopeKey = scopeKey ∧ d.activeAt now

/-- The condition that finds the entries of a caller. -/
def QuizCaller.owns (c : QuizCaller) (e : GameEntry) : Bool :=
  if 0 < c.userID ∧ c.externalUserID ≠ "" then
    e.userId = c.userID ∨ e.externalUserId = c.externalUserID
  else if 0 < c.userID then e.userId = c.userID
  else e.externalUserId = c.externalUserID

/-- The newest entry of a caller in a round. -/
def quizFindEntryForUpdateTx (entries : Table GameEntry) (roundID : Int) (c : QuizCaller) :
    Option GameEntry :=
  entries.rows.reverse.find? fun e => e.roundId = roundID ∧ c.owns e

/-- The entry that a caller gets in a round where he has none. -/
def QuizCaller.entry (c : QuizCaller) (id roundID now : Int) : GameEntry where
  id := id
  roundId := roundID
  userId := c.userID
  externalUserId := c.externalUserID
  attempts := 0
  status := .active
  createdAt := now
  updatedAt := now

/-- The newest entry of a caller in a round, or a new one. -/
def quizLoadEntryForUpdateTx (roundID : Int) (c : QuizCaller) (now : Int) (db : QuizDB) :
    Except Err (GameEntry × QuizDB) :=
  match quizFindEntryForUpdateTx db.entries roundID c with
  | some entry => .ok (entry, db)
  | none =>
    let entry := c.entry db.entries.nextId roundID now
    match db.entries.create entry with
    | none => .error (.sentinel .duplicatedKey)
    | some entries => .ok (entry, { db with entries })

/-- The number of rounds of a group on a date in which a caller has an entry. -/
def quizTodayUserRoundsTx (db : QuizDB) (platform groupID : String) (c : QuizCaller)
    (businessDate : Civil) : Nat :=
  (db.draws.rows.filter fun d =>
    d.platform = platform ∧ d.groupId = groupID ∧ d.businessDate = businessDate ∧
      db.entries.rows.any fun e => e.roundId = d.roundId ∧ c.owns e).length

/-- The number of draws of a group on a date. -/
def quizTodayGroupDraws (db : QuizDB) (platform groupID : String) (businessDate : Civil) : Nat :=
  (db.draws.rows.filter fun d =>
    d.platform = platform ∧ d.groupId = groupID ∧ d.businessDate = businessDate).length

/-- The columns that the closing of a draw assigns. -/
def QuizQuestionDraw.close (status : QuizDrawStatus) (now : Int) : Patch QuizQuestionDraw :=
  ⟨fun d => { d with status, answeredAt := now }, fun _ => rfl, fun _ => rfl⟩

/-- The columns that the closing of a round assigns. -/
def GameRound.close (now : Int) : Patch GameRound :=
  ⟨fun r => { r with isOpen := false, closedAt := now }, fun _ => rfl, fun _ => rfl⟩

/-- The columns that an answer assigns to its entry. -/
def GameEntry.grade (status : GameEntryStatus) (attempts now : Int) : Patch GameEntry :=
  ⟨fun e => { e with status, attempts, updatedAt := now }, fun _ => rfl, fun _ => rfl⟩

/-- Closes an open draw and its round. -/
def quizCloseDrawTx (draw : QuizQuestionDraw) (status : QuizDrawStatus) (now : Int) (db : QuizDB) : QuizDB :=
  { db with
    draws := (db.draws.updateWhere (fun d => d.id = draw.id ∧ d.status = .open)
      (QuizQuestionDraw.close status now)).1
    rounds := (db.rounds.updateWhere (fun r => r.id = draw.roundId) (GameRound.close now)).1 }

/-- The key of a round, or nothing. -/
def quizRoundKeyTx (db : QuizDB) (roundID : Int) : String :=
  ((db.rounds.byId roundID).map GameRound.roundKey).getD ""

/-! ## Drawing -/

/-- What a caller sees of a draw. -/
structure QuizDrawResponse where
  drawId : Int
  roundKey : String
  scopeMode : QuizScopeMode
  expiresAt : Int
  questionId : Int
  externalKey : String
  prompt : String
  options : List String
  difficulty : String
  language : String
  entryId : Int
  entryStatus : GameEntryStatus
  attempts : Int

/-- The options in the order in which they are shown. -/
def quizShownOptions (options : List String) (order : List Nat) : Except Err (List String) :=
  if order.all (· < options.length) then .ok (order.map fun i => options.getD i "")
  else .error (.text "quiz option order is out of range")

/-- The response to a draw; the caller gets an entry unless he has one. -/
def quizDrawResponseTx (env : QuizEnv) (draw : QuizQuestionDraw) (c : QuizCaller) (now : Int) (db : QuizDB) :
    Except Err (QuizDrawResponse × QuizDB) := do
  match env.questions.find? fun q => q.id = draw.questionId with
  | none => throw (.sentinel .recordNotFound)
  | some question => do
    let options ← quizDecodeOptions question.options
    failIf (draw.optionOrder.length ≠ options.length) (.text "quiz option order is invalid")
    let shown ← quizShownOptions options draw.optionOrder
    let (entry, db) ← quizLoadEntryForUpdateTx draw.roundId c now db
    return ({ drawId := draw.id, roundKey := quizRoundKeyTx db draw.roundId, scopeMode := draw.scopeMode,
              expiresAt := draw.expiresAt, questionId := question.id, externalKey := question.externalKey,
              prompt := question.prompt, options := shown, difficulty := question.difficulty,
              language := question.language, entryId := entry.id, entryStatus := entry.status,
              attempts := quizMapInt 0 entry.attempts }, db)

/-- What `quizQuestionDraw` reads of its payload and of its action. -/
structure QuizDrawCall where
  platform : String
  groupID : String
  userID : Int
  targetExternalID : String
  targetId : String
  drawKey : String
  idempotencyKey : String

/-- A draw call that has read the clock, in nanoseconds, and its policy. -/
structure QuizDraw where
  platform : String
  groupID : String
  caller : QuizCaller
  drawKey : String
  now : Int
  policy : QuizRuntimePolicy

/-- The scope of a draw call. -/
def QuizDraw.scopeKey (c : QuizDraw) : String :=
  quizScopeKey c.platform c.groupID c.policy.scopeMode c.caller

/-- The date of a draw call on the business calendar, eight hours ahead of UTC. -/
def QuizDraw.businessDate (c : QuizDraw) : Civil :=
  (Location.fixed (8 * 60 * 60)).civil (unixSeconds c.now)

/-- `quizQuestionDraw` up to its transaction. -/
def quizQuestionDraw (env : QuizEnv) (c : QuizDrawCall) (now : Int) : Except Err QuizDraw := do
  let platform := agentQuizPlatform c.platform
  let groupID := agentQuizGroupID c.groupID
  let (bankId, rules) ← env.policy platform groupID
  let policy := rules.policy bankId
  let caller := quizCaller c.userID c.targetExternalID c.targetId
  let scopeKey := quizScopeKey platform groupID policy.scopeMode caller
  let drawKey := firstAgentNonEmpty [c.drawKey, c.idempotencyKey]
  let drawKey := if drawKey = "" then quizStableKey env [env.siteID, scopeKey, toString now] else drawKey
  return { platform, groupID, caller, drawKey, now, policy }

/-- A caller joins a draw that is there. -/
def QuizDraw.joinTx (env : QuizEnv) (c : QuizDraw) (existing : QuizQuestionDraw) (clock : Int) (db : QuizDB) :
    Except Err (QuizDrawResponse × QuizDB) := do
  let (_, db) ← quizLoadEntryForUpdateTx existing.roundId c.caller (unixSeconds c.now) db
  quizDrawResponseTx env existing c.caller (unixSeconds clock) db

/-- The transaction up to the lock on the bank: a draw that is there is joined. -/
def QuizDraw.firstLookTx (env : QuizEnv) (c : QuizDraw) (clock : Int) (db : QuizDB) :
    Except Err (Option QuizDrawResponse × QuizDB) :=
  match quizFindActiveDrawTx db.draws c.scopeKey (unixSeconds c.now) with
  | some existing => do
    let (response, db) ← c.joinTx env existing clock db
    return (some response, db)
  | none => .ok (none, db)

/-- The new round of a draw. -/
def QuizDraw.round (env : QuizEnv) (c : QuizDraw) (id : Int) : GameRound where
  id := id
  roundKey := "quiz:" ++ bytePrefix 32 (quizStableKey env [env.siteID, c.scopeKey, c.drawKey])
  isOpen := true
  openedAt := unixSeconds c.now

/-- The row of a new draw. -/
def QuizDraw.row (c : QuizDraw) (id questionId roundId : Int) (optionOrder : List Nat) :
    QuizQuestionDraw where
  id := id
  bankId := c.policy.bankId
  questionId := questionId
  roundId := roundId
  drawKey := c.drawKey
  platform := c.platform
  groupId := c.groupID
  scopeMode := c.policy.scopeMode
  scopeKey := c.scopeKey
  businessDate := c.businessDate
  optionOrder := optionOrder
  rules := c.policy.drawRules
  status := .open
  expiresAt := unixSeconds c.now + c.policy.ttlSeconds

/-- Opens a round with a question, within the limits. -/
def QuizDraw.openTx (env : QuizEnv) (c : QuizDraw) (clock : Int) (db : QuizDB) :
    Except Err (QuizDrawResponse × QuizDB) := do
  let p := c.policy
  failIf (0 < p.userLimit ∧
      p.userLimit ≤ quizTodayUserRoundsTx db c.platform c.groupID c.caller c.businessDate)
    (.text ("quiz user daily limit reached: " ++ toString p.userLimit))
  failIf (0 < p.groupLimit ∧ p.groupLimit ≤ quizTodayGroupDraws db c.platform c.groupID c.businessDate)
    (.text ("quiz group daily limit reached: " ++ toString p.groupLimit))
  let question ← quizSelectQuestionTx env db.draws p.bankId c.scopeKey c.businessDate c.drawKey
  let options ← quizDecodeOptions question.options
  let optionOrder :=
    quizDeterministicOrder env options.length (c.drawKey ++ ":" ++ toString question.id)
  let round := c.round env db.rounds.nextId
  match db.rounds.create round with
  | none => throw (.sentinel .duplicatedKey)
  | some rounds => do
    let draw := c.row db.draws.nextId question.id round.id optionOrder
    match db.draws.create draw with
    | none => throw (.sentinel .duplicatedKey)
    | some draws => c.joinTx env draw clock { db with rounds, draws }

/-- The transaction behind the lock on the bank, which one call at a time holds: a draw that came in
between is joined, otherwise a new one is opened. -/
def QuizDraw.lockedTx (env : QuizEnv) (c : QuizDraw) (clock : Int) (db : QuizDB) :
    Except Err (QuizDrawResponse × QuizDB) :=
  match quizFindActiveDrawTx db.draws c.scopeKey (unixSeconds c.now) with
  | some existing => c.joinTx env existing clock db
  | none => c.openTx env clock db

/-! ## Answering -/

/-- What `quizAnswerSubmit` reads of its payload and of its action. -/
structure QuizAnswerCall where
  drawID : Int
  roundKey : String
  userID : Int
  targetExternalID : String
  targetId : String
  actionID : Int
  /-- The texts found under `answer_index` and `option_index`. -/
  answerIndexes : List String
  answerText : String

/-- Who answers. -/
def QuizAnswerCall.caller (c : QuizAnswerCall) : QuizCaller :=
  quizCaller c.userID c.targetExternalID c.targetId

/-- What an answer finds outside the quiz tables: the money's environment, and why the caller may not receive
the reward, if he may not. -/
structure QuizAnswerEnv where
  reward : RewardEnv
  blocked : Option String

/-- What an answer gets back. -/
inductive QuizAnswerResult where
  | alreadyAnswered (drawId : Int) (roundKey : String)
  | lockedBefore (drawId : Int) (roundKey : String) (closed : Bool)
  | requiresBinding (drawId : Int) (roundKey : String)
  | graded (drawId : Int) (roundKey : String) (correct : Bool) (attempts remaining : Int)
      (locked closed : Bool) (rewardQuota : Int)

/-- The shown option that an answer names, by its number or by its text. -/
def quizAnswerShownIndex (env : QuizEnv) (c : QuizAnswerCall) (options : List String) (order : List Nat) :
    Except Err Nat :=
  let named := (c.answerIndexes.map (atoi ∘ trimSpace)).find? fun i =>
    match i with
    | some i => 0 ≤ i ∧ i < order.length
    | none => false
  match named with
  | some (some i) => .ok i.toNat
  | _ =>
    match order.findIdx? fun original => env.equalFold (trimSpace c.answerText) (options.getD original "") with
    | some shownIndex => .ok shownIndex
    | none => .error (.text "quiz answer is invalid")

/-- The draw that an answer names. -/
def QuizAnswerCall.findDraw (c : QuizAnswerCall) (db : QuizDB) : Except Err QuizQuestionDraw :=
  let roundKey := trimSpace c.roundKey
  let found (draw : Option QuizQuestionDraw) : Except Err QuizQuestionDraw :=
    match draw with
    | none => .error (.sentinel .recordNotFound)
    | some draw => .ok draw
  if 0 < c.drawID then found (db.draws.byId c.drawID)
  else if roundKey ≠ "" then
    found (db.draws.rows.find? fun d => (db.rounds.byId d.roundId).map GameRound.roundKey = some roundKey)
  else .error (.text "quiz draw_id or round_key is required")

/-- Whether an answer to a draw is right. -/
def QuizAnswerCall.isCorrect (env : QuizEnv) (c : QuizAnswerCall) (draw : QuizQuestionDraw) :
    Except Err Bool := do
  match env.questions.find? fun q => q.id = draw.questionId ∧ q.published with
  | none => throw (.sentinel .recordNotFound)
  | some question => do
    let options ← quizDecodeOptions question.options
    failIf (draw.optionOrder.length ≠ options.length) (.text "quiz option order is invalid")
    let shownIndex ← quizAnswerShownIndex env c options draw.optionOrder
    match draw.optionOrder.findIdx? fun original => (original : Int) = question.correctIndex with
    | none => throw (.text "quiz correct option is invalid")
    | some correctShownIndex => return shownIndex = correctShownIndex

/-- An answer to a draw that takes none. -/
def QuizAnswerCall.lateTx (c : QuizAnswerCall) (draw : QuizQuestionDraw) (db : QuizDB) :
    Except Err (QuizAnswerResult × QuizDB) :=
  match (quizFindEntryForUpdateTx db.entries draw.roundId c.caller).map GameEntry.status with
  | some .answered => .ok (.alreadyAnswered draw.id (quizRoundKeyTx db draw.roundId), db)
  | some .locked => .ok (.lockedBefore draw.id (quizRoundKeyTx db draw.roundId) true, db)
  -- the closing of an expired draw is rolled back with this error
  | _ => .error (.text "quiz round is closed or expired")

/-- The idempotency key of a reward. -/
def quizRewardKey (drawId userID : Int) : String :=
  "quiz-reward:" ++ toString drawId ++ ":" ++ toString userID

/-- Pays the reward of a right answer. -/
def QuizAnswerCall.rewardTx (env : QuizEnv) (ext : QuizAnswerEnv) (c : QuizAnswerCall)
    (draw : QuizQuestionDraw) (db : QuizDB) : Except Err (Int × QuizDB) := do
  let rewardQuota := quizMapInt 0 draw.rules.rewardQuota
  if rewardQuota ≤ 0 then return (rewardQuota, db) else
  let pool := firstAgentNonEmpty [draw.rules.budgetPool, "activity"]
  let (_, money) ← applyQuotaMutationTx ext.reward env.siteID c.userID rewardQuota pool "quiz_reward"
    (quizRewardKey draw.id c.userID) "quiz_correct" c.actionID (toString draw.roundId) 0
    (env.rewardMetadata draw) db.money
  return (rewardQuota, { db with money })

/-- Whether a right answer closes the draw; the winner himself is not counted yet. -/
def QuizQuestionDraw.closesOnCorrect (draw : QuizQuestionDraw) (entries : Table GameEntry) : Bool :=
  let closeOnCorrect := draw.rules.closeOnCorrect || draw.scopeMode ≠ .perGroup
  let maxWinners := quizMapInt 0 draw.rules.maxWinners
  let winners := (entries.rows.filter fun e => e.roundId = draw.roundId ∧ e.status = .answered).length
  if 0 < maxWinners then closeOnCorrect || decide (maxWinners ≤ winners + 1) else closeOnCorrect

/-- The status of an entry after an answer. -/
def QuizQuestionDraw.entryStatus (draw : QuizQuestionDraw) (correct : Bool) (attempts : Int) :
    GameEntryStatus :=
  if correct then .answered
  else if quizMapInt 2 draw.rules.maxAttempts - attempts ≤ 0 then .locked
  else .active

/-- Whether an answer closes the draw. -/
def QuizQuestionDraw.closes (draw : QuizQuestionDraw) (correct : Bool) (attempts : Int)
    (entries : Table GameEntry) : Bool :=
  if correct then draw.closesOnCorrect entries
  else draw.entryStatus correct attempts = .locked ∧ draw.scopeMode ≠ .perGroup

/-- Writes the result of an answer to an active entry. -/
def QuizAnswerCall.gradeTx (env : QuizEnv) (ext : QuizAnswerEnv) (c : QuizAnswerCall)
    (draw : QuizQuestionDraw) (correct : Bool) (entry : GameEntry) (now : Int) (db : QuizDB) :
    Except Err (QuizAnswerResult × QuizDB) := do
  let attempts := quizMapInt 0 entry.attempts + 1
  let status := draw.entryStatus correct attempts
  let closed := draw.closes correct attempts db.entries
  failIf (correct ∧ ext.blocked ≠ none) (.text ("quiz reward blocked: " ++ ext.blocked.getD ""))
  let (rewardQuota, db) ← (if correct then c.rewardTx env ext draw db else pure (0, db))
  let db := { db with
    entries := (db.entries.updateWhere (fun e => e.id = entry.id) (GameEntry.grade status attempts now)).1 }
  let db := if closed then quizCloseDrawTx draw (if correct then .answered else .locked) now db else db
  let remaining := quizMapInt 2 draw.rules.maxAttempts - attempts
  return (.graded draw.id (quizRoundKeyTx db draw.roundId) correct attempts
    (if status = .locked then 0 else remaining) (status = .locked) closed rewardQuota, db)

/-- `quizAnswerSubmit`: one transaction under the lock on the draw, at a time in seconds. -/
def quizAnswerSubmit (env : QuizEnv) (ext : QuizAnswerEnv) (c : QuizAnswerCall) (now : Int) (db : QuizDB) :
    Except Err (QuizAnswerResult × QuizDB) := do
  let draw ← c.findDraw db
  if draw.activeAt now = false then c.lateTx draw db else
  let correct ← c.isCorrect env draw
  if correct ∧ c.userID ≤ 0 then return (.requiresBinding draw.id c.roundKey, db) else
  let (entry, db) ← quizLoadEntryForUpdateTx draw.roundId c.caller now db
  match entry.status with
  | .answered => return (.alreadyAnswered draw.id (quizRoundKeyTx db draw.roundId), db)
  | .locked => return (.lockedBefore draw.id (quizRoundKeyTx db draw.roundId) false, db)
  | .active => c.gradeTx env ext draw correct entry now db

end Prox
