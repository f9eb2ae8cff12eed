import Croniq.Placeholders
import Croniq.WorkDispatch

/-!
# Alerts about failing jobs

A run that failed for good lengthens the failure streak of its job and is
offered to the alert rules.
-/

namespace Croniq

open Config DecimalText Function

structure JobFailureStreak where
  jobKey : String
  consecutive : Nat
  since : Int
  lastExecutionId : ExecutionId
  lastError : String
  lastFailedAt : Int
deriving DecidableEq

structure JobAlertAck where
  (jobKey note ackedByName : String)
  (ackedAt expiresAt : Int)
  suppressedCount : Nat
  lastExecutionId : Option ExecutionId
  lastError : Option String
  lastSuppressedAt : Option Int
deriving DecidableEq

def JobAlertAck.isActive (ack : JobAlertAck) (now : Int) : Bool :=
  now < ack.expiresAt

structure AlertRuleOverride where
  enabled : Option Bool
  snoozeUntil : Option Int
  throttleSecs : Option Nat
  expiresAt : Option Int
deriving DecidableEq

namespace AlertRuleOverride

variable (override : AlertRuleOverride) (now : Int)

def isExpired : Bool :=
  override.expiresAt.any (· ≤ now)

def isSuppressing : Bool :=
  !override.isExpired now &&
    (override.enabled == some false || override.snoozeUntil.any (now < ·))

def effectiveThrottleSecs : Option Nat :=
  if override.isExpired now then none else override.throttleSecs

end AlertRuleOverride

inductive AlertDeliveryState where
  | delivered | failed | throttled | acknowledged
deriving DecidableEq

structure AlertDelivery where
  (ruleName channelName jobKey : String)
  executionId : ExecutionId
  state : AlertDeliveryState
  error : Option String
  firedAt : Int
  recovery : Bool
deriving DecidableEq

structure FailureContext where
  jobKey : String
  executionId : ExecutionId
  error : String
  attempt : Nat
  reason : String
  consecutive : Nat
deriving DecidableEq

def deadLetterReason : String := "dead_letter"

def droppedReason : String := "dropped"

def jobRecoveredReason : String := "job_recovered"

def ackExpiredReason : String := "ack_expired"

/-- The tables, the throttle windows in memory, and what the channels were handed. -/
structure AlertBook where
  streaks : String → Option JobFailureStreak
  acks : String → Option JobAlertAck
  overrides : String → Option AlertRuleOverride
  deliveries : List AlertDelivery
  throttle : String × String → Option Int
  sent : List AlertDelivery

def AlertBook.empty : AlertBook where
  streaks _ := none
  acks _ := none
  overrides _ := none
  deliveries := []
  throttle _ := none
  sent := []

/-- The accesses of the store, by the position of the rule and the channel. -/
inductive AlertCall where
  | recordJobFailure
  | readJobFailure
  | takeJobFailureStreak
  | takeJobAlertAck
  | getAlertRuleOverride (rule : Nat)
  | getJobAlertAck (rule : Nat)
  | recordJobAlertAckSuppression (rule : Nat)
  | recordAlertDelivery (rule channel : Nat)
deriving DecidableEq

/-- The configuration, the clock, the channels with the error a delivery ends in, how an instant
is written, and which accesses fail. -/
structure AlertSite where
  alerts : AlertsConfig
  now : Int
  send : ChannelConfig → String → FailureContext → Option String
  toRfc3339 : Int → String
  fails : AlertCall → Bool

/-- A star stands for any bytes, a question mark for one. -/
def globBytes : List UInt8 → List UInt8 → Bool
  | [], text => text.isEmpty
  | pattern :: patterns, text =>
    if pattern = 42 then text.tails.any (globBytes patterns)
    else
      match text with
      | [] => false
      | byte :: bytes => (pattern = 63 || pattern = byte) && globBytes patterns bytes

def utf8Bytes (text : String) : List UInt8 :=
  text.toList.flatMap String.utf8EncodeChar

def globMatch (pattern text : String) : Bool :=
  globBytes (utf8Bytes pattern) (utf8Bytes text)

example : globMatch "billing:*" "billing:sync" = true := by decide

example : globMatch "billing:?" "billing:sync" = false := by decide

variable (rule : RuleConfig)

def ruleMatchesFailure (ctx : FailureContext) : Bool :=
  rule.trigger = .jobFailed ∧ rule.minAttempts ≤ ctx.attempt ∧
    rule.minConsecutive ≤ ctx.consecutive ∧
    (rule.deadLetterOnly = true → ctx.reason = deadLetterReason) ∧
    globMatch rule.jobKeyGlob ctx.jobKey = true

def parseThrottleSecs (text : String) : Option Nat :=
  let text := (trim text).toList
  let scaled (digits : List Char) (factor : Nat) : Option Nat :=
    (parseUnsigned 64 digits).bind fun count =>
      if count * factor < 2 ^ 64 then some (count * factor) else none
  match text.getLast? with
  | none => none
  | some 's' => scaled text.dropLast 1
  | some 'm' => scaled text.dropLast 60
  | some 'h' => scaled text.dropLast 3600
  | some last => if last.isDigit then scaled text 1 else none

/-- The rule went out for this job less than a window ago. -/
def throttled (book : AlertBook) (rule : RuleConfig) (jobKey : String) (window : Option Nat)
    (now : Int) : Bool :=
  match window, book.throttle (rule.name, jobKey) with
  | some window, some last => max (numSeconds (now - last)) 0 < (window : Int)
  | _, _ => false

namespace AlertSite

variable (site : AlertSite)

def delivery (rule : RuleConfig) (ctx : FailureContext) (channelName : String)
    (state : AlertDeliveryState) (error : Option String) : AlertDelivery where
  ruleName := rule.name
  channelName := channelName
  jobKey := ctx.jobKey
  executionId := ctx.executionId
  state := state
  error := error
  firedAt := site.now
  recovery := ctx.reason = jobRecoveredReason

/-- Write the row of a delivery; a failure of the store is ignored. -/
def recordDelivery (rule channel : Nat) (book : AlertBook) (delivery : AlertDelivery) : AlertBook :=
  if site.fails (.recordAlertDelivery rule channel) then book
  else { book with deliveries := book.deliveries ++ [delivery] }

/-- Hand a message to a channel; an unknown one gets nothing. -/
def dispatch (rule : RuleConfig) (ctx : FailureContext) (book : AlertBook)
    (channelName : String) : AlertBook × AlertDelivery :=
  match site.alerts.channels channelName with
  | none => (book, site.delivery rule ctx channelName .failed (some "unknown channel"))
  | some channel =>
    match channel.kind with
    | .unknown reason => (book, site.delivery rule ctx channel.name .failed (some reason))
    | _ =>
      let error := site.send channel rule.name ctx
      let delivery :=
        site.delivery rule ctx channel.name (if error.isNone then .delivered else .failed) error
      ({ book with sent := book.sent ++ [delivery] }, delivery)

variable (position : Nat)

def deliverToChannels (rule : RuleConfig) (ctx : FailureContext) (book : AlertBook) :
    AlertBook × List AlertDelivery :=
  rule.channels.zipIdx.foldl
    (fun (book, recorded) (channelName, channel) =>
      let (handed, delivery) := site.dispatch rule ctx book channelName
      (site.recordDelivery position channel handed delivery, recorded ++ [delivery]))
    (book, [])

/-- The override of a rule; none if the store fails. -/
def overrideOf (rule : RuleConfig) (book : AlertBook) : Option AlertRuleOverride :=
  if site.fails (.getAlertRuleOverride position) then none else book.overrides rule.name

/-- The acknowledgement that holds a job's alerts back. -/
def activeAck (ctx : FailureContext) (book : AlertBook) : Option JobAlertAck :=
  if ctx.jobKey = "" ∨ site.fails (.getJobAlertAck position) then none
  else (book.acks ctx.jobKey).filter (·.isActive site.now)

/-- Count a run whose alerts were held back, once an execution. -/
def suppress (ctx : FailureContext) (book : AlertBook) : AlertBook :=
  if ctx.executionId = .text "" ∨ site.fails (.recordJobAlertAckSuppression position) then book
  else
    { book with
      acks := update book.acks ctx.jobKey
        ((book.acks ctx.jobKey).map fun ack =>
          { ack with
            suppressedCount :=
              ack.suppressedCount + if ack.lastExecutionId = some ctx.executionId then 0 else 1
            lastExecutionId := some ctx.executionId
            lastError := some ctx.error
            lastSuppressedAt := some site.now }) }

def throttleWindow (rule : RuleConfig) (override : Option AlertRuleOverride)
    (ctx : FailureContext) : Option Nat :=
  if ctx.reason = ackExpiredReason then none
  else
    (override.bind (·.effectiveThrottleSecs site.now)) <|> rule.throttle.bind parseThrottleSecs

/-- Run one rule that matches: an override may silence it, an acknowledgement holds
it back, a throttle window drops it. -/
def dispatchRule (rule : RuleConfig) (ctx : FailureContext) (book : AlertBook) :
    AlertBook × List AlertDelivery :=
  let override := site.overrideOf position rule book
  let heldBack (state : AlertDeliveryState) (book : AlertBook) : AlertBook × List AlertDelivery :=
    let delivery := site.delivery rule ctx (rule.channels.head?.getD "<none>") state none
    (site.recordDelivery position 0 book delivery, [delivery])
  if override.any (·.isSuppressing site.now) then (book, [])
  else if (site.activeAck position ctx book).isSome then
    heldBack .acknowledged (site.suppress position ctx book)
  else if throttled book rule ctx.jobKey (site.throttleWindow rule override ctx) site.now then
    heldBack .throttled book
  else
    site.deliverToChannels position rule ctx
      { book with
        throttle := update book.throttle (rule.name, ctx.jobKey) (some site.now) }

/-- Run the selected rules, in order. -/
def dispatchRules (selected : RuleConfig → Bool) (ctx : FailureContext) (book : AlertBook) :
    AlertBook × List AlertDelivery :=
  site.alerts.rules.zipIdx.foldl
    (fun (book, recorded) (rule, position) =>
      if selected rule then
        let (dispatched, more) := site.dispatchRule position rule ctx book
        (dispatched, recorded ++ more)
      else (book, recorded))
    (book, [])

def evaluateFailure (ctx : FailureContext) (book : AlertBook) : AlertBook × List AlertDelivery :=
  site.dispatchRules (ruleMatchesFailure · ctx) ctx book

variable (jobKey : String) (executionId : ExecutionId)

/-- The row is written and read back; without an answer the failure counts as the first. -/
def recordJobFailure (error : String) (book : AlertBook) : AlertBook × Nat :=
  if site.fails .recordJobFailure then (book, 1)
  else
    let streak : JobFailureStreak :=
      match book.streaks jobKey with
      | some streak =>
        { streak with
          consecutive := streak.consecutive + 1
          lastExecutionId := executionId
          lastError := error
          lastFailedAt := site.now }
      | none => ⟨jobKey,1,site.now,executionId,error,site.now⟩
    ({ book with streaks := update book.streaks jobKey (some streak) },
      if site.fails .readJobFailure then 1 else streak.consecutive)

def fireAlerts (error : Option String)
    (attempt : Nat) (reason : String) (book : AlertBook) : AlertBook :=
  let error := error.getD "unknown"
  let (counted, consecutive) := site.recordJobFailure jobKey executionId error book
  if site.alerts.rules.isEmpty then counted
  else (site.evaluateFailure ⟨jobKey,executionId,error,attempt,reason,consecutive⟩ counted).1

def failedRuns (count : Nat) : String :=
  if count = 1 then "run" else "runs"

variable (ack : Option JobAlertAck)

def recoveryMessage (streak : Option JobFailureStreak) : String :=
  let outcome :=
    match streak with
    | some streak =>
      jobKey ++ " succeeded again after " ++ toString streak.consecutive ++ " failed " ++
        failedRuns streak.consecutive ++ " in a row, failing since " ++
        site.toRfc3339 streak.since ++ ". Last error: " ++ streak.lastError
    | none => jobKey ++ " succeeded again."
  match ack with
  | some ack =>
    outcome ++ "\nAcknowledged by " ++ ack.ackedByName ++ " at " ++ site.toRfc3339 ack.ackedAt ++
      ": " ++ ack.note ++ " (" ++ toString ack.suppressedCount ++ " failed " ++
      failedRuns ack.suppressedCount ++ " held back)"
  | none => outcome

def covers (trigger : RuleTrigger) (jobKey : String) (rule : RuleConfig) : Bool :=
  rule.trigger = trigger ∧ globMatch rule.jobKeyGlob jobKey = true

/-- The job's throttle windows end with the incident, except those of rules for recoveries. -/
def closeIncident (book : AlertBook) : AlertBook :=
  { book with
    throttle := fun (ruleName, key) =>
      if key ≠ jobKey ∨ site.alerts.rules.any fun rule =>
          rule.trigger = .jobRecovered ∧ rule.name = ruleName then
        book.throttle (ruleName, key)
      else none }

/-- The recovery of an acknowledged job goes to the channels that heard of the
failure, past acknowledgement and throttle. -/
def announceToFailureRules (ctx : FailureContext) (book : AlertBook) :
    AlertBook × List AlertDelivery :=
  site.alerts.rules.zipIdx.foldl
    (fun (book, recorded) (rule, position) =>
      if covers .jobFailed jobKey rule ∧
          ¬(site.overrideOf position rule book).any (·.isSuppressing site.now) then
        let (delivered, more) := site.deliverToChannels position rule ctx book
        (delivered, recorded ++ more)
      else (book, recorded))
    (book, [])

def sendRecovery (streak : Option JobFailureStreak)
    (executionId : ExecutionId) (book : AlertBook) : AlertBook :=
  let consecutive := (streak.map JobFailureStreak.consecutive).getD 0
  let ctx : FailureContext :=
    ⟨jobKey,executionId,site.recoveryMessage jobKey ack streak,0,jobRecoveredReason,
      consecutive⟩
  let (announced, recorded) :=
    if site.alerts.rules.any (covers .jobRecovered jobKey) then
      site.dispatchRules
        (fun rule => covers .jobRecovered jobKey rule &&
          (ack.isSome || rule.minConsecutive ≤ consecutive)) ctx book
    else if ack.isSome then site.announceToFailureRules jobKey ctx book
    else (book, [])
  if recorded.isEmpty then announced else site.closeIncident jobKey announced

/-- Take a row off a table, unless the store fails. -/
def takeRow {Row : Type} (fails : Bool) (rows : String → Option Row) (jobKey : String) :
    Option Row × (String → Option Row) :=
  if fails then (none, rows) else (rows jobKey, update rows jobKey none)

/-- A success ends the streak and the acknowledgement of the job. -/
def endIncident (book : AlertBook) : AlertBook :=
  let (streak, streaks) := takeRow (site.fails .takeJobFailureStreak) book.streaks jobKey
  let (ack, acks) := takeRow (site.fails .takeJobAlertAck) book.acks jobKey
  let ended := { book with streaks, acks }
  if streak.isNone ∧ ack.isNone then ended
  else site.sendRecovery jobKey ack streak executionId ended

theorem streaks_foldl {Item : Type}
    {step : AlertBook × List AlertDelivery → Item → AlertBook × List AlertDelivery}
    (keeps : ∀ result item, (step result item).1.streaks = result.1.streaks) (items : List Item)
    (start : AlertBook × List AlertDelivery) :
    (items.foldl step start).1.streaks = start.1.streaks := by
  induction items generalizing start with
  | nil => rfl
  | cons item items ih => rw [List.foldl_cons,ih,keeps]

theorem streaks_dispatch (rule : RuleConfig) (ctx : FailureContext) (book : AlertBook)
    (channelName : String) :
    (site.dispatch rule ctx book channelName).1.streaks = book.streaks := by
  unfold dispatch
  cases site.alerts.channels channelName with
  | none => rfl
  | some channel => cases kind : channel.kind <;> simp only [kind]

@[simp]
theorem streaks_recordDelivery (rule channel : Nat) (book : AlertBook) (delivery : AlertDelivery) :
    (site.recordDelivery rule channel book delivery).streaks = book.streaks := by
  unfold recordDelivery
  split <;> rfl

theorem streaks_dispatchRule (rule : RuleConfig) (ctx : FailureContext)
    (book : AlertBook) : (site.dispatchRule position rule ctx book).1.streaks = book.streaks := by
  simp only [dispatchRule]
  split_ifs
  · rfl
  · rw [streaks_recordDelivery]
    unfold suppress
    split <;> rfl
  · rw [streaks_recordDelivery]
  · apply streaks_foldl
    intro result channel
    rw [streaks_recordDelivery,streaks_dispatch]

theorem streaks_evaluateFailure (ctx : FailureContext) (book : AlertBook) :
    (site.evaluateFailure ctx book).1.streaks = book.streaks := by
  apply streaks_foldl
  intro result rule
  dsimp only
  split
  · rw [streaks_dispatchRule]
  · rfl

theorem consecutive_fireAlerts (counts : site.fails .recordJobFailure = false) (jobKey : String)
    (executionId : ExecutionId) (error : Option String) (attempt : Nat) (reason : String)
    (book : AlertBook) :
    ((site.fireAlerts jobKey executionId error attempt reason book).streaks jobKey).map
        JobFailureStreak.consecutive =
      some (((book.streaks jobKey).map JobFailureStreak.consecutive).getD 0 + 1) := by
  have sameStreaks : (site.fireAlerts jobKey executionId error attempt reason book).streaks =
      (site.recordJobFailure jobKey executionId (error.getD "unknown") book).1.streaks := by
    simp only [fireAlerts]
    split
    · rfl
    · rw [streaks_evaluateFailure]
  rw [sameStreaks]
  simp only [recordJobFailure,counts,Bool.false_eq_true,if_false,update_self]
  cases book.streaks jobKey <;> simp

end AlertSite

end Croniq
