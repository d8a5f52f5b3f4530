import CryptoAlert.Persistence.UsageLedger

/-!
# Scheduled monitors and their triggers

A trigger is the receipt of one delivery of a monitor. It is admitted, and then has a task, or
it is suppressed for a reason.
-/

namespace CryptoAlert

inductive MonitorStatus where
  | draft | active | paused | degraded | expired | disabled
deriving DecidableEq, Repr

namespace MonitorStatus

def name : MonitorStatus → String
  | draft => "draft"
  | active => "active"
  | paused => "paused"
  | degraded => "degraded"
  | expired => "expired"
  | disabled => "disabled"

/-- `ACTIVE_MONITOR_STATUSES`: the monitors that count against the limit of the workspace. -/
def isCounted : MonitorStatus → Bool
  | draft | active | paused | degraded => true
  | expired | disabled => false

end MonitorStatus

structure MonitorDefinition where
  id : ℕ
  ownerUserId : ℕ
  cronBindingId : ℕ
  officialCronId : Option String
  status : MonitorStatus
  condition : Json
  timezone : String
  expiresAt : Option ℕ
  quietHours : Option Json
  scheduleVersion : ℕ
  taskTemplate : List (String × Json)
  runTaskType : TaskType

inductive TriggerStatus where
  | received | suppressed | admitted | failed
deriving DecidableEq, Repr

structure MonitorTrigger where
  id : ℕ
  monitorId : ℕ
  ownerUserId : ℕ
  officialCronId : Option String
  officialRunId : Option String
  officialThreadId : Option String
  manualStableKey : Option String
  kind : TriggerKind
  status : TriggerStatus
  reason : Option String
  scheduleVersion : ℤ
  taskId : Option ℕ
  threadId : Option String
  receivedAt : ℕ
  admittedAt : Option ℕ

/-- The identity of a delivery: the run of the cron, or the key of the request. -/
def MonitorTrigger.identity (t : MonitorTrigger) : Option String :=
  match t.kind with
  | .cron => t.officialRunId
  | .manual => t.manualStableKey

/-- `SUPPORTED_MONITOR_CONDITION_EVALUATORS` has the kind of the condition. -/
def MonitorDefinition.hasEvaluator (m : MonitorDefinition) : Bool :=
  match m.condition.get? "kind" with
  | some (.str kind) => kind == "scheduled_review"
  | _ => false

section QuietHours

/-- What the checks of the quiet hours read of the world: the values of decimal digits, and the
minute of the day in a time zone, if the zone is known. -/
structure LocalClock where
  digitValue : Char → Option ℕ
  minuteOf : String → ℕ → Option ℕ

variable (clock : LocalClock)

/-- `_parse_local_minute`. -/
def parseLocalMinute : Option Json → Option ℕ
  | some (.str value) =>
      match value.toList with
      | [a, b, colon, c, d] => do
          if colon ≠ ':' then none
          else
            let hour := (← clock.digitValue a) * 10 + (← clock.digitValue b)
            let minute := (← clock.digitValue c) * 10 + (← clock.digitValue d)
            if hour ≤ 23 ∧ minute ≤ 59 then some (hour * 60 + minute) else none
      | _ => none
  | _ => none

/-- `_in_quiet_hours`; quiet hours that cannot be read are always on. -/
def MonitorDefinition.inQuietHours (m : MonitorDefinition) (now : ℕ) : Bool :=
  match m.quietHours with
  | none => false
  | some hours =>
      match parseLocalMinute clock (hours.get? "start"), parseLocalMinute clock (hours.get? "end"),
          clock.minuteOf m.timezone now with
      | some first, some last, some current =>
          if first = last then true
          else if first < last then first ≤ current && current < last
          else first ≤ current || current < last
      | _, _, _ => true

end QuietHours

/-- `_task_payload_from_template`. -/
def taskPayloadFromTemplate (template : List (String × Json)) : Json :=
  match template.lookup "task_type" with
  | some (.str "market_analysis") => .obj (template.filter fun field => field.1 != "task_type")
  | _ => .obj template

/-- The arguments of `admit_trigger` with the actor; the time is that of the delivery. -/
structure TriggerRequest where
  actorUserId : ℕ
  monitorId : ℕ
  kind : TriggerKind
  cronBindingId : Option ℕ
  officialCronId : Option String
  officialRunId : Option String
  officialThreadId : Option String
  manualStableKey : Option String
  scheduleVersion : Option ℤ
  receivedAt : ℕ

/-- The cron of a monitor whose owner is no longer a member of the workspace. -/
structure RevokedIngress where
  monitorId : ℕ
  cronBindingId : ℕ
  scheduleVersion : ℤ
  officialRunId : String
  officialThreadId : Option String
  receivedAt : ℕ

inductive TriggerDelivery where
  | trigger (request : TriggerRequest)
  | revoked (ingress : RevokedIngress)

namespace TriggerRequest

variable (d : TriggerRequest)

/-- The checks of the arguments alone. -/
def isWellFormed : Bool :=
  match d.kind with
  | .cron => d.officialRunId.any (· ≠ "") && d.cronBindingId.isSome && d.manualStableKey.isNone
  | .manual => d.manualStableKey.any (· ≠ "")

/-- The identity under which the trigger of a request is looked up. -/
def identity : Option String :=
  match d.kind with
  | .cron => d.officialRunId
  | .manual => d.manualStableKey

/-- The checks of the monitor that a request names. -/
def accepts (m : MonitorDefinition) : Bool :=
  (d.kind ≠ .cron || d.cronBindingId == some m.cronBindingId) && m.hasEvaluator

/-- The version a request stands for; `schedule_version or monitor.schedule_version`. -/
def effectiveVersion (m : MonitorDefinition) : ℤ :=
  match d.scheduleVersion with
  | some version => if version = 0 then m.scheduleVersion else version
  | none => m.scheduleVersion

end TriggerRequest

namespace TriggerDelivery

variable (d : TriggerDelivery)

def monitorId : ℕ :=
  match d with
  | trigger request => request.monitorId
  | revoked ingress => ingress.monitorId

def kind : TriggerKind :=
  match d with
  | trigger request => request.kind
  | revoked _ => .cron

def identity : Option String :=
  match d with
  | trigger request => request.identity
  | revoked ingress => some ingress.officialRunId

def receivedAt : ℕ :=
  match d with
  | trigger request => request.receivedAt
  | revoked ingress => ingress.receivedAt

end TriggerDelivery

/-- `_usable_entitlement`. -/
def usableEntitlement (e : Option Entitlement) (now : ℕ) : Option Entitlement :=
  e.filter fun e => e.isAvailable (.ofMicros now)

/-- The reasons for a suppression that need no counting. -/
def earlyReason (clock : LocalClock) (m : MonitorDefinition) (usable : Option Entitlement)
    (version : ℤ) (now : ℕ) : Option String :=
  if usable.isNone then some "entitlement_unavailable"
  else if m.status ≠ .active then some s!"monitor_status:{m.status.name}"
  else if m.expiresAt.any (· ≤ now) then some "monitor_expired"
  else if version ≠ m.scheduleVersion then some "stale_schedule_version"
  else if m.inQuietHours clock now then some "quiet_hours"
  else none

/-- A trigger that has its identity where its kind says, as the check constraint asks. -/
def MonitorTrigger.hasIdentityByKind (t : MonitorTrigger) : Bool :=
  match t.kind with
  | .cron => t.officialRunId.isSome && t.manualStableKey.isNone
  | .manual => t.manualStableKey.isSome && t.officialRunId.isNone

/-- The constraints on a new trigger: the primary key, the two unique indexes and the checks. -/
def MonitorTrigger.mayJoin (t : MonitorTrigger) (triggers : List MonitorTrigger) : Bool :=
  t.hasIdentityByKind && 1 ≤ t.scheduleVersion && triggers.all fun t' =>
    t'.id != t.id && (t'.monitorId != t.monitorId ||
      ((t.officialRunId.isNone || t'.officialRunId != t.officialRunId) &&
        (t.manualStableKey.isNone || t'.manualStableKey != t.manualStableKey)))

/-- `_find_existing_trigger`. -/
def findExistingTrigger (triggers : List MonitorTrigger) (m : MonitorDefinition)
    (kind : TriggerKind) (identity : Option String) : Option MonitorTrigger :=
  triggers.find? fun t => t.ownerUserId == m.ownerUserId && t.monitorId == m.id &&
    identity.isSome && (match kind with
      | .cron => t.officialRunId == identity
      | .manual => t.manualStableKey == identity)

/-- The latest admission of a monitor. -/
def latestAdmission (triggers : List MonitorTrigger) (m : MonitorDefinition) : Option ℕ :=
  ((triggers.filter fun t => t.ownerUserId == m.ownerUserId && t.monitorId == m.id &&
    t.status == .admitted).filterMap (·.admittedAt)).max?

/-- Whether a delivery comes too soon after the latest admission. -/
def tooSoon (triggers : List MonitorTrigger) (m : MonitorDefinition) (e : Entitlement)
    (now : ℕ) : Bool :=
  (latestAdmission triggers m).any fun latest => now < latest + e.minIntervalSeconds * 1000000

/-- `_month_start`. -/
def monthStart (value : Admission.Instant) : Admission.Instant := { value with rest := 0 }

/-- Whether the usage of the month leaves no room for a trigger. The sum is over all entries of
the month. -/
def monthlyTriggersExceeded (ledger : List UsageLedgerEntry) (e : Entitlement) (now : ℕ) : Bool :=
  e.monthlyTriggerLimit ≤
    ((UsageLedger.inPeriod ledger (monthStart (.ofMicros now))).map (·.quantity)).sum

end CryptoAlert
