import CryptoAlert.Commands.Effects

/-!
# What a step can change

The steps of a task fall into a few kinds: rows are relaxed without a change of any status, a
transaction under a lease has its effect, a command is requested along with what its service
operation writes, and a claim ends, fails or leases a command. Invariants are proved by these
kinds and never look into the transactions themselves.
-/

namespace CryptoAlert

/-- The columns of a command that survive while its status does not change. -/
structure TaskCommand.Kept (c c' : TaskCommand) : Prop where
  id : c'.id = c.id
  payload : c'.payload = c.payload
  payloadHash : c'.payloadHash = c.payloadHash
  sequence : c'.sequence = c.sequence
  attempt : c'.attempt = c.attempt
  idempotencyKey : c'.idempotencyKey = c.idempotencyKey
  status : c'.status = c.status

theorem TaskCommand.Kept.refl (c : TaskCommand) : c.Kept c :=
  ⟨rfl, rfl, rfl, rfl, rfl, rfl, rfl⟩

namespace TaskStore

/-- The rows have distinct keys. -/
structure Keyed (s : TaskStore) : Prop where
  runIds : (s.runs.map RunRow.id).Nodup
  attempts : (s.runs.map RunRow.attempt).Nodup
  commandIds : (s.commands.map TaskCommand.id).Nodup
  sequences : (s.commands.map TaskCommand.sequence).Nodup

/-- No row changes its status, and no row is inserted. -/
structure Relaxed (s s' : TaskStore) : Prop where
  task : s'.task = s.task
  runs : List.Forall₂ RunRow.Quiet s.runs s'.runs
  commands : List.Forall₂ TaskCommand.Kept s.commands s'.commands
  pauses : s'.pauses = s.pauses
  members : s'.members = s.members
  artifacts : s.outputs.SameArtifacts s'.outputs

/-- A run that may be inserted. -/
structure FreshRun (s : TaskStore) (r : RunRow) : Prop where
  id : ∀ r' ∈ s.runs, r'.id ≠ r.id
  attempt : ∀ r' ∈ s.runs, r'.attempt ≠ r.attempt
  resumeOf : r.resumeOfRunId.isSome → ∀ r' ∈ s.runs, r'.resumeOfRunId ≠ r.resumeOfRunId
  retryOf : r.retryOfRunId.isSome → ∀ r' ∈ s.runs, r'.retryOfRunId ≠ r.retryOfRunId

/-- A command that may be inserted. -/
structure FreshCommand (s : TaskStore) (c : TaskCommand) : Prop where
  id : ∀ c' ∈ s.commands, c'.id ≠ c.id
  key : ∀ c' ∈ s.commands, c'.idempotencyKey ≠ c.idempotencyKey

section Insert

variable {s s' : TaskStore}

theorem insertRun_eq_some {r : RunRow} (h : s.insertRun r = some s') :
    s.FreshRun r ∧ s' = { s with runs := s.runs ++ [r] } := by
  unfold insertRun at h
  split_ifs at h with htaken
  obtain ⟨runs, hruns, rfl⟩ := Option.map_eq_some_iff.mp h
  obtain ⟨rfl, hid⟩ := Table.insert_eq_some hruns
  simp only [List.any_eq_true, Bool.or_eq_true, Bool.and_eq_true, beq_iff_eq, not_exists,
    not_and, not_or] at htaken
  refine ⟨⟨hid, ?_, ?_, ?_⟩, rfl⟩
  · intro r' hr'
    exact (htaken r' hr').1.1
  · intro hsome r' hr'
    exact (htaken r' hr').1.2 hsome
  · intro hsome r' hr'
    exact (htaken r' hr').2 hsome

theorem insertCommand_eq_some {c : TaskCommand} (h : s.insertCommand c = some s') :
    s.FreshCommand c ∧ s' = { s with commands := s.commands ++ [c] } := by
  unfold insertCommand at h
  split_ifs at h with htaken
  obtain ⟨commands, hcommands, rfl⟩ := Option.map_eq_some_iff.mp h
  obtain ⟨rfl, hid⟩ := Table.insert_eq_some hcommands
  simp only [List.any_eq_true, Bool.or_eq_true, beq_iff_eq, not_exists, not_and,
    not_or] at htaken
  exact ⟨⟨hid, fun c' hc' => (htaken c' hc').2⟩, rfl⟩

theorem request_eq_ok {commandId : ℕ} {payload : CommandPayload} {hash key : String}
    {reply : Reply} (h : s.request commandId payload hash key = .ok (s', reply)) :
    s.FreshCommand (.new commandId payload hash (s.maxSequence + 1) key) ∧
      s' = { s with
        commands := s.commands ++ [.new commandId payload hash (s.maxSequence + 1) key] } ∧
      reply = .requested := by
  unfold request at h
  split at h
  · cases h
  · rename_i hinsert
    obtain ⟨hfresh, hstore⟩ := insertCommand_eq_some hinsert
    cases h
    exact ⟨hfresh, hstore, rfl⟩

end Insert

section Requests

variable (digests : KeyDigests) (s : TaskStore)

/-- The task of a retried or forked run. -/
def requeuedTask : TaskRow := { s.task with status := .queued, completedAt := none }

/-- What the service operations and the expiry of a pause write, where they write anything. -/
inductive Requested : TaskStore → Prop where
  | cancelTask (key : String) (commandId now : ℕ)
      (active : s.task.status.isTerminal = false)
      (idle : s.hasLive .cancelTask = false)
      (fresh : s.FreshCommand (.new commandId (.cancelTask s.task.id)
        (digests.other (.cancelTask s.task.id)) (s.maxSequence + 1) key)) :
      Requested { s with
        runs := match s.latestRun with
          | some run => Table.put RunRow.id s.runs { run with cancelRequestedAt := some now }
          | none => s.runs
        commands := closeCommands s.commands ++ [.new commandId (.cancelTask s.task.id)
          (digests.other (.cancelTask s.task.id)) (s.maxSequence + 1) key] }
  | cancelRun (run : RunRow) (key : String) (commandId now : ℕ)
      (found : s.findRun run.id = some run)
      (active : run.status.isTerminal = false)
      (idle : s.hasLive .cancelTask = false)
      (unrequested : ∀ c ∈ s.commands, c.isLive → c.cancelsRun run.id = false)
      (fresh : s.FreshCommand (.new commandId (.cancelRun run.id)
        (digests.other (.cancelRun run.id)) (s.maxSequence + 1) key)) :
      Requested { s with
        runs := Table.put RunRow.id s.runs { run with cancelRequestedAt := some now }
        commands := closeCommands s.commands ++ [.new commandId (.cancelRun run.id)
          (digests.other (.cancelRun run.id)) (s.maxSequence + 1) key] }
  | retry (source : RunRow) (key hash : String) (runId commandId : ℕ)
      (latest : s.latestRun = some source)
      (idle : ∀ c ∈ s.commands, c.isLive = false)
      (retryable : s.task.status = .failed ∨ s.task.status = .blocked ∨
        s.cancelledRunIsRetryable source)
      (sourceStatus : source.status = .failed ∨ source.status = .blocked ∨
        source.status = .cancelled)
      (freshRun : s.FreshRun { RunRow.new runId (s.maxAttempt + 1) .queued with
        retryOfRunId := some source.id })
      (fresh : s.FreshCommand (.new commandId (.retry ⟨source.id, runId⟩) hash
        (s.maxSequence + 1) key)) :
      Requested { s with
        task := s.requeuedTask
        runs := s.runs ++ [{ RunRow.new runId (s.maxAttempt + 1) .queued with
          retryOfRunId := some source.id }]
        commands := s.commands ++ [.new commandId (.retry ⟨source.id, runId⟩) hash
          (s.maxSequence + 1) key] }
  | fork (source : RunRow) (checkpointId key hash : String) (runId commandId now : ℕ)
      (s₁ : TaskStore) (found : s.findRun source.id = some source)
      (checkpoint : source.checkpointId = some checkpointId)
      (active : s.task.status ≠ .cancelled)
      (idle : ∀ c ∈ s.commands, c.isLive = false)
      (closed : s.cancelPendingPauseForFork now = .ok s₁)
      (freshRun : s₁.FreshRun { RunRow.new runId (s₁.maxAttempt + 1) .queued with
        checkpointId := some checkpointId
        forkedFromRunId := some source.id
        forkedFromCheckpointId := some checkpointId })
      (fresh : s₁.FreshCommand (.new commandId (.fork ⟨source.id, runId, checkpointId⟩) hash
        (s₁.maxSequence + 1) key)) :
      Requested { s₁ with
        task := s₁.requeuedTask
        runs := s₁.runs ++ [{ RunRow.new runId (s₁.maxAttempt + 1) .queued with
          checkpointId := some checkpointId
          forkedFromRunId := some source.id
          forkedFromCheckpointId := some checkpointId }]
        commands := s₁.commands ++ [.new commandId (.fork ⟨source.id, runId, checkpointId⟩) hash
          (s₁.maxSequence + 1) key] }
  | answer (pause : InterruptPause) (parent : RunRow) (payload : RespondCommandPayload)
      (key : String) (runId commandId now : ℕ)
      (pauseFound : s.findPause pause.id = some pause)
      (pending : pause.status = .pending)
      (parentFound : s.findRun parent.id = some parent)
      (paused : pause.runId = parent.id)
      (waiting : parent.status = .waitingHuman)
      (waitingTask : s.task.status = .waitingHuman)
      (members : s.membersOf pause.id ≠ [] ∧ ∀ m ∈ s.membersOf pause.id, m.status = .pending)
      (payloadPause : payload.pauseId = pause.id)
      (expiry : payload.expired → s.hasLive .respond = false)
      (freshRun : s.FreshRun { RunRow.new runId (parent.attempt + 1) .queued with
        resumeOfRunId := some parent.id })
      (fresh : s.FreshCommand (.new commandId (.respond payload) (digests.respond payload)
        (s.maxSequence + 1) key)) :
      Requested { s with
        runs := s.runs ++ [{ RunRow.new runId (parent.attempt + 1) .queued with
          resumeOfRunId := some parent.id }]
        pauses := Table.put InterruptPause.id s.pauses { pause with
          status := if payload.expired then .expired else .responding
          resumeRunId := some runId
          acceptedPayloadHash := some (digests.respond payload) }
        members := s.members.map fun m => if m.pauseId == pause.id then
          answerMember payload.responses
            (if payload.expired then .expired else .responding) now m else m
        commands := s.commands ++ [.new commandId (.respond payload) (digests.respond payload)
          (s.maxSequence + 1) key] }

end Requests

section ServiceOperations

variable {digests : KeyDigests} {s s' : TaskStore} {reply : Reply}

/-- An operation that answers was not refused. -/
theorem of_not_refused {c : Prop} [Decidable c] {e : ServiceError} {result : ServiceResult}
    {answer : TaskStore × Reply} (h : (if c then .error e else result) = .ok answer) :
    ¬ c ∧ result = .ok answer := by
  by_cases hc : c
  · rw [if_pos hc] at h
    cases h
  · rw [if_neg hc] at h
    exact ⟨hc, h⟩

theorem maxSequence_closeCommands (s : TaskStore) :
    Table.maxOf TaskCommand.sequence (closeCommands s.commands) = s.maxSequence := by
  have hmap : (closeCommands s.commands).map TaskCommand.sequence =
      s.commands.map TaskCommand.sequence := by
    rw [closeCommands, List.map_map]
    apply List.map_congr_left
    intro c _
    by_cases h : isClosable c
    · rw [Function.comp_apply, if_pos h]
      rfl
    · rw [Function.comp_apply, if_neg h]
  rw [maxSequence, Table.maxOf, Table.maxOf, hmap]

/-- A command stays fresh while other commands are closed. -/
theorem FreshCommand.of_closed {t : TaskStore} {c : TaskCommand}
    (hcommands : t.commands = closeCommands s.commands) (h : t.FreshCommand c) :
    s.FreshCommand c := by
  have hmem : ∀ d ∈ s.commands, ∃ d' ∈ t.commands, d'.id = d.id ∧
      d'.idempotencyKey = d.idempotencyKey := by
    intro d hd
    rw [hcommands]
    refine ⟨_, List.mem_map_of_mem hd, ?_⟩
    by_cases hclosable : isClosable d
    · rw [if_pos hclosable]
      exact ⟨rfl, rfl⟩
    · rw [if_neg hclosable]
      exact ⟨rfl, rfl⟩
  refine ⟨fun d hd => ?_, fun d hd => ?_⟩
  · obtain ⟨d', hd', hid, -⟩ := hmem d hd
    rw [← hid]
    exact h.id d' hd'
  · obtain ⟨d', hd', -, hkey⟩ := hmem d hd
    rw [← hkey]
    exact h.key d' hd'

/-- A command requested after others were closed. -/
theorem request_of_closed {t : TaskStore} {commandId : ℕ} {payload : CommandPayload}
    {hash key : String} (hcommands : t.commands = closeCommands s.commands)
    (h : t.request commandId payload hash key = .ok (s', reply)) :
    s.FreshCommand (.new commandId payload hash (s.maxSequence + 1) key) ∧
      s' = { t with commands := closeCommands s.commands ++
        [.new commandId payload hash (s.maxSequence + 1) key] } := by
  have hmax : t.maxSequence = s.maxSequence := by
    rw [← maxSequence_closeCommands s, maxSequence, hcommands]
  obtain ⟨hfresh, hstore, -⟩ := request_eq_ok h
  rw [hmax] at hfresh hstore
  rw [hcommands] at hstore
  exact ⟨hfresh.of_closed hcommands, hstore⟩

/-- The type of the command that was inserted last. -/
def lastType (s : TaskStore) : Option CommandType :=
  s.commands.getLast?.map TaskCommand.commandType

theorem lastType_append {kept : List TaskCommand} {c : TaskCommand} {type : CommandType}
    (h : s.commands = kept ++ [c]) (htype : c.commandType = type) : s.lastType = some type := by
  rw [lastType, h, List.getLast?_append, List.getLast?_singleton, ← htype]
  rfl

theorem cancelTask_requested {key : String} {commandId now : ℕ}
    (h : s.cancelTask digests key commandId now = .ok (s', reply)) :
    s' = s ∨ Requested digests s s' ∧ s'.lastType = some .cancelTask := by
  unfold cancelTask at h
  dsimp only at h
  split_ifs at h with hcancelled hterminal hkey hlive
  · cases h
    exact .inl rfl
  · cases h
    exact .inl rfl
  · cases h
    exact .inl rfl
  · right
    have hactive : s.task.status.isTerminal = false := by simpa using hterminal
    have hidle : s.hasLive .cancelTask = false := by simpa using hlive
    have hlatest : latestRun { s with commands := closeCommands s.commands } = s.latestRun := rfl
    rw [hlatest] at h
    cases hrun : s.latestRun with
    | none =>
        rw [hrun] at h
        obtain ⟨hfresh, rfl⟩ := request_of_closed rfl h
        have hrequested := Requested.cancelTask _ commandId now hactive hidle hfresh
        rw [hrun] at hrequested
        exact ⟨hrequested, lastType_append rfl rfl⟩
    | some run =>
        rw [hrun] at h
        obtain ⟨hfresh, rfl⟩ := request_of_closed rfl h
        have hrequested := Requested.cancelTask _ commandId now hactive hidle hfresh
        rw [hrun] at hrequested
        exact ⟨hrequested, lastType_append rfl rfl⟩

theorem cancelRun_requested {runId : ℕ} {key : String} {commandId now : ℕ}
    (h : s.cancelRun digests runId key commandId now = .ok (s', reply)) :
    s' = s ∨ Requested digests s s' ∧ s'.lastType = some .cancelRun := by
  unfold cancelRun at h
  dsimp only at h
  split at h
  · cases h
  · rename_i run hfound
    obtain ⟨-, rfl⟩ := Table.find_eq_some hfound
    split_ifs at h with hkey hterminal hlive hrequested
    · cases h
      exact .inl rfl
    · cases h
      exact .inl rfl
    · obtain ⟨hfresh, rfl⟩ := request_of_closed rfl h
      refine .inr ⟨.cancelRun run _ commandId now hfound (by simpa using hterminal)
        (by simpa using hlive) ?_ hfresh, lastType_append rfl rfl⟩
      intro c hc hclive
      by_contra hcancels
      simp only [List.any_eq_true, Bool.and_eq_true, not_exists, not_and] at hrequested
      exact hrequested c hc hclive (by simpa using hcancels)

/-- A retry answers with the view of the task, or inserts its run along with its command. -/
theorem retryTask_cases {key : String} {runId commandId : ℕ}
    (h : s.retryTask digests key runId commandId = .ok (s', reply)) :
    (s' = s ∧ reply = .view) ∨ ∃ source key' hash, s.latestRun = some source ∧
      (∀ c ∈ s.commands, c.isLive = false) ∧
      (s.task.status = .failed ∨ s.task.status = .blocked ∨ s.cancelledRunIsRetryable source) ∧
      (source.status = .failed ∨ source.status = .blocked ∨ source.status = .cancelled) ∧
      s.FreshRun { RunRow.new runId (s.maxAttempt + 1) .queued with
        retryOfRunId := some source.id } ∧
      s.FreshCommand (.new commandId (.retry ⟨source.id, runId⟩) hash (s.maxSequence + 1) key') ∧
      s' = { s with
        task := s.requeuedTask
        runs := s.runs ++ [{ RunRow.new runId (s.maxAttempt + 1) .queued with
          retryOfRunId := some source.id }]
        commands := s.commands ++ [.new commandId (.retry ⟨source.id, runId⟩) hash
          (s.maxSequence + 1) key'] } := by
  unfold retryTask at h
  dsimp only at h
  split_ifs at h with hkey hretryable hlive
  · cases h
    exact .inl ⟨rfl, rfl⟩
  · split at h
    · cases h
    · rename_i source hlatest
      split_ifs at h with hstatus
      split at h
      · cases h
      · rename_i s₁ hinsert
        obtain ⟨hfreshRun, rfl⟩ := insertRun_eq_some hinsert
        obtain ⟨hfresh, rfl, -⟩ := request_eq_ok h
        refine .inr ⟨source, _, _, hlatest, ?_, ?_, ?_, hfreshRun, ⟨hfresh.id, hfresh.key⟩, rfl⟩
        · simpa using hlive
        · rw [hlatest] at hretryable
          simpa only [Bool.not_eq_true', Bool.not_eq_false, Bool.or_eq_true, beq_iff_eq, or_assoc,
            Option.any_some] using hretryable
        · simpa only [Bool.not_eq_true', Bool.not_eq_false, Bool.or_eq_true, beq_iff_eq,
            or_assoc] using hstatus

theorem retryTask_requested {key : String} {runId commandId : ℕ}
    (h : s.retryTask digests key runId commandId = .ok (s', reply)) :
    s' = s ∨ Requested digests s s' ∧ s'.lastType = some .retry := by
  obtain ⟨rfl, -⟩ | ⟨source, key', hash, hlatest, hidle, hretryable, hstatus, hfreshRun, hfresh,
    rfl⟩ := retryTask_cases h
  · exact .inl rfl
  · exact .inr ⟨.retry source key' hash runId commandId hlatest hidle hretryable hstatus hfreshRun
      hfresh, lastType_append rfl rfl⟩

/-- A fork finds no active pause, or closes the one that is pending along with its run. -/
theorem cancelPendingPauseForFork_cases {now : ℕ} (h : s.cancelPendingPauseForFork now = .ok s') :
    (s' = s ∧ ∀ p ∈ s.pauses, p.status.isActive = false) ∨
      ∃ pause run, s.pauses.filter (fun p => p.status.isActive) = [pause] ∧
        pause.status = .pending ∧ s.membersOf pause.id ≠ [] ∧
        (∀ m ∈ s.membersOf pause.id, m.status = .pending) ∧
        s.findRun pause.runId = some run ∧ run.status = .waitingHuman ∧
        s' = ((s.putPause { pause with status := .cancelled }).mapMembers pause.id
          fun m => { m with status := .cancelled }).putRun { run with
            status := .cancelled, finishedAt := some (run.finishedAt.getD now) } := by
  unfold cancelPendingPauseForFork at h
  split at h
  · rename_i hnone
    cases h
    refine .inl ⟨rfl, ?_⟩
    intro p hp
    by_contra hactive
    have hmem : p ∈ s.pauses.filter fun p => p.status.isActive :=
      List.mem_filter.mpr ⟨hp, by simpa using hactive⟩
    rw [hnone] at hmem
    cases hmem
  · rename_i pause hpause
    have hactive : pause.status.isActive := by
      have hmem : pause ∈ s.pauses.filter fun p => p.status.isActive := by simp [hpause]
      exact (List.mem_filter.mp hmem).2
    dsimp only at h
    split_ifs at h with hresponding hmembers
    split at h
    · cases h
    · rename_i run hrun
      split_ifs at h with hwaiting
      cases h
      have hpending : s.membersOf pause.id ≠ [] ∧
          ∀ m ∈ s.membersOf pause.id, m.status = .pending := by simpa using hmembers
      refine .inr ⟨pause, run, hpause, ?_, hpending.1, hpending.2, hrun, not_not.mp hwaiting, rfl⟩
      cases hstatus : pause.status <;> simp_all [InterruptStatus.isActive]
  · cases h

/-- Closing the pause for a fork leaves the commands and the task alone. -/
theorem cancelPendingPauseForFork_commands {now : ℕ}
    (h : s.cancelPendingPauseForFork now = .ok s') :
    s'.commands = s.commands ∧ s'.task = s.task := by
  obtain ⟨rfl, -⟩ | ⟨pause, run, -, -, -, -, -, -, rfl⟩ := cancelPendingPauseForFork_cases h <;>
    exact ⟨rfl, rfl⟩

/-- A fork answers with the view of the task, or inserts its run along with its command. -/
theorem forkTask_cases {sourceRunId runId commandId now : ℕ} {checkpointId : Option String}
    {key : String}
    (h : s.forkTask digests sourceRunId checkpointId key runId commandId now =
      .ok (s', reply)) :
    (s' = s ∧ reply = .view) ∨ ∃ source sourceCheckpointId key' hash s₁,
      s.findRun sourceRunId = some source ∧ source.checkpointId = some sourceCheckpointId ∧
      s.task.status ≠ .cancelled ∧ (∀ c ∈ s.commands, c.isLive = false) ∧
      s.cancelPendingPauseForFork now = .ok s₁ ∧
      s₁.FreshRun { RunRow.new runId (s₁.maxAttempt + 1) .queued with
        checkpointId := some sourceCheckpointId
        forkedFromRunId := some source.id
        forkedFromCheckpointId := some sourceCheckpointId } ∧
      s₁.FreshCommand (.new commandId (.fork ⟨source.id, runId, sourceCheckpointId⟩) hash
        (s₁.maxSequence + 1) key') ∧
      s' = { s₁ with
        task := s₁.requeuedTask
        runs := s₁.runs ++ [{ RunRow.new runId (s₁.maxAttempt + 1) .queued with
          checkpointId := some sourceCheckpointId
          forkedFromRunId := some source.id
          forkedFromCheckpointId := some sourceCheckpointId }]
        commands := s₁.commands ++ [.new commandId
          (.fork ⟨source.id, runId, sourceCheckpointId⟩) hash (s₁.maxSequence + 1) key'] } := by
  unfold forkTask at h
  dsimp only at h
  split at h
  · split at h
    · split_ifs at h
      cases h
      exact .inl ⟨rfl, rfl⟩
    · cases h
  · obtain ⟨hcancelled, h⟩ := of_not_refused h
    cases hfound : s.findRun sourceRunId with
    | none => simp [hfound] at h
    | some source =>
        simp only [hfound] at h
        cases hcheckpoint : source.checkpointId with
        | none => simp [hcheckpoint] at h
        | some sourceCheckpointId =>
            simp only [hcheckpoint] at h
            obtain ⟨-, h⟩ := of_not_refused h
            obtain ⟨hlive, h⟩ := of_not_refused h
            cases hclosed : s.cancelPendingPauseForFork now with
            | error e => simp [hclosed] at h
            | ok s₁ =>
                simp only [hclosed] at h
                split at h
                · cases h
                · rename_i s₂ hinsert
                  obtain ⟨hfreshRun, rfl⟩ := insertRun_eq_some hinsert
                  obtain ⟨hfresh, rfl, -⟩ := request_eq_ok h
                  refine .inr ⟨source, sourceCheckpointId, _, _, s₁, rfl, hcheckpoint,
                    hcancelled, ?_, rfl, hfreshRun, ⟨hfresh.id, hfresh.key⟩, rfl⟩
                  simpa using hlive

theorem forkTask_requested {sourceRunId runId commandId now : ℕ} {checkpointId : Option String}
    {key : String}
    (h : s.forkTask digests sourceRunId checkpointId key runId commandId now =
      .ok (s', reply)) :
    s' = s ∨ Requested digests s s' ∧ s'.lastType = some .fork := by
  obtain ⟨rfl, -⟩ | ⟨source, sourceCheckpointId, key', hash, s₁, hfound, hcheckpoint, hcancelled,
    hidle, hclosed, hfreshRun, hfresh, rfl⟩ := forkTask_cases h
  · exact .inl rfl
  · obtain ⟨-, rfl⟩ := Table.find_eq_some hfound
    exact .inr ⟨.fork source sourceCheckpointId key' hash runId commandId now s₁ hfound hcheckpoint
      hcancelled hidle hclosed hfreshRun hfresh, lastType_append rfl rfl⟩

theorem acceptResponses_requested {pause : InterruptPause} {parent : RunRow}
    {payload : RespondCommandPayload} {key : String} {runId commandId now : ℕ}
    (pauseFound : s.findPause pause.id = some pause) (pending : pause.status = .pending)
    (parentFound : s.findRun parent.id = some parent) (paused : pause.runId = parent.id)
    (waiting : parent.status = .waitingHuman) (waitingTask : s.task.status = .waitingHuman)
    (members : s.membersOf pause.id ≠ [] ∧ ∀ m ∈ s.membersOf pause.id, m.status = .pending)
    (payloadPause : payload.pauseId = pause.id)
    (expiry : payload.expired → s.hasLive .respond = false)
    (h : s.acceptResponses pause parent payload (digests.respond payload) key runId commandId now =
      some s') : Requested digests s s' ∧ s'.lastType = some .respond := by
  obtain ⟨s₁, hinsert, h⟩ := Option.bind_eq_some_iff.mp h
  obtain ⟨hfreshRun, rfl⟩ := insertRun_eq_some hinsert
  obtain ⟨hfresh, rfl⟩ := insertCommand_eq_some h
  exact ⟨.answer pause parent payload key runId commandId now pauseFound pending parentFound paused
    waiting waitingTask members payloadPause expiry hfreshRun ⟨hfresh.id, hfresh.key⟩,
    lastType_append rfl rfl⟩

theorem respondInterrupts_requested {submission : InterruptResponsesSubmission} {key : String}
    {runId commandId now : ℕ}
    (h : s.respondInterrupts digests submission key runId commandId now = .ok (s', reply)) :
    s' = s ∨ Requested digests s s' ∧ s'.lastType = some .respond := by
  unfold respondInterrupts at h
  dsimp only at h
  split at h
  · cases h
  · rename_i pause hpause
    obtain ⟨-, hpauseId⟩ := Table.find_eq_some hpause
    obtain ⟨hempty, h⟩ := of_not_refused h
    obtain ⟨-, h⟩ := of_not_refused h
    obtain ⟨-, h⟩ := of_not_refused h
    split at h
    · cases h
    · split at h
      · split_ifs at h
        cases h
        exact .inl rfl
      · split at h
        · cases h
        · rename_i parent hparent
          obtain ⟨-, hparentId⟩ := Table.find_eq_some hparent
          obtain ⟨hmoot, h⟩ := of_not_refused h
          obtain ⟨-, h⟩ := of_not_refused h
          obtain ⟨hstatus, h⟩ := of_not_refused h
          split at h
          · cases h
          · rename_i s₁ haccept
            cases h
            simp only [not_or, not_not] at hmoot hstatus
            rw [← hpauseId] at hpause
            rw [← hparentId] at hparent
            refine .inr (acceptResponses_requested hpause hstatus.1 hparent hparentId.symm hmoot.1
              hmoot.2.2 ⟨?_, ?_⟩ rfl ?_ haccept)
            · simpa using hempty
            · simpa using hstatus.2
            · intro hexpired
              cases hexpired

theorem expireDueInterrupt_requested {pauseId runId commandId now : ℕ}
    (h : s.expireDueInterrupt digests pauseId runId commandId now = some s') :
    Requested digests s s' ∧ s'.lastType = some .respond := by
  obtain ⟨pause, hpause, h⟩ := Option.bind_eq_some_iff.mp h
  obtain ⟨-, hpauseId⟩ := Table.find_eq_some hpause
  split_ifs at h with hdue hlive
  obtain ⟨parent, hparent, h⟩ := Option.bind_eq_some_iff.mp h
  obtain ⟨-, hparentId⟩ := Table.find_eq_some hparent
  dsimp only at h
  split_ifs at h with hwaiting hmembers
  simp only [not_not] at hdue hwaiting
  rw [← hpauseId] at hpause
  rw [← hparentId] at hparent
  refine acceptResponses_requested hpause hdue.1 hparent hparentId.symm hwaiting hdue.2.2 ⟨?_, ?_⟩
    rfl (fun _ => by simpa using hlive) h
  · intro hempty
    simp [hempty] at hmembers
  · have hpending : s.membersOf pause.id ≠ [] ∧
        ∀ m ∈ s.membersOf pause.id, m.status = .pending := by simpa using hmembers
    exact hpending.2

end ServiceOperations

section Claims

variable (cfg : DispatcherConfig) (s : TaskStore) (now : ℕ)

/-- A command in the hands of a worker. -/
def dispatched (c : TaskCommand) (workerId : String) : TaskCommand :=
  { c with
    status := .dispatching
    leaseOwner := some workerId
    leaseExpiresAt := some (now + cfg.leaseSeconds)
    attempt := c.attempt + 1 }

/-- The lease on a command that was claimed with a run. -/
structure LeaseOf (task : TaskRow) (lease : CommandLease) (c : TaskCommand)
    (run : Option RunRow) : Prop where
  commandId : lease.commandId = c.id
  productRunId : lease.productRunId = run.map RunRow.id
  commandType : lease.commandType = c.commandType
  commandSequence : lease.commandSequence = c.sequence
  fenceToken : lease.fenceToken = c.attempt + 1
  respondPayload : lease.respondPayload = respondPayloadOf c
  forkPayload : lease.forkPayload = forkPayloadOf c
  taskType : lease.taskType = task.taskType
  unregistered : run.bind RunRow.officialRunId = none → c.commandType ≠ .cancelTask →
    lease.remoteHandle = none

/-- The run of a claimed submission that has none yet. -/
def firstRun (runId : ℕ) : RunRow :=
  { RunRow.new runId (s.maxAttempt + 1) .running with
    startedAt := some now
    lastHeartbeatAt := some now
    reconciliationDeadlineAt := some (now + cfg.maxRunSeconds) }

/-- Whether the claim of a command finds its run, or inserts the first one. -/
inductive Ensured (c : TaskCommand) (run : RunRow) : TaskStore → Prop where
  | found (claimed : s.claimedRun c = .run (some run)) : Ensured c run s
  | inserted (runId : ℕ) (submit : c.commandType = .submit) (none : s.latestRun = none)
      (fresh : s.FreshRun run) (first : run = s.firstRun cfg now runId) :
      Ensured c run { s with runs := s.runs ++ [run] }

/-- Why a claim cancels its command. -/
inductive Moot (c : TaskCommand) : Prop where
  | ended (runId : ℕ) (payload : c.payload = .cancelRun runId)
      (ended : ∀ run, s.findRun runId = some run → run.status.isTerminal)
  | superseded (submit : c.commandType = .submit) (cancel : s.hasLive .cancelTask)

/-- What `claim_next` can do. -/
inductive Claims : TaskStore → Option CommandLease → Prop where
  | idle : Claims s none
  | cancelled (c : TaskCommand) (next : s.nextCommand now = some c) (moot : s.Moot c) :
      Claims (s.putCommand (c.settle .cancelled)) none
  | failed (c : TaskCommand) (code errorType message : String) (run : Option RunRow)
      (s' : TaskStore) (next : s.nextCommand now = some c)
      (invalid : s.claimedRun c = .invalid code errorType message run)
      (fail : s.failInvalid cfg c code errorType message run now = some s') : Claims s' none
  | driven (c : TaskCommand) (workerId : String) (run : RunRow) (s₁ : TaskStore)
      (lease : CommandLease) (next : s.nextCommand now = some c) (drives : c.commandType.drives)
      (ensured : s.Ensured cfg now c run s₁) (leaseOf : LeaseOf s.task lease c (some run))
      (worker : lease.workerId = workerId)
      (proceeds : c.commandType = .submit → run.cancelRequestedAt.isSome →
        s.hasLive .cancelTask = false) :
      Claims { s₁ with
        task := { s.task with status := claimedTaskStatus c }
        runs := Table.put RunRow.id s₁.runs (driveRun cfg c.commandType run now)
        commands := Table.put TaskCommand.id s.commands (dispatched cfg now c workerId) }
        (some lease)
  | cancelling (c : TaskCommand) (workerId : String) (run : Option RunRow)
      (lease : CommandLease) (next : s.nextCommand now = some c)
      (cancels : c.commandType.drives = false) (claimed : s.claimedRun c = .run run)
      (leaseOf : LeaseOf s.task lease c run) (worker : lease.workerId = workerId) :
      Claims (s.putCommand (dispatched cfg now c workerId)) (some lease)

end Claims

section ClaimNext

variable {cfg : DispatcherConfig} {s s' : TaskStore} {now : ℕ}

theorem nextCommand_eq_some {c : TaskCommand} (h : s.nextCommand now = some c) :
    isClaimable s.task.status ∧ c ∈ s.commands ∧ c.isLive ∧
      ∀ d ∈ s.commands, d.isLive → c.sequence ≤ d.sequence := by
  unfold nextCommand at h
  split_ifs at h with hclaimable
  have hfound := List.find?_some h
  simp only [Bool.and_eq_true, Bool.not_eq_true', List.any_eq_false, decide_eq_true_eq,
    not_and] at hfound
  obtain ⟨hdue, hfirst⟩ := hfound
  refine ⟨hclaimable, List.mem_of_find?_eq_some h, ?_, ?_⟩
  · simp only [isDue, Bool.or_eq_true, Bool.and_eq_true, beq_iff_eq] at hdue
    obtain ⟨hstatus, -⟩ | ⟨hstatus, -⟩ := hdue <;> rw [TaskCommand.isLive, hstatus] <;> rfl
  · intro d hd hlive
    by_contra hlt
    exact hfirst d hd (by omega) hlive

/-- The claimed run of a command that asks for a cancellation, or resumes a task, exists. -/
theorem ensureRun_eq_some {c : TaskCommand} {before run : Option RunRow} {runId : ℕ}
    (hclaimed : s.claimedRun c = .run before)
    (h : s.ensureRun cfg c before runId now = some (s', run)) :
    (s' = s ∧ run = before) ∨ ∃ r, run = some r ∧ before = none ∧ c.commandType = .submit ∧
      s.Ensured cfg now c r s' ∧ r.cancelRequestedAt = none := by
  unfold ensureRun at h
  split at h
  · rename_i hsubmit
    obtain ⟨s₁, hinsert, hs⟩ := Option.map_eq_some_iff.mp h
    obtain ⟨hfresh, rfl⟩ := insertRun_eq_some hinsert
    cases hs
    right
    refine ⟨_, rfl, rfl, hsubmit, .inserted runId hsubmit ?_ hfresh rfl, rfl⟩
    cases hpayload : c.payload with
    | submit request => simpa [claimedRun, hpayload] using hclaimed
    | _ => simp [TaskCommand.commandType, hpayload, CommandPayload.commandType] at hsubmit
  · cases h
    exact .inl ⟨rfl, rfl⟩

theorem driveRun_id (cfg : DispatcherConfig) (type : CommandType) (run : RunRow) (now : ℕ) :
    (driveRun cfg type run now).id = run.id := by
  unfold driveRun
  dsimp only
  split_ifs <;> rfl

theorem handleOf_eq_none {run : RunRow} (h : run.officialRunId = none) :
    s.handleOf run = none := by
  unfold handleOf
  rw [h]
  cases run.officialAssistantId <;> cases s.officialThreadId <;> rfl

theorem driveRun_officialRunId (cfg : DispatcherConfig) (type : CommandType) (run : RunRow)
    (now : ℕ) : (driveRun cfg type run now).officialRunId = run.officialRunId := by
  unfold driveRun
  dsimp only
  split_ifs <;> rfl

theorem leaseCommand_eq_some {c : TaskCommand} {run : Option RunRow} {workerId : String}
    {lease : CommandLease} (h : s.leaseCommand cfg c run workerId now = some (s', lease)) :
    LeaseOf s.task lease c run ∧ lease.workerId = workerId ∧
      ((c.commandType.drives = false ∧ s' = s.putCommand (dispatched cfg now c workerId)) ∨
        c.commandType.drives ∧ ∃ r, run = some r ∧ s' = { s with
          task := { s.task with status := claimedTaskStatus c }
          runs := Table.put RunRow.id s.runs (driveRun cfg c.commandType r now)
          commands := Table.put TaskCommand.id s.commands (dispatched cfg now c workerId) }) := by
  unfold leaseCommand at h
  cases hdrives : c.commandType.drives with
  | false =>
      simp only [hdrives, Bool.false_and, Bool.false_eq_true, if_false] at h
      obtain ⟨-, h⟩ := Option.ite_none_left_eq_some.mp h
      cases h
      refine ⟨⟨rfl, rfl, rfl, rfl, rfl, rfl, rfl, by cases run <;> rfl, ?_⟩, rfl,
        .inl ⟨rfl, by cases run <;> rfl⟩⟩
      intro hunregistered htype
      dsimp only
      rw [if_neg htype]
      cases run with
      | none => rfl
      | some r => exact handleOf_eq_none hunregistered
  | true =>
      cases run with
      | none => simp [hdrives] at h
      | some r =>
          simp only [hdrives, Option.isNone_some, Bool.and_false, Bool.false_eq_true, if_false,
            if_true, Option.map_some] at h
          obtain ⟨-, h⟩ := Option.ite_none_left_eq_some.mp h
          cases h
          refine ⟨⟨rfl, ?_, rfl, rfl, rfl, rfl, rfl, rfl, ?_⟩, rfl, .inr ⟨rfl, r, rfl, rfl⟩⟩
          · exact congrArg some (driveRun_id cfg _ r now)
          · intro hunregistered htype
            dsimp only
            rw [if_neg htype]
            exact handleOf_eq_none ((driveRun_officialRunId cfg _ r now).trans hunregistered)

theorem claim_claims {c : TaskCommand} {workerId : String} {runId : ℕ}
    {lease : Option CommandLease} (hnext : s.nextCommand now = some c)
    (h : s.claim cfg c workerId runId now = some (s', lease)) : Claims cfg s now s' lease := by
  unfold claim at h
  cases hclaimed : s.claimedRun c with
  | moot =>
      rw [hclaimed] at h
      cases h
      refine .cancelled c hnext ?_
      unfold claimedRun at hclaimed
      cases hpayload : c.payload with
      | cancelRun id =>
          refine .ended id hpayload ?_
          intro run hrun
          simp only [hpayload, hrun] at hclaimed
          by_contra hactive
          simp [hactive] at hclaimed
      | respond payload =>
          simp only [hpayload] at hclaimed
          split at hclaimed <;> cases hclaimed
      | fork payload =>
          simp only [hpayload, validateFork] at hclaimed
          split at hclaimed
          · cases hclaimed
          · split_ifs at hclaimed
      | retry payload =>
          simp only [hpayload, validateRetry] at hclaimed
          split at hclaimed
          · cases hclaimed
          · split_ifs at hclaimed
      | submit request => simp [hpayload] at hclaimed
      | cancelTask id => simp [hpayload] at hclaimed
  | invalid code errorType message failed =>
      rw [hclaimed] at h
      obtain ⟨s₁, hfail, hs⟩ := Option.map_eq_some_iff.mp h
      cases hs
      exact .failed c code errorType message failed s' hnext hclaimed hfail
  | run before =>
      rw [hclaimed] at h
      obtain ⟨⟨s₁, run⟩, hensure, h⟩ := Option.bind_eq_some_iff.mp h
      have hensured := ensureRun_eq_some hclaimed hensure
      dsimp only at h
      split_ifs at h with hyields
      · cases h
        obtain ⟨rfl, rfl⟩ | ⟨r, rfl, -, -, -, hcancel⟩ := hensured
        · exact .cancelled c hnext (.superseded hyields.1 hyields.2.2)
        · simp [hcancel] at hyields
      · obtain ⟨⟨s₂, given⟩, hlease, h⟩ := Option.bind_eq_some_iff.mp h
        cases h
        obtain ⟨hleaseOf, hworker, ⟨hcancels, rfl⟩ | ⟨hdrives, r, rfl, rfl⟩⟩ :=
          leaseCommand_eq_some hlease
        · obtain ⟨rfl, rfl⟩ | ⟨r, -, -, hsubmit, -, -⟩ := hensured
          · exact .cancelling c workerId run given hnext hcancels hclaimed hleaseOf hworker
          · rw [hsubmit] at hcancels
            cases hcancels
        · obtain ⟨rfl, rfl⟩ | ⟨r', hr, -, -, hensured, hcancel⟩ := hensured
          · refine .driven c workerId r s₁ given hnext hdrives (.found hclaimed) hleaseOf hworker ?_
            intro hsubmit hcancel
            simpa [hsubmit, hcancel] using hyields
          · cases hr
            have hproceeds : c.commandType = .submit → r.cancelRequestedAt.isSome →
                s.hasLive .cancelTask = false := by
              intro _ hsome
              rw [hcancel] at hsome
              cases hsome
            cases hensured with
            | found hfound =>
                exact .driven c workerId r s given hnext hdrives (.found hfound) hleaseOf hworker
                  hproceeds
            | inserted runId hsubmit hnone hfresh hfirst =>
                exact .driven c workerId r _ given hnext hdrives
                  (.inserted runId hsubmit hnone hfresh hfirst) hleaseOf hworker hproceeds

theorem claimNext_claims {workerId : String} {runId : ℕ} {lease : Option CommandLease}
    (h : s.claimNext cfg workerId runId now = some (s', lease)) :
    Claims cfg s now s' lease := by
  unfold claimNext at h
  cases hnext : s.nextCommand now with
  | none =>
      rw [hnext] at h
      cases h
      exact .idle
  | some c =>
      rw [hnext] at h
      exact claim_claims hnext h

theorem latestRun_mem {run : RunRow} (h : s.latestRun = some run) : run ∈ s.runs :=
  List.mem_of_find?_eq_some h

/-- The run that a payload names, if it names one. -/
def target : CommandPayload → Option ℕ
  | .cancelRun runId => some runId
  | .fork payload => some payload.forkRunId
  | .retry payload => some payload.retryRunId
  | .submit _ | .respond _ | .cancelTask _ => none

/-- A claimed command is about the run that its payload names, or about the latest one. -/
theorem claimedRun_cases {c : TaskCommand} {run : Option RunRow}
    (h : s.claimedRun c = .run run) :
    (target c.payload = none ∧ run = s.latestRun) ∨
      ∃ runId r, target c.payload = some runId ∧ s.findRun runId = some r ∧ run = some r ∧
        (c.payload = .cancelRun runId → r.status.isTerminal = false) := by
  unfold claimedRun at h
  cases hpayload : c.payload with
  | submit request =>
      simp only [hpayload] at h
      exact .inl ⟨rfl, (Claimed.run.inj h).symm⟩
  | cancelTask id =>
      simp only [hpayload] at h
      exact .inl ⟨rfl, (Claimed.run.inj h).symm⟩
  | cancelRun id =>
      simp only [hpayload] at h
      cases hrun : s.findRun id with
      | none => simp [hrun] at h
      | some r =>
          simp only [hrun] at h
          split_ifs at h with hterminal
          cases h
          exact .inr ⟨id, r, rfl, hrun, rfl, fun _ => by simpa using hterminal⟩
  | respond payload =>
      simp only [hpayload] at h
      split at h
      · cases h
      · exact .inl ⟨rfl, (Claimed.run.inj h).symm⟩
  | fork payload =>
      simp only [hpayload, validateFork] at h
      split at h
      · cases h
      · rename_i payload' hvalid
        obtain ⟨-, -, -, hid⟩ := ForkCommandPayload.validate_eq_some.mp hvalid
        split_ifs at h with hlineage
        rw [Claimed.run.injEq] at h
        rw [Bool.and_eq_true, Option.any_eq_true] at hlineage
        obtain ⟨-, r, hr, -⟩ := hlineage
        refine .inr ⟨payload.forkRunId, r, rfl, hid ▸ hr, ?_, nofun⟩
        rw [← h, hr]
  | retry payload =>
      simp only [hpayload, validateRetry] at h
      split at h
      · cases h
      · rename_i payload' hvalid
        obtain ⟨-, rfl⟩ := RetryCommandPayload.validate_eq_some.mp hvalid
        split_ifs at h with hlineage
        rw [Claimed.run.injEq] at h
        rw [Bool.and_eq_true, Option.isSome_iff_exists] at hlineage
        obtain ⟨⟨r, hr⟩, -⟩ := hlineage
        exact .inr ⟨payload'.retryRunId, r, rfl, (Option.filter_eq_some_iff.mp hr).1,
          h.symm.trans hr, nofun⟩

/-- The run that is failed with an invalid command is the one it would have driven, or the latest
one. -/
theorem claimedRun_invalid_cases {c : TaskCommand} {code errorType message : String}
    {failed : Option RunRow} (h : s.claimedRun c = .invalid code errorType message failed) :
    failed = s.latestRun ∨ ∃ runId r, target c.payload = some runId ∧
      s.findRun runId = some r ∧ failed = some r ∧ c.commandType.drives := by
  have horElse : ∀ (o : Option RunRow), (o <|> s.latestRun) = s.latestRun ∨
      ∃ r, o = some r ∧ (o <|> s.latestRun) = some r := by
    intro o
    cases o with
    | none => exact .inl rfl
    | some r => exact .inr ⟨r, rfl, rfl⟩
  unfold claimedRun at h
  cases hpayload : c.payload with
  | submit request => simp [hpayload] at h
  | cancelTask id => simp [hpayload] at h
  | cancelRun id =>
      simp only [hpayload] at h
      split at h
      · cases h
      · split_ifs at h
  | respond payload =>
      simp only [hpayload] at h
      split at h
      · cases h
        exact .inl rfl
      · cases h
  | fork payload =>
      have hdrives : c.commandType.drives := by rw [TaskCommand.commandType, hpayload]; rfl
      simp only [hpayload, validateFork] at h
      split at h
      · cases h
        exact .inl rfl
      · rename_i payload' hvalid
        obtain ⟨-, -, -, hid⟩ := ForkCommandPayload.validate_eq_some.mp hvalid
        split_ifs at h
        cases h
        obtain hlatest | ⟨r, hr, hrun⟩ := horElse (s.findRun payload'.forkRunId)
        · exact .inl hlatest
        · exact .inr ⟨payload.forkRunId, r, rfl, hid ▸ hr, hrun, hdrives⟩
  | retry payload =>
      have hdrives : c.commandType.drives := by rw [TaskCommand.commandType, hpayload]; rfl
      simp only [hpayload, validateRetry] at h
      split at h
      · cases h
        exact .inl rfl
      · rename_i payload' hvalid
        obtain ⟨-, rfl⟩ := RetryCommandPayload.validate_eq_some.mp hvalid
        split_ifs at h
        cases h
        obtain hlatest | ⟨r, hr, hrun⟩ :=
          horElse ((s.findRun payload'.retryRunId).filter fun r =>
            r.retryOfRunId == some payload'.sourceRunId)
        · exact .inl hlatest
        · exact .inr ⟨payload'.retryRunId, r, rfl, (Option.filter_eq_some_iff.mp hr).1, hrun,
            hdrives⟩

/-- The run that a claim drives is among the rows, unless the claim inserts it. -/
theorem claimedRun_mem {c : TaskCommand} {run : RunRow} (h : s.claimedRun c = .run (some run)) :
    run ∈ s.runs := by
  obtain ⟨-, hlatest⟩ | ⟨runId, r, -, hfound, hrun, -⟩ := claimedRun_cases h
  · exact latestRun_mem hlatest.symm
  · cases hrun
    exact (Table.find_eq_some hfound).1

theorem claimedRun_invalid_mem {c : TaskCommand} {code errorType message : String}
    {failed : Option RunRow} (h : s.claimedRun c = .invalid code errorType message failed) :
    ∀ run, failed = some run → run ∈ s.runs := by
  intro run hrun
  obtain hlatest | ⟨runId, r, -, hfound, hfailed, -⟩ := claimedRun_invalid_cases h
  · exact latestRun_mem (hlatest.symm.trans hrun)
  · rw [hrun, Option.some.injEq] at hfailed
    rw [hfailed]
    exact (Table.find_eq_some hfound).1

/-- The run that a claim finds is the one its payload names. -/
theorem claimedRun_target {c : TaskCommand} {run : Option RunRow} {runId : ℕ}
    (h : s.claimedRun c = .run run) (htarget : target c.payload = some runId) :
    run.map RunRow.id = some runId := by
  obtain ⟨hnone, -⟩ | ⟨runId', r, hsome, hfound, hrun, -⟩ := claimedRun_cases h
  · rw [hnone] at htarget
    cases htarget
  · rw [hsome, Option.some.injEq] at htarget
    rw [hrun, Option.map_some, (Table.find_eq_some hfound).2, htarget]

/-- An invalid command fails the task, together with a run if there is one. -/
theorem failInvalid_eq_some {c : TaskCommand} {code errorType message : String}
    {failed : Option RunRow}
    (h : s.failInvalid cfg c code errorType message failed now = some s') :
    (failed = none ∧ s' = { s.putCommand (c.settle .failed) with
      task := { s.task with status := .failed, completedAt := some now } }) ∨
      ∃ run t l, failed = some run ∧ t.terminalStatus = .failed ∧
        LockedRows.Persisted cfg t now c.sequence true ((s.lock c run).settle .failed) l ∧
        s' = s.write l := by
  unfold failInvalid at h
  cases failed with
  | none =>
      cases h
      exact .inl ⟨rfl, rfl⟩
  | some run =>
      obtain ⟨rows, hrows, rfl⟩ := Option.map_eq_some_iff.mp h
      have hpersist : ((s.lock c run).settle .failed).persistFailed cfg code errorType false now
          c.sequence message none =
          some { (s.lock c run).settle .failed with toProjectedRows := rows } := by
        rw [LockedRows.persistFailed]
        exact Option.map_eq_some_iff.mpr ⟨rows, hrows, rfl⟩
      obtain ⟨t, ht, hp⟩ := LockedRows.persistFailed_eq_some hpersist
      exact .inr ⟨run, t, _, rfl, ht, hp, rfl⟩

end ClaimNext

section Relaxed

variable {s s' : TaskStore}

theorem Relaxed.refl (s : TaskStore) : s.Relaxed s :=
  ⟨rfl, List.forall₂_same.mpr fun r _ => .refl r, List.forall₂_same.mpr fun c _ => .refl c, rfl,
    rfl, .refl _⟩

theorem relaxed_putCommand (hk : s.Keyed) {c c' : TaskCommand} (hc : c ∈ s.commands)
    (h : c.Kept c') : s.Relaxed (s.putCommand c') :=
  ⟨rfl, List.forall₂_same.mpr fun r _ => .refl r,
    Table.forall₂_put TaskCommand.Kept.refl hk.commandIds hc h.id h, rfl, rfl, .refl _⟩

theorem releaseOwnedLeases_relaxed (workerId : String) (now : ℕ) :
    s.Relaxed (s.releaseOwnedLeases workerId now) := by
  refine ⟨rfl, List.forall₂_same.mpr fun r _ => .refl r, ?_, rfl, rfl, .refl _⟩
  rw [releaseOwnedLeases, List.forall₂_map_right_iff, List.forall₂_same]
  intro c _
  by_cases hc : c.status = .dispatching ∧ c.leaseOwner = some workerId
  · rw [if_pos hc]
    exact ⟨rfl, rfl, rfl, rfl, rfl, rfl, rfl⟩
  · rw [if_neg hc]
    exact .refl c

theorem reconcileClaim_relaxed (hk : s.Keyed) {commandId now staleBefore leaseExpiresAt : ℕ}
    {workerId : String} {lease : ReconciliationLease}
    (h : s.reconcileClaim commandId workerId now staleBefore leaseExpiresAt = some (s', lease)) :
    s.Relaxed s' := by
  obtain ⟨c, hc, h⟩ := Option.bind_eq_some_iff.mp h
  obtain ⟨run, -, h⟩ := Option.bind_eq_some_iff.mp h
  split_ifs at h
  cases h
  exact relaxed_putCommand hk (Table.find_eq_some hc).1 ⟨rfl, rfl, rfl, rfl, rfl, rfl, rfl⟩

theorem releaseReconciliation_relaxed (hk : s.Keyed) (lease : ReconciliationLease) (now : ℕ) :
    s.Relaxed (s.releaseReconciliation lease now).1 := by
  unfold releaseReconciliation
  split
  · exact .refl s
  · rename_i c hc
    split_ifs
    · exact relaxed_putCommand hk (Table.find_eq_some hc).1 ⟨rfl, rfl, rfl, rfl, rfl, rfl, rfl⟩
    · exact .refl s

/-- A transaction of the reconciler is relaxed if its body is. -/
theorem relaxed_of_underReconciliation (hk : s.Keyed) {lease : ReconciliationLease} {now : ℕ}
    {body : LockedRows → Option LockedRows} {b : Bool}
    (hbody : ∀ l l', body l = some l' → l'.task = l.task ∧ l.run.Quiet l'.run ∧
      l.command.Kept l'.command ∧ l'.pauses = l.pauses ∧ l'.members = l.members ∧
      l.outputs.SameArtifacts l'.outputs)
    (h : s.underReconciliation lease now body = some (s', b)) : s.Relaxed s' := by
  unfold underReconciliation at h
  cases hcommand : s.commands.find? fun c => c.isReconciledBy lease && c.isUnexpired now with
  | none =>
      simp only [hcommand, Option.some.injEq, Prod.mk.injEq] at h
      rw [← h.1]
      exact .refl s
  | some command =>
      have hmem := List.mem_of_find?_eq_some hcommand
      cases hrun : s.findRun lease.productRunId with
      | none =>
          simp only [hcommand, hrun, Option.some.injEq, Prod.mk.injEq] at h
          rw [← h.1]
          exact .refl s
      | some run =>
          simp only [hcommand, hrun] at h
          split_ifs at h
          · cases h
            exact .refl s
          · obtain ⟨l', hl, hs⟩ := Option.map_eq_some_iff.mp h
            cases hs
            obtain ⟨htask, hquiet, hkept, hpauses, hmembers, hartifacts⟩ := hbody _ _ hl
            exact ⟨htask,
              Table.forall₂_put RunRow.Quiet.refl hk.runIds (Table.find_eq_some hrun).1
                hquiet.id hquiet,
              Table.forall₂_put TaskCommand.Kept.refl hk.commandIds hmem hkept.id hkept, hpauses,
              hmembers, hartifacts⟩

theorem registerRemoteHandle_relaxed (hk : s.Keyed) {lease : ReconciliationLease}
    {handle : RemoteRunHandle} {now : ℕ} {b : Bool}
    (h : s.registerRemoteHandle lease handle now = some (s', b)) : s.Relaxed s' := by
  refine relaxed_of_underReconciliation hk ?_ h
  intro l l' hl
  split_ifs at hl
  cases hl
  exact ⟨rfl, ⟨⟨rfl, rfl, rfl, rfl, rfl, rfl⟩, ⟨rfl, rfl, rfl⟩, rfl, rfl, fun h => h,
    fun _ => rfl, .inl rfl⟩, ⟨rfl, rfl, rfl, rfl, rfl, rfl, rfl⟩, rfl, rfl, .refl _⟩

theorem observeRemoteAbsence_relaxed (hk : s.Keyed) {lease : ReconciliationLease} {now : ℕ}
    {b : Bool} (h : s.observeRemoteAbsence lease now = some (s', b)) : s.Relaxed s' := by
  refine relaxed_of_underReconciliation hk ?_ h
  intro l l' hl
  cases hl
  exact ⟨rfl, ⟨⟨rfl, rfl, rfl, rfl, rfl, rfl⟩, ⟨rfl, rfl, rfl⟩, rfl, rfl, fun h => h,
    fun h => h, .inl rfl⟩, .refl _, rfl, rfl, .refl _⟩

theorem observeRemoteState_relaxed (hk : s.Keyed) {lease : ReconciliationLease}
    {handle : RemoteRunHandle} {status : RemoteRunStatus} {now : ℕ} {b : Bool}
    (h : s.observeRemoteState lease handle status now = some (s', b)) : s.Relaxed s' := by
  refine relaxed_of_underReconciliation hk ?_ h
  intro l l' hl
  have hrows : l'.task = l.task ∧ l.run.Quiet l'.run ∧ l.command.Kept l'.command ∧
      l'.pauses = l.pauses ∧ l'.members = l.members ∧ l'.outputs = l.outputs := by
    dsimp only at hl
    split_ifs at hl
    split at hl
    · split_ifs at hl
      cases hl
      exact ⟨rfl, ⟨⟨rfl, rfl, rfl, rfl, rfl, rfl⟩, ⟨rfl, rfl, rfl⟩, rfl, rfl, fun h => h,
        fun h => h, .inl rfl⟩, ⟨rfl, rfl, rfl, rfl, rfl, rfl, rfl⟩, rfl, rfl, rfl⟩
    · cases hl
      exact ⟨rfl, ⟨⟨rfl, rfl, rfl, rfl, rfl, rfl⟩, ⟨rfl, rfl, rfl⟩, rfl, rfl, fun h => h,
        fun h => h, .inl rfl⟩, ⟨rfl, rfl, rfl, rfl, rfl, rfl, rfl⟩, rfl, rfl, rfl⟩
    · cases hl
  obtain ⟨htask, hquiet, hkept, hpauses, hmembers, houtputs⟩ := hrows
  refine ⟨htask, hquiet, hkept, hpauses, hmembers, ?_⟩
  rw [houtputs]
  exact .refl _

end Relaxed

section Change

/-- What a step under one of the given leases can do to the rows of a task. -/
inductive Change (cfg : DispatcherConfig) (digests : KeyDigests) (leases : List CommandLease)
    (s : TaskStore) : TaskStore → Option CommandLease → Prop where
  | relaxed {s' : TaskStore} (relaxed : s.Relaxed s') : Change cfg digests leases s s' none
  | requested {s' : TaskStore} (requested : Requested digests s s') :
      Change cfg digests leases s s' none
  | claimed {s' : TaskStore} {lease : Option CommandLease} (now : ℕ)
      (claims : Claims cfg s now s' lease) : Change cfg digests leases s s' lease
  | effect {lease : CommandLease} {command : TaskCommand} {run : RunRow} {l : LockedRows}
      (issued : lease ∈ leases) (locks : s.Locks lease command run)
      (effect : (s.lock command run).Effect cfg digests s lease l) :
      Change cfg digests leases s (s.write l) none
  | unassigned {s' : TaskStore} {lease : CommandLease} {command : TaskCommand}
      {status : CommandStatus} {task : TaskRow} (issued : lease ∈ leases)
      (unassigned : s.Unassigned lease command status task s') :
      Change cfg digests leases s s' none

end Change

end TaskStore

/-- A worker projects a succeeded output only with the artifact of its task type. -/
def Activation.Checked (a : Activation) : Prop :=
  ∀ t, a.pc = .finalizing t → a.lease.lacksArtifact t = false

namespace TaskState

variable {cfg : DispatcherConfig} {digests : KeyDigests} {t t' : TaskState}

/-- All leases that were ever given out. -/
def leases (t : TaskState) : List CommandLease := t.activations.map Activation.lease

theorem afterService_eq_some {result : ServiceResult} (h : t.afterService result = some t') :
    ∃ reply, result = .ok (t'.store, reply) ∧ t'.activations = t.activations ∧
      t'.reconciliations = t.reconciliations := by
  unfold afterService at h
  split at h
  · rename_i store reply
    cases h
    exact ⟨reply, rfl, rfl, rfl⟩
  · cases h

/-- A worker keeps its lease when it moves. -/
theorem leases_set {i : ℕ} {a : Activation} (ha : t.activations[i]? = some a) (pc : Pc) :
    (t.activations.set i ⟨a.lease, pc⟩).map Activation.lease = t.leases := by
  obtain ⟨hlt, rfl⟩ := List.getElem?_eq_some_iff.mp ha
  rw [leases, List.map_set]
  apply List.ext_getElem (by simp)
  intro j _ _
  rw [List.getElem_set]
  split_ifs with hij
  · subst hij
    rw [List.getElem_map]
  · rfl

/-- Every step makes one of the changes; a lease is given out only by a claim. -/
theorem step_change (hk : t.store.Keyed) (hchecked : ∀ a ∈ t.activations, a.Checked)
    {label : TaskLabel}
    (h : t.step cfg digests label = some t') :
    ∃ lease, TaskStore.Change cfg digests t.leases t.store t'.store lease ∧
      t'.leases = t.leases ++ lease.toList := by
  have service : ∀ {result : ServiceResult}, t.afterService result = some t' →
      (∀ s reply, result = .ok (s, reply) →
        s = t.store ∨ TaskStore.Requested digests t.store s) →
      ∃ lease, TaskStore.Change cfg digests t.leases t.store t'.store lease ∧
        t'.leases = t.leases ++ lease.toList := by
    intro result h hrequested
    obtain ⟨reply, hresult, hactivations, -⟩ := afterService_eq_some h
    refine ⟨none, ?_, by simp [leases, hactivations]⟩
    obtain hsame | hrequested := hrequested _ _ hresult
    · rw [hsame]
      exact .relaxed (.refl _)
    · exact .requested hrequested
  cases label with
  | cancelTask key commandId now =>
      exact service h fun _ _ h => (TaskStore.cancelTask_requested h).imp_right And.left
  | cancelRun runId key commandId now =>
      exact service h fun _ _ h => (TaskStore.cancelRun_requested h).imp_right And.left
  | retryTask key runId commandId =>
      exact service h fun _ _ h => (TaskStore.retryTask_requested h).imp_right And.left
  | forkTask sourceRunId checkpointId key runId commandId now =>
      exact service h fun _ _ h => (TaskStore.forkTask_requested h).imp_right And.left
  | respondInterrupts submission key runId commandId now =>
      exact service h fun _ _ h => (TaskStore.respondInterrupts_requested h).imp_right And.left
  | expire pauseId runId commandId now =>
      obtain ⟨store, hstore, rfl⟩ := Option.map_eq_some_iff.mp h
      exact ⟨none, .requested (TaskStore.expireDueInterrupt_requested hstore).1, by simp [leases]⟩
  | claim workerId runId now =>
      obtain ⟨⟨store, lease⟩, hstore, rfl⟩ := Option.map_eq_some_iff.mp h
      refine ⟨lease, .claimed now (TaskStore.claimNext_claims hstore), ?_⟩
      rw [leases, List.map_append, List.map_map]
      cases lease <;> rfl
  | execute i event now =>
      obtain ⟨a, ha, h⟩ := Option.bind_eq_some_iff.mp h
      obtain ⟨⟨store, pc⟩, hstore, h⟩ := Option.bind_eq_some_iff.mp h
      cases h
      have hissued : a.lease ∈ t.leases := List.mem_map_of_mem (List.mem_of_getElem? ha)
      refine ⟨none, ?_, ?_⟩
      · obtain (rfl | ⟨command, run, l, hlocks, heffect, rfl⟩) |
          ⟨command, status, task, hunassigned⟩ :=
            TaskStore.executeStep_cases (hchecked a (List.mem_of_getElem? ha)) hstore
        · exact .relaxed (.refl _)
        · exact .effect hissued hlocks heffect
        · exact .unassigned hissued hunassigned
      · rw [Option.toList_none, List.append_nil]
        exact leases_set ha pc
  | releaseOwned workerId now =>
      cases h
      exact ⟨none, .relaxed (TaskStore.releaseOwnedLeases_relaxed workerId now), by simp [leases]⟩
  | reconcile commandId workerId now staleBefore leaseExpiresAt =>
      obtain ⟨⟨store, lease⟩, hstore, rfl⟩ := Option.map_eq_some_iff.mp h
      exact ⟨none, .relaxed (TaskStore.reconcileClaim_relaxed hk hstore), by simp [leases]⟩
  | registerHandle i handle now =>
      obtain ⟨lease, -, h⟩ := Option.bind_eq_some_iff.mp h
      obtain ⟨⟨store, b⟩, hstore, h⟩ := Option.bind_eq_some_iff.mp h
      cases h
      exact ⟨none, .relaxed (TaskStore.registerRemoteHandle_relaxed hk hstore), by simp [leases]⟩
  | observeAbsence i now =>
      obtain ⟨lease, -, h⟩ := Option.bind_eq_some_iff.mp h
      obtain ⟨⟨store, b⟩, hstore, h⟩ := Option.bind_eq_some_iff.mp h
      cases h
      exact ⟨none, .relaxed (TaskStore.observeRemoteAbsence_relaxed hk hstore), by simp [leases]⟩
  | observeState i handle status now =>
      obtain ⟨lease, -, h⟩ := Option.bind_eq_some_iff.mp h
      obtain ⟨⟨store, b⟩, hstore, h⟩ := Option.bind_eq_some_iff.mp h
      cases h
      exact ⟨none, .relaxed (TaskStore.observeRemoteState_relaxed hk hstore), by simp [leases]⟩
  | releaseReconciled i now =>
      obtain ⟨lease, -, h⟩ := Option.bind_eq_some_iff.mp h
      cases h
      exact ⟨none, .relaxed (TaskStore.releaseReconciliation_relaxed hk lease now),
        by simp [leases]⟩

/-- What a step does to the workers: at most one is added, or makes a move. -/
inductive WorkerChange (cfg : DispatcherConfig) (digests : KeyDigests) (t t' : TaskState) :
    Prop where
  | same (activations : t'.activations = t.activations)
  | added (lease : CommandLease) (activations : t'.activations = t.activations ++ [⟨lease, .start⟩])
  | moved (i : ℕ) (a : Activation) (event : Event) (now : ℕ) (pc : Pc)
      (mem : t.activations[i]? = some a)
      (move : t.store.executeStep cfg digests a.lease now a.pc event = some (t'.store, pc))
      (activations : t'.activations = t.activations.set i ⟨a.lease, pc⟩)

theorem step_workers {label : TaskLabel} (h : t.step cfg digests label = some t') :
    WorkerChange cfg digests t t' := by
  have service : ∀ {result : ServiceResult}, t.afterService result = some t' →
      WorkerChange cfg digests t t' := by
    intro result h
    obtain ⟨-, -, hactivations, -⟩ := afterService_eq_some h
    exact .same hactivations
  cases label with
  | cancelTask key commandId now => exact service h
  | cancelRun runId key commandId now => exact service h
  | retryTask key runId commandId => exact service h
  | forkTask sourceRunId checkpointId key runId commandId now => exact service h
  | respondInterrupts submission key runId commandId now => exact service h
  | expire pauseId runId commandId now =>
      obtain ⟨store, -, rfl⟩ := Option.map_eq_some_iff.mp h
      exact .same rfl
  | claim workerId runId now =>
      obtain ⟨⟨store, lease⟩, -, rfl⟩ := Option.map_eq_some_iff.mp h
      cases lease with
      | none => exact .same (List.append_nil _)
      | some lease => exact .added lease rfl
  | execute i event now =>
      obtain ⟨a, ha, h⟩ := Option.bind_eq_some_iff.mp h
      obtain ⟨⟨store, pc⟩, hstore, h⟩ := Option.bind_eq_some_iff.mp h
      cases h
      exact .moved i a event now pc ha hstore rfl
  | releaseOwned workerId now =>
      cases h
      exact .same rfl
  | reconcile commandId workerId now staleBefore leaseExpiresAt =>
      obtain ⟨⟨store, lease⟩, -, rfl⟩ := Option.map_eq_some_iff.mp h
      exact .same rfl
  | registerHandle i handle now =>
      obtain ⟨lease, -, h⟩ := Option.bind_eq_some_iff.mp h
      obtain ⟨⟨store, b⟩, -, h⟩ := Option.bind_eq_some_iff.mp h
      cases h
      exact .same rfl
  | observeAbsence i now =>
      obtain ⟨lease, -, h⟩ := Option.bind_eq_some_iff.mp h
      obtain ⟨⟨store, b⟩, -, h⟩ := Option.bind_eq_some_iff.mp h
      cases h
      exact .same rfl
  | observeState i handle status now =>
      obtain ⟨lease, -, h⟩ := Option.bind_eq_some_iff.mp h
      obtain ⟨⟨store, b⟩, -, h⟩ := Option.bind_eq_some_iff.mp h
      cases h
      exact .same rfl
  | releaseReconciled i now =>
      obtain ⟨lease, -, h⟩ := Option.bind_eq_some_iff.mp h
      cases h
      exact .same rfl

/-- What holds of every worker that just started, and after every move, holds of all workers. -/
theorem forall_workers {p : Activation → Prop} {label : TaskLabel}
    (h : t.step cfg digests label = some t') (hp : ∀ a ∈ t.activations, p a)
    (hstart : ∀ lease, p ⟨lease, .start⟩)
    (hmove : ∀ a ∈ t.activations, ∀ event now pc, p a →
      t.store.executeStep cfg digests a.lease now a.pc event = some (t'.store, pc) →
      p ⟨a.lease, pc⟩) : ∀ a ∈ t'.activations, p a := by
  cases step_workers h with
  | same activations => rwa [activations]
  | added lease activations =>
      rw [activations]
      intro a ha
      obtain ha | ha := List.mem_append.mp ha
      · exact hp a ha
      · rw [List.mem_singleton.mp ha]
        exact hstart lease
  | moved i a event now pc mem move activations =>
      rw [activations]
      intro a' ha'
      have hmem := List.mem_of_getElem? mem
      obtain ha' | rfl := List.mem_or_eq_of_mem_set ha'
      · exact hp a' ha'
      · exact hmove a hmem event now pc (hp a hmem) move

end TaskState

end CryptoAlert
