import CryptoAlert.Api.RemoteInterrupts
import CryptoAlert.Lib.Table
import Mathlib.Data.List.ReduceOption

/-!
# What interrupt collection returns

A visit of a thread state comes down to a list of steps: a check that fails, a namespace that
gets its checkpoint id, an interrupt that is registered. What a run of steps leaves behind does
not depend on their order; only whether it runs to its end does.
-/

namespace CryptoAlert.AgentServer

inductive CollectStep (V : Type) where
  | fail (message : String)
  | lineage (nameSpace checkpointId : String)
  | interrupt (parsed : RemoteInterrupt V) (priority : ℕ)

namespace CollectStep

variable {V : Type} {α : Type}

/-- The steps behind a check. -/
def checked (check : Except String α) (steps : α → List (CollectStep V)) : List (CollectStep V) :=
  match check with
  | .error message => [.fail message]
  | .ok a => steps a

/-- Nothing fails by itself. -/
def Safe (steps : List (CollectStep V)) : Prop := ∀ message, .fail message ∉ steps

variable {check : Except String α} {f : α → List (CollectStep V)}

theorem checked_ok {a : α} (h : check = .ok a) : checked check f = f a := by
  rw [h, checked]

theorem Safe.checked (h : Safe (checked check f)) : ∃ a, check = .ok a ∧ Safe (f a) := by
  cases hcheck : check with
  | error message =>
      rw [hcheck] at h
      exact absurd (List.mem_singleton_self _) (h message)
  | ok a =>
      rw [hcheck] at h
      exact ⟨a, rfl, h⟩

theorem Safe.append {l l' : List (CollectStep V)} (h : Safe (l ++ l')) : Safe l ∧ Safe l' :=
  ⟨fun message hmem => h message (List.mem_append_left _ hmem),
    fun message hmem => h message (List.mem_append_right _ hmem)⟩

/-- A step that is no failure is behind the check. -/
theorem mem_checked {step : CollectStep V} (h : step ∈ CollectStep.checked check f)
    (hstep : ∀ message, step ≠ .fail message) : ∃ a, check = .ok a ∧ step ∈ f a := by
  cases hcheck : check with
  | error message =>
      rw [hcheck] at h
      exact absurd (List.mem_singleton.mp h) (hstep message)
  | ok a =>
      rw [hcheck] at h
      exact ⟨a, rfl, h⟩

end CollectStep

open CollectStep (checked Safe)

section Steps

variable {V : Type}

/-- The steps in which a checkpoint is merged. -/
def mergeSteps (root checkpoint : RemoteCheckpoint) (parentNamespace : Option String) :
    List (CollectStep V) :=
  checked (checkLineage root checkpoint parentNamespace) fun _ =>
    checked (checkAdvertised root checkpoint) fun _ =>
      (checkpoint.checkpointMap.items.flatMap fun item =>
        if isAncestorNamespace item.1 checkpoint.checkpointNs then [.lineage item.1 item.2]
        else [.fail "Agent Server checkpoint_map contains unrelated lineage"]) ++
      [.lineage checkpoint.checkpointNs checkpoint.checkpointId]

def mergeOptionalSteps (root : RemoteCheckpoint) (checkpoint : Option RemoteCheckpoint)
    (parentNamespace : String) : List (CollectStep V) :=
  match checkpoint with
  | none => []
  | some checkpoint => mergeSteps root checkpoint (some parentNamespace)

def registerSteps (checkpoint : RemoteCheckpoint) (priority : ℕ)
    (payload : Option (InterruptFields V)) : List (CollectStep V) :=
  checked (parseInterrupt payload checkpoint) fun parsed => [.interrupt parsed priority]

def interruptsSteps (depth : ℕ) (snapshot : RemoteCheckpoint)
    (stateCheckpoint ownCheckpoint : Option RemoteCheckpoint)
    (interrupts : Option (List (Option (InterruptFields V)))) : List (CollectStep V) :=
  if conflicts stateCheckpoint ownCheckpoint then
    [.fail "Agent Server task checkpoint conflicts with nested state"]
  else
    match interrupts with
    | none => [.fail "Agent Server Thread task returned invalid interrupts"]
    | some interrupts => interrupts.flatMap
        (registerSteps (taskCheckpoint depth snapshot stateCheckpoint ownCheckpoint).1
          (taskCheckpoint depth snapshot stateCheckpoint ownCheckpoint).2)

def TaskFields.steps (root : RemoteCheckpoint) (task : TaskFields V) (state : TaskState V)
    (depth : ℕ) (snapshot : RemoteCheckpoint) : List (CollectStep V) :=
  checked state.parseCheckpoint fun stateCheckpoint =>
    mergeOptionalSteps root stateCheckpoint snapshot.checkpointNs ++
      checked task.checkpoint.parse fun ownCheckpoint =>
        mergeOptionalSteps root ownCheckpoint snapshot.checkpointNs ++
          interruptsSteps depth snapshot stateCheckpoint ownCheckpoint task.interrupts

variable (root : RemoteCheckpoint)

mutual

def ThreadState.steps : ThreadState V → ℕ → Option String → List (CollectStep V)
  | .mk checkpoint next tasks, depth, parentNamespace =>
      checked checkpoint.parse fun snapshot =>
        mergeSteps root snapshot parentNamespace ++
          checked (pendingNodeNames next) fun pending =>
            match tasks with
            | none => [.fail "Agent Server Thread state returned invalid tasks"]
            | some tasks => ThreadTask.stepsAll tasks depth snapshot pending

def ThreadTask.stepsAll : List (ThreadTask V) → ℕ → RemoteCheckpoint → List String →
    List (CollectStep V)
  | [], _, _, _ => []
  | task :: tasks, depth, snapshot, pending =>
      task.steps depth snapshot pending ++ ThreadTask.stepsAll tasks depth snapshot pending

def ThreadTask.steps : ThreadTask V → ℕ → RemoteCheckpoint → List String → List (CollectStep V)
  | .invalid, _, _, _ => [.fail "Agent Server Thread state returned an invalid task"]
  | .mk task state, depth, snapshot, pending =>
      checked (taskName task.name) fun name =>
        if name ∈ pending then
          if task.hasResult then
            [.fail "Agent Server marked a completed task as still pending"]
          else
            task.steps root state depth snapshot ++ state.steps (depth + 1) snapshot.checkpointNs
        else []

def TaskState.steps : TaskState V → ℕ → String → List (CollectStep V)
  | .absent, _, _ => []
  | .invalid, _, _ => [.fail "Agent Server Thread task returned invalid state"]
  | .state snapshot, depth, parentNamespace => snapshot.steps depth (some parentNamespace)

end

end Steps

section Run

variable {V : Type} [DecidableEq V]

def Collected.step (c : Collected V) : CollectStep V → Except String (Collected V)
  | .fail message => .error message
  | .lineage nameSpace checkpointId =>
      (mapNamespace c.checkpointMap (nameSpace, checkpointId)).map fun checkpointMap =>
        { c with checkpointMap }
  | .interrupt parsed priority => c.keep parsed priority

def Collected.run (c : Collected V) (steps : List (CollectStep V)) :
    Except String (Collected V) :=
  steps.foldlM Collected.step c

namespace Collected

variable {c : Collected V} {root : RemoteCheckpoint}

theorem run_append (steps steps' : List (CollectStep V)) :
    c.run (steps ++ steps') = c.run steps >>= fun c => c.run steps' :=
  List.foldlM_append

theorem run_singleton (step : CollectStep V) : c.run [step] = c.step step := by
  rw [run, List.foldlM_cons]
  exact bind_pure (c.step step)

theorem run_checked {α : Type} (check : Except String α) (f : α → List (CollectStep V)) :
    c.run (checked check f) = check >>= fun a => c.run (f a) := by
  cases check with
  | error message => rfl
  | ok a => rfl

/-- A loop whose body is a run of steps. -/
theorem foldlM_eq_run {α : Type} {f : Collected V → α → Except String (Collected V)}
    {g : α → List (CollectStep V)} (h : ∀ c a, f c a = c.run (g a)) (l : List α) :
    l.foldlM f c = c.run (l.flatMap g) := by
  induction l generalizing c with
  | nil => rfl
  | cons a l ih =>
      rw [List.foldlM_cons, List.flatMap_cons, run_append, h]
      congr 1
      funext c
      exact ih

theorem merge_eq_run (checkpoint : RemoteCheckpoint) (parentNamespace : Option String) :
    c.merge root checkpoint parentNamespace = c.run (mergeSteps root checkpoint parentNamespace) := by
  have hitem : ∀ (items : List (String × String)) (c : Collected V),
      c.run (items.flatMap fun item =>
        if isAncestorNamespace item.1 checkpoint.checkpointNs then [.lineage item.1 item.2]
        else [.fail "Agent Server checkpoint_map contains unrelated lineage"]) =
      (items.foldlM (mapAncestor checkpoint.checkpointNs) c.checkpointMap).map fun checkpointMap =>
        { c with checkpointMap } := by
    intro items
    induction items with
    | nil => intro c; rfl
    | cons item items ih =>
        intro c
        rw [List.flatMap_cons, run_append, List.foldlM_cons, mapAncestor]
        by_cases hancestor : isAncestorNamespace item.1 checkpoint.checkpointNs = true
        · rw [if_pos hancestor, if_pos hancestor, run_singleton, step]
          cases mapNamespace c.checkpointMap item with
          | error message => rfl
          | ok checkpointMap => exact ih _
        · rw [if_neg hancestor, if_neg hancestor]
          rfl
  rw [merge, mergeCheckpoint, mergeSteps, run_checked]
  cases checkLineage root checkpoint parentNamespace with
  | error message => rfl
  | ok _ =>
      simp only [run_checked, run_append, hitem, run_singleton]
      cases checkAdvertised root checkpoint with
      | error message => rfl
      | ok _ =>
          change _ = (Except.map _ (List.foldlM _ _ _)) >>= _
          cases hfold : checkpoint.checkpointMap.items.foldlM (mapAncestor checkpoint.checkpointNs)
            c.checkpointMap with
          | error message => rfl
          | ok checkpointMap =>
              change (mapNamespace checkpointMap _ >>= fun checkpointMap =>
                Except.ok { c with checkpointMap }) = (mapNamespace checkpointMap _).map _
              cases mapNamespace checkpointMap (checkpoint.checkpointNs, checkpoint.checkpointId)
                with
              | error message => rfl
              | ok checkpointMap => rfl

theorem mergeOptional_eq_run (checkpoint : Option RemoteCheckpoint) (parentNamespace : String) :
    c.mergeOptional root checkpoint parentNamespace =
      c.run (mergeOptionalSteps root checkpoint parentNamespace) := by
  cases checkpoint with
  | none => rfl
  | some checkpoint => exact merge_eq_run checkpoint _

theorem register_eq_run (c : Collected V) (checkpoint : RemoteCheckpoint) (priority : ℕ)
    (payload : Option (InterruptFields V)) :
    c.register checkpoint priority payload = c.run (registerSteps checkpoint priority payload) := by
  rw [register, registerSteps, run_checked]
  cases parseInterrupt payload checkpoint with
  | error message => rfl
  | ok parsed => exact (run_singleton (.interrupt parsed priority)).symm

theorem collect_eq_run (task : TaskFields V) (state : TaskState V) (depth : ℕ)
    (snapshot : RemoteCheckpoint) :
    task.collect root state depth snapshot c = c.run (task.steps root state depth snapshot) := by
  rw [TaskFields.collect, TaskFields.steps, run_checked]
  congr 1
  funext stateCheckpoint
  rw [run_append, mergeOptional_eq_run]
  congr 1
  funext c
  rw [run_checked]
  congr 1
  funext ownCheckpoint
  rw [run_append, mergeOptional_eq_run]
  congr 1
  funext c
  unfold interruptsSteps
  by_cases hconflict : conflicts stateCheckpoint ownCheckpoint = true
  · rw [if_pos hconflict, if_pos hconflict]
    rfl
  · rw [if_neg hconflict, if_neg hconflict]
    cases task.interrupts with
    | none => rfl
    | some interrupts => exact foldlM_eq_run (fun c a => register_eq_run c _ _ a) interrupts

end Collected

variable {root : RemoteCheckpoint}

mutual

theorem ThreadState.visit_eq_run : (state : ThreadState V) → (depth : ℕ) →
    (parentNamespace : Option String) → (c : Collected V) →
    state.visit root depth parentNamespace c = c.run (state.steps root depth parentNamespace)
  | .mk checkpoint next tasks, depth, parentNamespace, c => by
      rw [ThreadState.visit, ThreadState.steps, Collected.run_checked]
      congr 1
      funext snapshot
      rw [Collected.run_append, Collected.merge_eq_run]
      congr 1
      funext c
      rw [Collected.run_checked]
      congr 1
      funext pending
      cases tasks with
      | none => rfl
      | some tasks => exact ThreadTask.visitAll_eq_run tasks depth snapshot pending c

theorem ThreadTask.visitAll_eq_run : (tasks : List (ThreadTask V)) → (depth : ℕ) →
    (snapshot : RemoteCheckpoint) → (pending : List String) → (c : Collected V) →
    ThreadTask.visitAll root tasks depth snapshot pending c =
      c.run (ThreadTask.stepsAll root tasks depth snapshot pending)
  | [], _, _, _, _ => rfl
  | task :: tasks, depth, snapshot, pending, c => by
      rw [ThreadTask.visitAll, ThreadTask.stepsAll, Collected.run_append,
        ThreadTask.visit_eq_run task depth snapshot pending c]
      congr 1
      funext c
      exact ThreadTask.visitAll_eq_run tasks depth snapshot pending c

theorem ThreadTask.visit_eq_run : (task : ThreadTask V) → (depth : ℕ) →
    (snapshot : RemoteCheckpoint) → (pending : List String) → (c : Collected V) →
    task.visit root depth snapshot pending c = c.run (task.steps root depth snapshot pending)
  | .invalid, _, _, _, _ => rfl
  | .mk task state, depth, snapshot, pending, c => by
      rw [ThreadTask.visit, ThreadTask.steps, Collected.run_checked]
      congr 1
      funext name
      by_cases hname : name ∈ pending
      · rw [if_pos hname, if_pos hname]
        by_cases hresult : task.hasResult = true
        · rw [if_pos hresult, if_pos hresult]
          rfl
        · rw [if_neg hresult, if_neg hresult, Collected.run_append, Collected.collect_eq_run]
          congr 1
          funext c
          exact TaskState.visit_eq_run state (depth + 1) snapshot.checkpointNs c
      · rw [if_neg hname, if_neg hname]
        rfl

theorem TaskState.visit_eq_run : (state : TaskState V) → (depth : ℕ) →
    (parentNamespace : String) → (c : Collected V) →
    state.visit root depth parentNamespace c = c.run (state.steps root depth parentNamespace)
  | .absent, _, _, _ => rfl
  | .invalid, _, _, _ => rfl
  | .state snapshot, depth, parentNamespace, c =>
      ThreadState.visit_eq_run snapshot depth (some parentNamespace) c

end

namespace Collected

/-- Where a collection starts: with the checkpoint of the root. -/
def start (root : RemoteCheckpoint) : Collected V where
  collected := .empty
  checkpointMap := Dict.empty.set "" root.checkpointId

/-- What a run of steps leaves behind. -/
structure Explains (root : RemoteCheckpoint) (c : Collected V) (steps : List (CollectStep V)) :
    Prop where
  safe : Safe steps
  mapped : ∀ nameSpace checkpointId, c.checkpointMap.get nameSpace = some checkpointId ↔
    (nameSpace = "" ∧ checkpointId = root.checkpointId) ∨ .lineage nameSpace checkpointId ∈ steps
  kept : ∀ i p, .interrupt i p ∈ steps → ∃ i' p', c.collected.get i.interruptId = some (i', p') ∧
    i'.value = i.value ∧ p ≤ p' ∧ (p = p' → i.coordinates = i'.coordinates)
  registered : ∀ id i p, c.collected.get id = some (i, p) →
    i.interruptId = id ∧ .interrupt i p ∈ steps

variable {c c' : Collected V} {steps : List (CollectStep V)}

omit [DecidableEq V] in
theorem explains_start : (start root : Collected V).Explains root [] where
  safe _ h := absurd h List.not_mem_nil
  mapped nameSpace checkpointId := by
    change (Dict.empty.set "" root.checkpointId).get nameSpace = some checkpointId ↔ _
    rw [Dict.get_set, Dict.get_empty]
    by_cases h : nameSpace = ""
    · rw [if_pos h]
      simp [h, eq_comm]
    · rw [if_neg h]
      simp [h]
  kept _ _ h := absurd h List.not_mem_nil
  registered id i p h := by cases (Dict.get_empty (κ := String)).symm.trans h

theorem mapNamespace_eq_ok {d d' : Dict String String} {item : String × String}
    (h : mapNamespace d item = .ok d') :
    d' = d.set item.1 item.2 ∧ ∀ current, d.get item.1 = some current → current = item.2 := by
  unfold mapNamespace at h
  cases hget : d.get item.1 with
  | none =>
      rw [hget] at h
      cases h
      exact ⟨rfl, fun _ h => by cases h⟩
  | some current =>
      rw [hget] at h
      dsimp only at h
      by_cases hcurrent : current = item.2
      · rw [if_pos hcurrent] at h
        cases h
        refine ⟨rfl, fun other hother => ?_⟩
        rw [← Option.some.inj hother]
        exact hcurrent
      · rw [if_neg hcurrent] at h
        cases h

theorem Explains.lineage {nameSpace checkpointId : String} (h : c.Explains root steps)
    (hstep : c.step (.lineage nameSpace checkpointId) = .ok c') :
    c'.Explains root (steps ++ [.lineage nameSpace checkpointId]) := by
  rw [Collected.step] at hstep
  cases hmap : mapNamespace c.checkpointMap (nameSpace, checkpointId) with
  | error message =>
      rw [hmap] at hstep
      cases hstep
  | ok d =>
      rw [hmap] at hstep
      cases hstep
      obtain ⟨rfl, hcurrent⟩ := mapNamespace_eq_ok hmap
      refine ⟨fun message hmem => ?_, fun other id => ?_, fun i p hi => ?_, fun id i p hi => ?_⟩
      · rcases List.mem_append.mp hmem with hmem | hmem
        · exact h.safe message hmem
        · cases List.mem_singleton.mp hmem
      · rw [Dict.get_set, List.mem_append, List.mem_singleton]
        by_cases hother : other = nameSpace
        · rw [if_pos hother, hother]
          constructor
          · intro hid
            cases hid
            exact .inr (.inr rfl)
          · intro hid
            rw [← or_assoc, ← h.mapped nameSpace id] at hid
            rcases hid with hid | hid
            · rw [hcurrent id hid]
            · cases hid
              rfl
        · rw [if_neg hother, h.mapped other id]
          simp [hother]
      · rcases List.mem_append.mp hi with hi | hi
        · exact h.kept i p hi
        · cases List.mem_singleton.mp hi
      · obtain ⟨hid, hmem⟩ := h.registered id i p hi
        exact ⟨hid, List.mem_append_left _ hmem⟩

theorem keep_cases {i : RemoteInterrupt V} {p : ℕ} (h : c.keep i p = .ok c') :
    (∃ e q, c.collected.get i.interruptId = some (e, q) ∧ e.value = i.value ∧
      (p = q → i.coordinates = e.coordinates) ∧ p ≤ q ∧ c' = c) ∨
    ((∀ e q, c.collected.get i.interruptId = some (e, q) → e.value = i.value ∧ q < p) ∧
      c' = { c with collected := c.collected.set i.interruptId (i, p) }) := by
  unfold keep at h
  cases hget : c.collected.get i.interruptId with
  | none =>
      rw [hget] at h
      cases h
      exact .inr ⟨fun _ _ he => (Option.some_ne_none _ he.symm).elim, rfl⟩
  | some existing =>
      obtain ⟨e, q⟩ := existing
      rw [hget] at h
      dsimp only at h
      by_cases hvalue : e.value = i.value
      · rw [if_neg (not_not.mpr hvalue)] at h
        by_cases hclash : p = q ∧ i.coordinates ≠ e.coordinates
        · rw [if_pos hclash] at h
          cases h
        · rw [if_neg hclash] at h
          by_cases hlt : q < p
          · rw [if_pos hlt] at h
            cases h
            refine .inr ⟨fun e' q' he => ?_, rfl⟩
            cases he
            exact ⟨hvalue, hlt⟩
          · rw [if_neg hlt] at h
            cases h
            refine .inl ⟨e, q, rfl, hvalue, fun hp => ?_, Nat.le_of_not_lt hlt, rfl⟩
            by_contra hne
            exact hclash ⟨hp, hne⟩
      · rw [if_pos hvalue] at h
        cases h

theorem Explains.interrupt {i : RemoteInterrupt V} {p : ℕ} (h : c.Explains root steps)
    (hstep : c.keep i p = .ok c') : c'.Explains root (steps ++ [.interrupt i p]) := by
  have hsafe : Safe (steps ++ [.interrupt i p]) := by
    intro message hmem
    rcases List.mem_append.mp hmem with hmem | hmem
    · exact h.safe message hmem
    · cases List.mem_singleton.mp hmem
  have hmapped : ∀ nameSpace checkpointId,
      c.checkpointMap.get nameSpace = some checkpointId ↔
        (nameSpace = "" ∧ checkpointId = root.checkpointId) ∨
          .lineage nameSpace checkpointId ∈ steps ++ [CollectStep.interrupt i p] := by
    intro nameSpace checkpointId
    rw [h.mapped, List.mem_append, List.mem_singleton]
    simp
  rcases keep_cases hstep with ⟨e, q, hget, hvalue, hclash, hle, rfl⟩ | ⟨hfree, rfl⟩
  · refine ⟨hsafe, hmapped, fun j r hj => ?_, fun id j r hj => ?_⟩
    · rcases List.mem_append.mp hj with hj | hj
      · exact h.kept j r hj
      · cases List.mem_singleton.mp hj
        exact ⟨e, q, hget, hvalue, hle, hclash⟩
    · obtain ⟨hid, hmem⟩ := h.registered id j r hj
      exact ⟨hid, List.mem_append_left _ hmem⟩
  · refine ⟨hsafe, hmapped, fun j r hj => ?_, fun id j r hj => ?_⟩
    · rcases List.mem_append.mp hj with hj | hj
      · obtain ⟨e, q, hget, hvalue, hle, hclash⟩ := h.kept j r hj
        by_cases hid : j.interruptId = i.interruptId
        · rw [hid] at hget
          obtain ⟨hsame, hlt⟩ := hfree e q hget
          refine ⟨i, p, by rw [hid]; exact Dict.get_set_self, hsame.symm.trans hvalue, by omega,
            fun hp => by omega⟩
        · exact ⟨e, q, (Dict.get_set_of_ne hid).trans hget, hvalue, hle, hclash⟩
      · cases List.mem_singleton.mp hj
        exact ⟨i, p, Dict.get_set_self, rfl, le_rfl, fun _ => rfl⟩
    · change (c.collected.set i.interruptId (i, p)).get id = some (j, r) at hj
      by_cases hid : id = i.interruptId
      · rw [hid, Dict.get_set_self] at hj
        cases hj
        exact ⟨hid.symm, List.mem_append_right _ (List.mem_singleton_self _)⟩
      · rw [Dict.get_set_of_ne hid] at hj
        obtain ⟨hmemId, hmem⟩ := h.registered id j r hj
        exact ⟨hmemId, List.mem_append_left _ hmem⟩

theorem Explains.step {s : CollectStep V} (h : c.Explains root steps) (hstep : c.step s = .ok c') :
    c'.Explains root (steps ++ [s]) := by
  cases s with
  | fail message => cases hstep
  | lineage nameSpace checkpointId => exact h.lineage hstep
  | interrupt i p => exact h.interrupt hstep

theorem explains_run (h : (start root).run steps = .ok c) : c.Explains root steps := by
  induction steps using List.reverseRecOn generalizing c with
  | nil =>
      cases h
      exact explains_start
  | append_singleton steps step ih =>
      rw [run_append] at h
      cases hrun : (start root).run steps with
      | error message =>
          rw [hrun] at h
          cases h
      | ok b =>
          rw [hrun] at h
          change b.run [step] = .ok c at h
          rw [run_singleton] at h
          exact (ih hrun).step h

end Collected

end Run

section Pending

variable {V : Type}

/-- An interrupt that waits in a thread: what it holds, the checkpoint in which it was raised
and the level of that checkpoint. -/
structure PendingInterrupt (V : Type) where
  fields : InterruptFields V
  checkpoint : CheckpointPayload
  level : ℕ

/-- The checkpoint in which the interrupts of a task are raised: its own one or that of the
subgraph it runs, which lie a level above the one of the state the task belongs to. -/
def TaskFields.raisedIn (task : TaskFields V) (state : TaskState V) (depth : ℕ)
    (snapshot : CheckpointPayload) : CheckpointPayload × ℕ :=
  match task.checkpoint, state with
  | .checkpoint own, _ => (own, depth * 2 + 1)
  | _, .state s => (s.checkpoint, depth * 2 + 1)
  | _, _ => (snapshot, depth * 2)

def TaskFields.raised (task : TaskFields V) (state : TaskState V) (depth : ℕ)
    (snapshot : CheckpointPayload) : List (PendingInterrupt V) :=
  (task.interrupts.getD []).reduceOption.map fun fields =>
    { fields
      checkpoint := (task.raisedIn state depth snapshot).1
      level := (task.raisedIn state depth snapshot).2 }

mutual

/-- The interrupts of all tasks that are still to run, in a state at a depth of the tree. -/
def ThreadState.pending : ThreadState V → ℕ → List (PendingInterrupt V)
  | .mk checkpoint next tasks, depth =>
      match tasks with
      | none => []
      | some tasks => ThreadTask.pendingAll tasks depth checkpoint (next.getD [])

def ThreadTask.pendingAll : List (ThreadTask V) → ℕ → CheckpointPayload → List (Option String) →
    List (PendingInterrupt V)
  | [], _, _, _ => []
  | task :: tasks, depth, snapshot, next =>
      task.pending depth snapshot next ++ ThreadTask.pendingAll tasks depth snapshot next

def ThreadTask.pending : ThreadTask V → ℕ → CheckpointPayload → List (Option String) →
    List (PendingInterrupt V)
  | .invalid, _, _, _ => []
  | .mk task state, depth, snapshot, next =>
      if task.name ∈ next then
        task.raised state depth snapshot ++ state.pending (depth + 1)
      else []

def TaskState.pending : TaskState V → ℕ → List (PendingInterrupt V)
  | .absent, _ => []
  | .invalid, _ => []
  | .state snapshot, depth => snapshot.pending depth

end

/-- The interrupt is the pending one, as it is returned. -/
structure PendingInterrupt.Gives (x : PendingInterrupt V) (i : RemoteInterrupt V) : Prop where
  id : x.fields.id.map stripSpaces = some i.interruptId
  value : x.fields.value = some i.value
  nameSpace : x.checkpoint.checkpointNs = some i.nameSpace
  checkpointId : x.checkpoint.checkpointId = some i.checkpointId

/-- What the steps register, in their order. -/
def registrations (steps : List (CollectStep V)) : List (RemoteInterrupt V × ℕ) :=
  steps.filterMap fun step =>
    match step with
    | .interrupt parsed priority => some (parsed, priority)
    | _ => none

theorem registrations_append (l l' : List (CollectStep V)) :
    registrations (l ++ l') = registrations l ++ registrations l' :=
  List.filterMap_append

theorem registrations_interrupt {i : RemoteInterrupt V} {p : ℕ} {l : List (CollectStep V)} :
    registrations (.interrupt i p :: l) = (i, p) :: registrations l := rfl

theorem mem_registrations {steps : List (CollectStep V)} {i : RemoteInterrupt V} {p : ℕ} :
    (i, p) ∈ registrations steps ↔ .interrupt i p ∈ steps := by
  rw [registrations, List.mem_filterMap]
  constructor
  · rintro ⟨step, hmem, hstep⟩
    cases step with
    | fail message => cases hstep
    | lineage nameSpace checkpointId => cases hstep
    | interrupt j q =>
        cases hstep
        exact hmem
  · intro h
    exact ⟨_, h, rfl⟩

/-- What is registered is the pending interrupt, at its level. -/
def Records (entry : RemoteInterrupt V × ℕ) (x : PendingInterrupt V) : Prop :=
  x.level = entry.2 ∧ x.Gives entry.1

theorem checkpointValue_eq_ok {value : Option String} {fieldName s : String} {allowEmpty : Bool}
    (h : checkpointValue value fieldName allowEmpty = .ok s) : value = some s := by
  cases value with
  | none => cases h
  | some value =>
      rw [checkpointValue] at h
      split_ifs at h
      cases h
      rfl

theorem CheckpointPayload.parse_eq_ok {payload : CheckpointPayload} {checkpoint : RemoteCheckpoint}
    (h : payload.parse = .ok checkpoint) :
    payload.threadId = some checkpoint.threadId ∧
      payload.checkpointNs = some checkpoint.checkpointNs ∧
      payload.checkpointId = some checkpoint.checkpointId := by
  unfold CheckpointPayload.parse at h
  cases hmap : payload.checkpointMap.parse with
  | error message => rw [hmap] at h; cases h
  | ok checkpointMap =>
      rw [hmap] at h
      cases hthread : checkpointValue payload.threadId "thread_id" false with
      | error message => rw [hthread] at h; cases h
      | ok threadId =>
          rw [hthread] at h
          cases hns : checkpointValue payload.checkpointNs "checkpoint_ns" true with
          | error message => rw [hns] at h; cases h
          | ok checkpointNs =>
              rw [hns] at h
              cases hid : checkpointValue payload.checkpointId "checkpoint_id" false with
              | error message => rw [hid] at h; cases h
              | ok checkpointId =>
                  rw [hid] at h
                  cases h
                  exact ⟨checkpointValue_eq_ok hthread, checkpointValue_eq_ok hns,
                    checkpointValue_eq_ok hid⟩

theorem parseInterrupt_eq_ok {payload : Option (InterruptFields V)} {checkpoint : RemoteCheckpoint}
    {i : RemoteInterrupt V} (h : parseInterrupt payload checkpoint = .ok i) :
    i.coordinates = (checkpoint.checkpointNs, checkpoint.checkpointId) ∧
      ∃ fields, payload = some fields ∧ fields.id.map stripSpaces = some i.interruptId ∧
        fields.value = some i.value := by
  cases payload with
  | none => cases h
  | some fields =>
      unfold parseInterrupt at h
      dsimp only at h
      cases hid : fields.id with
      | none => rw [hid] at h; cases h
      | some id =>
          rw [hid] at h
          dsimp only at h
          split_ifs at h
          cases hvalue : fields.value with
          | none => rw [hvalue] at h; cases h
          | some value =>
              rw [hvalue] at h
              cases h
              exact ⟨rfl, fields, rfl, by rw [hid]; rfl, hvalue⟩

theorem interruptsSteps_some {depth : ℕ} {snapshot : RemoteCheckpoint}
    {stateCheckpoint ownCheckpoint : Option RemoteCheckpoint}
    {interrupts : List (Option (InterruptFields V))}
    (h : ¬conflicts stateCheckpoint ownCheckpoint = true) :
    interruptsSteps depth snapshot stateCheckpoint ownCheckpoint (some interrupts) =
      interrupts.flatMap
        (registerSteps (taskCheckpoint depth snapshot stateCheckpoint ownCheckpoint).1
          (taskCheckpoint depth snapshot stateCheckpoint ownCheckpoint).2) := by
  unfold interruptsSteps
  rw [if_neg h]

open CollectStep in
theorem mem_registerSteps {payload : Option (InterruptFields V)} {checkpoint : RemoteCheckpoint}
    {i : RemoteInterrupt V} {p priority : ℕ}
    (h : .interrupt i p ∈ registerSteps checkpoint priority payload) :
    p = priority ∧ parseInterrupt payload checkpoint = .ok i := by
  obtain ⟨parsed, hparse, hmem⟩ := mem_checked h (by rintro _ ⟨⟩)
  cases List.mem_singleton.mp hmem
  exact ⟨rfl, hparse⟩

variable {root : RemoteCheckpoint}

/-- Merging a checkpoint maps its namespace and registers nothing. -/
theorem mem_mergeSteps {checkpoint : RemoteCheckpoint} {parentNamespace : Option String}
    (h : Safe (mergeSteps root checkpoint parentNamespace : List (CollectStep V))) :
    .lineage checkpoint.checkpointNs checkpoint.checkpointId ∈
      (mergeSteps root checkpoint parentNamespace : List (CollectStep V)) := by
  obtain ⟨_, hlineage, h⟩ := h.checked
  obtain ⟨_, hadvertised, h⟩ := h.checked
  rw [mergeSteps, CollectStep.checked_ok hlineage, CollectStep.checked_ok hadvertised]
  exact List.mem_append_right _ (List.mem_singleton_self _)

open CollectStep in
theorem not_mem_mergeSteps {checkpoint : RemoteCheckpoint} {parentNamespace : Option String}
    {i : RemoteInterrupt V} {p : ℕ} :
    .interrupt i p ∉ (mergeSteps root checkpoint parentNamespace : List (CollectStep V)) := by
  intro h
  obtain ⟨_, -, h⟩ := mem_checked h (by rintro _ ⟨⟩)
  obtain ⟨_, -, h⟩ := mem_checked h (by rintro _ ⟨⟩)
  rcases List.mem_append.mp h with h | h
  · obtain ⟨item, -, h⟩ := List.mem_flatMap.mp h
    split_ifs at h
    · cases List.mem_singleton.mp h
    · cases List.mem_singleton.mp h
  · cases List.mem_singleton.mp h

theorem not_mem_mergeOptionalSteps {checkpoint : Option RemoteCheckpoint}
    {parentNamespace : String} {i : RemoteInterrupt V} {p : ℕ} :
    .interrupt i p ∉
      (mergeOptionalSteps root checkpoint parentNamespace : List (CollectStep V)) := by
  cases checkpoint with
  | none => exact List.not_mem_nil
  | some checkpoint => exact not_mem_mergeSteps

/-- The checkpoint of the payloads is the one under which the interrupts of a task are kept. -/
theorem taskCheckpoint_spec {task : TaskFields V} {state : TaskState V} (depth : ℕ)
    {payload : CheckpointPayload} {snapshot : RemoteCheckpoint}
    {stateCheckpoint ownCheckpoint : Option RemoteCheckpoint}
    (hsnapshot : payload.parse = .ok snapshot)
    (hstate : state.parseCheckpoint = .ok stateCheckpoint)
    (hown : task.checkpoint.parse = .ok ownCheckpoint) :
    (task.raisedIn state depth payload).1.parse =
        .ok (taskCheckpoint depth snapshot stateCheckpoint ownCheckpoint).1 ∧
      (task.raisedIn state depth payload).2 =
        (taskCheckpoint depth snapshot stateCheckpoint ownCheckpoint).2 := by
  unfold TaskFields.raisedIn
  cases hcheckpoint : task.checkpoint with
  | invalid => rw [hcheckpoint] at hown; cases hown
  | checkpoint own =>
      rw [hcheckpoint] at hown
      cases hparse : own.parse with
      | error message => rw [TaskCheckpointPayload.parse, hparse] at hown; cases hown
      | ok parsed =>
          rw [TaskCheckpointPayload.parse, hparse] at hown
          cases hown
          exact ⟨rfl, rfl⟩
  | absent =>
      rw [hcheckpoint] at hown
      cases hown
      cases state with
      | absent =>
          cases hstate
          exact ⟨hsnapshot, rfl⟩
      | invalid =>
          cases hstate
          exact ⟨hsnapshot, rfl⟩
      | state s =>
          cases hparse : s.checkpoint.parse with
          | error message => rw [TaskState.parseCheckpoint, hparse] at hstate; cases hstate
          | ok parsed =>
              rw [TaskState.parseCheckpoint, hparse] at hstate
              cases hstate
              exact ⟨rfl, rfl⟩

variable {task : TaskFields V} {state : TaskState V} {depth : ℕ} {snapshot : RemoteCheckpoint}

open CollectStep in
/-- Where the interrupts among the steps of a task come from. -/
theorem mem_taskSteps {i : RemoteInterrupt V} {p : ℕ}
    (h : .interrupt i p ∈ task.steps root state depth snapshot) :
    ∃ stateCheckpoint ownCheckpoint, state.parseCheckpoint = .ok stateCheckpoint ∧
      task.checkpoint.parse = .ok ownCheckpoint ∧
      p = (taskCheckpoint depth snapshot stateCheckpoint ownCheckpoint).2 ∧
      ∃ payload ∈ task.interrupts.getD [], parseInterrupt payload
        (taskCheckpoint depth snapshot stateCheckpoint ownCheckpoint).1 = .ok i := by
  obtain ⟨stateCheckpoint, hstate, h⟩ := mem_checked h (by rintro _ ⟨⟩)
  rcases List.mem_append.mp h with h | h
  · exact absurd h not_mem_mergeOptionalSteps
  obtain ⟨ownCheckpoint, hown, h⟩ := mem_checked h (by rintro _ ⟨⟩)
  rcases List.mem_append.mp h with h | h
  · exact absurd h not_mem_mergeOptionalSteps
  unfold interruptsSteps at h
  split_ifs at h
  · cases List.mem_singleton.mp h
  · cases hinterrupts : task.interrupts with
    | none =>
        rw [hinterrupts] at h
        cases List.mem_singleton.mp h
    | some interrupts =>
        rw [hinterrupts] at h
        obtain ⟨payload, hpayload, h⟩ := List.mem_flatMap.mp h
        obtain ⟨hp, hparse⟩ := mem_registerSteps h
        exact ⟨stateCheckpoint, ownCheckpoint, hstate, hown, hp, payload, hpayload, hparse⟩

/-- Merging a checkpoint registers nothing. -/
theorem registrations_eq_nil {l : List (CollectStep V)} (h : ∀ i p, .interrupt i p ∉ l) :
    registrations l = [] := by
  rw [List.eq_nil_iff_forall_not_mem]
  rintro ⟨i, p⟩ hmem
  exact h i p (mem_registrations.mp hmem)

/-- A list of interrupts is registered in its order. -/
theorem registrations_interrupts {payload : CheckpointPayload} {checkpoint : RemoteCheckpoint}
    {priority : ℕ} (hcheckpoint : payload.parse = .ok checkpoint)
    {interrupts : List (Option (InterruptFields V))}
    (hsafe : Safe (interrupts.flatMap (registerSteps checkpoint priority))) :
    List.Forall₂ Records (registrations (interrupts.flatMap (registerSteps checkpoint priority)))
      (interrupts.reduceOption.map fun fields => ⟨fields, payload, priority⟩) := by
  induction interrupts with
  | nil => exact .nil
  | cons raw interrupts ih =>
      rw [List.flatMap_cons] at hsafe ⊢
      obtain ⟨hfirst, hrest⟩ := hsafe.append
      obtain ⟨i, hparse, -⟩ := hfirst.checked
      obtain ⟨hcoordinates, fields, rfl, hid, hvalue⟩ := parseInterrupt_eq_ok hparse
      obtain ⟨-, hns, hcheckpointId⟩ := CheckpointPayload.parse_eq_ok hcheckpoint
      rw [registerSteps, CollectStep.checked_ok hparse, List.singleton_append,
        registrations_interrupt, List.reduceOption_cons_of_some, List.map_cons]
      refine .cons ⟨rfl, hid, hvalue, ?_, ?_⟩ (ih hrest)
      · exact hns.trans (congrArg some (congrArg Prod.fst hcoordinates).symm)
      · exact hcheckpointId.trans (congrArg some (congrArg Prod.snd hcoordinates).symm)

theorem registrations_task {payload : CheckpointPayload} (hsnapshot : payload.parse = .ok snapshot)
    (hsafe : Safe (task.steps root state depth snapshot)) :
    List.Forall₂ Records (registrations (task.steps root state depth snapshot))
      (task.raised state depth payload) := by
  unfold TaskFields.steps at hsafe ⊢
  obtain ⟨stateCheckpoint, hstate, hsafe⟩ := hsafe.checked
  obtain ⟨ownCheckpoint, hown, hsafe⟩ := hsafe.append.2.checked
  have hsafe := hsafe.append.2
  rw [CollectStep.checked_ok hstate, CollectStep.checked_ok hown, registrations_append,
    registrations_append, registrations_eq_nil fun _ _ => not_mem_mergeOptionalSteps,
    registrations_eq_nil fun _ _ => not_mem_mergeOptionalSteps, List.nil_append, List.nil_append]
  obtain ⟨hcheckpoint, hlevel⟩ := taskCheckpoint_spec depth hsnapshot hstate hown
  by_cases hconflict : conflicts stateCheckpoint ownCheckpoint = true
  · unfold interruptsSteps at hsafe
    rw [if_pos hconflict] at hsafe
    exact absurd (List.mem_singleton_self _) (hsafe _)
  · unfold TaskFields.raised
    cases hinterrupts : task.interrupts with
    | none =>
        unfold interruptsSteps at hsafe
        rw [if_neg hconflict, hinterrupts] at hsafe
        exact absurd (List.mem_singleton_self _) (hsafe _)
    | some interrupts =>
        rw [hinterrupts, interruptsSteps_some hconflict] at hsafe
        rw [interruptsSteps_some hconflict, hlevel, Option.getD_some]
        exact registrations_interrupts hcheckpoint hsafe

theorem pendingNodeNames_mem {next : Option (List (Option String))} {pending : List String}
    (h : pendingNodeNames next = .ok pending) {name : String} :
    name ∈ pending ↔ some name ∈ next.getD [] := by
  cases next with
  | none => cases h
  | some next =>
      change next.mapM nodeName = .ok pending at h
      induction next generalizing pending with
      | nil =>
          cases h
          simp
      | cons node next ih =>
          rw [List.mapM_cons] at h
          cases hnode : nodeName node with
          | error message => rw [hnode] at h; cases h
          | ok first =>
              rw [hnode] at h
              cases hrest : next.mapM nodeName with
              | error message => rw [hrest] at h; cases h
              | ok rest =>
                  rw [hrest] at h
                  cases h
                  have hfirst : node = some first := by
                    cases node with
                    | none => cases hnode
                    | some node =>
                        rw [nodeName] at hnode
                        split_ifs at hnode
                        cases hnode
                        rfl
                  have ih := ih hrest
                  rw [Option.getD_some] at ih ⊢
                  rw [List.mem_cons, List.mem_cons, hfirst, ih, Option.some_inj]

theorem taskName_eq_ok {name : Option String} {s : String} (h : taskName name = .ok s) :
    name = some s := by
  cases name with
  | none => cases h
  | some name =>
      rw [taskName] at h
      split_ifs at h
      cases h
      rfl

/-- The steps register the pending interrupts in their order. -/
def Mirrors (steps : List (CollectStep V)) (pending : List (PendingInterrupt V)) : Prop :=
  Safe steps → List.Forall₂ Records (registrations steps) pending

theorem Mirrors.append {l l' : List (CollectStep V)} {m m' : List (PendingInterrupt V)}
    (h : Mirrors l m) (h' : Mirrors l' m') : Mirrors (l ++ l') (m ++ m') := by
  intro hsafe
  rw [registrations_append]
  exact List.rel_append (h hsafe.append.1) (h' hsafe.append.2)

/-- Steps that register nothing mirror a tree without pending interrupts. -/
theorem mirrors_nil {l : List (CollectStep V)} (h : ∀ i p, .interrupt i p ∉ l) :
    Mirrors l [] := by
  intro _
  rw [registrations_eq_nil h]
  exact .nil

theorem Mirrors.after {l l' : List (CollectStep V)} {m : List (PendingInterrupt V)}
    (h : Mirrors l' m) (hl : ∀ i p, .interrupt i p ∉ l) : Mirrors (l ++ l') m :=
  (mirrors_nil hl).append h

/-- Steps that fail mirror whatever they cut off. -/
theorem mirrors_fail (message : String) (m : List (PendingInterrupt V)) :
    Mirrors [.fail message] m :=
  fun hsafe => absurd (List.mem_singleton_self _) (hsafe message)

theorem mirrors_checked {α : Type} {check : Except String α} {f : α → List (CollectStep V)}
    {m : List (PendingInterrupt V)} (h : ∀ a, check = .ok a → Mirrors (f a) m) :
    Mirrors (checked check f) m := by
  cases hcheck : check with
  | error message => exact mirrors_fail message m
  | ok a => exact h a hcheck

mutual

theorem ThreadState.mirrors : (state : ThreadState V) → (depth : ℕ) →
    (parentNamespace : Option String) →
    Mirrors (state.steps root depth parentNamespace) (state.pending depth)
  | .mk checkpoint next tasks, depth, parentNamespace => by
      rw [ThreadState.steps]
      apply mirrors_checked
      intro snapshot hsnapshot
      apply Mirrors.after _ fun i p => not_mem_mergeSteps
      apply mirrors_checked
      intro pending hpending
      cases tasks with
      | none => exact mirrors_fail _ _
      | some tasks => exact ThreadTask.mirrorsAll tasks depth hsnapshot hpending

theorem ThreadTask.mirrorsAll : (tasks : List (ThreadTask V)) → (depth : ℕ) →
    {checkpoint : CheckpointPayload} → {snapshot : RemoteCheckpoint} →
    {next : Option (List (Option String))} → {pending : List String} →
    checkpoint.parse = .ok snapshot → pendingNodeNames next = .ok pending →
    Mirrors (ThreadTask.stepsAll root tasks depth snapshot pending)
      (ThreadTask.pendingAll tasks depth checkpoint (next.getD []))
  | [], _, _, _, _, _, _, _ => mirrors_nil fun _ _ => List.not_mem_nil
  | task :: tasks, depth, _, _, _, _, hsnapshot, hpending => by
      rw [ThreadTask.stepsAll, ThreadTask.pendingAll]
      exact (ThreadTask.mirrors task depth hsnapshot hpending).append
        (ThreadTask.mirrorsAll tasks depth hsnapshot hpending)

theorem ThreadTask.mirrors : (task : ThreadTask V) → (depth : ℕ) →
    {checkpoint : CheckpointPayload} → {snapshot : RemoteCheckpoint} →
    {next : Option (List (Option String))} → {pending : List String} →
    checkpoint.parse = .ok snapshot → pendingNodeNames next = .ok pending →
    Mirrors (task.steps root depth snapshot pending) (task.pending depth checkpoint (next.getD []))
  | .invalid, _, _, _, _, _, _, _ => mirrors_fail _ _
  | .mk task state, depth, checkpoint, snapshot, next, pending, hsnapshot, hpending => by
      rw [ThreadTask.steps, ThreadTask.pending]
      apply mirrors_checked
      intro name hname
      rw [taskName_eq_ok hname]
      have hnext : name ∈ pending ↔ some name ∈ next.getD [] := pendingNodeNames_mem hpending
      by_cases hmem : name ∈ pending
      · rw [if_pos hmem, if_pos (hnext.mp hmem)]
        by_cases hresult : task.hasResult = true
        · rw [if_pos hresult]
          exact mirrors_fail _ _
        · rw [if_neg hresult]
          apply Mirrors.append _ (TaskState.mirrors state (depth + 1) snapshot.checkpointNs)
          exact registrations_task hsnapshot
      · rw [if_neg hmem, if_neg (mt hnext.mpr hmem)]
        exact mirrors_nil fun _ _ => List.not_mem_nil

theorem TaskState.mirrors : (state : TaskState V) → (depth : ℕ) → (parentNamespace : String) →
    Mirrors (state.steps root depth parentNamespace) (state.pending depth)
  | .absent, _, _ => mirrors_nil fun _ _ => List.not_mem_nil
  | .invalid, _, _ => mirrors_fail _ _
  | .state snapshot, depth, parentNamespace =>
      ThreadState.mirrors snapshot depth (some parentNamespace)

end

open CollectStep in
theorem mem_mergeOptionalSteps {checkpoint : RemoteCheckpoint}
    {stateCheckpoint ownCheckpoint : Option RemoteCheckpoint}
    (hstate : state.parseCheckpoint = .ok stateCheckpoint)
    (hown : task.checkpoint.parse = .ok ownCheckpoint)
    (hcheckpoint : ownCheckpoint.or stateCheckpoint = some checkpoint)
    (hsafe : Safe (task.steps root state depth snapshot)) :
    .lineage checkpoint.checkpointNs checkpoint.checkpointId ∈
      task.steps root state depth snapshot := by
  rw [TaskFields.steps, checked_ok hstate] at hsafe ⊢
  obtain ⟨hmerge, hsafe⟩ := hsafe.append
  rw [checked_ok hown] at hsafe ⊢
  obtain ⟨hmerge', -⟩ := hsafe.append
  cases ownCheckpoint with
  | some own =>
      cases hcheckpoint
      exact List.mem_append_right _ (List.mem_append_left _ (mem_mergeSteps hmerge'))
  | none =>
      cases hcheckpoint
      exact List.mem_append_left _ (mem_mergeSteps hmerge)

/-- A task registers its interrupts in a checkpoint it maps, or in that of its state. -/
theorem lineage_of_task (hsafe : Safe (task.steps root state depth snapshot))
    {i : RemoteInterrupt V} {p : ℕ} (h : .interrupt i p ∈ task.steps root state depth snapshot) :
    .lineage i.nameSpace i.checkpointId ∈ task.steps root state depth snapshot ∨
      i.coordinates = (snapshot.checkpointNs, snapshot.checkpointId) := by
  obtain ⟨stateCheckpoint, ownCheckpoint, hstate, hown, -, payload, -, hparse⟩ := mem_taskSteps h
  obtain ⟨hcoordinates, -⟩ := parseInterrupt_eq_ok hparse
  cases hcheckpoint : ownCheckpoint.or stateCheckpoint with
  | none =>
      rw [taskCheckpoint, hcheckpoint] at hcoordinates
      exact .inr hcoordinates
  | some checkpoint =>
      rw [taskCheckpoint, hcheckpoint] at hcoordinates
      have hlineage := mem_mergeOptionalSteps hstate hown hcheckpoint hsafe
      have hns : i.nameSpace = checkpoint.checkpointNs := congrArg Prod.fst hcoordinates
      have hid : i.checkpointId = checkpoint.checkpointId := congrArg Prod.snd hcoordinates
      rw [hns, hid]
      exact .inl hlineage

mutual

theorem ThreadState.lineage : (state : ThreadState V) → (depth : ℕ) →
    (parentNamespace : Option String) → Safe (state.steps root depth parentNamespace) →
    ∀ i p, .interrupt i p ∈ state.steps root depth parentNamespace →
      .lineage i.nameSpace i.checkpointId ∈ state.steps root depth parentNamespace
  | .mk checkpoint next tasks, depth, parentNamespace, hsafe, i, p, hi => by
      rw [ThreadState.steps] at hsafe hi ⊢
      obtain ⟨snapshot, hsnapshot, hsafe⟩ := hsafe.checked
      rw [CollectStep.checked_ok hsnapshot] at hi ⊢
      obtain ⟨hmerge, hsafe⟩ := hsafe.append
      have hi := (List.mem_append.mp hi).resolve_left not_mem_mergeSteps
      obtain ⟨pending, hpending, hsafe⟩ := hsafe.checked
      rw [CollectStep.checked_ok hpending] at hi ⊢
      cases tasks with
      | none => cases List.mem_singleton.mp hi
      | some tasks =>
          rcases ThreadTask.lineageAll tasks depth snapshot pending hsafe i p hi with hmem | heq
          · exact List.mem_append_right _ hmem
          · have hns : i.nameSpace = snapshot.checkpointNs := congrArg Prod.fst heq
            have hid : i.checkpointId = snapshot.checkpointId := congrArg Prod.snd heq
            rw [hns, hid]
            exact List.mem_append_left _ (mem_mergeSteps hmerge)

theorem ThreadTask.lineageAll : (tasks : List (ThreadTask V)) → (depth : ℕ) →
    (snapshot : RemoteCheckpoint) → (pending : List String) →
    Safe (ThreadTask.stepsAll root tasks depth snapshot pending) →
    ∀ i p, .interrupt i p ∈ ThreadTask.stepsAll root tasks depth snapshot pending →
      .lineage i.nameSpace i.checkpointId ∈
          ThreadTask.stepsAll root tasks depth snapshot pending ∨
        i.coordinates = (snapshot.checkpointNs, snapshot.checkpointId)
  | [], _, _, _, _, _, _, hi => absurd hi List.not_mem_nil
  | task :: tasks, depth, snapshot, pending, hsafe, i, p, hi => by
      rw [ThreadTask.stepsAll] at hsafe hi ⊢
      obtain ⟨hfirst, hrest⟩ := hsafe.append
      rcases List.mem_append.mp hi with hi | hi
      · exact (ThreadTask.lineage task depth snapshot pending hfirst i p hi).imp_left
          (List.mem_append_left _)
      · exact (ThreadTask.lineageAll tasks depth snapshot pending hrest i p hi).imp_left
          (List.mem_append_right _)

theorem ThreadTask.lineage : (task : ThreadTask V) → (depth : ℕ) →
    (snapshot : RemoteCheckpoint) → (pending : List String) →
    Safe (task.steps root depth snapshot pending) →
    ∀ i p, .interrupt i p ∈ task.steps root depth snapshot pending →
      .lineage i.nameSpace i.checkpointId ∈ task.steps root depth snapshot pending ∨
        i.coordinates = (snapshot.checkpointNs, snapshot.checkpointId)
  | .invalid, _, _, _, _, _, _, hi => by cases List.mem_singleton.mp hi
  | .mk task state, depth, snapshot, pending, hsafe, i, p, hi => by
      rw [ThreadTask.steps] at hsafe hi ⊢
      obtain ⟨name, hname, hsafe⟩ := hsafe.checked
      rw [CollectStep.checked_ok hname] at hi ⊢
      by_cases hmem : name ∈ pending
      · rw [if_pos hmem] at hsafe hi ⊢
        by_cases hresult : task.hasResult = true
        · rw [if_pos hresult] at hi
          cases List.mem_singleton.mp hi
        · rw [if_neg hresult] at hsafe hi ⊢
          obtain ⟨hown, hnested⟩ := hsafe.append
          rcases List.mem_append.mp hi with hi | hi
          · exact (lineage_of_task hown hi).imp_left (List.mem_append_left _)
          · exact .inl (List.mem_append_right _ (TaskState.lineage state (depth + 1)
              snapshot.checkpointNs hnested i p hi))
      · rw [if_neg hmem] at hi
        exact absurd hi List.not_mem_nil

theorem TaskState.lineage : (state : TaskState V) → (depth : ℕ) → (parentNamespace : String) →
    Safe (state.steps root depth parentNamespace) →
    ∀ i p, .interrupt i p ∈ state.steps root depth parentNamespace →
      .lineage i.nameSpace i.checkpointId ∈ state.steps root depth parentNamespace
  | .absent, _, _, _, _, _, hi => absurd hi List.not_mem_nil
  | .invalid, _, _, _, _, _, hi => by cases List.mem_singleton.mp hi
  | .state snapshot, depth, parentNamespace, hsafe, i, p, hi =>
      ThreadState.lineage snapshot depth (some parentNamespace) hsafe i p hi

end

end Pending

section Collection

variable {V : Type}

/-- The set names every pending interrupt of the thread once, in the checkpoint in which it was
raised: where an id is pending several times, the deepest one. -/
structure RemoteInterruptSet.Covers (set : RemoteInterruptSet V) (state : ThreadState V) :
    Prop where
  distinct : (set.interrupts.map RemoteInterrupt.interruptId).Nodup
  complete : ∀ x ∈ state.pending 0, ∃ i ∈ set.interrupts,
    x.fields.id.map stripSpaces = some i.interruptId ∧ x.fields.value = some i.value
  root : state.checkpoint.checkpointNs = some "" ∧ ∃ checkpointId,
    state.checkpoint.checkpointId = some checkpointId ∧
      set.checkpoint.checkpointMap.get "" = some checkpointId
  mapped : ∀ i ∈ set.interrupts,
    set.checkpoint.checkpointMap.get i.nameSpace = some i.checkpointId
  raised : ∀ i ∈ set.interrupts, ∃ x ∈ state.pending 0, x.Gives i ∧
    ∀ y ∈ state.pending 0, y.fields.id.map stripSpaces = some i.interruptId → y.level ≤ x.level

variable [DecidableEq V] {state : ThreadState V} {expectedThreadId : String}

theorem collectRemoteInterrupts_eq_ok {set : RemoteInterruptSet V} :
    collectRemoteInterrupts state expectedThreadId = .ok set ↔
      ∃ root c, state.checkpoint.parse = .ok root ∧ root.threadId = expectedThreadId ∧
        root.checkpointNs = "" ∧ (Collected.start root).run (state.steps root 0 none) = .ok c ∧
        set = { checkpoint := { root with checkpointMap := c.checkpointMap }
                interrupts := c.collected.items.map fun item => item.2.1 } := by
  unfold collectRemoteInterrupts
  cases hparse : state.checkpoint.parse with
  | error message =>
      constructor
      · rintro ⟨⟩
      · rintro ⟨root, c, hroot, -⟩
        cases hroot
  | ok root =>
      change (if root.threadId ≠ expectedThreadId then _ else _) = _ ↔ _
      by_cases hthread : root.threadId = expectedThreadId
      · rw [if_neg (not_not.mpr hthread)]
        by_cases hns : root.checkpointNs = ""
        · rw [if_neg (not_not.mpr hns)]
          change (state.visit root 0 none (Collected.start root) >>= fun c => _) = _ ↔ _
          rw [ThreadState.visit_eq_run]
          cases hrun : (Collected.start root).run (state.steps root 0 none) with
          | error message =>
              constructor
              · rintro ⟨⟩
              · rintro ⟨root', c, hroot, -, -, hc, -⟩
                cases hroot
                rw [hrun] at hc
                cases hc
          | ok c =>
              constructor
              · intro h
                cases h
                exact ⟨root, c, rfl, hthread, hns, hrun, rfl⟩
              · rintro ⟨root', c', hroot, -, -, hc, rfl⟩
                cases hroot
                rw [hrun] at hc
                cases hc
                rfl
        · rw [if_pos hns]
          constructor
          · rintro ⟨⟩
          · rintro ⟨root', c, hroot, -, hns', -⟩
            cases hroot
            exact absurd hns' hns
      · rw [if_pos hthread]
        constructor
        · rintro ⟨⟩
        · rintro ⟨root', c, hroot, hthread', -⟩
          cases hroot
          exact absurd hthread' hthread

/-- A successful collection returns every pending interrupt of a thread state of any depth, and
its map leads to the checkpoints in which they were raised. -/
theorem interrupts_covered (state : ThreadState V) (expectedThreadId : String)
    (set : RemoteInterruptSet V)
    (h : collectRemoteInterrupts state expectedThreadId = .ok set) : set.Covers state := by
  obtain ⟨root, c, hparse, -, hns, hrun, rfl⟩ := collectRemoteInterrupts_eq_ok.mp h
  have hexplains := Collected.explains_run hrun
  have hmirrors := ThreadState.mirrors state 0 none hexplains.safe
  obtain ⟨-, hrootNs, hrootId⟩ := CheckpointPayload.parse_eq_ok hparse
  have hitem : ∀ i, i ∈ c.collected.items.map (fun item => item.2.1) →
      ∃ p, c.collected.get i.interruptId = some (i, p) ∧
        .interrupt i p ∈ state.steps root 0 none := by
    intro i hi
    obtain ⟨⟨id, j, p⟩, hmem, rfl⟩ := List.mem_map.mp hi
    have hget := Dict.get_eq_some_iff.mpr hmem
    obtain ⟨rfl, hstep⟩ := hexplains.registered id j p hget
    exact ⟨p, hget, hstep⟩
  constructor
  · have hids : (c.collected.items.map fun item => item.2.1).map RemoteInterrupt.interruptId =
        c.collected.items.map Prod.fst := by
      rw [List.map_map]
      apply List.map_congr_left
      rintro ⟨id, i, p⟩ hmem
      exact (hexplains.registered id i p (Dict.get_eq_some_iff.mpr hmem)).1
    rw [hids]
    exact c.collected.nodup
  · intro x hx
    obtain ⟨⟨i, q⟩, hi, -, hgives⟩ := Table.exists_of_forall₂ hmirrors hx
    obtain ⟨j, p, hget, hvalue, -, -⟩ := hexplains.kept i q (mem_registrations.mp hi)
    have hid := (hexplains.registered _ j p hget).1
    refine ⟨j, List.mem_map.mpr ⟨_, Dict.get_eq_some_iff.mp hget, rfl⟩, ?_, ?_⟩
    · rw [hid]
      exact hgives.id
    · rw [hvalue]
      exact hgives.value
  · refine ⟨by rw [hrootNs, hns], root.checkpointId, hrootId, ?_⟩
    exact (hexplains.mapped "" root.checkpointId).mpr (.inl ⟨rfl, rfl⟩)
  · intro i hi
    obtain ⟨p, -, hstep⟩ := hitem i hi
    exact (hexplains.mapped _ _).mpr
      (.inr (ThreadState.lineage state 0 none hexplains.safe i p hstep))
  · intro i hi
    obtain ⟨p, hget, hstep⟩ := hitem i hi
    obtain ⟨x, hx, hlevel, hgives⟩ :=
      Table.exists_of_forall₂' hmirrors (mem_registrations.mpr hstep)
    refine ⟨x, hx, hgives, fun y hy hid => ?_⟩
    obtain ⟨⟨j, r⟩, hj, hlevelJ, hgivesJ⟩ := Table.exists_of_forall₂ hmirrors hy
    obtain ⟨k, q, hk, -, hle, -⟩ := hexplains.kept j r (mem_registrations.mp hj)
    have hsame : i.interruptId = j.interruptId := Option.some.inj (hid.symm.trans hgivesJ.id)
    rw [← hsame, hget] at hk
    cases hk
    rw [hlevel, hlevelJ]
    exact hle

end Collection

/-- A root whose subgraph has raised an interrupt, which the root shows as well. -/
def nestedState : ThreadState ℕ :=
  .mk ⟨some "thread", some "", some "root", .absent⟩ (some [some "review"]) (some [
    .mk { name := some "review", hasResult := false, checkpoint := .absent
          interrupts := some [some ⟨some "approve", some 7⟩] }
      (.state (.mk
        ⟨some "thread", some "review:1", some "child",
          .items [(some "", some "root"), (some "review:1", some "child")]⟩
        (some [some "ask"])
        (some [.mk { name := some "ask", hasResult := false, checkpoint := .absent
                     interrupts := some [some ⟨some "approve", some 7⟩] } .absent])))])

example : ((collectRemoteInterrupts nestedState "thread").toOption.map fun set =>
    set.interrupts.map RemoteInterrupt.coordinates) = some [("review:1", "child")] := by
  decide +kernel

theorem interrupts_covered_nested :
    ∃ set, collectRemoteInterrupts nestedState "thread" = .ok set ∧ set.Covers nestedState := by
  have hok : (collectRemoteInterrupts nestedState "thread").isOk = true := by decide +kernel
  cases h : collectRemoteInterrupts nestedState "thread" with
  | error message => rw [h] at hok; cases hok
  | ok set => exact ⟨set, rfl, interrupts_covered nestedState "thread" set h⟩

end CryptoAlert.AgentServer
