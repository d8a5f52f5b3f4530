import CryptoAlert.Api.InterruptCollection
import CryptoAlert.Lib.Clashes
import Mathlib.Data.List.Perm.Basic

/-!
# Interrupt collection and the order of tasks

A run of steps fails for reasons that do not depend on the order of the steps, and where two
registrations of an interrupt clash before a deeper one replaces them. So reordering the tasks
of a tree keeps the outcome exactly when every such clash is hidden in every order.
-/

namespace CryptoAlert.AgentServer

open CollectStep (Safe)

section Run

variable {V : Type}

/-- Registrations by the id of the interrupt, their priority and the checkpoint. -/
def registrationLabels : Labelling (RemoteInterrupt V × ℕ) String (String × String) where
  key entry := entry.1.interruptId
  level entry := entry.2
  place entry := entry.1.coordinates

namespace Collected

/-- The entries of the map that the steps and the root ask for. -/
def Maps (root : RemoteCheckpoint) (steps : List (CollectStep V))
    (nameSpace checkpointId : String) : Prop :=
  (nameSpace = "" ∧ checkpointId = root.checkpointId) ∨ .lineage nameSpace checkpointId ∈ steps

/-- The steps do not fail by themselves and do not contradict each other. -/
structure Consistent (root : RemoteCheckpoint) (steps : List (CollectStep V)) : Prop where
  safe : Safe steps
  lineage : ∀ nameSpace id id', Maps root steps nameSpace id → Maps root steps nameSpace id' →
    id = id'
  values : ∀ i p j q, .interrupt i p ∈ steps → .interrupt j q ∈ steps →
    i.interruptId = j.interruptId → i.value = j.value

variable [DecidableEq V] {root : RemoteCheckpoint} {steps steps' : List (CollectStep V)}
  {c : Collected V}

omit [DecidableEq V] in
theorem Consistent.mono (h : Consistent root steps) (hsub : steps' ⊆ steps) :
    Consistent root steps' where
  safe message hmem := h.safe message (hsub hmem)
  lineage nameSpace id id' hid hid' := h.lineage nameSpace id id' (hid.imp_right (@hsub _))
    (hid'.imp_right (@hsub _))
  values i p j q hi hj := h.values i p j q (hsub hi) (hsub hj)

omit [DecidableEq V] in
theorem Explains.consistent (h : c.Explains root steps) : Consistent root steps where
  safe := h.safe
  lineage nameSpace id id' hid hid' := by
    have hget := (h.mapped nameSpace id).mpr hid
    rw [(h.mapped nameSpace id').mpr hid'] at hget
    exact (Option.some.inj hget).symm
  values i p j q hi hj hid := by
    obtain ⟨i', p', hget, hvalue, -, -⟩ := h.kept i p hi
    obtain ⟨j', q', hget', hvalue', -, -⟩ := h.kept j q hj
    rw [← hid, hget] at hget'
    cases hget'
    rw [← hvalue, hvalue']

/-- Where a clash shows up the run stops. -/
theorem not_exposes_of_run (h : (start root).run steps = .ok c) (a b : RemoteInterrupt V × ℕ) :
    ¬registrationLabels.Exposes (registrations steps) a b := by
  induction steps using List.reverseRecOn generalizing c with
  | nil =>
      rintro ⟨pre, post, heq, -⟩
      exact absurd heq.symm (by simp [registrations])
  | append_singleton steps step ih =>
      rw [run_append] at h
      cases hrun : (start root).run steps with
      | error message =>
          rw [hrun] at h
          cases h
      | ok d =>
          rw [hrun] at h
          change d.run [step] = .ok c at h
          rw [run_singleton] at h
          intro hexposes
          rw [registrations_append] at hexposes
          rcases hexposes.append_cases with hleft | hright | ⟨ha, hb, hclash, hbounded⟩
          · exact ih hrun hleft
          · obtain ⟨hmem, -⟩ := hright.mem
            obtain ⟨pre, post, heq, hpre, -, -⟩ := hright
            cases step with
            | fail message => cases hmem
            | lineage nameSpace checkpointId => cases hmem
            | interrupt i p =>
                cases pre with
                | nil => cases hpre
                | cons e pre =>
                    have hlength := congrArg List.length heq
                    rw [registrations_interrupt, List.cons_append, List.length_cons,
                      List.length_cons, List.length_append, List.length_cons] at hlength
                    change 0 + 1 = _ at hlength
                    omega
          · obtain ⟨i, p⟩ := b
            have hstep := mem_registrations.mp hb
            cases List.mem_singleton.mp hstep
            have hexplains := explains_run hrun
            obtain ⟨a, q⟩ := a
            have hlevel : q = p := hclash.level
            subst hlevel
            have hid : a.interruptId = i.interruptId := hclash.key
            obtain ⟨e, r, hget, -, hle, hcoordinates⟩ :=
              hexplains.kept a q (mem_registrations.mp ha)
            rw [hid] at hget
            obtain ⟨heid, hmem⟩ := hexplains.registered _ e r hget
            have hge : r ≤ q := hbounded (e, r) (mem_registrations.mpr hmem) heid
            have heq : q = r := le_antisymm hle hge
            rcases keep_cases h with ⟨e', r', hget', -, hsame, -, -⟩ | ⟨hfree, -⟩
            · rw [hget] at hget'
              cases hget'
              exact hclash.place ((hcoordinates heq).trans (hsame heq).symm)
            · have hlt := (hfree e r hget).2
              omega

/-- Steps that do not contradict each other run to their end unless a clash shows up. -/
theorem exists_run (h : Consistent root steps)
    (hexposes : ∀ a b, ¬registrationLabels.Exposes (registrations steps) a b) :
    ∃ c : Collected V, (start root).run steps = .ok c := by
  induction steps using List.reverseRecOn with
  | nil => exact ⟨_, rfl⟩
  | append_singleton steps step ih =>
      obtain ⟨c, hrun⟩ := ih (h.mono (List.subset_append_left _ _)) fun a b hleft =>
        hexposes a b (by rw [registrations_append]; exact hleft.append_right _)
      have hexplains := explains_run hrun
      have hlast : step ∈ steps ++ [step] :=
        List.mem_append_right _ (List.mem_singleton_self _)
      rw [run_append, hrun]
      change ∃ d, c.run [step] = .ok d
      rw [run_singleton]
      cases step with
      | fail message => exact absurd hlast (h.safe message)
      | lineage nameSpace checkpointId =>
          rw [Collected.step, mapNamespace]
          cases hget : c.checkpointMap.get nameSpace with
          | none => exact ⟨_, rfl⟩
          | some current =>
              have hcurrent : current = checkpointId := h.lineage nameSpace current checkpointId
                (((hexplains.mapped _ _).mp hget).imp_right (List.mem_append_left _))
                (.inr hlast)
              dsimp only
              rw [if_pos hcurrent]
              exact ⟨_, rfl⟩
      | interrupt i p =>
          rw [Collected.step, keep]
          cases hget : c.collected.get i.interruptId with
          | none => exact ⟨_, rfl⟩
          | some existing =>
              obtain ⟨e, q⟩ := existing
              obtain ⟨heid, hmem⟩ := hexplains.registered _ e q hget
              have hvalue : e.value = i.value :=
                h.values e q i p (List.mem_append_left _ hmem) hlast heid
              have hclash : ¬(p = q ∧ i.coordinates ≠ e.coordinates) := by
                rintro ⟨rfl, hne⟩
                apply hexposes (e, p) (i, p)
                rw [registrations_append]
                apply Labelling.exposes_singleton (mem_registrations.mpr hmem)
                · exact ⟨heid, rfl, hne.symm⟩
                · rintro ⟨k, r⟩ hk hid
                  have hid : k.interruptId = i.interruptId := hid
                  obtain ⟨e', q', hget', -, hle, -⟩ :=
                    hexplains.kept k r (mem_registrations.mp hk)
                  rw [hid, hget] at hget'
                  cases hget'
                  exact hle
              dsimp only
              rw [if_neg (not_not.mpr hvalue), if_neg hclash]
              by_cases hlt : q < p
              · rw [if_pos hlt]
                exact ⟨_, rfl⟩
              · rw [if_neg hlt]
                exact ⟨_, rfl⟩

omit [DecidableEq V] in
/-- A clash at the highest level of an id shows up in every order. -/
theorem exists_higher (h : c.Explains root steps) {a b : RemoteInterrupt V × ℕ}
    (ha : a ∈ registrations steps) (hb : b ∈ registrations steps)
    (hclash : registrationLabels.Clash a b) :
    ∃ d ∈ registrations steps, d.1.interruptId = b.1.interruptId ∧ b.2 < d.2 := by
  obtain ⟨i, p⟩ := a
  obtain ⟨j, q⟩ := b
  have hlevel : p = q := hclash.level
  subst hlevel
  have hid : i.interruptId = j.interruptId := hclash.key
  obtain ⟨e, r, hget, -, hle, hi⟩ := h.kept i p (mem_registrations.mp ha)
  obtain ⟨e', r', hget', -, -, hj⟩ := h.kept j p (mem_registrations.mp hb)
  rw [hid, hget'] at hget
  cases hget
  obtain ⟨heid, hmem⟩ := h.registered _ e r hget'
  refine ⟨(e, r), mem_registrations.mpr hmem, heid, lt_of_le_of_ne hle fun heq => ?_⟩
  exact hclash.place ((hi heq).trans (hj heq).symm)

omit [DecidableEq V] in
/-- What is left behind does not depend on the order of the steps. -/
theorem Explains.get_eq {c' : Collected V} (h : c.Explains root steps)
    (h' : c'.Explains root steps') (hperm : steps.Perm steps') :
    (∀ nameSpace, c.checkpointMap.get nameSpace = c'.checkpointMap.get nameSpace) ∧
      ∀ id, c.collected.get id = c'.collected.get id := by
  constructor
  · intro nameSpace
    apply Option.ext
    intro checkpointId
    rw [h.mapped, h'.mapped, hperm.mem_iff]
  · have hhalf : ∀ {c c' : Collected V} {steps steps' : List (CollectStep V)},
        c.Explains root steps → c'.Explains root steps' → steps.Perm steps' →
        ∀ id entry, c.collected.get id = some entry → c'.collected.get id = some entry := by
      rintro c c' steps steps' h h' hperm id ⟨i, p⟩ hget
      obtain ⟨hid, hmem⟩ := h.registered id i p hget
      obtain ⟨j, q, hget', hvalue, hle, hcoordinates⟩ := h'.kept i p (hperm.mem_iff.mp hmem)
      rw [hid] at hget'
      obtain ⟨hjid, hmem'⟩ := h'.registered id j q hget'
      obtain ⟨k, r, hk, -, hge, -⟩ := h.kept j q (hperm.mem_iff.mpr hmem')
      rw [hjid, hget] at hk
      cases hk
      have hpq : p = q := le_antisymm hle hge
      have hij : i = j := by
        have hsame := hcoordinates hpq
        obtain ⟨iId, iNs, iCheckpoint, iValue⟩ := i
        obtain ⟨jId, jNs, jCheckpoint, jValue⟩ := j
        cases hsame
        cases hvalue
        cases hid.trans hjid.symm
        rfl
      rw [hget', hij, hpq]
    intro id
    apply Option.ext
    intro entry
    exact ⟨hhalf h h' hperm id entry, hhalf h' h hperm.symm id entry⟩

end Collected

end Run

section Reorders

variable {V : Type}

/-- Two tasks with the same interrupts in any order. -/
structure TaskFields.Reorders (task task' : TaskFields V) : Prop where
  name : task'.name = task.name
  hasResult : task'.hasResult = task.hasResult
  checkpoint : task'.checkpoint = task.checkpoint
  interrupts : Option.Rel List.Perm task.interrupts task'.interrupts

mutual

/-- Two thread states that differ in the order of the tasks of any state and of the interrupts
within any task. -/
inductive ThreadState.Reorders : ThreadState V → ThreadState V → Prop where
  | invalid {checkpoint : CheckpointPayload} {next : Option (List (Option String))} :
      ThreadState.Reorders (.mk checkpoint next none) (.mk checkpoint next none)
  | tasks {checkpoint : CheckpointPayload} {next : Option (List (Option String))}
      {tasks mid tasks' : List (ThreadTask V)} (h : ThreadTask.ReordersAll tasks mid)
      (hperm : mid.Perm tasks') :
      ThreadState.Reorders (.mk checkpoint next (some tasks)) (.mk checkpoint next (some tasks'))

inductive ThreadTask.ReordersAll : List (ThreadTask V) → List (ThreadTask V) → Prop where
  | nil : ThreadTask.ReordersAll [] []
  | cons {task task' : ThreadTask V} {tasks tasks' : List (ThreadTask V)}
      (h : ThreadTask.Reorders task task') (hrest : ThreadTask.ReordersAll tasks tasks') :
      ThreadTask.ReordersAll (task :: tasks) (task' :: tasks')

inductive ThreadTask.Reorders : ThreadTask V → ThreadTask V → Prop where
  | invalid : ThreadTask.Reorders .invalid .invalid
  | mk {task task' : TaskFields V} {state state' : TaskState V} (h : task.Reorders task')
      (hstate : TaskState.Reorders state state') :
      ThreadTask.Reorders (.mk task state) (.mk task' state')

inductive TaskState.Reorders : TaskState V → TaskState V → Prop where
  | absent : TaskState.Reorders .absent .absent
  | invalid : TaskState.Reorders .invalid .invalid
  | state {s s' : ThreadState V} (h : ThreadState.Reorders s s') :
      TaskState.Reorders (.state s) (.state s')

end

theorem TaskFields.Reorders.refl (task : TaskFields V) : task.Reorders task := by
  refine ⟨rfl, rfl, rfl, ?_⟩
  cases task.interrupts with
  | none => exact .none
  | some interrupts => exact .some (List.Perm.refl _)

mutual

theorem ThreadState.Reorders.refl : (state : ThreadState V) → state.Reorders state
  | .mk _ _ none => .invalid
  | .mk _ _ (some tasks) => .tasks (ThreadTask.ReordersAll.refl tasks) (List.Perm.refl _)

theorem ThreadTask.ReordersAll.refl : (tasks : List (ThreadTask V)) →
    ThreadTask.ReordersAll tasks tasks
  | [] => .nil
  | task :: tasks => .cons (ThreadTask.Reorders.refl task) (ThreadTask.ReordersAll.refl tasks)

theorem ThreadTask.Reorders.refl : (task : ThreadTask V) → task.Reorders task
  | .invalid => .invalid
  | .mk task state => .mk (TaskFields.Reorders.refl task) (TaskState.Reorders.refl state)

theorem TaskState.Reorders.refl : (state : TaskState V) → state.Reorders state
  | .absent => .absent
  | .invalid => .invalid
  | .state s => .state (ThreadState.Reorders.refl s)

end

theorem ThreadTask.reordersAll_iff {tasks tasks' : List (ThreadTask V)} :
    ThreadTask.ReordersAll tasks tasks' ↔ List.Forall₂ ThreadTask.Reorders tasks tasks' := by
  constructor
  · intro h
    induction tasks generalizing tasks' with
    | nil =>
        cases h
        exact .nil
    | cons task tasks ih =>
        cases h with
        | cons h hrest => exact .cons h (ih hrest)
  · intro h
    induction h with
    | nil => exact .nil
    | cons h _ ih => exact .cons h ih

theorem ThreadState.Reorders.checkpoint_eq {state state' : ThreadState V}
    (h : state.Reorders state') : state'.checkpoint = state.checkpoint := by
  cases h with
  | invalid => rfl
  | tasks _ _ => rfl

theorem TaskState.Reorders.parseCheckpoint_eq {state state' : TaskState V}
    (h : state.Reorders state') : state'.parseCheckpoint = state.parseCheckpoint := by
  cases h with
  | absent => rfl
  | invalid => rfl
  | state h => rw [TaskState.parseCheckpoint, TaskState.parseCheckpoint, h.checkpoint_eq]

theorem perm_checked {α : Type} {check : Except String α} {f g : α → List (CollectStep V)}
    (h : ∀ a, (f a).Perm (g a)) :
    (CollectStep.checked check f).Perm (CollectStep.checked check g) := by
  cases check with
  | error message => exact List.Perm.refl _
  | ok a => exact h a

variable {root : RemoteCheckpoint}

theorem TaskFields.Reorders.perm_steps {task task' : TaskFields V} {state state' : TaskState V}
    (h : task.Reorders task') (hstate : state.Reorders state') (depth : ℕ)
    (snapshot : RemoteCheckpoint) :
    (task.steps root state depth snapshot).Perm (task'.steps root state' depth snapshot) := by
  rw [TaskFields.steps, TaskFields.steps, hstate.parseCheckpoint_eq, h.checkpoint]
  apply perm_checked
  intro stateCheckpoint
  apply List.Perm.append_left
  apply perm_checked
  intro ownCheckpoint
  apply List.Perm.append_left
  unfold interruptsSteps
  by_cases hconflict : conflicts stateCheckpoint ownCheckpoint = true
  · rw [if_pos hconflict, if_pos hconflict]
  · rw [if_neg hconflict, if_neg hconflict]
    have hinterrupts := h.interrupts
    revert hinterrupts
    cases task.interrupts with
    | none =>
        intro hinterrupts
        generalize task'.interrupts = interrupts' at hinterrupts
        cases hinterrupts
        exact List.Perm.refl _
    | some interrupts =>
        intro hinterrupts
        generalize task'.interrupts = interrupts' at hinterrupts
        cases hinterrupts with
        | some hperm => exact hperm.flatMap_right _

theorem ThreadTask.perm_stepsAll {tasks tasks' : List (ThreadTask V)} (h : tasks.Perm tasks')
    (depth : ℕ) (snapshot : RemoteCheckpoint) (pending : List String) :
    (ThreadTask.stepsAll root tasks depth snapshot pending).Perm
      (ThreadTask.stepsAll root tasks' depth snapshot pending) := by
  induction h with
  | nil => exact List.Perm.refl _
  | cons task _ ih => exact ih.append_left _
  | swap task task' tasks =>
      rw [ThreadTask.stepsAll, ThreadTask.stepsAll, ThreadTask.stepsAll, ThreadTask.stepsAll,
        ← List.append_assoc, ← List.append_assoc]
      exact List.perm_append_comm.append_right _
  | trans _ _ ih ih' => exact ih.trans ih'

mutual

theorem ThreadState.perm_steps : (state : ThreadState V) → {state' : ThreadState V} →
    state.Reorders state' → (depth : ℕ) → (parentNamespace : Option String) →
    (state.steps root depth parentNamespace).Perm (state'.steps root depth parentNamespace)
  | .mk _ _ none, _, h, _, _ => by
      cases h
      exact List.Perm.refl _
  | .mk _ _ (some tasks), _, h, depth, parentNamespace => by
      cases h with
      | tasks h hperm =>
          rw [ThreadState.steps, ThreadState.steps]
          apply perm_checked
          intro snapshot
          apply List.Perm.append_left
          apply perm_checked
          intro pending
          exact (ThreadTask.perm_steps_reordersAll tasks h depth snapshot pending).trans
            (ThreadTask.perm_stepsAll hperm depth snapshot pending)

theorem ThreadTask.perm_steps_reordersAll : (tasks : List (ThreadTask V)) →
    {tasks' : List (ThreadTask V)} → ThreadTask.ReordersAll tasks tasks' → (depth : ℕ) →
    (snapshot : RemoteCheckpoint) → (pending : List String) →
    (ThreadTask.stepsAll root tasks depth snapshot pending).Perm
      (ThreadTask.stepsAll root tasks' depth snapshot pending)
  | [], _, h, _, _, _ => by
      cases h
      exact List.Perm.refl _
  | task :: tasks, _, h, depth, snapshot, pending => by
      cases h with
      | cons h hrest =>
          exact (ThreadTask.perm_steps task h depth snapshot pending).append
            (ThreadTask.perm_steps_reordersAll tasks hrest depth snapshot pending)

theorem ThreadTask.perm_steps : (task : ThreadTask V) → {task' : ThreadTask V} →
    task.Reorders task' → (depth : ℕ) → (snapshot : RemoteCheckpoint) → (pending : List String) →
    (task.steps root depth snapshot pending).Perm (task'.steps root depth snapshot pending)
  | .invalid, _, h, _, _, _ => by
      cases h
      exact List.Perm.refl _
  | .mk task state, _, h, depth, snapshot, pending => by
      cases h with
      | mk h hstate =>
          rw [ThreadTask.steps, ThreadTask.steps, h.name, h.hasResult]
          apply perm_checked
          intro name
          by_cases hname : name ∈ pending
          · rw [if_pos hname, if_pos hname]
            by_cases hresult : task.hasResult = true
            · rw [if_pos hresult, if_pos hresult]
            · rw [if_neg hresult, if_neg hresult]
              exact (h.perm_steps hstate depth snapshot).append
                (TaskState.perm_steps state hstate (depth + 1) snapshot.checkpointNs)
          · rw [if_neg hname, if_neg hname]

theorem TaskState.perm_steps : (state : TaskState V) → {state' : TaskState V} →
    state.Reorders state' → (depth : ℕ) → (parentNamespace : String) →
    (state.steps root depth parentNamespace).Perm (state'.steps root depth parentNamespace)
  | .absent, _, h, _, _ => by
      cases h
      exact List.Perm.refl _
  | .invalid, _, h, _, _ => by
      cases h
      exact List.Perm.refl _
  | .state s, _, h, depth, parentNamespace => by
      cases h with
      | state h => exact ThreadState.perm_steps s h depth (some parentNamespace)

end

end Reorders

section Exposure

variable {V : Type}

/-- Pending interrupts by their id, their level and the checkpoint they were raised in. -/
def pendingLabels :
    Labelling (PendingInterrupt V) (Option String) (Option String × Option String) where
  key x := x.fields.id.map stripSpaces
  level x := x.level
  place x := (x.checkpoint.checkpointNs, x.checkpoint.checkpointId)

theorem raised_eq {task : TaskFields V} {state : TaskState V} {depth : ℕ}
    {snapshot : CheckpointPayload} {x : PendingInterrupt V}
    (h : x ∈ task.raised state depth snapshot) :
    x.level = (task.raisedIn state depth snapshot).2 ∧
      x.checkpoint = (task.raisedIn state depth snapshot).1 := by
  obtain ⟨fields, -, rfl⟩ := List.mem_map.mp h
  exact ⟨rfl, rfl⟩

theorem raised_level {task : TaskFields V} {state : TaskState V} {depth : ℕ}
    {snapshot : CheckpointPayload} {x : PendingInterrupt V}
    (h : x ∈ task.raised state depth snapshot) : depth * 2 ≤ x.level ∧ x.level ≤ depth * 2 + 1 := by
  obtain ⟨hlevel, -⟩ := raised_eq h
  unfold TaskFields.raisedIn at hlevel
  split at hlevel
  · exact ⟨by omega, by omega⟩
  · exact ⟨by omega, by omega⟩
  · exact ⟨by omega, by omega⟩

mutual

theorem ThreadState.le_level : (state : ThreadState V) → (depth : ℕ) →
    ∀ x ∈ state.pending depth, depth * 2 ≤ x.level
  | .mk _ _ none, _, _, hx => absurd hx List.not_mem_nil
  | .mk _ _ (some tasks), depth, x, hx => ThreadTask.le_levelAll tasks depth _ _ x hx

theorem ThreadTask.le_levelAll : (tasks : List (ThreadTask V)) → (depth : ℕ) →
    (snapshot : CheckpointPayload) → (next : List (Option String)) →
    ∀ x ∈ ThreadTask.pendingAll tasks depth snapshot next, depth * 2 ≤ x.level
  | [], _, _, _, _, hx => absurd hx List.not_mem_nil
  | task :: tasks, depth, snapshot, next, x, hx => by
      rcases List.mem_append.mp hx with hx | hx
      · exact ThreadTask.le_level task depth snapshot next x hx
      · exact ThreadTask.le_levelAll tasks depth snapshot next x hx

theorem ThreadTask.le_level : (task : ThreadTask V) → (depth : ℕ) →
    (snapshot : CheckpointPayload) → (next : List (Option String)) →
    ∀ x ∈ task.pending depth snapshot next, depth * 2 ≤ x.level
  | .invalid, _, _, _, _, hx => absurd hx List.not_mem_nil
  | .mk task state, depth, snapshot, next, x, hx => by
      rw [ThreadTask.pending] at hx
      by_cases hname : task.name ∈ next
      · rw [if_pos hname] at hx
        rcases List.mem_append.mp hx with hx | hx
        · exact (raised_level hx).1
        · have hle := TaskState.le_level state (depth + 1) x hx
          omega
      · rw [if_neg hname] at hx
        exact absurd hx List.not_mem_nil

theorem TaskState.le_level : (state : TaskState V) → (depth : ℕ) →
    ∀ x ∈ state.pending depth, depth * 2 ≤ x.level
  | .absent, _, _, hx => absurd hx List.not_mem_nil
  | .invalid, _, _, hx => absurd hx List.not_mem_nil
  | .state s, depth, x, hx => ThreadState.le_level s depth x hx

end

/-- A state that lies in another one under tasks that are still to run, with its depth. -/
inductive ThreadState.Inside : ThreadState V → ℕ → ThreadState V → ℕ → Prop where
  | self (state : ThreadState V) (depth : ℕ) : Inside state depth state depth
  | task {checkpoint : CheckpointPayload} {next : Option (List (Option String))}
      {tasks : List (ThreadTask V)} {depth : ℕ} {task : TaskFields V} {state inner : ThreadState V}
      {innerDepth : ℕ} (hmem : .mk task (.state state) ∈ tasks) (hname : task.name ∈ next.getD [])
      (h : Inside state (depth + 1) inner innerDepth) :
      Inside (.mk checkpoint next (some tasks)) depth inner innerDepth

/-- The second list clashes with an interrupt of the first one, which holds nothing of that id
at a higher level. -/
def OpenClash (first second : List (PendingInterrupt V)) (x : PendingInterrupt V) : Prop :=
  x ∈ first ∧ (∃ y ∈ second, pendingLabels.Clash x y) ∧ pendingLabels.Bounded first x

/-- Two tasks of the list hold an open clash. -/
def TasksClash (tasks : List (ThreadTask V)) (depth : ℕ) (snapshot : CheckpointPayload)
    (next : List (Option String)) (x : PendingInterrupt V) : Prop :=
  ∃ first second rest, tasks.Perm (first :: second :: rest) ∧
    OpenClash (first.pending depth snapshot next) (second.pending depth snapshot next) x

/-- Where two tasks of one state hold interrupts of one id at one level in different checkpoints
and the id is pending at a higher level, each of the two tasks holds it at a higher level. -/
def ThreadState.ClashesCovered (state : ThreadState V) : Prop :=
  ∀ checkpoint next tasks depth, state.Inside 0 (.mk checkpoint next (some tasks)) depth →
    ∀ x, TasksClash tasks depth checkpoint (next.getD []) x →
      pendingLabels.Bounded (state.pending 0) x

/-- An open clash between two tasks somewhere inside the state. -/
def ThreadState.HoldsClash (state : ThreadState V) (depth : ℕ) (x : PendingInterrupt V) : Prop :=
  ∃ checkpoint next tasks innerDepth,
    state.Inside depth (.mk checkpoint next (some tasks)) innerDepth ∧
      TasksClash tasks innerDepth checkpoint (next.getD []) x

theorem TasksClash.cons {task : ThreadTask V} {tasks : List (ThreadTask V)} {depth : ℕ}
    {snapshot : CheckpointPayload} {next : List (Option String)} {x : PendingInterrupt V}
    (h : TasksClash tasks depth snapshot next x) :
    TasksClash (task :: tasks) depth snapshot next x := by
  obtain ⟨first, second, rest, hperm, hclash⟩ := h
  refine ⟨first, second, task :: rest, ?_, hclash⟩
  calc (task :: tasks).Perm (task :: first :: second :: rest) := hperm.cons task
    _ |>.Perm (first :: second :: task :: rest) :=
      (List.Perm.swap first task _).trans ((List.Perm.swap second task rest).cons first)

theorem mem_pendingAll {tasks : List (ThreadTask V)} {depth : ℕ} {snapshot : CheckpointPayload}
    {next : List (Option String)} {x : PendingInterrupt V} :
    x ∈ ThreadTask.pendingAll tasks depth snapshot next ↔
      ∃ task ∈ tasks, x ∈ task.pending depth snapshot next := by
  induction tasks with
  | nil => simp [ThreadTask.pendingAll]
  | cons task tasks ih => rw [ThreadTask.pendingAll, List.mem_append, ih, List.exists_mem_cons_iff]

mutual

/-- A clash that shows up in a state is an open clash between two tasks of one state. -/
theorem ThreadState.holdsClash : (state : ThreadState V) → (depth : ℕ) →
    ∀ x y, pendingLabels.Exposes (state.pending depth) x y → state.HoldsClash depth x
  | .mk _ _ none, _, _, _, h => absurd h.mem.1 List.not_mem_nil
  | .mk checkpoint next (some tasks), depth, x, y, h => by
      rcases ThreadTask.holdsClashAll tasks depth checkpoint (next.getD []) x y h with hclash |
        ⟨task, state, hmem, hname, ck, nx, inner, innerDepth, hinside, hclash⟩
      · exact ⟨checkpoint, next, tasks, depth, .self _ _, hclash⟩
      · exact ⟨ck, nx, inner, innerDepth, .task hmem hname hinside, hclash⟩

theorem ThreadTask.holdsClashAll : (tasks : List (ThreadTask V)) → (depth : ℕ) →
    (snapshot : CheckpointPayload) → (next : List (Option String)) →
    ∀ x y, pendingLabels.Exposes (ThreadTask.pendingAll tasks depth snapshot next) x y →
      TasksClash tasks depth snapshot next x ∨ ∃ task state, .mk task (.state state) ∈ tasks ∧
        task.name ∈ next ∧ state.HoldsClash (depth + 1) x
  | [], _, _, _, _, _, h => absurd h.mem.1 List.not_mem_nil
  | task :: tasks, depth, snapshot, next, x, y, h => by
      rw [ThreadTask.pendingAll] at h
      rcases h.append_cases with hfirst | hrest | ⟨hx, hy, hclash, hbounded⟩
      · obtain ⟨fields, state, rfl, hname, hholds⟩ :=
          ThreadTask.holdsClash task depth snapshot next x y hfirst
        exact .inr ⟨fields, state, List.mem_cons_self, hname, hholds⟩
      · rcases ThreadTask.holdsClashAll tasks depth snapshot next x y hrest with hclash |
          ⟨fields, state, hmem, hname, hholds⟩
        · exact .inl hclash.cons
        · exact .inr ⟨fields, state, List.mem_cons_of_mem _ hmem, hname, hholds⟩
      · obtain ⟨second, hsecond, hmem⟩ := mem_pendingAll.mp hy
        obtain ⟨l₁, l₂, rfl⟩ := List.append_of_mem hsecond
        refine .inl ⟨task, second, l₁ ++ l₂, List.perm_middle.cons task, hx, ⟨y, hmem, hclash⟩, ?_⟩
        intro z hz hkey
        rw [hclash.level]
        exact hbounded z hz (hkey.trans hclash.key)

theorem ThreadTask.holdsClash : (task : ThreadTask V) → (depth : ℕ) →
    (snapshot : CheckpointPayload) → (next : List (Option String)) →
    ∀ x y, pendingLabels.Exposes (task.pending depth snapshot next) x y →
      ∃ fields state, task = .mk fields (.state state) ∧ fields.name ∈ next ∧
        state.HoldsClash (depth + 1) x
  | .invalid, _, _, _, _, _, h => absurd h.mem.1 List.not_mem_nil
  | .mk task state, depth, snapshot, next, x, y, h => by
      rw [ThreadTask.pending] at h
      by_cases hname : task.name ∈ next
      · rw [if_pos hname] at h
        rcases h.append_cases with hown | hnested | ⟨hx, hy, hclash, -⟩
        · obtain ⟨hx, hy⟩ := hown.mem
          have hplace : x.checkpoint = y.checkpoint := (raised_eq hx).2.trans (raised_eq hy).2.symm
          exact absurd (by change (_, _) = (_, _); rw [hplace]) hown.clash.place
        · cases state with
          | absent => exact absurd hnested.mem.1 List.not_mem_nil
          | invalid => exact absurd hnested.mem.1 List.not_mem_nil
          | state s => exact ⟨task, s, rfl, hname, ThreadState.holdsClash s (depth + 1) x y hnested⟩
        · have hlow := (raised_level hx).2
          have hhigh := TaskState.le_level state (depth + 1) y hy
          have hlevel : x.level = y.level := hclash.level
          omega
      · rw [if_neg hname] at h
        exact absurd h.mem.1 List.not_mem_nil

end

theorem TaskFields.Reorders.raised {task task' : TaskFields V} {state state' : TaskState V}
    (h : task.Reorders task') (hstate : state.Reorders state') (depth : ℕ)
    (snapshot : CheckpointPayload) :
    (task.raised state depth snapshot).Perm (task'.raised state' depth snapshot) := by
  have hraisedIn : task'.raisedIn state' depth snapshot = task.raisedIn state depth snapshot := by
    unfold TaskFields.raisedIn
    rw [h.checkpoint]
    cases hstate with
    | absent => rfl
    | invalid => rfl
    | state hstate => cases task.checkpoint <;> dsimp only <;> rw [hstate.checkpoint_eq]
  rw [TaskFields.raised, TaskFields.raised, hraisedIn]
  apply List.Perm.map
  have hinterrupts := h.interrupts
  revert hinterrupts
  generalize task.interrupts = interrupts
  generalize task'.interrupts = interrupts'
  intro hinterrupts
  cases hinterrupts with
  | none => exact List.Perm.refl _
  | some hperm => exact hperm.filterMap _

mutual

theorem ThreadState.mem_pending : (state : ThreadState V) → {state' : ThreadState V} →
    state.Reorders state' → (depth : ℕ) →
    ∀ x, x ∈ state.pending depth ↔ x ∈ state'.pending depth
  | .mk _ _ none, _, h, _, _ => by
      cases h
      exact Iff.rfl
  | .mk checkpoint next (some tasks), _, h, depth, x => by
      cases h with
      | @tasks _ _ _ mid tasks' h hperm =>
          change x ∈ ThreadTask.pendingAll tasks depth checkpoint (next.getD []) ↔
            x ∈ ThreadTask.pendingAll tasks' depth checkpoint (next.getD [])
          rw [ThreadTask.mem_pending_reordersAll tasks h depth checkpoint (next.getD []) x,
            mem_pendingAll, mem_pendingAll]
          simp only [hperm.mem_iff]

theorem ThreadTask.mem_pending_reordersAll : (tasks : List (ThreadTask V)) →
    {tasks' : List (ThreadTask V)} → ThreadTask.ReordersAll tasks tasks' → (depth : ℕ) →
    (snapshot : CheckpointPayload) → (next : List (Option String)) →
    ∀ x, x ∈ ThreadTask.pendingAll tasks depth snapshot next ↔
      x ∈ ThreadTask.pendingAll tasks' depth snapshot next
  | [], _, h, _, _, _, _ => by
      cases h
      exact Iff.rfl
  | task :: tasks, _, h, depth, snapshot, next, x => by
      cases h with
      | cons h hrest =>
          rw [ThreadTask.pendingAll, ThreadTask.pendingAll, List.mem_append, List.mem_append,
            ThreadTask.mem_pending task h depth snapshot next x,
            ThreadTask.mem_pending_reordersAll tasks hrest depth snapshot next x]

theorem ThreadTask.mem_pending : (task : ThreadTask V) → {task' : ThreadTask V} →
    task.Reorders task' → (depth : ℕ) → (snapshot : CheckpointPayload) →
    (next : List (Option String)) →
    ∀ x, x ∈ task.pending depth snapshot next ↔ x ∈ task'.pending depth snapshot next
  | .invalid, _, h, _, _, _, _ => by
      cases h
      exact Iff.rfl
  | .mk task state, _, h, depth, snapshot, next, x => by
      cases h with
      | mk h hstate =>
          rw [ThreadTask.pending, ThreadTask.pending, h.name]
          by_cases hname : task.name ∈ next
          · rw [if_pos hname, if_pos hname, List.mem_append, List.mem_append,
              (h.raised hstate depth snapshot).mem_iff,
              TaskState.mem_pending state hstate (depth + 1) x]
          · rw [if_neg hname, if_neg hname]

theorem TaskState.mem_pending : (state : TaskState V) → {state' : TaskState V} →
    state.Reorders state' → (depth : ℕ) →
    ∀ x, x ∈ state.pending depth ↔ x ∈ state'.pending depth
  | .absent, _, h, _, _ => by
      cases h
      exact Iff.rfl
  | .invalid, _, h, _, _ => by
      cases h
      exact Iff.rfl
  | .state s, _, h, depth, x => by
      cases h with
      | state h => exact ThreadState.mem_pending s h depth x

end

/-- What lies inside a reordered state is what lies inside the state, reordered. -/
theorem ThreadState.Inside.of_reorders {state' inner' : ThreadState V} {depth innerDepth : ℕ}
    (h : state'.Inside depth inner' innerDepth) {state : ThreadState V}
    (hreorders : state.Reorders state') :
    ∃ inner, state.Inside depth inner innerDepth ∧ inner.Reorders inner' := by
  induction h generalizing state with
  | self state' depth => exact ⟨state, .self _ _, hreorders⟩
  | task hmem hname h ih =>
      cases hreorders with
      | tasks hall hperm =>
          obtain ⟨task, htask, hrel⟩ := Table.exists_of_forall₂
            (ThreadTask.reordersAll_iff.mp hall) (hperm.mem_iff.mpr hmem)
          cases hrel with
          | mk hfields hstate =>
              cases hstate with
              | state hstate =>
                  obtain ⟨inner, hinside, hinner⟩ := ih hstate
                  exact ⟨inner, .task htask (hfields.name ▸ hname) hinside, hinner⟩

theorem OpenClash.congr {first second first' second' : List (PendingInterrupt V)}
    {x : PendingInterrupt V} (h : OpenClash first second x)
    (hfirst : ∀ y, y ∈ first ↔ y ∈ first') (hsecond : ∀ y, y ∈ second ↔ y ∈ second') :
    OpenClash first' second' x := by
  obtain ⟨hx, ⟨y, hy, hclash⟩, hbounded⟩ := h
  exact ⟨(hfirst x).mp hx, ⟨y, (hsecond y).mp hy, hclash⟩,
    fun z hz => hbounded z ((hfirst z).mpr hz)⟩

theorem TasksClash.of_reorders {tasks mid tasks' : List (ThreadTask V)} {depth : ℕ}
    {snapshot : CheckpointPayload} {next : List (Option String)} {x : PendingInterrupt V}
    (h : TasksClash tasks' depth snapshot next x) (hall : ThreadTask.ReordersAll tasks mid)
    (hperm : mid.Perm tasks') : TasksClash tasks depth snapshot next x := by
  obtain ⟨first', second', rest', hperm', hclash⟩ := h
  have hall := (ThreadTask.reordersAll_iff.mp hall).flip
  obtain ⟨tasks'', hforall, hback⟩ := List.perm_comp_forall₂ (hperm.trans hperm').symm hall
  obtain ⟨first, l, hfirst, hl, rfl⟩ := List.forall₂_cons_left_iff.mp hforall
  obtain ⟨second, rest, hsecond, -, rfl⟩ := List.forall₂_cons_left_iff.mp hl
  refine ⟨first, second, rest, hback.symm, hclash.congr ?_ ?_⟩
  · exact fun y => (ThreadTask.mem_pending first hfirst depth snapshot next y).symm
  · exact fun y => (ThreadTask.mem_pending second hsecond depth snapshot next y).symm

theorem ThreadState.ClashesCovered.reorders {state state' : ThreadState V}
    (h : state.ClashesCovered) (hreorders : state.Reorders state') : state'.ClashesCovered := by
  intro checkpoint next tasks' depth hinside x hclash
  obtain ⟨inner, hinner, hinnerReorders⟩ := hinside.of_reorders hreorders
  cases hinnerReorders with
  | tasks hall hperm =>
      have hbounded := h checkpoint next _ depth hinner x (hclash.of_reorders hall hperm)
      exact fun y hy => hbounded y ((ThreadState.mem_pending state hreorders 0 y).mpr hy)

/-- Reordered tasks in any order. -/
theorem ThreadState.Reorders.of_perm {checkpoint : CheckpointPayload}
    {next : Option (List (Option String))} {tasks l l' : List (ThreadTask V)}
    (hperm : tasks.Perm l) (h : List.Forall₂ ThreadTask.Reorders l l') :
    ThreadState.Reorders (.mk checkpoint next (some tasks)) (.mk checkpoint next (some l')) := by
  obtain ⟨mid, hmid, hperm'⟩ := List.perm_comp_forall₂ hperm h
  exact .tasks (ThreadTask.reordersAll_iff.mpr hmid) hperm'

theorem reorders_rest (tasks : List (ThreadTask V)) :
    List.Forall₂ ThreadTask.Reorders tasks tasks :=
  ThreadTask.reordersAll_iff.mp (ThreadTask.ReordersAll.refl tasks)

/-- Nothing at a higher level comes before the interrupt. -/
def Leads (l : List (PendingInterrupt V)) (x : PendingInterrupt V) : Prop :=
  ∃ pre post, l = pre ++ x :: post ∧ ∀ z ∈ pre, z.level ≤ x.level

mutual

/-- Every pending interrupt leads in some order. -/
theorem ThreadState.exists_leads : (state : ThreadState V) → (depth : ℕ) →
    ∀ x ∈ state.pending depth, ∃ state', state.Reorders state' ∧ Leads (state'.pending depth) x
  | .mk _ _ none, _, _, hx => absurd hx List.not_mem_nil
  | .mk checkpoint next (some tasks), depth, x, hx => by
      obtain ⟨task', rest, l, hperm, hall, pre, post, heq, hle⟩ :=
        ThreadTask.exists_leadsAll tasks depth checkpoint (next.getD []) x hx
      refine ⟨_, .of_perm hperm hall, pre,
        post ++ ThreadTask.pendingAll rest depth checkpoint (next.getD []), ?_, hle⟩
      change ThreadTask.pendingAll (task' :: rest) depth checkpoint (next.getD []) = _
      rw [ThreadTask.pendingAll, heq, List.append_assoc, List.cons_append]

theorem ThreadTask.exists_leadsAll : (tasks : List (ThreadTask V)) → (depth : ℕ) →
    (snapshot : CheckpointPayload) → (next : List (Option String)) →
    ∀ x ∈ ThreadTask.pendingAll tasks depth snapshot next, ∃ task' rest l, tasks.Perm l ∧
      List.Forall₂ ThreadTask.Reorders l (task' :: rest) ∧
        Leads (task'.pending depth snapshot next) x
  | [], _, _, _, _, hx => absurd hx List.not_mem_nil
  | task :: tasks, depth, snapshot, next, x, hx => by
      rcases List.mem_append.mp hx with hx | hx
      · obtain ⟨task', h, hleads⟩ := ThreadTask.exists_leads task depth snapshot next x hx
        exact ⟨task', tasks, task :: tasks, List.Perm.refl _, .cons h (reorders_rest tasks), hleads⟩
      · obtain ⟨task', rest, l, hperm, hall, hleads⟩ :=
          ThreadTask.exists_leadsAll tasks depth snapshot next x hx
        obtain ⟨first, l, hfirst, hrest, rfl⟩ := List.forall₂_cons_right_iff.mp hall
        refine ⟨task', task :: rest, first :: task :: l, ?_,
          .cons hfirst (.cons (ThreadTask.Reorders.refl task) hrest), hleads⟩
        exact (hperm.cons task).trans (List.Perm.swap first task l)

theorem ThreadTask.exists_leads : (task : ThreadTask V) → (depth : ℕ) →
    (snapshot : CheckpointPayload) → (next : List (Option String)) →
    ∀ x ∈ task.pending depth snapshot next, ∃ task', task.Reorders task' ∧
      Leads (task'.pending depth snapshot next) x
  | .invalid, _, _, _, _, hx => absurd hx List.not_mem_nil
  | .mk task state, depth, snapshot, next, x, hx => by
      rw [ThreadTask.pending] at hx
      by_cases hname : task.name ∈ next
      · rw [if_pos hname] at hx
        rcases List.mem_append.mp hx with hx | hx
        · obtain ⟨pre, post, heq⟩ := List.append_of_mem hx
          refine ⟨.mk task state, ThreadTask.Reorders.refl _, pre,
            post ++ state.pending (depth + 1), ?_, ?_⟩
          · rw [ThreadTask.pending, if_pos hname, heq, List.append_assoc, List.cons_append]
          · intro z hz
            have hz' : z ∈ task.raised state depth snapshot := by
              rw [heq]
              exact List.mem_append_left _ hz
            exact ((raised_eq hz').1.trans (raised_eq hx).1.symm).le
        · obtain ⟨state', h, pre, post, heq, hle⟩ :=
            TaskState.exists_leads state (depth + 1) x hx
          refine ⟨.mk task state', .mk (TaskFields.Reorders.refl task) h,
            task.raised state' depth snapshot ++ pre, post, ?_, ?_⟩
          · rw [ThreadTask.pending, if_pos hname, heq, List.append_assoc]
          · intro z hz
            rcases List.mem_append.mp hz with hz | hz
            · have hlow := (raised_level hz).2
              have hhigh := TaskState.le_level state (depth + 1) x hx
              omega
            · exact hle z hz
      · rw [if_neg hname] at hx
        exact absurd hx List.not_mem_nil

theorem TaskState.exists_leads : (state : TaskState V) → (depth : ℕ) →
    ∀ x ∈ state.pending depth, ∃ state', state.Reorders state' ∧ Leads (state'.pending depth) x
  | .absent, _, _, hx => absurd hx List.not_mem_nil
  | .invalid, _, _, hx => absurd hx List.not_mem_nil
  | .state s, depth, x, hx => by
      obtain ⟨s', h, hleads⟩ := ThreadState.exists_leads s depth x hx
      exact ⟨.state s', .state h, hleads⟩

end

/-- An open clash shows up in some order. -/
theorem ThreadState.HoldsClash.exists_exposes {state : ThreadState V} {depth : ℕ}
    {x : PendingInterrupt V} (h : state.HoldsClash depth x) :
    ∃ state' y, state.Reorders state' ∧ pendingLabels.Exposes (state'.pending depth) x y := by
  obtain ⟨checkpoint, next, tasks, innerDepth, hinside, hclash⟩ := h
  generalize hinner : ThreadState.mk checkpoint next (some tasks) = inner at hinside
  induction hinside with
  | self state depth =>
      subst hinner
      obtain ⟨first, second, rest, hperm, hx, ⟨y, hy, hclash⟩, hbounded⟩ := hclash
      obtain ⟨second', hsecond, pre, post, heq, hle⟩ :=
        ThreadTask.exists_leads second depth checkpoint (next.getD []) y hy
      refine ⟨.mk checkpoint next (some (first :: second' :: rest)), y, .of_perm hperm
        (.cons (ThreadTask.Reorders.refl first) (.cons hsecond (reorders_rest rest))),
        first.pending depth checkpoint (next.getD []) ++ pre,
        post ++ ThreadTask.pendingAll rest depth checkpoint (next.getD []), ?_,
        List.mem_append_left _ hx, hclash, ?_⟩
      · change ThreadTask.pendingAll (first :: second' :: rest) depth checkpoint (next.getD []) = _
        rw [ThreadTask.pendingAll, ThreadTask.pendingAll, heq, List.append_assoc,
          List.append_assoc, List.cons_append]
      · intro z hz hkey
        rcases List.mem_append.mp hz with hz | hz
        · rw [← hclash.level]
          exact hbounded z hz (hkey.trans hclash.key.symm)
        · exact hle z hz
  | @task ck nx outer depth task state inner innerDepth hmem hname h ih =>
      obtain ⟨state', y, hreorders, hexposes⟩ := ih hclash hinner
      obtain ⟨l₁, l₂, rfl⟩ := List.append_of_mem hmem
      refine ⟨.mk ck nx (some (.mk task (.state state') :: (l₁ ++ l₂))), y, .of_perm
        List.perm_middle (.cons (.mk (TaskFields.Reorders.refl task) (.state hreorders))
          (reorders_rest _)), ?_⟩
      change pendingLabels.Exposes (ThreadTask.pendingAll _ depth ck (nx.getD [])) x y
      rw [ThreadTask.pendingAll, ThreadTask.pending, if_pos hname]
      apply Labelling.Exposes.append_right
      apply hexposes.append_left
      intro z hz _
      have hlow := (raised_level hz).2
      have hhigh := ThreadState.le_level state' (depth + 1) y hexposes.mem.2
      change z.level ≤ y.level
      omega

end Exposure

section Collection

variable {V : Type}

/-- The same interrupts and the same checkpoints, in any order. -/
structure RemoteInterruptSet.Same (a b : RemoteInterruptSet V) : Prop where
  threadId : a.checkpoint.threadId = b.checkpoint.threadId
  checkpointNs : a.checkpoint.checkpointNs = b.checkpoint.checkpointNs
  checkpointId : a.checkpoint.checkpointId = b.checkpoint.checkpointId
  checkpointMap : a.checkpoint.checkpointMap.items.Perm b.checkpoint.checkpointMap.items
  interrupts : a.interrupts.Perm b.interrupts

/-- Both fail, or both succeed with the same interrupts and checkpoints. -/
def SameOutcome : Except String (RemoteInterruptSet V) → Except String (RemoteInterruptSet V) →
    Prop
  | .ok a, .ok b => a.Same b
  | .error _, .error _ => True
  | _, _ => False

theorem records_key {a b : RemoteInterrupt V × ℕ} {x y : PendingInterrupt V} (hx : Records a x)
    (hy : Records b y) :
    pendingLabels.key x = pendingLabels.key y ↔
      registrationLabels.key a = registrationLabels.key b := by
  change x.fields.id.map stripSpaces = y.fields.id.map stripSpaces ↔
    a.1.interruptId = b.1.interruptId
  rw [hx.2.id, hy.2.id, Option.some_inj]

theorem records_place {a b : RemoteInterrupt V × ℕ} {x y : PendingInterrupt V} (hx : Records a x)
    (hy : Records b y) :
    pendingLabels.place x = pendingLabels.place y ↔
      registrationLabels.place a = registrationLabels.place b := by
  change (x.checkpoint.checkpointNs, x.checkpoint.checkpointId) =
    (y.checkpoint.checkpointNs, y.checkpoint.checkpointId) ↔
      (a.1.nameSpace, a.1.checkpointId) = (b.1.nameSpace, b.1.checkpointId)
  rw [hx.2.nameSpace, hx.2.checkpointId, hy.2.nameSpace, hy.2.checkpointId, Prod.mk.injEq,
    Prod.mk.injEq, Option.some_inj, Option.some_inj]

variable [DecidableEq V] {state state' : ThreadState V} {expectedThreadId : String}
  {root : RemoteCheckpoint} {c : Collected V}

/-- A tree whose clashes are covered is collected when another order of it is. -/
theorem exists_run_of_reordered
    (hperm : (state.steps root 0 none).Perm (state'.steps root 0 none))
    (hcovered : state'.ClashesCovered)
    (hrun : (Collected.start root).run (state.steps root 0 none) = .ok c) :
    ∃ c' : Collected V, (Collected.start root).run (state'.steps root 0 none) = .ok c' := by
  have hexplains := Collected.explains_run hrun
  have hconsistent := hexplains.consistent.mono hperm.symm.subset
  have hmirrors := ThreadState.mirrors state' 0 none hconsistent.safe
  have hback : ∀ a, a ∈ registrations (state'.steps root 0 none) ↔
      a ∈ registrations (state.steps root 0 none) := by
    rintro ⟨i, p⟩
    rw [mem_registrations, mem_registrations, hperm.mem_iff]
  apply Collected.exists_run hconsistent
  intro a b hexposes
  obtain ⟨x, y, hx, hy, hpending⟩ := hexposes.transfer (L := registrationLabels)
    (M := pendingLabels) (R := Records) (fun _ _ h => h.1) (fun _ _ _ _ h h' => records_key h h')
    (fun _ _ _ _ h h' => records_place h h') hmirrors
  obtain ⟨checkpoint, next, tasks, depth, hinside, hclash⟩ :=
    ThreadState.holdsClash state' 0 x y hpending
  have hbounded := hcovered checkpoint next tasks depth hinside x hclash
  obtain ⟨d, hd, hid, hlt⟩ := Collected.exists_higher hexplains ((hback a).mp hexposes.mem.1)
    ((hback b).mp hexposes.mem.2) hexposes.clash
  obtain ⟨z, hz, hrecords⟩ := Table.exists_of_forall₂' hmirrors ((hback d).mpr hd)
  have hkey : pendingLabels.key z = pendingLabels.key x :=
    (records_key hrecords hx).mpr (hid.trans hexposes.clash.key.symm)
  have hle : z.level ≤ x.level := hbounded z hz hkey
  have hlevel : a.2 = b.2 := hexposes.clash.level
  rw [hrecords.1, hx.1] at hle
  omega

theorem collects_of_reordered (hreorders : ∀ root : RemoteCheckpoint,
      (state.steps root 0 none).Perm (state'.steps root 0 none))
    (hcheckpoint : state'.checkpoint = state.checkpoint) (hcovered : state'.ClashesCovered)
    {set : RemoteInterruptSet V} (h : collectRemoteInterrupts state expectedThreadId = .ok set) :
    ∃ set', collectRemoteInterrupts state' expectedThreadId = .ok set' ∧ set.Same set' := by
  obtain ⟨root, c, hparse, hthread, hns, hrun, rfl⟩ := collectRemoteInterrupts_eq_ok.mp h
  obtain ⟨c', hrun'⟩ := exists_run_of_reordered (hreorders root) hcovered hrun
  refine ⟨_, collectRemoteInterrupts_eq_ok.mpr
    ⟨root, c', hcheckpoint ▸ hparse, hthread, hns, hrun', rfl⟩, ?_⟩
  obtain ⟨hmap, hcollected⟩ :=
    (Collected.explains_run hrun).get_eq (Collected.explains_run hrun') (hreorders root)
  exact ⟨rfl, rfl, rfl, Dict.perm_items hmap, (Dict.perm_items hcollected).map _⟩

/-- No order of the tasks and interrupts of the tree changes what collection does. -/
def ThreadState.OrderFree (state : ThreadState V) (expectedThreadId : String) : Prop :=
  ∀ state', state.Reorders state' →
    SameOutcome (collectRemoteInterrupts state expectedThreadId)
      (collectRemoteInterrupts state' expectedThreadId)

theorem orderFree_of_covered (h : state.ClashesCovered) : state.OrderFree expectedThreadId := by
  intro state' hreorders
  have hperm : ∀ root : RemoteCheckpoint,
      (state.steps root 0 none).Perm (state'.steps root 0 none) :=
    fun root => ThreadState.perm_steps state hreorders 0 none
  cases hcollect : collectRemoteInterrupts state expectedThreadId with
  | ok set =>
      obtain ⟨set', hset', hsame⟩ := collects_of_reordered hperm hreorders.checkpoint_eq
        (h.reorders hreorders) hcollect
      rw [hset']
      exact hsame
  | error message =>
      cases hcollect' : collectRemoteInterrupts state' expectedThreadId with
      | error message' => trivial
      | ok set' =>
          obtain ⟨set, hset, -⟩ := collects_of_reordered (fun root => (hperm root).symm)
            hreorders.checkpoint_eq.symm h hcollect'
          rw [hcollect] at hset
          cases hset

theorem covered_of_orderFree {set : RemoteInterruptSet V}
    (hcollect : collectRemoteInterrupts state expectedThreadId = .ok set)
    (h : state.OrderFree expectedThreadId) : state.ClashesCovered := by
  intro checkpoint next tasks depth hinside x hclash
  obtain ⟨state', y, hreorders, hexposes⟩ := ThreadState.HoldsClash.exists_exposes
    ⟨checkpoint, next, tasks, depth, hinside, hclash⟩
  have hsame := h state' hreorders
  rw [hcollect] at hsame
  cases hcollect' : collectRemoteInterrupts state' expectedThreadId with
  | error message =>
      rw [hcollect'] at hsame
      exact hsame.elim
  | ok set' =>
      obtain ⟨root, c, -, -, -, hrun, -⟩ := collectRemoteInterrupts_eq_ok.mp hcollect'
      have hmirrors := ThreadState.mirrors state' 0 none (Collected.explains_run hrun).safe
      obtain ⟨a, b, -, -, hregistered⟩ := hexposes.transfer (L := pendingLabels)
        (M := registrationLabels) (R := flip Records) (fun _ _ h => h.1.symm) (fun _ _ _ _ h h' => (records_key h h').symm)
        (fun _ _ _ _ h h' => (records_place h h').symm) hmirrors.flip
      exact absurd hregistered (Collected.not_exposes_of_run hrun a b)

end Collection

/-- The task `a` has raised the interrupt in a subgraph of its subgraph, the task `b` in its own
subgraph. -/
def deepTask : ThreadTask ℕ :=
  .mk { name := some "a", hasResult := false, checkpoint := .absent
        interrupts := some [some ⟨some "approve", some 7⟩] }
    (.state (.mk ⟨some "thread", some "a:1", some "first", .absent⟩ (some [some "ask"])
      (some [.mk { name := some "ask", hasResult := false, checkpoint := .absent
                   interrupts := some [some ⟨some "approve", some 7⟩] } .absent])))

def shallowTask : ThreadTask ℕ :=
  .mk { name := some "b", hasResult := false
        checkpoint := .checkpoint ⟨some "thread", some "b:1", some "second", .absent⟩
        interrupts := some [some ⟨some "approve", some 7⟩] } .absent

def clashingState (tasks : List (ThreadTask ℕ)) : ThreadState ℕ :=
  .mk ⟨some "thread", some "", some "root", .absent⟩ (some [some "a", some "b"]) (some tasks)

end CryptoAlert.AgentServer
