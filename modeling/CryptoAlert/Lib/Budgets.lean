import Mathlib.Algebra.Order.BigOperators.Group.List
import Mathlib.Algebra.Order.Field.Rat
import Mathlib.Tactic.Linarith
import Mathlib.Tactic.Ring

/-!
# Activities under a deadline

A program with a deadline calls an operation or sleeps, one after the other. Before each activity
it reads the clock and allows it no more time than is then left. Between the reading and the
activity the clock may move on; the time that passes outside the activities is idle.
-/

namespace CryptoAlert.Budgets

inductive Kind where
  | call | sleep
deriving DecidableEq, Repr

/-- A call with its timeout, or a sleep with its delay. -/
structure Activity where
  kind : Kind
  readAt : ℚ
  allowance : ℚ
  start : ℚ
  finish : ℚ
deriving DecidableEq, Repr

namespace Activity

def duration (a : Activity) : ℚ := a.finish - a.start

/-- It ends within the time that it was allowed. -/
def Prompt (a : Activity) : Prop := a.finish ≤ a.start + a.allowance

end Activity

/-- The activities follow each other between two times, each with at most the time that was left
at its reading. -/
inductive Within (deadline : ℚ) : ℚ → List Activity → ℚ → Prop where
  | nil {first last : ℚ} (h : first ≤ last) : Within deadline first [] last
  | cons {first last : ℚ} {a : Activity} {rest : List Activity}
      (hread : first ≤ a.readAt) (hstart : a.readAt ≤ a.start) (hfinish : a.start ≤ a.finish)
      (hallowance : a.allowance ≤ deadline - a.readAt) (hrest : Within deadline a.finish rest last) :
      Within deadline first (a :: rest) last

/-- The time that is spent in activities. -/
def busy (activities : List Activity) : ℚ := (activities.map Activity.duration).sum

/-- The time between the two times that is spent in no activity. -/
def idle (first : ℚ) (activities : List Activity) (last : ℚ) : ℚ := last - first - busy activities

theorem idle_cons (first : ℚ) (a : Activity) (rest : List Activity) (last : ℚ) :
    idle first (a :: rest) last = idle a.finish rest last + (a.start - first) := by
  simp only [idle, busy, List.map_cons, List.sum_cons, Activity.duration]
  ring

variable {deadline first last : ℚ} {activities : List Activity}

namespace Within

theorem earlier {first' : ℚ} (h : Within deadline first activities last) (hle : first' ≤ first) :
    Within deadline first' activities last := by
  cases h with
  | nil h => exact .nil (hle.trans h)
  | cons hread hstart hfinish hallowance hrest =>
    exact .cons (hle.trans hread) hstart hfinish hallowance hrest

theorem idle_nonneg (h : Within deadline first activities last) :
    0 ≤ idle first activities last := by
  induction h with
  | nil h =>
    simp only [idle, busy, List.map_nil, List.sum_nil]
    linarith
  | cons hread hstart _ _ _ ih =>
    rw [idle_cons]
    linarith

theorem allowance_le (h : Within deadline first activities last) {a : Activity}
    (ha : a ∈ activities) : a.allowance ≤ deadline - a.readAt := by
  induction h with
  | nil => cases ha
  | cons _ _ _ hallowance _ ih =>
    rcases List.mem_cons.mp ha with rfl | hrest
    · exact hallowance
    · exact ih hrest

/-- The clock moves on between a reading and its activity at the cost of idle time. -/
theorem lag_le (h : Within deadline first activities last) {a : Activity} (ha : a ∈ activities) :
    a.start - a.readAt ≤ idle first activities last := by
  induction h with
  | nil => cases ha
  | cons hread hstart _ _ hrest ih =>
    rw [idle_cons]
    rcases List.mem_cons.mp ha with rfl | hmem
    · have hidle := hrest.idle_nonneg
      linarith
    · have hlag := ih hmem
      linarith

theorem allowed_le (h : Within deadline first activities last) {a : Activity}
    (ha : a ∈ activities) :
    a.start + a.allowance ≤ deadline + idle first activities last := by
  have hallowance := h.allowance_le ha
  have hlag := h.lag_le ha
  linarith

/-- Activities that are prompt pass the deadline by no more than the idle time. -/
theorem last_le (h : Within deadline first activities last)
    (hprompt : ∀ a ∈ activities, a.Prompt) :
    last ≤ max deadline first + idle first activities last := by
  induction h with
  | @nil first last h =>
    have hfirst := le_max_right deadline first
    simp only [idle, busy, List.map_nil, List.sum_nil]
    linarith
  | @cons first last a rest hread hstart hfinish hallowance hrest ih =>
    have hlast := ih fun b hb => hprompt b (List.mem_cons_of_mem a hb)
    have hpromptA : a.finish ≤ a.start + a.allowance := hprompt a List.mem_cons_self
    have hdeadline := le_max_left deadline first
    rw [idle_cons]
    -- either the activity ended before the deadline, or its reading bounds how late it ended
    rcases max_choice deadline a.finish with hmax | hmax
    · rw [hmax] at hlast
      linarith
    · rw [hmax] at hlast
      linarith

end Within

end CryptoAlert.Budgets
