import Mathlib.Logic.Function.Basic
import Mathlib.Data.Option.Basic

/-!
# A map that is shared by owners

Every owner has a part of the keys of one map, given by an embedding of its own keys. Where the
embedding keeps apart the keys of those owners that are good, what an owner sees of the map
depends on the writes of this owner alone.
-/

namespace CryptoAlert

variable {ω π κ ν : Type*}

/-- A write of an owner to a key of its own; `none` deletes it. -/
structure OwnWrite (ω π ν : Type*) where
  owner : ω
  key : π
  value : Option ν

/-- The embedding keeps the keys of good owners apart. -/
def KeepsApart (embed : ω → π → κ) (good : ω → Prop) : Prop :=
  ∀ o o' p p', good o → good o' → embed o p = embed o' p' → o = o' ∧ p = p'

/-- What an owner sees of the shared map. -/
def viewOf (embed : ω → π → κ) (m : κ → Option ν) (o : ω) : π → Option ν := fun p => m (embed o p)

section Writes

variable {embed : ω → π → κ} {good : ω → Prop} {m : κ → Option ν} {o o' : ω} {p : π} {v : Option ν}
variable [DecidableEq κ]

/-- A write of a good owner is not seen by any other. -/
theorem viewOf_update_other (h : KeepsApart embed good) (ho : good o) (ho' : good o')
    (hne : o' ≠ o) : viewOf embed (Function.update m (embed o p) v) o' = viewOf embed m o' := by
  funext q
  have hkey : embed o' q ≠ embed o p := fun hsame => hne (h o' o q p ho' ho hsame).1
  rw [viewOf, Function.update_of_ne hkey, viewOf]

variable [DecidableEq π]

/-- A write to the shared map is one to the view of the owner. -/
theorem viewOf_update_self (h : KeepsApart embed good) (ho : good o) :
    viewOf embed (Function.update m (embed o p) v) o =
      Function.update (viewOf embed m o) p v := by
  funext q
  by_cases hq : q = p
  · rw [hq, viewOf, Function.update_self, Function.update_self]
  · have hne : embed o q ≠ embed o p := fun hsame => hq (h o o q p ho ho hsame).2
    rw [viewOf, Function.update_of_ne hne, Function.update_of_ne hq, viewOf]

def applyShared (embed : ω → π → κ) (m : κ → Option ν) (w : OwnWrite ω π ν) : κ → Option ν :=
  Function.update m (embed w.owner w.key) w.value

def applyOwn (m : π → Option ν) (w : OwnWrite ω π ν) : π → Option ν :=
  Function.update m w.key w.value

variable [DecidableEq ω]

/-- After any writes of good owners each of them sees what its own writes alone have made. -/
theorem viewOf_foldl (h : KeepsApart embed good) (ho : good o) (ws : List (OwnWrite ω π ν))
    (hws : ∀ w ∈ ws, good w.owner) :
    viewOf embed (ws.foldl (applyShared embed) m) o =
      (ws.filter fun w => w.owner = o).foldl applyOwn (viewOf embed m o) := by
  induction ws generalizing m with
  | nil => rfl
  | cons w ws ih =>
      obtain ⟨hw, hrest⟩ := List.forall_mem_cons.mp hws
      rw [List.foldl_cons, ih hrest]
      by_cases hown : w.owner = o
      · have hview : viewOf embed (applyShared embed m w) o = applyOwn (viewOf embed m o) w := by
          rw [applyShared, hown, viewOf_update_self h ho, applyOwn]
        rw [List.filter_cons_of_pos (by simpa using hown), List.foldl_cons, hview]
      · have hview : viewOf embed (applyShared embed m w) o = viewOf embed m o :=
          viewOf_update_other h hw ho (Ne.symm hown)
        rw [List.filter_cons_of_neg (by simpa using hown), hview]

end Writes

end CryptoAlert
