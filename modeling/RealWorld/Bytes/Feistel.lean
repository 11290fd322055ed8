import Mathlib.Data.Prod.Basic
import Mathlib.Logic.Function.Basic

/-!
# Feistel networks

Each round mixes into one half of a block what a function makes of the other. The functions need no
inverses: the network run over them from the last to the first, with the halves exchanged, is undone.
-/

namespace Feistel

variable {α : Type*} {mix : α → α → α}

/-- One round, after which the halves change places. -/
def turn (mix : α → α → α) (b : α × α) (f : α → α) : α × α := (mix b.2 (f b.1), b.1)

def network (mix : α → α → α) (fs : List (α → α)) (b : α × α) : α × α := fs.foldl (turn mix) b

@[simp] theorem network_nil (b : α × α) : network mix [] b = b := rfl

@[simp] theorem network_cons (f : α → α) (fs : List (α → α)) (b : α × α) :
    network mix (f :: fs) b = network mix fs (turn mix b f) := rfl

theorem network_append (fs gs : List (α → α)) (b : α × α) :
    network mix (fs ++ gs) b = network mix gs (network mix fs b) := List.foldl_append

variable (cancels : ∀ a k, mix (mix a k) k = a)
include cancels

theorem turn_swap_turn (f : α → α) (b : α × α) : turn mix (turn mix b f).swap f = b.swap := by
  show (mix (mix b.2 (f b.1)) (f b.1), b.1) = b.swap
  rw [cancels]
  rfl

theorem network_reverse (fs : List (α → α)) (b : α × α) :
    network mix fs.reverse (network mix fs b).swap = b.swap := by
  induction fs generalizing b with
  | nil => rfl
  | cons f fs ih =>
    rw [List.reverse_cons, network_append, network_cons f fs, ih]
    exact turn_swap_turn cancels f b

end Feistel
