import Mathlib.Logic.Function.Basic
import Mathlib.Tactic.SplitIfs
import Mathlib.Data.Int.Notation

/-! Buffers of a fixed size: no access reaches outside, and a write leaves the other elements. -/

namespace Buffers

variable {α : Type*} (size : ℤ) (buffer : ℤ → α) (address : ℤ)

/-- `buffer[address]`. Outside the buffer there is no element. -/
def read : Option α := if 0 ≤ address ∧ address < size then some (buffer address) else none

def write (value : α) : Option (ℤ → α) :=
  if 0 ≤ address ∧ address < size then some (Function.update buffer address value) else none

variable {size address}

theorem read_of_mem (inside : 0 ≤ address ∧ address < size) :
    read size buffer address = some (buffer address) :=
  if_pos inside

theorem write_of_mem (inside : 0 ≤ address ∧ address < size) (value : α) :
    write size buffer address value = some (Function.update buffer address value) :=
  if_pos inside

variable {buffer} {after : ℤ → α} {value : α}

theorem write_other (written : write size buffer address value = some after) {other : ℤ}
    (apart : other ≠ address) : after other = buffer other := by
  unfold write at written
  split_ifs at written
  rw [← Option.some.inj written, Function.update_of_ne apart]

end Buffers
