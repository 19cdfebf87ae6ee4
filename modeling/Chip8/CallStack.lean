import Chip8.Fault

/-!
# Call stack

Sixteen slots for return addresses, of which the first `depth` are live. Popping leaves the
address in its slot; only live slots are ever read.
-/

namespace Chip8

/-- The return addresses of the calls that have not returned. -/
structure CallStack where
  slots : Vector UInt16 16
  depth : Nat
  depth_le : depth ≤ 16

namespace CallStack

/-- No calls, every slot zero. -/
def empty : CallStack := ⟨Vector.replicate 16 0, 0, by omega⟩

/-- The live return addresses, the latest first. -/
def toList (s : CallStack) : List UInt16 := (s.slots.toList.take s.depth).reverse

def isEmpty (s : CallStack) : Bool := s.depth = 0

/-- Puts an address on top, if a slot is free. -/
def push (s : CallStack) (address : UInt16) : Except Fault CallStack :=
  if h : s.depth < 16 then .ok ⟨s.slots.set s.depth address h, s.depth + 1, h⟩
  else .error .stackOverflow

/-- Takes the latest address off, if there is one. -/
def pop (s : CallStack) : Except Fault (UInt16 × CallStack) :=
  match s with
  | ⟨_, 0, _⟩ => .error .stackUnderflow
  | ⟨slots, depth + 1, h⟩ => .ok (slots[depth], ⟨slots, depth, by omega⟩)

@[simp]
theorem length_toList (s : CallStack) : s.toList.length = s.depth := by
  simp [toList, s.depth_le]

@[simp]
theorem toList_empty : empty.toList = [] := rfl

/-- A push puts one more address before the live ones. -/
theorem toList_push {s t : CallStack} {address : UInt16} (h : s.push address = .ok t) :
    t.toList = address :: s.toList := by
  unfold push at h
  split at h
  · rename_i free
    cases h
    simp only [toList, Vector.toList_set]
    rw [List.take_succ_eq_append_getElem (by simpa using free), List.reverse_append]
    simp [List.take_set_of_le]
  · cases h

/-- A push fails exactly if all slots are in use. -/
theorem push_eq_error_iff {s : CallStack} {address : UInt16} {fault : Fault} :
    s.push address = .error fault ↔ s.depth = 16 ∧ fault = .stackOverflow := by
  have := s.depth_le
  unfold push
  split
  · simp
    omega
  · simp only [Except.error.injEq]
    constructor
    · rintro rfl
      exact ⟨by omega, rfl⟩
    · rintro ⟨-, rfl⟩
      rfl

/-- A pop takes off the first of the live addresses. -/
theorem toList_pop {s t : CallStack} {address : UInt16} (h : s.pop = .ok (address, t)) :
    s.toList = address :: t.toList := by
  obtain ⟨slots, depth, bound⟩ := s
  cases depth with
  | zero => cases h
  | succ depth =>
    cases h
    simp only [toList]
    rw [List.take_succ_eq_append_getElem (by simp; omega), List.reverse_append]
    simp

end CallStack

end Chip8
