import Chip8.Proofs.Machine.Guarded
import Chip8.Proofs.Machine.Invariants

/-!
# Bounds

How far a machine can get. The program counter is checked nowhere but at a fetch; that it stays
below a bound all the same follows from where it can come from: the next instruction or the one
after it, an address of a word with V0 added, or a return address, which a call fetched from
memory has pushed.

Results:
1. `bounded_invariant`: the bounds are kept by every operation.
2. `operations_bounded`: the bounds hold after all operations on a new machine, and a tick of such
   a machine never indexes outside of an array and never overflows an address.
-/

namespace Chip8.Machine

/-- The bounds that every operation keeps.

* `pc_le`: the largest jump target is 0xFFF with 0xFF added.
* `returns`: a call was fetched from memory, so its return address is at most the end of memory.
* `waiting`: so was a pending wait for a key. -/
structure Bounded (m : Machine) : Prop where
  pc_le : m.pc ≤ 0x10FE
  returns : ∀ a ∈ m.stack.toList, 2 ≤ a.toNat ∧ a.toNat ≤ 4096
  waiting : ∀ x, m.keyWait = some x → m.pc ≤ 4094

variable {m : Machine}

/-- A machine that does not wait keeps its bounds if its stack keeps them. -/
theorem Bounded.of_running (pc : m.pc ≤ 0x10FE) (running : m.keyWait = none)
    (returns : ∀ a ∈ m.stack.toList, 2 ≤ a.toNat ∧ a.toNat ≤ 4096) : m.Bounded where
  pc_le := pc
  returns := returns
  waiting x waits := by
    rw [running] at waits
    cases waits

theorem bounded_of_control {i : Instruction} {s : Step} (h : m.Control i s)
    (inside : m.pc ≤ 4094) (running : m.keyWait = none)
    (returns : ∀ a ∈ m.stack.toList, 2 ≤ a.toNat ∧ a.toNat ≤ 4096) : s.2.Bounded := by
  cases h with
  | next _ _ pc stack wait =>
    exact .of_running (by simp only [pc]; omega) (wait.trans running) (by rwa [stack])
  | skip pc stack wait =>
    exact .of_running (by simp only [pc]; omega) (wait.trans running) (by rwa [stack])
  | jump pc stack wait => exact .of_running pc (wait.trans running) (by rwa [stack])
  | @call target pushedStack m' pushed pc stack wait =>
    refine .of_running (by simp only [pc]; omega) (wait.trans running) ?_
    rw [stack, CallStack.toList_push pushed]
    intro a ha
    rcases List.mem_cons.mp ha with rfl | older
    · rw [UInt16.toNat_ofNat']
      omega
    · exact returns a older
  | @ret address poppedStack m' popped pc stack wait =>
    rw [CallStack.toList_pop popped] at returns
    have last := returns address List.mem_cons_self
    refine .of_running (by simp only [pc]; omega) (wait.trans running) ?_
    rw [stack]
    exact fun a ha => returns a (List.mem_cons_of_mem _ ha)
  | wait _ =>
    exact ⟨by simp only; omega, returns, fun _ _ => inside⟩
  | resolve _ => exact .of_running (by simp only; omega) rfl returns

theorem bounded_of_tickCase {s : Step} (h : m.TickCase s) (hm : m.Bounded) : s.2.Bounded := by
  cases h with
  | @stalled x waits =>
    have inside := hm.waiting x waits
    unfold pollKey
    split
    · exact .of_running (by simp only; omega) rfl hm.returns
    · exact hm
  | unfetched _ _ => exact hm
  | unknown running _ inside _ =>
    exact .of_running (by simp only [advance]; omega) running hm.returns
  | executed running _ inside _ =>
    exact bounded_of_control (execute_control m _) inside running hm.returns

theorem Bounded.of_initial (pc : m.pc = 0x200) (running : m.keyWait = none)
    (stack : m.stack = .empty) : m.Bounded := by
  refine .of_running (by omega) running ?_
  rw [stack, CallStack.toList_empty]
  exact fun a ha => absurd ha List.not_mem_nil

theorem bounded_invariant : Invariant Bounded where
  tick hm := bounded_of_tickCase (tick_cases _) hm
  tickTimers hm := ⟨hm.pc_le, hm.returns, hm.waiting⟩
  keys _ hm := ⟨hm.pc_le, hm.returns, hm.waiting⟩
  font _ _ _ hm := ⟨hm.pc_le, hm.returns, hm.waiting⟩
  restart _ _ := .of_initial rfl rfl rfl

/-- After any operations on a new machine the bounds hold, the program counter loses nothing when
it is cut to sixteen bits, and no check of a tick fails. -/
theorem operations_bounded (profile : Profile) (random : RandomStream) (ops : List Operation) :
    let m := ((Machine.new profile random).applyAll ops).2
    m.pc ≤ 0x10FE ∧ m.stack.depth ≤ 16 ∧
      (∀ a ∈ m.stack.toList, 2 ≤ a.toNat ∧ a.toNat ≤ 4096) ∧
      (∀ cell ∈ m.screen.bytes, cell = 0 ∨ cell = 1) ∧
      (∀ x, m.keyWait = some x → x.val < 16 ∧ m.pc ≤ 4094) ∧
      (UInt16.ofNat m.pc).toNat = m.pc ∧ Guarded.tick m = some m.tick := by
  intro m
  have start : (Machine.new profile random).Bounded := .of_initial rfl rfl rfl
  have bounds : m.Bounded := bounded_invariant.applyAll ops start
  have pc := bounds.pc_le
  refine ⟨pc, m.stack.depth_le, bounds.returns, ?_, ?_, ?_, Guarded.tick_eq (by omega)⟩
  · intro cell hcell
    obtain ⟨k, hk, rfl⟩ := List.getElem_of_mem hcell
    exact m.screen.binary ⟨k, by simpa [Screen.bytes] using hk⟩
  · exact fun x waits => ⟨x.isLt, bounds.waiting x waits⟩
  · rw [UInt16.toNat_ofNat']
    omega

end Chip8.Machine
