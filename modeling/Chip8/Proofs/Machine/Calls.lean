import Chip8.Proofs.Machine.Effects
import Chip8.Proofs.Machine.Ticks

/-!
# Calls and returns

A return goes back behind the call that it belongs to, whatever runs between the two: as long as
the call has not returned, its return address and those below it stay where they are.

Results:
1. `tick_stacking`: what a tick does to the call stack.
2. `encloses_of_stacking`, `returns_of_stacking`: a tick stays within a call or returns from it.
3. `call_returns`: the same for all ticks after a call, up to the one that returns from it.
-/

namespace Chip8.Machine

/-! ## Definitions -/

/-- What a tick does to the call stack.

* `kept`: nothing.
* `called`: the address after the call is pushed.
* `returned`: the address on top is popped, and execution goes on there. -/
inductive Stacking (m : Machine) : Step → Prop
  | kept {s : Step} : s.2.stack = m.stack → Stacking m s
  | called {target : Fin 4096} {m' : Machine} :
      m.keyWait = none → m.fetch = .ok (Instruction.call target).encode →
      m'.stack.toList = UInt16.ofNat (m.pc + 2) :: m.stack.toList → Stacking m (.ok .jump, m')
  | returned {address : UInt16} {m' : Machine} :
      m.keyWait = none → m.fetch = .ok Instruction.ret.encode →
      m.stack.toList = address :: m'.stack.toList → m'.pc = address.toNat →
      Stacking m (.ok .jump, m')

/-- The machine is within a call: the return address of the call is live, above the addresses that
were live before the call. -/
def Encloses (address : UInt16) (outer : List UInt16) (m : Machine) : Prop :=
  address :: outer <:+ m.stack.toList

/-! ## Ticks -/

theorem stacking_of_control {m : Machine} {i : Instruction} {s : Step} (h : m.Control i s)
    (running : m.keyWait = none) (word : m.fetch = .ok i.encode) : m.Stacking s := by
  cases h with
  | next _ _ _ stack _ => exact .kept stack
  | skip _ stack _ => exact .kept stack
  | jump _ stack _ => exact .kept stack
  | @call target pushedStack m' pushed _ stack _ =>
    refine .called running word ?_
    rw [stack, CallStack.toList_push pushed]
  | @ret address poppedStack m' popped pc stack _ =>
    refine .returned running word ?_ pc
    rw [stack, CallStack.toList_pop popped]
  | wait _ => exact .kept rfl
  | resolve _ => exact .kept rfl

theorem stacking_of_tickCase {m : Machine} {s : Step} (h : m.TickCase s) : m.Stacking s := by
  cases h with
  | stalled _ =>
    refine .kept ?_
    unfold pollKey
    split
    · rfl
    · rfl
  | unfetched _ _ => exact .kept rfl
  | unknown _ _ _ _ => exact .kept rfl
  | executed running word _ code =>
    rw [← Instruction.encode_of_decode? code] at word
    exact stacking_of_control (execute_control m _) running word

theorem tick_stacking (m : Machine) : m.Stacking m.tick := stacking_of_tickCase (tick_cases m)

/-- A tick changes the depth by at most one, and not at all if it faults. -/
theorem depth_of_stacking {m : Machine} {s : Step} (h : m.Stacking s) :
    s.2.stack.depth ≤ m.stack.depth + 1 ∧ m.stack.depth ≤ s.2.stack.depth + 1 ∧
      ∀ fault, s.1 = .error fault → s.2.stack.depth = m.stack.depth := by
  cases h with
  | kept stack => rw [stack]; simp
  | called _ _ stack =>
    have grown := congrArg List.length stack
    simp only [List.length_cons, CallStack.length_toList] at grown
    refine ⟨by simp only; omega, by simp only; omega, fun fault faults => ?_⟩
    cases faults
  | returned _ _ stack _ =>
    have shrunk := congrArg List.length stack
    simp only [List.length_cons, CallStack.length_toList] at shrunk
    refine ⟨by simp only; omega, by simp only; omega, fun fault faults => ?_⟩
    cases faults

/-! ## Within a call -/

variable {address : UInt16} {outer : List UInt16} {m : Machine}

theorem Encloses.lt_depth (h : m.Encloses address outer) : outer.length < m.stack.depth := by
  have short := h.length_le
  rw [List.length_cons, CallStack.length_toList] at short
  exact short

theorem Encloses.of_stack {m' : Machine} (h : m.Encloses address outer)
    (same : m'.stack = m.stack) : m'.Encloses address outer := by
  unfold Encloses
  rw [same]
  exact h

/-- A call within the call stays within it, and so does a return that leaves the depth above the
one before the call. -/
theorem encloses_of_stacking {s : Step} (step : m.Stacking s) (h : m.Encloses address outer)
    (deep : s.2.stack.depth ≠ outer.length) : s.2.Encloses address outer := by
  cases step with
  | kept stack => exact h.of_stack stack
  | called _ _ stack =>
    unfold Encloses
    rw [stack]
    exact h.trans (List.suffix_cons _ _)
  | returned _ _ stack _ =>
    unfold Encloses at h
    rw [stack] at h
    rcases List.suffix_cons_iff.mp h with whole | within
    · obtain ⟨-, rest⟩ := List.cons.inj whole
      rw [rest, CallStack.length_toList] at deep
      exact absurd rfl deep
    · exact within

/-- The tick that takes the depth back to the one before the call is a return, to the address
after the call. -/
theorem returns_of_stacking {s : Step} (step : m.Stacking s) (h : m.Encloses address outer)
    (back : s.2.stack.depth = outer.length) :
    m.keyWait = none ∧ m.fetch = .ok Instruction.ret.encode ∧ s.1 = .ok .jump ∧
      s.2.pc = address.toNat ∧ s.2.stack.toList = outer := by
  have deep := h.lt_depth
  cases step with
  | kept stack =>
    rw [stack] at back
    omega
  | called _ _ stack =>
    have grown := congrArg List.length stack
    simp only [List.length_cons, CallStack.length_toList] at grown back
    omega
  | @returned popped m' running word stack pc =>
    unfold Encloses at h
    rw [stack] at h
    rcases List.suffix_cons_iff.mp h with whole | within
    · obtain ⟨rfl, rest⟩ := List.cons.inj whole
      exact ⟨running, word, rfl, pc, rest.symm⟩
    · have short := within.length_le
      rw [List.length_cons, CallStack.length_toList] at short
      simp only at back
      omega

theorem Encloses.aside {m' : Machine} (change : m.Aside m') (h : m.Encloses address outer) :
    m'.Encloses address outer := by
  cases change with
  | timers => exact h
  | keys => exact h
  | font _ => exact h

/-- As long as no tick takes the depth back to the one before the call, the machine stays within
the call. -/
theorem Encloses.along {m' : Machine} {xs : List Machine} (h : m.Encloses address outer)
    (path : Path Aside m xs m') (deep : ∀ x ∈ xs, x.tick.2.stack.depth ≠ outer.length) :
    m'.Encloses address outer :=
  (path.keeps (fun change hn => Encloses.aside change hn)
    (fun x hx hn => encloses_of_stacking (tick_stacking x) hn (deep x hx)) h).1

/-! ## Calls -/

theorem tick_call {target : Fin 4096} (running : m.keyWait = none)
    (word : m.fetch = .ok (Instruction.call target).encode) (free : m.stack.depth < 16) :
    m.tick.1 = .ok .jump ∧ m.tick.2.pc = target ∧
      m.tick.2.stack.toList = UInt16.ofNat (m.pc + 2) :: m.stack.toList := by
  rw [tick_of_fetch running word (Instruction.decode?_encode _)]
  have room : m.advance.stack.depth < 16 := free
  simp only [execute, Machine.call]
  cases pushed : m.advance.stack.push (UInt16.ofNat m.advance.pc) with
  | error fault =>
    have full := (CallStack.push_eq_error_iff.mp pushed).1
    omega
  | ok stack => exact ⟨rfl, rfl, CallStack.toList_push pushed⟩

/-- A call that succeeds pushes the address after it. Whatever operations follow that do not
restart the machine, that address and those below it stay as long as no tick takes the depth back
to the one before the call; the first tick that does is a return, which goes on at that address
and leaves the addresses below it. No tick changes the depth by more than one, and no fault
changes it. -/
theorem call_returns {m : Machine} {target : Fin 4096} (running : m.keyWait = none)
    (word : m.fetch = .ok (Instruction.call target).encode) (free : m.stack.depth < 16)
    {ops : List Operation} (lasts : ∀ op ∈ ops, op.restarts = false) :
    let called := m.tick.2
    let address := UInt16.ofNat (m.pc + 2)
    address.toNat = m.pc + 2 ∧ called.Encloses address m.stack.toList ∧
      (∀ before x after, called.tickedByAll ops = before ++ x :: after →
        (∀ y ∈ before, y.tick.2.stack.depth ≠ m.stack.depth) →
        x.Encloses address m.stack.toList ∧
          (x.tick.2.stack.depth = m.stack.depth →
            x.keyWait = none ∧ x.fetch = .ok Instruction.ret.encode ∧ x.tick.1 = .ok .jump ∧
              x.tick.2.pc = m.pc + 2 ∧ x.tick.2.stack.toList = m.stack.toList)) ∧
      ((∀ y ∈ called.tickedByAll ops, y.tick.2.stack.depth ≠ m.stack.depth) →
        (called.applyAll ops).2.Encloses address m.stack.toList) ∧
      ∀ x : Machine, x.tick.2.stack.depth ≤ x.stack.depth + 1 ∧
        x.stack.depth ≤ x.tick.2.stack.depth + 1 ∧
        ∀ fault, x.tick.1 = .error fault → x.tick.2.stack.depth = x.stack.depth := by
  intro called address
  have inside := pc_le_of_fetch word
  have fits : address.toNat = m.pc + 2 :=
    UInt16.toNat_ofNat'.trans (Nat.mod_eq_of_lt (by omega))
  have start : called.Encloses address m.stack.toList :=
    ⟨[], (tick_call running word free).2.2.symm⟩
  have depth : m.stack.toList.length = m.stack.depth := CallStack.length_toList m.stack
  have path := Path.of_applyAll called lasts
  refine ⟨fits, start, ?_, ?_, fun x => depth_of_stacking (tick_stacking x)⟩
  · intro before x after trace deep
    rw [trace] at path
    have within : x.Encloses address m.stack.toList :=
      start.along path.split.1 (by rwa [depth])
    refine ⟨within, fun back => ?_⟩
    have returned := returns_of_stacking (tick_stacking x) within (by rwa [depth])
    rwa [fits] at returned
  · intro deep
    exact start.along path (by rwa [depth])

/-- A call of a routine that returns at once, with a count of the timers in between. -/
theorem call_returns_at_once :
    let m : Machine := { Machine.new {} (.constant 0) with
      memory := Memory.zero.overlay 512 [0x22, 0x04, 0x00, 0x00, 0x00, 0xEE] }
    let x := m.tick.2.tickTimers.2
    m.fetch = .ok (Instruction.call 0x204).encode ∧ m.stack.depth < 16 ∧
      x.Encloses 0x202 [] ∧ x.tick.2.stack.depth = 0 ∧ x.tick.2.pc = 0x202 := by
  intro m x
  have byte (k : Nat) (h : k < 6) :
      m.memory.read (512 + k) = .ok ([0x22, 0x04, 0x00, 0x00, 0x00, 0xEE] : List UInt8)[k] :=
    Memory.read_overlay_of_lt h (by omega)
  have word : m.fetch = .ok (Instruction.call 0x204).encode :=
    fetch_of_read (byte 0 (by decide)) (byte 1 (by decide))
  have called : m.tick = m.execute (.call 0x204) :=
    tick_of_fetch rfl word (Instruction.decode?_encode _)
  have there : x = (m.execute (.call 0x204)).2.tickTimers.2 := by
    rw [← called]
  have last : x.fetch = .ok Instruction.ret.encode := by
    rw [there]
    exact fetch_of_read (m := (m.execute (.call 0x204)).2.tickTimers.2) (byte 4 (by decide))
      (byte 5 (by decide))
  have back : x.tick.2.stack.depth = 0 := by
    rw [there] at last ⊢
    rw [tick_of_fetch rfl last (Instruction.decode?_encode _)]
    rfl
  have lasts : ∀ op ∈ [Operation.tickTimers, .tick], op.restarts = false := by decide
  obtain ⟨-, -, first, -⟩ := call_returns rfl word (by decide) lasts
  obtain ⟨within, returns⟩ := first [] x [] rfl (by simp)
  exact ⟨word, by decide, within, back, (returns back).2.2.2.1⟩

end Chip8.Machine
