import Chip8.Machine.Operation
import Chip8.Proofs.Memory.Transfers

/-!
# Effects

What the parts of an execution step do to the whole machine: each of them as the record it
leaves, so that what a step does not name it does not touch.

Results:
1. `calculate_eq`, `storeDecimal_eq` and their like: the state after each part of a step.
2. `tick_cases`: the four ways a tick can go.
3. `execute_control`: what an instruction does to the program counter, the call stack and the
   wait for a key.
-/

namespace Chip8

namespace Machine

/-! ## Parts of a step -/

theorem skipIf_eq (m : Machine) (c : Bool) :
    m.skipIf c = { m with pc := if c then m.pc + 2 else m.pc } := by
  cases c <;> rfl

theorem register_setRegister (m : Machine) (x k : Register) (value : UInt8) :
    (m.setRegister x value).register k = if k = x then value else m.register k := by
  by_cases same : k = x
  · subst same
    simp [register, setRegister]
  · have apart : x.val ≠ k.val := fun h => same (Fin.ext h.symm)
    simp [register, setRegister, same, Vector.getElem_set_ne, apart]

theorem advanceIndex_eq (m : Machine) (count : Nat) :
    m.advanceIndex count = { m with
      index := if m.profile.advanceIndex then m.index + UInt16.ofNat count else m.index } := by
  unfold advanceIndex
  split <;> rfl

/-- Arithmetic writes registers and nothing else. -/
theorem calculate_eq (m : Machine) (op : Arithmetic) (x y : Register) :
    ∃ registers, m.calculate op x y = { m with registers } := by
  simp only [calculate]
  split
  · exact ⟨_, rfl⟩
  · exact ⟨_, rfl⟩

/-- The outcome of a transfer: its fault, or a hint if it is complete. -/
def transferred (flow : Flow) : Option Fault → Except Fault Flow
  | some fault => .error fault
  | none => .ok flow

@[simp]
theorem transferred_eq_error_iff {flow : Flow} {fault? : Option Fault} {fault : Fault} :
    transferred flow fault? = .error fault ↔ fault? = some fault := by
  cases fault? <;> simp [transferred]

theorem storeDecimal_eq (m : Machine) (x : Register) :
    m.storeDecimal x =
      let written := m.memory.writeEach m.index.toNat (decimalDigits (m.register x))
      (transferred .proceed written.2, { m with memory := written.1 }) := by
  unfold storeDecimal
  split <;> simp_all [store, transferred]

/-- Only a complete transfer moves the index. -/
theorem storeRegisters_eq (m : Machine) (x : Register) :
    m.storeRegisters x =
      let written := m.memory.writeEach m.index.toNat (m.registers.toList.take (x.val + 1))
      (transferred .proceed written.2, { m with
        memory := written.1
        index := if written.2.isNone ∧ m.profile.advanceIndex
          then m.index + UInt16.ofNat (x.val + 1) else m.index }) := by
  unfold storeRegisters
  split <;> rename_i h <;> obtain ⟨fault, rfl⟩ := Prod.mk.inj h <;>
    simp [transferred, fault, advanceIndex_eq]

/-- Only a complete transfer moves the index. -/
theorem loadRegisters_eq (m : Machine) (x : Register) :
    m.loadRegisters x =
      let values := m.memory.readEach m.index.toNat (x.val + 1)
      (transferred .proceed values.2, { m with
        registers := m.registers.mapIdx fun k old => values.1.getD k old
        index := if values.2.isNone ∧ m.profile.advanceIndex
          then m.index + UInt16.ofNat (x.val + 1) else m.index }) := by
  unfold loadRegisters
  split
  next values fault? h =>
  cases fault? <;> simp [h, transferred, setFirst, advanceIndex_eq]

/-- The flag is set only by a complete sprite. -/
theorem drawSprite_eq (m : Machine) (x y : Register) (rows : Nat) :
    m.drawSprite x y rows =
      let values := m.memory.readEach m.index.toNat rows
      let drawn := m.screen.drawSprite (m.register x).toNat (m.register y).toNat values.1
      (transferred .draw values.2, { m with
        screen := drawn.2
        registers := m.registers.set Register.flag (if values.2.isNone ∧ drawn.1 then 1 else 0) }) := by
  unfold drawSprite
  split
  next values fault? h =>
  cases fault? <;> simp [h, transferred, setFlag, setRegister]

/-! ## Ticks -/

/-- The ways a tick can go.

* `stalled`: the machine waits for a key and looks at the keypad.
* `unfetched`: there is no whole word at the program counter.
* `unknown`: the word is no code.
* `executed`: the word is an instruction. -/
inductive TickCase (m : Machine) : Step → Prop
  | stalled {x : Register} : m.keyWait = some x → TickCase m (m.pollKey x)
  | unfetched : m.keyWait = none → 4095 ≤ m.pc →
      TickCase m (.error (.outOfBounds (max m.pc 4096)), m)
  | unknown {w : Word} : m.keyWait = none → m.fetch = .ok w → m.pc ≤ 4094 →
      Instruction.decode? w = none → TickCase m (.error (.unknownOpcode w), m.advance)
  | executed {w : Word} {i : Instruction} : m.keyWait = none → m.fetch = .ok w → m.pc ≤ 4094 →
      Instruction.decode? w = some i → TickCase m (m.execute i)

theorem fetch_eq_error_iff {m : Machine} {fault : Fault} :
    m.fetch = .error fault ↔ 4095 ≤ m.pc ∧ fault = .outOfBounds (max m.pc 4096) :=
  Memory.readWord_eq_error_iff

theorem pc_le_of_fetch {m : Machine} {w : Word} (h : m.fetch = .ok w) : m.pc ≤ 4094 := by
  rcases Nat.lt_or_ge m.pc 4095 with inside | past
  · omega
  · rw [fetch_eq_error_iff.mpr ⟨past, rfl⟩] at h
    cases h

theorem fetch_of_read {m : Machine} {high low : UInt8} (first : m.memory.read m.pc = .ok high)
    (second : m.memory.read (m.pc + 1) = .ok low) : m.fetch = .ok (Word.ofBytes high low) := by
  simp only [fetch, Memory.readWord, first, second]

theorem fetch_of_overlay {m : Machine} {memory : Memory} {start : Nat} {high low : UInt8}
    {more : List UInt8} {w : Word} (loaded : m.memory = memory.overlay start (high :: low :: more))
    (inside : start ≤ 4094) (counter : m.pc = start) (word : Word.ofBytes high low = w) :
    m.fetch = .ok w := by
  have bytes : 2 ≤ (high :: low :: more).length := Nat.le_add_left _ _
  rw [← word]
  refine fetch_of_read ?_ ?_
  · rw [loaded, counter]
    exact Memory.read_overlay_of_lt (k := 0) (by omega) (by omega)
  · rw [loaded, counter]
    exact Memory.read_overlay_of_lt (k := 1) (by omega) (by omega)

theorem tick_of_fetch {m : Machine} {w : Word} {i : Instruction} (running : m.keyWait = none)
    (word : m.fetch = .ok w) (code : Instruction.decode? w = some i) : m.tick = m.execute i := by
  simp only [tick, running, word, executeWord, code]

theorem tick_cases (m : Machine) : m.TickCase m.tick := by
  unfold tick
  split
  · next x waiting => exact .stalled waiting
  · next running =>
    split
    · next w word =>
      have inside := pc_le_of_fetch word
      unfold executeWord
      split
      · next i code => exact .executed running word inside code
      · next code => exact .unknown running word inside code
    · next fault missing =>
      obtain ⟨past, rfl⟩ := fetch_eq_error_iff.mp missing
      exact .unfetched running past

/-! ## Control -/

/-- What an instruction does to the program counter, the call stack and the wait for a key, and
the outcome that goes with it.

* `next`: execution goes on after the instruction, or stops there with a fault.
* `skip`: it goes on one instruction further.
* `jump`: it goes on at an address of the word, or up to 255 bytes past it.
* `call`, `ret`: the address after the instruction is pushed, an address is popped.
* `wait`, `resolve`: no key is down and the register is remembered, or the least key down goes
  to the register. -/
inductive Control (m : Machine) : Instruction → Step → Prop
  | next {i : Instruction} {outcome : Except Fault Flow} {m' : Machine} :
      outcome ≠ .ok .jump → outcome ≠ .ok .keyWait →
      m'.pc = m.pc + 2 → m'.stack = m.stack → m'.keyWait = m.keyWait →
      Control m i (outcome, m')
  | skip {i : Instruction} {m' : Machine} :
      m'.pc = m.pc + 4 → m'.stack = m.stack → m'.keyWait = m.keyWait →
      Control m i (.ok .proceed, m')
  | jump {i : Instruction} {m' : Machine} :
      m'.pc ≤ 4095 + 255 → m'.stack = m.stack → m'.keyWait = m.keyWait →
      Control m i (.ok .jump, m')
  | call {target : Fin 4096} {stack : CallStack} {m' : Machine} :
      m.stack.push (UInt16.ofNat (m.pc + 2)) = .ok stack →
      m'.pc = target → m'.stack = stack → m'.keyWait = m.keyWait →
      Control m (.call target) (.ok .jump, m')
  | ret {address : UInt16} {stack : CallStack} {m' : Machine} :
      m.stack.pop = .ok (address, stack) →
      m'.pc = address.toNat → m'.stack = stack → m'.keyWait = m.keyWait →
      Control m .ret (.ok .jump, m')
  | wait {x : Register} :
      m.keypad.lowest? = none → Control m (.awaitKey x) (.ok .keyWait, { m with keyWait := some x })
  | resolve {x : Register} {key : Key} :
      m.keypad.lowest? = some key →
      Control m (.awaitKey x)
        (.ok .proceed, { m.setRegister x key.toByte with keyWait := none, pc := m.pc + 2 })

theorem control_skipIf (m : Machine) (i : Instruction) (c : Bool) :
    m.Control i (.ok .proceed, m.advance.skipIf c) := by
  rw [skipIf_eq]
  cases c
  · exact .next (by simp) (by simp) rfl rfl rfl
  · exact .skip rfl rfl rfl

theorem transferred_ne {flow other : Flow} (h : flow ≠ other) (fault? : Option Fault) :
    transferred flow fault? ≠ .ok other := by
  cases fault? <;> simp [transferred, h]

theorem execute_control (m : Machine) (i : Instruction) : m.Control i (m.execute i) := by
  cases i with
  | noOp | clearScreen | setByte x v | addByte x v | setIndex t | random x v | readDelay x
  | setDelay x | setSound x | addIndex x | pointGlyph x =>
    exact .next (by simp) (by simp) rfl rfl rfl
  | skipEqual x v | skipUnequal x v | skipSame x y | skipDifferent x y =>
    exact control_skipIf m _ _
  | arithmetic op x y =>
    obtain ⟨registers, written⟩ := calculate_eq m.advance op x y
    simp only [execute, written]
    exact .next (by simp) (by simp) rfl rfl rfl
  | jump t =>
    refine .jump ?_ rfl rfl
    show t.val ≤ 4095 + 255
    omega
  | jumpOffset t =>
    have small := (m.register .first).toNat_lt
    refine .jump ?_ rfl rfl
    show t.val + (m.register .first).toNat ≤ 4095 + 255
    omega
  | call t =>
    simp only [execute, Machine.call]
    split
    · next stack pushed => exact .call pushed rfl rfl rfl
    · exact .next (by simp) (by simp) rfl rfl rfl
  | ret =>
    simp only [execute, Machine.ret]
    split
    · next address stack popped => exact .ret popped rfl rfl rfl
    · exact .next (by simp) (by simp) rfl rfl rfl
  | skipPressed x | skipReleased x =>
    simp only [execute, skipOnKey]
    split
    · exact control_skipIf m _ _
    · exact .next (by simp) (by simp) rfl rfl rfl
  | awaitKey x =>
    simp only [execute, pollKey]
    split
    · next key down => exact .resolve down
    · next up => exact .wait up
  | draw x y rows =>
    simp only [execute, drawSprite_eq]
    exact .next (transferred_ne (by decide) _) (transferred_ne (by decide) _) rfl rfl rfl
  | storeDecimal x =>
    simp only [execute, storeDecimal_eq]
    exact .next (transferred_ne (by decide) _) (transferred_ne (by decide) _) rfl rfl rfl
  | storeRegisters x =>
    simp only [execute, storeRegisters_eq]
    exact .next (transferred_ne (by decide) _) (transferred_ne (by decide) _) rfl rfl rfl
  | loadRegisters x =>
    simp only [execute, loadRegisters_eq]
    exact .next (transferred_ne (by decide) _) (transferred_ne (by decide) _) rfl rfl rfl

end Machine

end Chip8
