import Chip8.Proofs.Instruction.Forms
import Chip8.Proofs.Machine.Effects

/-!
# Faults

When a tick faults, and with which fault.

Results:
1. `execute_eq_error_iff`: the instructions that fault, each with its condition.
2. `tick_faults_exactly`: a tick faults exactly if the machine does not wait for a key and the
   fetch, the word or the instruction is refused.
-/

namespace Chip8.Machine

/-! ## Definitions -/

/-- When an instruction faults: `m.Obstructs i fault` says that `i` faults on `m` with `fault`.
Register, index and depth are those before the instruction. -/
def Obstructs (m : Machine) : Instruction → Fault → Prop
  | .call _, fault => m.stack.depth = 16 ∧ fault = .stackOverflow
  | .ret, fault => m.stack.depth = 0 ∧ fault = .stackUnderflow
  | .skipPressed x, fault | .skipReleased x, fault =>
    16 ≤ (m.register x).toNat ∧ fault = .badKeyIndex (m.register x)
  | .draw _ _ rows, fault =>
    0 < rows.val ∧ 4096 < m.index.toNat + rows ∧ fault = .outOfBounds (max m.index.toNat 4096)
  | .storeDecimal _, fault =>
    4096 ≤ m.index.toNat + 2 ∧ fault = .outOfBounds (max m.index.toNat 4096)
  | .storeRegisters x, fault | .loadRegisters x, fault =>
    4096 ≤ m.index.toNat + x ∧ fault = .outOfBounds (max m.index.toNat 4096)
  | _, _ => False

/-- Why a tick faults that looks for an instruction.

* `unfetched`: the word at the program counter is not all in memory.
* `unknown`: the word has none of the instruction forms.
* `obstructed`: the word is that of an instruction, which faults. -/
inductive Refuses (m : Machine) : Fault → Prop
  | unfetched : 4095 ≤ m.pc → Refuses m (.outOfBounds (max m.pc 4096))
  | unknown {w : Word} : m.fetch = .ok w → (∀ form ∈ Instruction.forms, ¬ w.Fits form) →
      Refuses m (.unknownOpcode w)
  | obstructed {i : Instruction} {fault : Fault} : m.fetch = .ok i.encode →
      m.Obstructs i fault → Refuses m fault

/-! ## Parts of a step -/

theorem pop_eq_error_iff {s : CallStack} {fault : Fault} :
    s.pop = .error fault ↔ s.depth = 0 ∧ fault = .stackUnderflow := by
  obtain ⟨slots, depth, bound⟩ := s
  cases depth with
  | zero => simp [CallStack.pop, eq_comm]
  | succ depth => simp [CallStack.pop]

theorem isPressed_eq_error_iff {p : Keypad} {index : UInt8} {fault : Fault} :
    p.isPressed index = .error fault ↔ 16 ≤ index.toNat ∧ fault = .badKeyIndex index := by
  unfold Keypad.isPressed Key.ofIndex
  split
  · next key => simp [Except.map, Nat.not_le.mpr key]
  · next beyond => simp [Except.map, Nat.not_lt.mp beyond, eq_comm]

theorem call_eq_error_iff {m : Machine} {target : Fin 4096} {fault : Fault} :
    (m.call target).1 = .error fault ↔ m.stack.depth = 16 ∧ fault = .stackOverflow := by
  rw [← @CallStack.push_eq_error_iff _ (UInt16.ofNat m.pc), call]
  cases m.stack.push (UInt16.ofNat m.pc) <;> simp

theorem ret_eq_error_iff {m : Machine} {fault : Fault} :
    m.ret.1 = .error fault ↔ m.stack.depth = 0 ∧ fault = .stackUnderflow := by
  rw [← pop_eq_error_iff, ret]
  cases m.stack.pop <;> simp

theorem skipOnKey_eq_error_iff {m : Machine} {x : Register} {pressed : Bool} {fault : Fault} :
    (m.skipOnKey x pressed).1 = .error fault ↔
      16 ≤ (m.register x).toNat ∧ fault = .badKeyIndex (m.register x) := by
  rw [← isPressed_eq_error_iff (p := m.keypad), skipOnKey]
  cases m.keypad.isPressed (m.register x) <;> simp

theorem storeDecimal_eq_error_iff {m : Machine} {x : Register} {fault : Fault} :
    (m.storeDecimal x).1 = .error fault ↔
      4096 ≤ m.index.toNat + 2 ∧ fault = .outOfBounds (max m.index.toNat 4096) := by
  have length : (decimalDigits (m.register x)).length = 3 := rfl
  have nonempty : decimalDigits (m.register x) ≠ [] := List.cons_ne_nil _ _
  rw [storeDecimal_eq, transferred_eq_error_iff, Memory.writeEach_faults_iff, length]
  exact ⟨fun h => ⟨by omega, h.2.2⟩, fun h => ⟨nonempty, by omega, h.2⟩⟩

theorem storeRegisters_eq_error_iff {m : Machine} {x : Register} {fault : Fault} :
    (m.storeRegisters x).1 = .error fault ↔
      4096 ≤ m.index.toNat + x ∧ fault = .outOfBounds (max m.index.toNat 4096) := by
  have length : (m.registers.toList.take (x.val + 1)).length = x.val + 1 := by
    rw [List.length_take, Vector.length_toList]
    omega
  have nonempty : m.registers.toList.take (x.val + 1) ≠ [] := by
    rw [← List.length_pos_iff, length]
    omega
  rw [storeRegisters_eq, transferred_eq_error_iff, Memory.writeEach_faults_iff, length]
  exact ⟨fun h => ⟨by omega, h.2.2⟩, fun h => ⟨nonempty, by omega, h.2⟩⟩

theorem loadRegisters_eq_error_iff {m : Machine} {x : Register} {fault : Fault} :
    (m.loadRegisters x).1 = .error fault ↔
      4096 ≤ m.index.toNat + x ∧ fault = .outOfBounds (max m.index.toNat 4096) := by
  rw [loadRegisters_eq, transferred_eq_error_iff, Memory.readEach_faults_iff]
  exact ⟨fun h => ⟨by omega, h.2.2⟩, fun h => ⟨by omega, by omega, h.2⟩⟩

theorem drawSprite_eq_error_iff {m : Machine} {x y : Register} {rows : Nat} {fault : Fault} :
    (m.drawSprite x y rows).1 = .error fault ↔
      0 < rows ∧ 4096 < m.index.toNat + rows ∧
        fault = .outOfBounds (max m.index.toNat 4096) := by
  rw [drawSprite_eq, transferred_eq_error_iff, Memory.readEach_faults_iff]

/-! ## Instructions -/

theorem pollKey_ok (m : Machine) (x : Register) : ∃ flow, (m.pollKey x).1 = .ok flow := by
  unfold pollKey
  split
  · exact ⟨_, rfl⟩
  · exact ⟨_, rfl⟩

/-- An instruction faults exactly if something obstructs it. -/
theorem execute_eq_error_iff {m : Machine} {i : Instruction} {fault : Fault} :
    (m.execute i).1 = .error fault ↔ m.Obstructs i fault := by
  cases i with
  | call target => exact call_eq_error_iff
  | ret => exact ret_eq_error_iff
  | skipPressed x => exact skipOnKey_eq_error_iff
  | skipReleased x => exact skipOnKey_eq_error_iff
  | draw x y rows => exact drawSprite_eq_error_iff
  | storeDecimal x => exact storeDecimal_eq_error_iff
  | storeRegisters x => exact storeRegisters_eq_error_iff
  | loadRegisters x => exact loadRegisters_eq_error_iff
  | awaitKey x =>
    obtain ⟨flow, polled⟩ := pollKey_ok { m with keyWait := some x } x
    constructor
    · intro h
      cases polled.symm.trans h
    · exact False.elim
  | _ =>
    constructor
    · intro h
      cases h
    · exact False.elim

/-! ## Ticks -/

/-- A word that is refused, on a machine that fetches it: it is no code, or it is the word of an
instruction that is obstructed. -/
theorem refuses_iff_of_fetch {m : Machine} {w : Word} (word : m.fetch = .ok w) {fault : Fault} :
    m.Refuses fault ↔
      (Instruction.decode? w = none ∧ fault = .unknownOpcode w) ∨
        ∃ i, Instruction.decode? w = some i ∧ m.Obstructs i fault := by
  constructor
  · intro h
    cases h with
    | unfetched past =>
      have inside := pc_le_of_fetch word
      omega
    | unknown word' formless =>
      obtain rfl := Except.ok.inj (word.symm.trans word')
      exact .inl ⟨Instruction.decode?_eq_none_iff.mpr formless, rfl⟩
    | @obstructed i _ word' obstructs =>
      obtain rfl := Except.ok.inj (word.symm.trans word')
      exact .inr ⟨i, Instruction.decode?_encode i, obstructs⟩
  · rintro (⟨noCode, rfl⟩ | ⟨i, code, obstructs⟩)
    · exact .unknown word (Instruction.decode?_eq_none_iff.mp noCode)
    · rw [← Instruction.encode_of_decode? code] at word
      exact .obstructed word obstructs

theorem refuses_iff_of_unfetched {m : Machine} (past : 4095 ≤ m.pc) {fault : Fault} :
    m.Refuses fault ↔ fault = .outOfBounds (max m.pc 4096) := by
  have missing {w : Word} (word : m.fetch = .ok w) : False := by
    have inside := pc_le_of_fetch word
    omega
  constructor
  · intro h
    cases h with
    | unfetched _ => rfl
    | unknown word _ => exact (missing word).elim
    | obstructed word _ => exact (missing word).elim
  · rintro rfl
    exact .unfetched past

theorem tickCase_eq_error_iff {m : Machine} {s : Step} (h : m.TickCase s) {fault : Fault} :
    s.1 = .error fault ↔ m.keyWait = none ∧ m.Refuses fault := by
  cases h with
  | @stalled x waits =>
    obtain ⟨flow, polled⟩ := pollKey_ok m x
    simp [polled, waits]
  | unfetched running past =>
    rw [refuses_iff_of_unfetched past]
    simp [running, eq_comm]
  | unknown running word _ noCode =>
    rw [refuses_iff_of_fetch word]
    simp [running, noCode, eq_comm]
  | executed running word _ code =>
    rw [refuses_iff_of_fetch word, execute_eq_error_iff]
    simp [running, code]

/-- A tick faults exactly if the machine does not wait for a key and something is refused; the
fault is the one of what is refused. A sprite without rows never faults and a waiting machine
never does. -/
theorem tick_faults_exactly (m : Machine) :
    (∀ fault, m.tick.1 = .error fault ↔ m.keyWait = none ∧ m.Refuses fault) ∧
      (∀ x y, m.fetch = .ok (Instruction.draw x y 0).encode → ∃ flow, m.tick.1 = .ok flow) ∧
      (m.isWaiting = true → ∃ flow, m.tick.1 = .ok flow) := by
  have exactly : ∀ fault, m.tick.1 = .error fault ↔ m.keyWait = none ∧ m.Refuses fault :=
    fun _ => tickCase_eq_error_iff (tick_cases m)
  refine ⟨exactly, ?_, ?_⟩
  · intro x y word
    cases outcome : m.tick.1 with
    | ok flow => exact ⟨flow, rfl⟩
    | error fault =>
      have refused := ((exactly fault).mp outcome).2
      rw [refuses_iff_of_fetch word, Instruction.decode?_encode] at refused
      rcases refused with ⟨noCode, _⟩ | ⟨i, code, obstructs⟩
      · cases noCode
      · cases code
        exact absurd obstructs.1 (Nat.lt_irrefl 0)
  · intro waits
    cases outcome : m.tick.1 with
    | ok flow => exact ⟨flow, rfl⟩
    | error fault =>
      have running := ((exactly fault).mp outcome).1
      simp [isWaiting, running] at waits

end Chip8.Machine
