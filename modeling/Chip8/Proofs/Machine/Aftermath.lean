import Chip8.Proofs.Machine.Faults
import Chip8.Proofs.Machine.Invariants
import Chip8.Proofs.Screen.Sprites

/-!
# Aftermath of a fault

What a faulting tick leaves behind. The program counter has moved on, and of a transfer or a
sprite the part is done for which there was memory; the flag of a sprite is cleared before its
first byte is read, and the index is moved after the last byte of a transfer.

Results:
1. `decimal_decimalDigits`: the bytes that spell a number are its digits.
2. `execute_leaves`: the state after each instruction that faults.
3. `tick_at_end`, `unfetched_lasting`: where the fetch faults it faults forever.
4. `tick_leaves`: the state after each tick that faults.
-/

namespace Chip8

/-- `after` is `before` with the values from `start` on, as far as there are addresses. -/
structure Memory.Overwrites (before : Memory) (start : Nat) (values : List UInt8)
    (after : Memory) : Prop where
  inside : ∀ k, ∀ h : k < values.length, start + k < 4096 → after.read (start + k) = .ok values[k]
  outside : ∀ address, address < start ∨ start + values.length ≤ address →
    after.read address = before.read address

/-- The hundreds, tens and ones digit of a byte. -/
inductive Decimal (value : UInt8) : List UInt8 → Prop
  | mk {h t o : UInt8} : h ≤ 9 → t ≤ 9 → o ≤ 9 →
      100 * h.toNat + 10 * t.toNat + o.toNat = value.toNat → Decimal value [h, t, o]

namespace Machine

/-! ## Definitions -/

/-- The registers up to `x` hold the bytes at the index, as far as there are any, and the others
what they held. -/
structure Reloads (m : Machine) (x : Register) (registers : Vector UInt8 16) : Prop where
  loaded : ∀ k : Register, k.val ≤ x.val → ∀ byte, m.memory.read (m.index.toNat + k) = .ok byte →
    registers.get k = byte
  kept : ∀ k : Register, x.val < k.val ∨ 4096 ≤ m.index.toNat + k → registers.get k = m.register k

/-- A pixel lies under a set bit of the sprite at the index, in a row for which there is a
byte. -/
def Covers (m : Machine) (x y : Register) (rows : Nat) (px py : Nat) : Prop :=
  ∃ r < rows, ∃ row, m.memory.read (m.index.toNat + r) = .ok row ∧
    ∃ c < 8, row.toNat.testBit (7 - c) ∧
      ((m.register x).toNat + c) % 64 = px % 64 ∧ ((m.register y).toNat + r) % 32 = py % 32

/-- The state that a fault leaves.

* `unfetched`: without a word nothing happens.
* `passed`: a word that is no code, a call, a return and a skip are passed over.
* `storeDecimal`, `storeRegisters`, `loadRegisters`: the bytes that exist are transferred, and
  the index stays whatever the profile says.
* `draw`: the rows that exist are drawn, and VF is zero whatever they erased. No other register
  changes. -/
inductive Leaves (m : Machine) : Fault → Machine → Prop
  | unfetched : 4095 ≤ m.pc → Leaves m (.outOfBounds (max m.pc 4096)) m
  | passed {fault : Fault} : m.pc ≤ 4094 → (∀ address, fault ≠ .outOfBounds address) →
      Leaves m fault { m with pc := m.pc + 2 }
  | storeDecimal {x : Register} {digits : List UInt8} {memory : Memory} :
      m.fetch = .ok (Instruction.storeDecimal x).encode → Decimal (m.register x) digits →
      m.memory.Overwrites m.index.toNat digits memory →
      Leaves m (.outOfBounds (max m.index.toNat 4096)) { m with pc := m.pc + 2, memory }
  | storeRegisters {x : Register} {memory : Memory} :
      m.fetch = .ok (Instruction.storeRegisters x).encode →
      m.memory.Overwrites m.index.toNat (m.registers.toList.take (x.val + 1)) memory →
      Leaves m (.outOfBounds (max m.index.toNat 4096)) { m with pc := m.pc + 2, memory }
  | loadRegisters {x : Register} {registers : Vector UInt8 16} :
      m.fetch = .ok (Instruction.loadRegisters x).encode → m.Reloads x registers →
      Leaves m (.outOfBounds (max m.index.toNat 4096)) { m with pc := m.pc + 2, registers }
  | draw {x y : Register} {rows : Fin 16} {screen : Screen} {registers : Vector UInt8 16} :
      m.fetch = .ok (Instruction.draw x y rows).encode →
      (∀ px py, screen.pixel px py ≠ m.screen.pixel px py ↔ m.Covers x y rows px py) →
      registers.get 15 = 0 → (∀ k : Register, k ≠ 15 → registers.get k = m.register k) →
      Leaves m (.outOfBounds (max m.index.toNat 4096))
        { m with pc := m.pc + 2, screen, registers }

/-! ## Transfers -/

theorem decimalDigits_spell (value : UInt8) :
    value / 100 ≤ 9 ∧ value / 10 % 10 ≤ 9 ∧ value % 10 ≤ 9 ∧
      100 * (value / 100).toNat + 10 * (value / 10 % 10).toNat + (value % 10).toNat =
        value.toNat := by
  have bound := value.toNat_lt
  simp only [UInt8.le_iff_toNat_le, UInt8.toNat_div, UInt8.toNat_mod, UInt8.reduceToNat]
  omega

theorem decimal_decimalDigits (value : UInt8) : Decimal value (decimalDigits value) := by
  obtain ⟨hundreds, tens, ones, sum⟩ := decimalDigits_spell value
  exact .mk hundreds tens ones sum

theorem overwrites_writeEach (memory : Memory) (start : Nat) (values : List UInt8) :
    memory.Overwrites start values (memory.writeEach start values).1 where
  inside _ h room := Memory.read_writeEach_of_lt h room
  outside _ h := Memory.read_writeEach_of_outside h

theorem reloads_readEach (m : Machine) (x : Register) :
    m.Reloads x (m.registers.mapIdx fun k old =>
      (m.memory.readEach m.index.toNat (x.val + 1)).1.getD k old) where
  loaded := by
    intro k le byte read
    obtain ⟨inside, rfl⟩ := Memory.read_eq_ok_iff.mp read
    have loaded : (m.memory.readEach m.index.toNat (x.val + 1)).1[k.val]? =
        some m.memory.cells[m.index.toNat + k] := by
      rw [Memory.getElem?_readEach, if_pos (Nat.lt_succ_of_le le)]
      exact Vector.getElem?_eq_getElem inside
    show (m.registers.mapIdx _)[k.val] = _
    rw [Vector.getElem_mapIdx, List.getD_eq_getElem?_getD, loaded, Option.getD_some]
  kept := by
    intro k apart
    have missing : (m.memory.readEach m.index.toNat (x.val + 1)).1[k.val]? = none := by
      rw [Memory.getElem?_readEach]
      rcases apart with above | past
      · exact if_neg (by omega)
      · simp [past]
    show (m.registers.mapIdx _)[k.val] = _
    rw [Vector.getElem_mapIdx, List.getD_eq_getElem?_getD, missing, Option.getD_none]
    rfl

theorem covers_iff_points {m : Machine} {x y : Register} {rows px py : Nat} :
    m.Covers x y rows px py ↔
      ∃ p ∈ Screen.points (m.register x).toNat (m.register y).toNat
          (m.memory.readEach m.index.toNat rows).1,
        p.1 % 64 = px % 64 ∧ p.2 % 32 = py % 32 := by
  constructor
  · rintro ⟨r, below, row, read, c, narrow, lit, column, line⟩
    obtain ⟨inside, rfl⟩ := Memory.read_eq_ok_iff.mp read
    refine ⟨_, Screen.mem_points.mpr ⟨r, _, c, ?_, Screen.mem_columns.mpr ⟨narrow, lit⟩, rfl⟩,
      column, line⟩
    simp [Memory.getElem?_readEach, below, inside]
  · rintro ⟨_, point, column, line⟩
    obtain ⟨r, row, c, drawn, lit, rfl⟩ := Screen.mem_points.mp point
    obtain ⟨narrow, lit⟩ := Screen.mem_columns.mp lit
    rw [Memory.getElem?_readEach] at drawn
    split at drawn
    · next below =>
      obtain ⟨inside, rfl⟩ := Vector.getElem?_eq_some_iff.mp drawn
      exact ⟨r, below, _, Memory.read_of_lt inside, c, narrow, lit, column, line⟩
    · cases drawn

/-- A sprite inverts the pixels that it covers, whether all its rows exist or not. -/
theorem pixel_drawSprite_readEach_ne_iff (m : Machine) (x y : Register) {rows : Nat}
    (h : rows ≤ 32) (px py : Nat) :
    (m.screen.drawSprite (m.register x).toNat (m.register y).toNat
        (m.memory.readEach m.index.toNat rows).1).2.pixel px py ≠ m.screen.pixel px py ↔
      m.Covers x y rows px py := by
  have short := Nat.le_trans (Memory.length_readEach_le m.memory m.index.toNat rows) h
  rw [Screen.pixel_drawSprite_ne_iff _ _ _ short, covers_iff_points]

/-! ## Instructions -/

theorem call_snd_of_error {m : Machine} {target : Fin 4096} {fault : Fault}
    (h : (m.call target).1 = .error fault) : (m.call target).2 = m := by
  unfold call at h ⊢
  split at h
  · cases h
  · rfl

theorem ret_snd_of_error {m : Machine} {fault : Fault} (h : m.ret.1 = .error fault) :
    m.ret.2 = m := by
  unfold ret at h ⊢
  split at h
  · cases h
  · rfl

theorem skipOnKey_snd_of_error {m : Machine} {x : Register} {pressed : Bool} {fault : Fault}
    (h : (m.skipOnKey x pressed).1 = .error fault) : (m.skipOnKey x pressed).2 = m := by
  unfold skipOnKey at h ⊢
  split at h
  · cases h
  · rfl

/-- A transfer that faults is not complete. -/
theorem isNone_of_transferred {flow : Flow} {fault? : Option Fault} {fault : Fault}
    (h : transferred flow fault? = .error fault) : fault?.isNone = false := by
  rw [transferred_eq_error_iff.mp h]
  rfl

theorem execute_leaves {m : Machine} {i : Instruction} {fault : Fault}
    (word : m.fetch = .ok i.encode) (h : m.Obstructs i fault) :
    m.Leaves fault (m.execute i).2 := by
  have inside := pc_le_of_fetch word
  have faults := execute_eq_error_iff.mpr h
  cases i with
  | call target =>
    obtain ⟨_, rfl⟩ := h
    have stays : (m.execute (.call target)).2 = m.advance := call_snd_of_error faults
    rw [stays]
    exact .passed inside (by simp)
  | ret =>
    obtain ⟨_, rfl⟩ := h
    have stays : (m.execute .ret).2 = m.advance := ret_snd_of_error faults
    rw [stays]
    exact .passed inside (by simp)
  | skipPressed x =>
    obtain ⟨_, rfl⟩ := h
    have stays : (m.execute (.skipPressed x)).2 = m.advance := skipOnKey_snd_of_error faults
    rw [stays]
    exact .passed inside (by simp)
  | skipReleased x =>
    obtain ⟨_, rfl⟩ := h
    have stays : (m.execute (.skipReleased x)).2 = m.advance := skipOnKey_snd_of_error faults
    rw [stays]
    exact .passed inside (by simp)
  | draw x y rows =>
    obtain ⟨_, _, rfl⟩ := h
    simp only [execute, drawSprite_eq] at faults ⊢
    simp only [isNone_of_transferred faults, Bool.false_eq_true, false_and, ↓reduceIte]
    have flag : (m.registers.set 15 0).get 15 = 0 := Vector.getElem_set_self _
    have others (k : Register) (other : k ≠ 15) : (m.registers.set 15 0).get k = m.register k :=
      Vector.getElem_set_ne _ _ fun same => other (Fin.ext same.symm)
    exact .draw word (pixel_drawSprite_readEach_ne_iff m x y (by omega)) flag others
  | storeDecimal x =>
    obtain ⟨_, rfl⟩ := h
    simp only [execute, storeDecimal_eq]
    exact .storeDecimal word (decimal_decimalDigits _) (overwrites_writeEach _ _ _)
  | storeRegisters x =>
    obtain ⟨_, rfl⟩ := h
    simp only [execute, storeRegisters_eq] at faults ⊢
    simp only [isNone_of_transferred faults, Bool.false_eq_true, false_and, ↓reduceIte]
    exact .storeRegisters word (overwrites_writeEach _ _ _)
  | loadRegisters x =>
    obtain ⟨_, rfl⟩ := h
    simp only [execute, loadRegisters_eq] at faults ⊢
    simp only [isNone_of_transferred faults, Bool.false_eq_true, false_and, ↓reduceIte]
    exact .loadRegisters word (reloads_readEach m x)
  | _ => exact False.elim h

/-! ## Ticks -/

theorem tickCase_leaves {m : Machine} {s : Step} (h : m.TickCase s) {fault : Fault}
    (faults : s.1 = .error fault) : m.Leaves fault s.2 := by
  cases h with
  | @stalled x _ =>
    obtain ⟨flow, polled⟩ := pollKey_ok m x
    rw [polled] at faults
    cases faults
  | unfetched _ past =>
    cases faults
    exact .unfetched past
  | unknown _ _ inside _ =>
    cases faults
    exact .passed inside (by simp)
  | executed _ word _ code =>
    rw [← Instruction.encode_of_decode? code] at word
    exact execute_leaves word (execute_eq_error_iff.mp faults)

/-- What a fault leaves of digits that do not all fit. -/
theorem Leaves.digits {m after : Machine} {x : Register} {address : Nat}
    (leaves : m.Leaves (.outOfBounds address) after)
    (word : m.fetch = .ok (Instruction.storeDecimal x).encode) :
    ∃ digits, Decimal (m.register x) digits ∧
      m.memory.Overwrites m.index.toNat digits after.memory := by
  have same {i : Instruction} (other : m.fetch = .ok i.encode) : i = .storeDecimal x := by
    have decoded := Instruction.decode?_encode i
    rw [Except.ok.inj (other.symm.trans word), Instruction.decode?_encode] at decoded
    exact (Option.some.inj decoded).symm
  cases leaves with
  | unfetched past =>
    have inside := pc_le_of_fetch word
    omega
  | passed _ other => exact absurd rfl (other address)
  | storeDecimal stored spell written =>
    cases same stored
    exact ⟨_, spell, written⟩
  | storeRegisters stored _ => cases same stored
  | loadRegisters loaded _ => cases same loaded
  | draw drawn _ _ _ => cases same drawn

/-! ## Past the end of memory -/

theorem tick_at_end {m : Machine} (running : m.keyWait = none) (past : 4095 ≤ m.pc) :
    m.tick = (.error (.outOfBounds (max m.pc 4096)), m) := by
  have missing : m.fetch = .error (.outOfBounds (max m.pc 4096)) :=
    fetch_eq_error_iff.mpr ⟨past, rfl⟩
  simp only [tick, running, missing]

theorem run_at_end {m : Machine} (running : m.keyWait = none) (past : 4095 ≤ m.pc) (count : Nat) :
    m.run (count + 1) = (.error (.outOfBounds (max m.pc 4096)), m) := by
  simp only [run, run.go, tick_at_end running past]

/-- Only a restart leads back into memory. -/
theorem unfetched_lasting {pc : Nat} (past : 4095 ≤ pc) :
    Lasting fun m => m.keyWait = none ∧ m.pc = pc where
  tick := by
    rintro m ⟨running, rfl⟩
    rw [tick_at_end running past]
    exact ⟨running, rfl⟩
  tickTimers hm := hm
  keys _ hm := hm
  font _ _ _ hm := hm

/-- Where there is no word to fetch, every later tick and run faults alike and changes nothing. -/
theorem apply_after_end {m : Machine} (running : m.keyWait = none) (past : 4095 ≤ m.pc)
    {ops : List Operation} (lasts : ∀ op ∈ ops, op.restarts = false) :
    let later := (m.applyAll ops).2
    later.apply .tick = (.error (.outOfBounds (max m.pc 4096)), later) ∧
      ∀ count, later.apply (.run (count + 1)) = (.error (.outOfBounds (max m.pc 4096)), later) := by
  intro later
  obtain ⟨waits, pc⟩ : later.keyWait = none ∧ later.pc = m.pc :=
    (unfetched_lasting past).applyAll lasts ⟨running, rfl⟩
  rw [← pc] at past ⊢
  refine ⟨?_, ?_⟩
  · simp only [apply, tick_at_end waits past]
    rfl
  · intro count
    simp only [apply, run_at_end waits past]
    rfl

/-- The state after each tick that faults. If there was no word to fetch, every later tick and
every later run faults in the same way and changes nothing, until a restart. -/
theorem tick_leaves {m : Machine} {fault : Fault} (h : m.tick.1 = .error fault) :
    m.Leaves fault m.tick.2 ∧
      (4095 ≤ m.pc → ∀ ops : List Operation, (∀ op ∈ ops, op.restarts = false) →
        let later := (m.tick.2.applyAll ops).2
        later.apply .tick = (.error fault, later) ∧
          ∀ count, later.apply (.run (count + 1)) = (.error fault, later)) := by
  refine ⟨tickCase_leaves (tick_cases m) h, ?_⟩
  intro past ops lasts
  have running : m.keyWait = none := ((tickCase_eq_error_iff (tick_cases m)).mp h).1
  rw [tick_at_end running past] at h ⊢
  cases h
  exact apply_after_end running past lasts

/-- Four registers do not fit into the last two bytes, and of three digits the last does not. -/
theorem tick_leaves_half_stored :
    let m : Machine := { Machine.new {} (.constant 7) with
      index := 4094, memory := Memory.zero.overlay 512 [0xF3, 0x55] }
    let n : Machine := { Machine.new {} (.constant 7) with
      index := 4094, memory := Memory.zero.overlay 512 [0xF5, 0x33]
      registers := (Vector.replicate 16 0).set 5 254 }
    (m.tick.1 = .error (.outOfBounds 4096) ∧ m.Leaves (.outOfBounds 4096) m.tick.2) ∧
      n.tick.1 = .error (.outOfBounds 4096) ∧ n.Leaves (.outOfBounds 4096) n.tick.2 ∧
      n.tick.2.memory.read 4094 = .ok 2 ∧ n.tick.2.memory.read 4095 = .ok 5 := by
  intro m n
  have word : m.fetch = .ok (Instruction.storeRegisters 3).encode :=
    fetch_of_overlay rfl (by decide) rfl rfl
  have faults : m.tick.1 = .error (.outOfBounds 4096) := by
    rw [tick_of_fetch rfl word (Instruction.decode?_encode _)]
    exact execute_eq_error_iff.mpr ⟨by decide, rfl⟩
  have word' : n.fetch = .ok (Instruction.storeDecimal 5).encode :=
    fetch_of_overlay rfl (by decide) rfl rfl
  have faults' : n.tick.1 = .error (.outOfBounds 4096) := by
    rw [tick_of_fetch rfl word' (Instruction.decode?_encode _)]
    exact execute_eq_error_iff.mpr ⟨by decide, rfl⟩
  have leaves := (tick_leaves faults').1
  obtain ⟨digits, decimal, written⟩ := leaves.digits word'
  cases decimal with
  | @mk h t o hundreds tens ones sum =>
    have value : 100 * h.toNat + 10 * t.toNat + o.toNat = 254 := sum
    simp only [UInt8.le_iff_toNat_le, UInt8.reduceToNat] at tens ones
    have two : h = 2 := UInt8.toNat_inj.mp (by simp; omega)
    have five : t = 5 := UInt8.toNat_inj.mp (by simp; omega)
    have first := written.inside 0 (by simp) (by decide)
    have second := written.inside 1 (by simp) (by decide)
    subst two five
    exact ⟨⟨faults, (tick_leaves faults).1⟩, faults', leaves, first, second⟩

end Machine

end Chip8
