import Chip8.Proofs.Machine.Effects
import Chip8.Proofs.Screen.Sprites

/-!
# Guarded execution

A tick once more, the way it runs on arrays and on addresses of 64 bits: every index is looked up
with a check, every sum of addresses has to fit, and so has an address that becomes a return
address of sixteen bits. Where a check fails there is no result.

Results:
1. `perform_eq`: what an instruction does after the program counter has moved on.
2. `tick_eq`: as long as the program counter itself can move on, no check of a tick fails, and
   the guarded tick is `Machine.tick`.
-/

namespace Chip8.Guarded

/-! ## Checks -/

/-- The sum of two addresses of 64 bits. -/
def sum (a b : Nat) : Option Nat := if a + b < 0x10000000000000000 then some (a + b) else none

/-- An address cut to sixteen bits, if nothing is lost. -/
def narrow (address : Nat) : Option UInt16 :=
  if address < 0x10000 then some (UInt16.ofNat address) else none

/-- An array with one entry replaced. -/
def replace {α : Type} {n : Nat} (cells : Vector α n) (index : Nat) (value : α) :
    Option (Vector α n) :=
  if h : index < n then some (cells.set index value h) else none

/-! ## Registers, stack and screen -/

def register (m : Machine) (x : Nat) : Option UInt8 := m.registers[x]?

def setRegister (m : Machine) (x : Nat) (value : UInt8) : Option Machine := do
  return { m with registers := ← replace m.registers x value }

def advance (m : Machine) : Option Machine := do
  return { m with pc := ← sum m.pc 2 }

def skipIf (m : Machine) (condition : Bool) : Option Machine :=
  if condition then advance m else some m

theorem pred_depth_le (s : CallStack) : s.depth - 1 ≤ 16 := by
  have bound := s.depth_le
  omega

def push (s : CallStack) (address : UInt16) : Option (Except Fault CallStack) :=
  if full : 16 ≤ s.depth then some (.error .stackOverflow)
  else do
    let slots ← replace s.slots s.depth address
    return .ok ⟨slots, s.depth + 1, by omega⟩

def pop (s : CallStack) : Option (Except Fault (UInt16 × CallStack)) :=
  match s.depth with
  | 0 => some (.error .stackUnderflow)
  | depth + 1 => do
    let address ← s.slots[depth]?
    return .ok (address, { s with depth := s.depth - 1, depth_le := pred_depth_le s })

/-- Inverts the pixel at column `x` and row `y` and tells whether it was lit. -/
def draw (s : Screen) (x y : Nat) : Option (Bool × Screen) := do
  let index ← sum (x % 64) (64 * (y % 32))
  if h : index < 2048 then some (s.cells[index] ≠ 0, s.flip ⟨index, h⟩) else none

/-- Draws the columns of one sprite row. -/
def drawRow (s : Screen) (erased : Bool) (x y : Nat) : List Nat → Option (Bool × Screen)
  | [] => some (erased, s)
  | column :: columns => do
    let (lit, s) ← draw s (← sum x column) y
    drawRow s (erased || lit) x y columns

/-- Draws sprite rows, the first of which has number `r`. -/
def drawRows (s : Screen) (erased : Bool) (x y r : Nat) : List UInt8 → Option (Bool × Screen)
  | [] => some (erased, s)
  | row :: rows => do
    let (erased, s) ← drawRow s erased x (← sum y r) (Screen.columns row)
    drawRows s erased x y (r + 1) rows

/-! ## Transfers -/

/-- Reads `count` bytes, the first of which has number `k`. -/
def readEach (m : Memory) (start k : Nat) : Nat → Option (List UInt8 × Option Fault)
  | 0 => some ([], none)
  | count + 1 => do
    match m.read (← sum start k) with
    | .error fault => return ([], some fault)
    | .ok value =>
      let rest ← readEach m start (k + 1) count
      return (value :: rest.1, rest.2)

/-- Writes bytes, the first of which has number `k`. -/
def writeEach (m : Memory) (start k : Nat) : List UInt8 → Option (Memory × Option Fault)
  | [] => some (m, none)
  | value :: values => do
    match m.write (← sum start k) value with
    | .error fault => return (m, some fault)
    | .ok m => writeEach m start (k + 1) values

/-- The values of `count` registers from number `k` on. -/
def registersFrom (m : Machine) (k : Nat) : Nat → Option (List UInt8)
  | 0 => some []
  | count + 1 => do
    let value ← register m k
    let rest ← registersFrom m (k + 1) count
    return value :: rest

/-- Puts values into the registers from number `k` on. -/
def setFirst (registers : Vector UInt8 16) (k : Nat) : List UInt8 → Option (Vector UInt8 16)
  | [] => some registers
  | value :: values => do setFirst (← replace registers k value) (k + 1) values

/-- Moves the index past register `x` if the profile asks for it. -/
def advanceIndex (m : Machine) (x : Nat) : Option Machine :=
  if m.profile.advanceIndex then do
    return { m with index := m.index + (← narrow (x + 1)) }
  else some m

/-! ## Instructions -/

def pollKey (m : Machine) (x : Nat) : Option Step :=
  match m.keypad.lowest? with
  | some key => do
    let m ← advance (← setRegister m x key.toByte)
    return (.ok .proceed, { m with keyWait := none })
  | none => some (.ok .keyWait, m)

def skipOnKey (m : Machine) (x : Nat) (pressed : Bool) : Option Step := do
  match m.keypad.isPressed (← register m x) with
  | .ok down => return (.ok .proceed, ← skipIf m (down = pressed))
  | .error fault => return (.error fault, m)

def calculate (m : Machine) (op : Arithmetic) (x y : Nat) : Option Machine := do
  let a ← register m x
  let b ← register m y
  let m' ← setRegister m x (op.result m.profile a b)
  match op.flag? m.profile a b with
  | some flag => setRegister m' 15 (if flag then 1 else 0)
  | none => return m'

def drawSprite (m : Machine) (x y rows : Nat) : Option Step := do
  let (values, fault?) ← readEach m.memory m.index.toNat 0 rows
  let (erased, screen) ←
    drawRows m.screen false (← register m x).toNat (← register m y).toNat 0 values
  let flag := if fault?.isNone ∧ erased then 1 else 0
  return (Machine.transferred .draw fault?, ← setRegister { m with screen } 15 flag)

def storeDecimal (m : Machine) (x : Nat) : Option Step := do
  let digits := Machine.decimalDigits (← register m x)
  let (memory, fault?) ← writeEach m.memory m.index.toNat 0 digits
  return (Machine.transferred .proceed fault?, { m with memory })

def storeRegisters (m : Machine) (x : Nat) : Option Step := do
  let values ← registersFrom m 0 (x + 1)
  let (memory, fault?) ← writeEach m.memory m.index.toNat 0 values
  match fault? with
  | some fault => return (.error fault, { m with memory })
  | none => return (.ok .proceed, ← advanceIndex { m with memory } x)

def loadRegisters (m : Machine) (x : Nat) : Option Step := do
  let (values, fault?) ← readEach m.memory m.index.toNat 0 (x + 1)
  let registers ← setFirst m.registers 0 values
  match fault? with
  | some fault => return (.error fault, { m with registers })
  | none => return (.ok .proceed, ← advanceIndex { m with registers } x)

def call (m : Machine) (target : Nat) : Option Step := do
  match ← push m.stack (← narrow m.pc) with
  | .ok stack => return (.ok .jump, { m with stack, pc := target })
  | .error fault => return (.error fault, m)

def ret (m : Machine) : Option Step := do
  match ← pop m.stack with
  | .ok (address, stack) => return (.ok .jump, { m with stack, pc := address.toNat })
  | .error fault => return (.error fault, m)

/-- An instruction other than the wait for a key, on a machine whose program counter has moved
on. -/
def perform (m : Machine) : Instruction → Option Step
  | .noOp | .awaitKey _ => some (.ok .proceed, m)
  | .clearScreen => some (.ok .draw, { m with screen := .blank })
  | .ret => ret m
  | .jump target => some (.ok .jump, { m with pc := target })
  | .call target => call m target
  | .skipEqual x value => do return (.ok .proceed, ← skipIf m ((← register m x) = value))
  | .skipUnequal x value => do return (.ok .proceed, ← skipIf m ((← register m x) ≠ value))
  | .skipSame x y => do return (.ok .proceed, ← skipIf m ((← register m x) = (← register m y)))
  | .skipDifferent x y => do
    return (.ok .proceed, ← skipIf m ((← register m x) ≠ (← register m y)))
  | .setByte x value => do return (.ok .proceed, ← setRegister m x value)
  | .addByte x value => do return (.ok .proceed, ← setRegister m x ((← register m x) + value))
  | .arithmetic op x y => do return (.ok .proceed, ← calculate m op x y)
  | .setIndex target => do return (.ok .proceed, { m with index := ← narrow target })
  | .jumpOffset target => do
    return (.ok .jump, { m with pc := ← sum target (← register m 0).toNat })
  | .random x mask => do
    let (value, random) := m.random.next
    let m ← setRegister m x (value &&& mask)
    return (.ok .proceed, { m with random })
  | .draw x y rows => drawSprite m x y rows
  | .skipPressed x => skipOnKey m x true
  | .skipReleased x => skipOnKey m x false
  | .readDelay x => do return (.ok .proceed, ← setRegister m x m.delay)
  | .setDelay x => do return (.ok .proceed, { m with delay := ← register m x })
  | .setSound x => do return (.ok .sound, { m with sound := ← register m x })
  | .addIndex x => do
    return (.ok .proceed, { m with index := m.index + (← register m x).toUInt16 })
  | .pointGlyph x => do
    return (.ok .proceed, { m with index := ← narrow (5 * ((← register m x).toNat % 16)) })
  | .storeDecimal x => storeDecimal m x
  | .storeRegisters x => storeRegisters m x
  | .loadRegisters x => loadRegisters m x

def execute (m : Machine) (i : Instruction) : Option Step :=
  match i with
  | .awaitKey x => pollKey { m with keyWait := some x } x
  | i => do perform (← advance m) i

/-! ## Ticks -/

def fetch (m : Machine) : Option (Except Fault Word) :=
  match m.memory.read m.pc with
  | .error fault => some (.error fault)
  | .ok high => do
    match m.memory.read (← sum m.pc 1) with
    | .error fault => return .error fault
    | .ok low => return .ok (Word.ofBytes high low)

def tick (m : Machine) : Option Step :=
  match m.keyWait with
  | some x => pollKey m x
  | none => do
    match ← fetch m with
    | .error fault => return (.error fault, m)
    | .ok w =>
      match Instruction.decode? w with
      | some i => execute m i
      | none => return (.error (.unknownOpcode w), ← advance m)

/-! ## No check fails -/

@[simp]
theorem sum_eq {a b : Nat} (h : a + b < 0x10000000000000000) : sum a b = some (a + b) := if_pos h

@[simp]
theorem narrow_eq {a : Nat} (h : a < 0x10000) : narrow a = some (UInt16.ofNat a) := if_pos h

theorem replace_eq {α : Type} {n : Nat} (cells : Vector α n) {index : Nat} (h : index < n)
    (value : α) : replace cells index value = some (cells.set index value) := dif_pos h

@[simp]
theorem register_eq (m : Machine) (x : Register) : register m x = some (m.register x) := by
  simp [register, Machine.register]

@[simp]
theorem setRegister_eq (m : Machine) (x : Register) (value : UInt8) :
    setRegister m x value = some (m.setRegister x value) := by
  simp [setRegister, replace_eq _ x.isLt, Machine.setRegister]

theorem advance_eq {m : Machine} (h : m.pc + 2 < 0x10000000000000000) :
    advance m = some m.advance := by
  simp [advance, sum_eq h, Machine.advance]

theorem skipIf_eq {m : Machine} (h : m.pc + 2 < 0x10000000000000000) (c : Bool) :
    skipIf m c = some (m.skipIf c) := by
  cases c
  · rfl
  · exact advance_eq h

@[simp]
theorem push_eq (s : CallStack) (address : UInt16) : push s address = some (s.push address) := by
  unfold push CallStack.push
  split
  · next full => rw [dif_neg (by omega)]
  · next free => simp [replace_eq s.slots (show s.depth < 16 by omega), Nat.lt_of_not_le free]

@[simp]
theorem pop_eq (s : CallStack) : pop s = some s.pop := by
  obtain ⟨slots, depth, bound⟩ := s
  cases depth with
  | zero => rfl
  | succ depth => simp [pop, CallStack.pop, Nat.lt_of_succ_le bound]

theorem draw_eq (s : Screen) (x y : Nat) : draw s x y = some (s.draw x y) := by
  have small : x % 64 + 64 * (y % 32) < 2048 := by omega
  rw [draw, sum_eq (by omega)]
  exact dif_pos small

theorem drawRow_eq {x : Nat} (s : Screen) (erased : Bool) (y : Nat) {columns : List Nat}
    (h : ∀ c ∈ columns, x + c < 0x10000000000000000) :
    drawRow s erased x y columns = some (s.drawPoints erased (columns.map fun c => (x + c, y))) := by
  induction columns generalizing s erased with
  | nil => rfl
  | cons c columns ih =>
    rw [drawRow, sum_eq (h c List.mem_cons_self)]
    simp only [Option.bind_eq_bind, Option.bind_some, draw_eq, List.map_cons, Screen.drawPoints]
    exact ih _ _ fun c' h' => h c' (List.mem_cons_of_mem _ h')

theorem drawRows_eq {x y : Nat} (hx : x < 256) (hy : y < 256) (s : Screen) (erased : Bool)
    {r : Nat} {rows : List UInt8} (h : r + rows.length ≤ 16) :
    drawRows s erased x y r rows = some (s.drawPoints erased (Screen.points x (y + r) rows)) := by
  induction rows generalizing s erased r with
  | nil => rfl
  | cons row rows ih =>
    rw [List.length_cons] at h
    have near : ∀ c ∈ Screen.columns row, x + c < 0x10000000000000000 := by
      intro c hc
      have := (Screen.mem_columns.mp hc).1
      omega
    rw [drawRows, sum_eq (by omega), Option.bind_eq_bind, Option.bind_some, drawRow_eq s _ _ near,
      Screen.points, Screen.drawPoints_append]
    exact ih _ _ (by omega)

theorem readEach_eq (m : Memory) {start k count : Nat} (h : start + k + count < 0x10000000000000000) :
    readEach m start k count = some (m.readEach (start + k) count) := by
  induction count generalizing k with
  | zero => rfl
  | succ count ih =>
    rw [readEach, Memory.readEach, sum_eq (by omega), Option.bind_eq_bind, Option.bind_some]
    cases m.read (start + k) with
    | error fault => rfl
    | ok value =>
      simp only []
      rw [ih (by omega)]
      rfl

theorem writeEach_eq (m : Memory) {start k : Nat} {values : List UInt8}
    (h : start + k + values.length < 0x10000000000000000) :
    writeEach m start k values = some (m.writeEach (start + k) values) := by
  induction values generalizing m k with
  | nil => rfl
  | cons value values ih =>
    rw [List.length_cons] at h
    rw [writeEach, Memory.writeEach, sum_eq (by omega), Option.bind_eq_bind, Option.bind_some]
    cases m.write (start + k) value with
    | error fault => rfl
    | ok m' => exact ih m' (by omega)

theorem setFirst_eq (registers : Vector UInt8 16) {k : Nat} {values : List UInt8}
    (h : k + values.length ≤ 16) :
    setFirst registers k values = some
      (registers.mapIdx fun j old => if k ≤ j then values.getD (j - k) old else old) := by
  induction values generalizing registers k with
  | nil =>
    refine congrArg some ?_
    ext j hj
    simp
  | cons value values ih =>
    rw [List.length_cons] at h
    rw [setFirst, replace_eq _ (show k < 16 by omega), Option.bind_eq_bind, Option.bind_some,
      ih _ (by omega)]
    refine congrArg some (Vector.ext fun j hj => ?_)
    rw [Vector.getElem_mapIdx, Vector.getElem_mapIdx]
    -- registers before `k` are settled, `k` is written now, and the later ones are for `ih`
    rcases Nat.lt_trichotomy j k with before | rfl | after
    · rw [if_neg (by omega), if_neg (by omega), Vector.getElem_set_ne _ _ (Nat.ne_of_gt before)]
    · rw [if_neg (by omega), if_pos (Nat.le_refl j), Vector.getElem_set_self, Nat.sub_self]
      rfl
    · obtain ⟨d, rfl⟩ : ∃ d, j = k + 1 + d := ⟨j - (k + 1), by omega⟩
      have late : k + 1 + d - k = d + 1 := by omega
      rw [if_pos (by omega), if_pos (by omega), late, Nat.add_sub_cancel_left,
        Vector.getElem_set_ne _ _ (Nat.ne_of_lt after), List.getD_cons_succ]

theorem registersFrom_eq (m : Machine) {k count : Nat} (h : k + count ≤ 16) :
    registersFrom m k count = some ((m.registers.toList.drop k).take count) := by
  induction count generalizing k with
  | zero => rfl
  | succ count ih =>
    have inside : k < m.registers.toList.length := by
      rw [Vector.length_toList]
      omega
    have first : register m k = some m.registers.toList[k] := by simp [register, show k < 16 by omega]
    rw [registersFrom, first, ih (by omega), List.drop_eq_getElem_cons inside]
    rfl

theorem advanceIndex_eq (m : Machine) (x : Register) :
    advanceIndex m x = some (m.advanceIndex (x.val + 1)) := by
  unfold advanceIndex Machine.advanceIndex
  rw [narrow_eq (by omega)]
  split <;> rfl

/-! ## Instructions -/

theorem pollKey_eq {m : Machine} (h : m.pc + 2 < 0x10000000000000000) (x : Register) :
    pollKey m x = some (m.pollKey x) := by
  unfold pollKey Machine.pollKey
  cases m.keypad.lowest? with
  | none => rfl
  | some key =>
    have moved : advance (m.setRegister x key.toByte) = some _ := advance_eq h
    simp only [setRegister_eq, moved, Option.bind_eq_bind, Option.bind_some]
    rfl

theorem skipOnKey_eq {m : Machine} (h : m.pc + 2 < 0x10000000000000000) (x : Register)
    (pressed : Bool) : skipOnKey m x pressed = some (m.skipOnKey x pressed) := by
  simp only [skipOnKey, Machine.skipOnKey, register_eq, Option.bind_eq_bind, Option.bind_some]
  cases m.keypad.isPressed (m.register x) with
  | error fault => rfl
  | ok down =>
    simp only [skipIf_eq h]
    rfl

theorem calculate_eq (m : Machine) (op : Arithmetic) (x y : Register) :
    calculate m op x y = some (m.calculate op x y) := by
  simp only [calculate, Machine.calculate, register_eq, setRegister_eq, Option.bind_eq_bind,
    Option.bind_some]
  cases op.flag? m.profile (m.register x) (m.register y) with
  | none => rfl
  | some flag => exact setRegister_eq _ .flag _

theorem drawSprite_eq (m : Machine) (x y : Register) (rows : Fin 16) :
    drawSprite m x y rows = some (m.drawSprite x y rows) := by
  have fits := m.index.toNat_lt
  have left := (m.register x).toNat_lt
  have top := (m.register y).toNat_lt
  have few := Memory.length_readEach_le m.memory m.index.toNat rows
  simp only [drawSprite, register_eq, Option.bind_eq_bind, Option.bind_some]
  rw [readEach_eq _ (by omega), Option.bind_some, Nat.add_zero,
    drawRows_eq left top _ _ (by omega), Option.bind_some, Machine.drawSprite_eq]
  exact congrArg (Option.map _) (setRegister_eq _ .flag _)

theorem storeDecimal_eq (m : Machine) (x : Register) :
    storeDecimal m x = some (m.storeDecimal x) := by
  have fits := m.index.toNat_lt
  simp only [storeDecimal, register_eq, Option.bind_eq_bind, Option.bind_some]
  rw [writeEach_eq _ (by simp [Machine.decimalDigits]; omega), Machine.storeDecimal_eq]
  rfl

theorem storeRegisters_eq (m : Machine) (x : Register) :
    storeRegisters m x = some (m.storeRegisters x) := by
  have fits := m.index.toNat_lt
  simp only [storeRegisters, Machine.storeRegisters, Machine.store, Option.bind_eq_bind]
  rw [registersFrom_eq m (by omega), Option.bind_some, List.drop_zero,
    writeEach_eq _ (by simp; omega), Option.bind_some, Nat.add_zero]
  generalize m.memory.writeEach m.index.toNat (m.registers.toList.take (x.val + 1)) = written
  obtain ⟨memory, fault?⟩ := written
  cases fault? with
  | some fault => rfl
  | none =>
    simp only [advanceIndex_eq]
    rfl

theorem loadRegisters_eq (m : Machine) (x : Register) :
    loadRegisters m x = some (m.loadRegisters x) := by
  have fits := m.index.toNat_lt
  have few := Memory.length_readEach_le m.memory m.index.toNat (x.val + 1)
  simp only [loadRegisters, Machine.loadRegisters, Option.bind_eq_bind]
  rw [readEach_eq _ (by omega), Option.bind_some, Nat.add_zero]
  revert few
  generalize m.memory.readEach m.index.toNat (x.val + 1) = values
  intro few
  obtain ⟨values, fault?⟩ := values
  have short : 0 + values.length ≤ 16 := by
    have : values.length ≤ x.val + 1 := few
    omega
  have written := setFirst_eq m.registers short
  simp only [Nat.zero_le, if_true, Nat.sub_zero] at written
  simp only [written, Option.bind_some]
  cases fault? with
  | some fault => rfl
  | none =>
    simp only [advanceIndex_eq]
    rfl

theorem call_eq {m : Machine} (h : m.pc < 0x10000) (target : Fin 4096) :
    call m target = some (m.call target) := by
  simp only [call, Machine.call, narrow_eq h, push_eq, Option.bind_eq_bind, Option.bind_some]
  cases m.stack.push (UInt16.ofNat m.pc) <;> rfl

theorem ret_eq (m : Machine) : ret m = some m.ret := by
  simp only [ret, Machine.ret, pop_eq, Option.bind_eq_bind, Option.bind_some]
  cases m.stack.pop <;> rfl

/-- From memory, where a call may be fetched, return addresses have sixteen bits. -/
theorem perform_eq {m : Machine} (h : m.pc ≤ 4094) {i : Instruction}
    (ready : ∀ x, i ≠ .awaitKey x) : perform m.advance i = some (m.execute i) := by
  have next : m.advance.pc = m.pc + 2 := rfl
  have room : m.advance.pc + 2 < 0x10000000000000000 := by omega
  cases i with
  | noOp | clearScreen | jump t => rfl
  | awaitKey x => exact absurd rfl (ready x)
  | ret => exact ret_eq _
  | call t => exact call_eq (by omega) t
  | skipEqual x v | skipUnequal x v | skipSame x y | skipDifferent x y =>
    simp only [perform, register_eq, skipIf_eq room, Option.bind_eq_bind, Option.bind_some]
    rfl
  | setByte x v | addByte x v | random x v | readDelay x =>
    simp only [perform, register_eq, setRegister_eq, Option.bind_eq_bind, Option.bind_some]
    rfl
  | arithmetic op x y =>
    simp only [perform, calculate_eq, Option.bind_eq_bind, Option.bind_some]
    rfl
  | setIndex t =>
    simp only [perform, narrow_eq (show t.val < 0x10000 by omega), Option.bind_eq_bind,
      Option.bind_some]
    rfl
  | jumpOffset t =>
    have small := (m.register 0).toNat_lt
    have first : register m.advance 0 = some (m.register 0) := register_eq m.advance 0
    simp only [perform, first, Option.bind_eq_bind, Option.bind_some]
    rw [sum_eq (by omega)]
    rfl
  | draw x y rows => exact drawSprite_eq _ x y rows
  | skipPressed x | skipReleased x => exact skipOnKey_eq room x _
  | setDelay x | setSound x | addIndex x =>
    simp only [perform, register_eq, Option.bind_eq_bind, Option.bind_some]
    rfl
  | pointGlyph x =>
    simp only [perform, register_eq, Option.bind_eq_bind, Option.bind_some]
    rw [narrow_eq (by omega)]
    rfl
  | storeDecimal x => exact storeDecimal_eq _ x
  | storeRegisters x => exact storeRegisters_eq _ x
  | loadRegisters x => exact loadRegisters_eq _ x

theorem execute_eq {m : Machine} (h : m.pc ≤ 4094) (i : Instruction) :
    execute m i = some (m.execute i) := by
  have room : m.pc + 2 < 0x10000000000000000 := by omega
  cases i with
  | awaitKey x => exact pollKey_eq (m := { m with keyWait := some x }) room x
  | _ =>
    simp only [execute, advance_eq room, Option.bind_eq_bind, Option.bind_some]
    exact perform_eq h (by simp)

/-! ## Ticks -/

theorem fetch_eq {m : Machine} (h : m.pc + 2 < 0x10000000000000000) : fetch m = some m.fetch := by
  unfold fetch Machine.fetch Memory.readWord
  cases m.memory.read m.pc with
  | error fault => rfl
  | ok high =>
    have room : m.pc + 1 < 0x10000000000000000 := by omega
    simp only [sum_eq room, Option.bind_eq_bind, Option.bind_some]
    cases m.memory.read (m.pc + 1) <;> rfl

/-- No check of a tick fails, as long as the program counter can move on. -/
theorem tick_eq {m : Machine} (h : m.pc + 2 < 0x10000000000000000) : tick m = some m.tick := by
  unfold tick Machine.tick
  cases m.keyWait with
  | some x => exact pollKey_eq h x
  | none =>
    simp only [fetch_eq h, Option.bind_eq_bind, Option.bind_some]
    cases word : m.fetch with
    | error fault => rfl
    | ok w =>
      simp only [Machine.executeWord]
      cases Instruction.decode? w with
      | some i => exact execute_eq (Machine.pc_le_of_fetch word) i
      | none =>
        simp only [advance_eq h]
        rfl

end Chip8.Guarded
