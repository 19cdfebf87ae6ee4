import Chip8.Proofs.Instruction.Forms
import Chip8.Proofs.Machine.Timers

/-!
# The hints of ticks

What the hint of a tick tells about the instruction and the state after it, and what a front end
can rely on that looks at nothing but hints and faults.

Results:
1. `execute_hinted`, `tick_hinted`: an instruction with its hint and the next program counter.
2. `Hinted.exact`: the hint, and the program counter where there is no jump, name the instruction.
3. `shownBy_eq`: a copy of the screen that is renewed when a hint says so is never out of date.
4. `lt_sound_applyAll`: the sound timer grows only where a hint says so.
5. `hints_exact_and_sufficient`: all of it.
-/

namespace Chip8

/-! ## Definitions -/

/-- The hint that goes with an instruction that neither faults nor waits for a key. -/
def Instruction.hint : Instruction → Flow
  | clearScreen | draw .. => .draw
  | setSound _ => .sound
  | jump _ | call _ | ret | jumpOffset _ => .jump
  | _ => .proceed

namespace Machine

/-- The condition on which an instruction skips the next one. -/
def Skips (m : Machine) : Instruction → Prop
  | .skipEqual x value => m.register x = value
  | .skipUnequal x value => m.register x ≠ value
  | .skipSame x y => m.register x = m.register y
  | .skipDifferent x y => m.register x ≠ m.register y
  | .skipPressed x => m.keypad.isPressed (m.register x) = .ok true
  | .skipReleased x => m.keypad.isPressed (m.register x) = .ok false
  | _ => False

/-- The outcome of an instruction, and where the machine is after it.

* `faulted`: a fault comes without a hint.
* `waiting`: the instruction waits for a key and stays where it is.
* `jumped`: execution goes on elsewhere.
* `skipped`, `passed`: it goes on behind the next instruction, or at it. -/
inductive Hinted (m : Machine) (i : Instruction) : Step → Prop
  | faulted {fault : Fault} {m' : Machine} : Hinted m i (.error fault, m')
  | waiting {x : Register} {m' : Machine} :
      i = .awaitKey x → m'.keyWait = some x → m'.pc = m.pc → Hinted m i (.ok .keyWait, m')
  | jumped {m' : Machine} : i.hint = .jump → m'.keyWait = none → Hinted m i (.ok .jump, m')
  | skipped {m' : Machine} :
      m.Skips i → m'.keyWait = none → m'.pc = m.pc + 4 → Hinted m i (.ok .proceed, m')
  | passed {flow : Flow} {m' : Machine} :
      i.hint = flow → flow ≠ .jump → ¬ m.Skips i → m'.keyWait = none → m'.pc = m.pc + 2 →
      Hinted m i (.ok flow, m')

/-- A front end copies the screen after a tick that drew or faulted. -/
def refreshes (m : Machine) : Bool :=
  match m.tick.1 with
  | .ok flow => flow = .draw
  | .error _ => true

/-- The copy of the screen after a tick. -/
def copied (shown : Screen) (m : Machine) : Screen :=
  if m.refreshes then m.tick.2.screen else shown

/-- The copy of the screen after an operation: it is renewed after a restart, and after each tick
for which the front end renews it. -/
def shownBy (m : Machine) (shown : Screen) (op : Operation) : Screen :=
  if op.restarts then (m.apply op).2.screen else (m.tickedBy op).foldl copied shown

/-- The copy of the screen after operations. -/
def shownByAll (m : Machine) (shown : Screen) : List Operation → Screen
  | [] => shown
  | op :: ops => (m.apply op).2.shownByAll (m.shownBy shown op) ops

variable {m : Machine} {i : Instruction}

/-! ## Instructions -/

theorem hint_of_skips (skips : m.Skips i) : i.hint = .proceed := by
  cases i with
  | skipEqual | skipUnequal | skipSame | skipDifferent | skipPressed | skipReleased => rfl
  | _ => exact skips.elim

theorem hinted_skipIf (running : m.keyWait = none) {c : Bool} (plain : i.hint = .proceed)
    (condition : c = true ↔ m.Skips i) : m.Hinted i (.ok .proceed, m.advance.skipIf c) := by
  rw [skipIf_eq]
  cases c with
  | true => exact .skipped (condition.mp rfl) running rfl
  | false => exact .passed plain nofun (fun skips => nomatch condition.mpr skips) running rfl

theorem hinted_transferred {flow : Flow} {fault? : Option Fault} {m' : Machine}
    (hint : i.hint = flow) (stays : flow ≠ .jump) (steady : ¬ m.Skips i)
    (running : m'.keyWait = none) (pc : m'.pc = m.pc + 2) :
    m.Hinted i (transferred flow fault?, m') := by
  cases fault? with
  | none => exact .passed hint stays steady running pc
  | some fault => exact .faulted

theorem hinted_skipOnKey (running : m.keyWait = none) {x : Register} {pressed : Bool}
    (plain : i.hint = .proceed)
    (condition : m.Skips i ↔ m.keypad.isPressed (m.register x) = .ok pressed) :
    m.Hinted i (m.advance.skipOnKey x pressed) := by
  have same : m.advance.keypad.isPressed (m.advance.register x) =
      m.keypad.isPressed (m.register x) := rfl
  unfold skipOnKey
  rw [same]
  cases down : m.keypad.isPressed (m.register x) with
  | error fault => exact .faulted
  | ok down' =>
    refine hinted_skipIf running plain ?_
    rw [condition, down]
    simp

theorem hinted_awaitKey (m : Machine) (x : Register) :
    m.Hinted (.awaitKey x) (m.execute (.awaitKey x)) := by
  simp only [execute, pollKey]
  split
  · exact .passed rfl (by decide) id rfl rfl
  · exact .waiting rfl rfl rfl

theorem execute_hinted (running : m.keyWait = none) (i : Instruction) :
    m.Hinted i (m.execute i) := by
  cases i with
  | noOp | clearScreen | setByte x v | addByte x v | setIndex t | random x v | readDelay x
  | setDelay x | setSound x | addIndex x | pointGlyph x =>
    exact .passed rfl (by decide) id running rfl
  | skipEqual x v | skipUnequal x v | skipSame x y | skipDifferent x y =>
    exact hinted_skipIf running rfl (by simp [Skips])
  | skipPressed x | skipReleased x => exact hinted_skipOnKey running rfl Iff.rfl
  | arithmetic op x y =>
    obtain ⟨registers, written⟩ := calculate_eq m.advance op x y
    simp only [execute, written]
    exact .passed rfl (by decide) id running rfl
  | jump t | jumpOffset t => exact .jumped rfl running
  | call t =>
    simp only [execute, Machine.call]
    split
    · exact .jumped rfl running
    · exact .faulted
  | ret =>
    simp only [execute, Machine.ret]
    split
    · exact .jumped rfl running
    · exact .faulted
  | awaitKey x => exact hinted_awaitKey m x
  | draw x y rows =>
    simp only [execute, drawSprite_eq]
    exact hinted_transferred rfl (by decide) id running rfl
  | storeDecimal x =>
    simp only [execute, storeDecimal_eq]
    exact hinted_transferred rfl (by decide) id running rfl
  | storeRegisters x =>
    simp only [execute, storeRegisters_eq]
    exact hinted_transferred rfl (by decide) id running rfl
  | loadRegisters x =>
    simp only [execute, loadRegisters_eq]
    exact hinted_transferred rfl (by decide) id running rfl

/-! ## Ticks -/

theorem tick_hinted (code : m.instruction? = some i) : m.Hinted i m.tick := by
  rw [tick_of_instruction? code]
  cases waits : m.keyWait with
  | none => exact execute_hinted waits i
  | some x =>
    simp only [instruction?, waits] at code
    obtain rfl := Option.some.inj code
    exact hinted_awaitKey m x

/-- A tick that comes to no instruction faults. -/
theorem exists_instruction? {flow : Flow} (succeeds : m.tick.1 = .ok flow) :
    ∃ i, m.instruction? = some i := by
  have ticked := tick_cases m
  generalize m.tick = s at ticked succeeds
  cases ticked with
  | @stalled x waits => exact ⟨.awaitKey x, by simp only [instruction?, waits]⟩
  | unfetched | unknown => cases succeeds
  | @executed w i running word _ code =>
    exact ⟨i, by simp only [instruction?, running, word, code]⟩

/-- The forms of the instructions that do not just go on. -/
theorem hint_iff_form (i : Instruction) :
    (i.hint = .draw ↔ i.form ∈ ["00E0", "Dxyn"]) ∧ (i.hint = .sound ↔ i.form = "Fx18") ∧
      (i.hint = .jump ↔ i.form ∈ ["1nnn", "2nnn", "00EE", "Bnnn"]) ∧ i.hint ≠ .keyWait := by
  unfold Instruction.hint
  cases i with
  | arithmetic op x y => cases op <;> simp [Instruction.form]
  | _ => simp [Instruction.form]

/-- The hint tells the kind of the instruction, and where there is no jump the next program counter
tells whether the instruction waited or skipped. -/
theorem Hinted.exact {s : Step} {flow : Flow} (hinted : m.Hinted i s) (succeeds : s.1 = .ok flow) :
    (flow = .keyWait ↔ s.2.isWaiting = true) ∧ (flow = .draw ↔ i.form ∈ ["00E0", "Dxyn"]) ∧
      (flow = .sound ↔ i.form = "Fx18") ∧
      (flow = .jump ↔ i.form ∈ ["1nnn", "2nnn", "00EE", "Bnnn"]) ∧
      (flow ≠ .jump →
        (s.2.pc = m.pc ↔ flow = .keyWait) ∧ (s.2.pc = m.pc + 4 ↔ m.Skips i) ∧
          (s.2.pc = m.pc + 2 ↔ flow ≠ .keyWait ∧ ¬ m.Skips i)) := by
  obtain ⟨draws, sounds, jumps, moves⟩ := hint_iff_form i
  rw [← draws, ← sounds, ← jumps]
  unfold isWaiting
  cases hinted with
  | faulted => cases succeeds
  | @waiting x _ waits pending stays =>
    cases succeeds
    subst waits
    have plain : (Instruction.awaitKey x).hint = .proceed := rfl
    simp [pending, stays, plain, Skips]
  | jumped jump running =>
    cases succeeds
    simp [jump, running]
  | skipped skips running pc =>
    cases succeeds
    simp [hint_of_skips skips, skips, running, pc]
  | passed hint goes steady running pc =>
    cases succeeds
    rw [hint] at moves
    simp [hint, moves, goes, steady, running, pc]

/-! ## The screen of a front end -/

theorem keeps_screen_tick (idle : m.refreshes = false) : m.Keeps m.tick.2 .screen := by
  refine keeps_tick (by simp) fun i code touches => ?_
  have hinted := tick_hinted code
  unfold refreshes at idle
  cases outcome : m.tick.1 with
  | error fault =>
    rw [outcome] at idle
    cases idle
  | ok flow =>
    rw [outcome] at idle
    have draws := (hinted.exact outcome).2.1
    -- only clearing and drawing touch the screen
    cases i with
    | clearScreen | draw x y rows =>
      refine absurd (draws.mpr ?_) (by simpa using idle)
      simp [Instruction.form]
    | _ => exact touches

theorem copied_screen (m : Machine) : copied m.screen m = m.tick.2.screen := by
  unfold copied
  cases renewed : m.refreshes with
  | true => rfl
  | false => exact (keeps_screen_tick renewed).symm

theorem Path.copied {between : Machine → Machine → Prop} {m' : Machine} {xs : List Machine}
    (path : Path between m xs m') (other : ∀ {n n'}, between n n' → n'.screen = n.screen) :
    xs.foldl copied m.screen = m'.screen := by
  induction path with
  | nil => rfl
  | tick _ ih => rw [List.foldl_cons, copied_screen, ih]
  | other change _ ih => rw [← other change, ih]

/-- A copy that shows the screen before an operation shows it after the operation. -/
theorem shownBy_eq (m : Machine) (op : Operation) :
    m.shownBy m.screen op = (m.apply op).2.screen := by
  unfold shownBy
  cases restarts : op.restarts with
  | true => rfl
  | false =>
    have unaltered : ¬ op.Alters .screen := by cases op <;> exact id
    have quiet (none : op.makesTicks = false) : (m.apply op).2.screen = m.screen :=
      keeps_apply_of_quiet restarts none unaltered
    have path : Path (fun n n' => n'.screen = n.screen) m (m.tickedBy op ++ []) (m.apply op).2 :=
      .of_apply quiet .nil
    rw [List.append_nil] at path
    exact path.copied id

theorem shownByAll_eq (m : Machine) (ops : List Operation) :
    m.shownByAll m.screen ops = (m.applyAll ops).2.screen := by
  induction ops generalizing m with
  | nil => rfl
  | cons op ops ih =>
    rw [shownByAll, shownBy_eq, ih]
    rfl

/-! ## The sound timer -/

/-- Only a tick that tells so sets the sound timer. -/
theorem keeps_sound_tick (silent : m.tick.1 ≠ .ok .sound) : m.Keeps m.tick.2 .sound := by
  refine keeps_tick (by simp) fun i code touches => ?_
  cases i with
  | setSound x =>
    refine silent ?_
    rw [tick_of_instruction? code]
    rfl
  | _ => exact touches

/-- No operation other than ticks sets the sound timer to more than it was. -/
theorem sound_apply_of_quiet (m : Machine) {op : Operation} (quiet : op.makesTicks = false) :
    (m.apply op).2.sound ≤ m.sound := by
  cases restarts : op.restarts with
  | true =>
    rw [(restarted_of_restarts m restarts).sound]
    exact UInt8.zero_le
  | false =>
    have down : m.RunsDown ([op].count .tickTimers) (m.apply op).2 := by
      refine runsDown_apply restarts fun x ticked => ?_
      cases op with
      | tick | run count => cases quiet
      | _ => cases ticked
    rw [UInt8.le_iff_toNat_le, down.sound]
    exact Nat.sub_le _ _

/-- Where the sound timer has grown, a tick told so. -/
theorem lt_sound_applyAll {ops : List Operation} (grown : m.sound < (m.applyAll ops).2.sound) :
    ∃ x ∈ m.tickedByAll ops, x.tick.1 = .ok .sound := by
  by_contra silent
  push Not at silent
  have path := Path.of_operations m ops
  have held : (m.applyAll ops).2.sound ≤ m.sound := by
    refine (path.keeps (P := fun n => n.sound ≤ m.sound) ?_ ?_ UInt8.le_rfl).1
    · rintro n _ ⟨_, quiet⟩ le
      exact UInt8.le_trans (sound_apply_of_quiet n quiet) le
    · intro x ticked le
      have kept : x.tick.2.sound = x.sound := keeps_sound_tick (silent x ticked)
      rwa [kept]
  exact UInt8.not_le.mpr grown held

/-! ## Hints -/

/-- The hint of a tick tells whether the machine waits for a key, or else the kind of the
instruction, and where there is no jump the program counter stays exactly at a wait, moves by four
exactly at a skip whose condition holds, and moves by two otherwise. A front end that copies the
screen only after restarts and after ticks that drew or faulted always holds the current screen,
and the sound timer grows only in ticks that tell so. -/
theorem hints_exact_and_sufficient (m : Machine) :
    (∀ flow, m.tick.1 = .ok flow → ∃ i, m.instruction? = some i ∧
      (flow = .keyWait ↔ m.tick.2.isWaiting = true) ∧
      (flow = .draw ↔ i.form ∈ ["00E0", "Dxyn"]) ∧
      (flow = .sound ↔ i.form = "Fx18") ∧
      (flow = .jump ↔ i.form ∈ ["1nnn", "2nnn", "00EE", "Bnnn"]) ∧
      (flow ≠ .jump →
        (m.tick.2.pc = m.pc ↔ flow = .keyWait) ∧ (m.tick.2.pc = m.pc + 4 ↔ m.Skips i) ∧
          (m.tick.2.pc = m.pc + 2 ↔ flow ≠ .keyWait ∧ ¬ m.Skips i))) ∧
    (∀ ops, m.shownByAll m.screen ops = (m.applyAll ops).2.screen) ∧
    (m.sound < m.tick.2.sound → m.tick.1 = .ok .sound) ∧
    ∀ ops, m.sound < (m.applyAll ops).2.sound →
      ∃ x ∈ m.tickedByAll ops, x.tick.1 = .ok .sound := by
  refine ⟨fun flow succeeds => ?_, shownByAll_eq m, fun grown => ?_, fun ops => lt_sound_applyAll⟩
  · obtain ⟨i, code⟩ := exists_instruction? succeeds
    exact ⟨i, code, (tick_hinted code).exact succeeds⟩
  · by_contra silent
    have kept : m.tick.2.sound = m.sound := keeps_sound_tick silent
    rw [kept] at grown
    exact UInt8.lt_irrefl _ grown

/-- A tick that starts a sound, and a count of the timers after it. -/
theorem hints_exact_and_sufficient_sound :
    let m : Machine := { Machine.new {} (.constant 0) with
      registers := (Vector.replicate 16 0).set 10 7
      memory := Memory.zero.overlay 512 [0xFA, 0x18] }
    let ops : List Operation := [.tick, .tickTimers]
    m.tick.1 = .ok .sound ∧ m.tick.2.isWaiting = false ∧ m.tick.2.pc = m.pc + 2 ∧
      m.shownByAll m.screen ops = (m.applyAll ops).2.screen ∧
      m.sound < (m.applyAll ops).2.sound ∧
      ∃ x ∈ m.tickedByAll ops, x.tick.1 = .ok .sound := by
  intro m ops
  have code : m.instruction? = some (.setSound 10) :=
    instruction?_of_fetch rfl (fetch_of_overlay rfl (by decide) rfl rfl)
  have ticked : m.tick = m.execute (.setSound 10) := tick_of_instruction? code
  have succeeds : m.tick.1 = .ok .sound := by
    rw [ticked]
    rfl
  have loaded : m.register 10 = 7 := Vector.getElem_set_self _
  have counted (n : Machine) : (n.applyAll ops).2.sound =
      if n.tick.2.sound = 0 then 0 else n.tick.2.sound - 1 := rfl
  have started : m.tick.2.sound = 7 := by
    rw [ticked]
    exact loaded
  have grown : m.sound < (m.applyAll ops).2.sound := by
    rw [counted, started]
    decide
  obtain ⟨exact, shows, -, grows⟩ := hints_exact_and_sufficient m
  obtain ⟨i, code', waits, -, -, -, moves⟩ := exact .sound succeeds
  obtain rfl : i = .setSound 10 := Option.some.inj (code'.symm.trans code)
  have running : m.tick.2.isWaiting = false := by
    rw [Bool.eq_false_iff, Ne, ← waits]
    nofun
  exact ⟨succeeds, running, (moves nofun).2.2.mpr ⟨nofun, id⟩, shows ops, grown, grows ops grown⟩

end Machine

end Chip8
