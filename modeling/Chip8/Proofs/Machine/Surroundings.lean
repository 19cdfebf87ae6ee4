import Chip8.Proofs.Machine.Footprint
import Chip8.Proofs.Machine.Unseen

/-!
# Keypad and profile

Programs run on a keypad and under a profile that they cannot change, and few instructions look at
these. A tick does the same on another keypad, unless it looks at the keys, and under another
profile, unless the two profiles disagree on its instruction.

Results:
1. `execute_refit`: an instruction on another keypad and under another profile.
2. `tick_refit`: a tick.
3. `apply_of_setsKeys`: operations on the keypad look at nothing but the keypad.
-/

namespace Chip8

/-! ## Definitions -/

/-- The instructions that look at the keypad. -/
def Instruction.looksAtKeys : Instruction → Bool
  | skipPressed _ | skipReleased _ | awaitKey _ => true
  | _ => false

/-- The operations on the keypad. -/
def Operation.setsKeys : Operation → Bool
  | keyDown _ | keyUp _ | setKey _ _ | clearKeys => true
  | _ => false

namespace Machine

/-- The machine on another keypad and under another profile. -/
def refit (m : Machine) (keypad : Keypad) (profile : Profile) : Machine :=
  { m with keypad, profile }

/-- The profile of a machine and another one disagree on what an instruction does.

* `transfer`: it is a complete transfer of registers, and only one of them moves the index.
* `shift`: it is a shift, and they take different operands for it. -/
inductive Disputed (m : Machine) (profile : Profile) : Instruction → Prop
  | transfer {i : Instruction} {x : Register} :
      i = .storeRegisters x ∨ i = .loadRegisters x →
      m.profile.advanceIndex ≠ profile.advanceIndex → (m.execute i).1 = .ok .proceed →
      Disputed m profile i
  | shift {op : Arithmetic} {x y : Register} : op = .shiftRight ∨ op = .shiftLeft →
      m.profile.shiftSecond ≠ profile.shiftSecond → m.register x ≠ m.register y →
      Disputed m profile (.arithmetic op x y)

/-! ## Parts of a step -/

variable (m : Machine) (keypad : Keypad) (profile : Profile)

/-- A step with the keypad and the profile exchanged after it. -/
def refitStep (s : Step) : Step := (s.1, s.2.refit keypad profile)

@[simp]
theorem refit_pc : (m.refit keypad profile).pc = m.pc := rfl

@[simp]
theorem refit_stack : (m.refit keypad profile).stack = m.stack := rfl

@[simp]
theorem refit_keypad : (m.refit keypad profile).keypad = keypad := rfl

@[simp]
theorem refit_profile : (m.refit keypad profile).profile = profile := rfl

@[simp]
theorem refit_index : (m.refit keypad profile).index = m.index := rfl

@[simp]
theorem refit_memory : (m.refit keypad profile).memory = m.memory := rfl

@[simp]
theorem refit_registers : (m.refit keypad profile).registers = m.registers := rfl

@[simp]
theorem refit_advance : (m.refit keypad profile).advance = m.advance.refit keypad profile := rfl

@[simp]
theorem refit_register (x : Register) : (m.refit keypad profile).register x = m.register x := rfl

theorem pollKey_refit (x : Register) :
    (m.refit m.keypad profile).pollKey x = refitStep m.keypad profile (m.pollKey x) := by
  simp only [pollKey, refit_keypad]
  cases m.keypad.lowest? with
  | some key => rfl
  | none => rfl

theorem skipOnKey_refit (x : Register) (pressed : Bool) :
    (m.refit m.keypad profile).skipOnKey x pressed =
      refitStep m.keypad profile (m.skipOnKey x pressed) := by
  simp only [skipOnKey, refit_keypad, refit_register]
  cases m.keypad.isPressed (m.register x) with
  | ok down =>
    simp only [skipIf_eq]
    rfl
  | error fault => rfl

theorem call_refit (target : Fin 4096) :
    (m.refit keypad profile).call target = refitStep keypad profile (m.call target) := by
  simp only [call, refit_stack, refit_pc]
  cases m.stack.push (UInt16.ofNat m.pc) with
  | ok stack => rfl
  | error fault => rfl

theorem ret_refit : (m.refit keypad profile).ret = refitStep keypad profile m.ret := by
  simp only [ret, refit_stack]
  cases m.stack.pop with
  | ok popped => rfl
  | error fault => rfl

end Machine

/-- A shift depends on nothing but its operand. -/
theorem Arithmetic.shift_congr {op : Arithmetic} (shifts : op = .shiftRight ∨ op = .shiftLeft)
    {p q : Profile} {a b c d : UInt8} (same : shifted p a b = shifted q c d) :
    op.result p a b = op.result q c d ∧ op.flag? p a b = op.flag? q c d := by
  rcases shifts with rfl | rfl
  · simp only [result, flag?, same, and_self]
  · simp only [result, flag?, same, and_self]

/-- Profiles agree on an operation if it is no shift, or they shift the same operand. -/
theorem Arithmetic.congr_profile {op : Arithmetic} {p q : Profile} {a b : UInt8}
    (same : op = .shiftRight ∨ op = .shiftLeft → shifted p a b = shifted q a b) :
    op.result p a b = op.result q a b ∧ op.flag? p a b = op.flag? q a b := by
  cases op with
  | shiftRight => exact shift_congr (.inl rfl) (same (.inl rfl))
  | shiftLeft => exact shift_congr (.inr rfl) (same (.inr rfl))
  | copy | or | and | xor | add | sub | subFrom => exact ⟨rfl, rfl⟩

namespace Machine

variable {m : Machine} {keypad : Keypad} {profile : Profile}

theorem calculate_refit {op : Arithmetic} {x y : Register}
    (agreed : ¬ m.Disputed profile (.arithmetic op x y)) :
    (m.refit keypad profile).calculate op x y = (m.calculate op x y).refit keypad profile := by
  have same : op = .shiftRight ∨ op = .shiftLeft →
      Arithmetic.shifted profile (m.register x) (m.register y) =
        Arithmetic.shifted m.profile (m.register x) (m.register y) := by
    intro shifts
    unfold Arithmetic.shifted
    by_cases profiles : m.profile.shiftSecond = profile.shiftSecond
    · rw [profiles]
    · by_cases operands : m.register x = m.register y
      · rw [operands, ite_self, ite_self]
      · exact absurd (.shift shifts profiles operands) agreed
  obtain ⟨result, flag⟩ := Arithmetic.congr_profile same
  simp only [calculate, refit_profile, refit_register, result, flag]
  cases op.flag? m.profile (m.register x) (m.register y) with
  | some flag => rfl
  | none => rfl

/-- Profiles that agree on a transfer move the index alike: after a complete one, and no other. -/
theorem moves_iff {i : Instruction} {x : Register} {fault? : Option Fault}
    (transfer : i = .storeRegisters x ∨ i = .loadRegisters x) (agreed : ¬ m.Disputed profile i)
    (outcome : (m.execute i).1 = transferred .proceed fault?) :
    fault?.isNone ∧ profile.advanceIndex ↔ fault?.isNone ∧ m.advance.profile.advanceIndex := by
  refine and_congr_right fun complete => ?_
  have succeeds : (m.execute i).1 = .ok .proceed :=
    outcome.trans (transferred_eq_ok_iff.mpr complete)
  by_contra differ
  refine agreed (.transfer transfer (fun same => differ ?_) succeeds)
  rw [← same]
  rfl

/-! ## Instructions -/

/-- An instruction does the same on another keypad and under another profile, if it looks at no
key and the profiles agree on it. -/
theorem execute_refit {i : Instruction} (keys : i.looksAtKeys = true → keypad = m.keypad)
    (agreed : ¬ m.Disputed profile i) :
    (m.refit keypad profile).execute i = refitStep keypad profile (m.execute i) := by
  cases i with
  | noOp | clearScreen | jump t | setByte x v | addByte x v | setIndex t | jumpOffset t
  | random x v | readDelay x | setDelay x | setSound x | addIndex x | pointGlyph x => rfl
  | skipEqual x v | skipUnequal x v | skipSame x y | skipDifferent x y =>
    simp only [execute, skipIf_eq]
    rfl
  | arithmetic op x y =>
    have advanced : ¬ m.advance.Disputed profile (.arithmetic op x y) := by
      rintro (⟨transfer | transfer, _, _⟩ | ⟨shifts, profiles, operands⟩)
      · cases transfer
      · cases transfer
      · exact agreed (.shift shifts profiles operands)
    exact congrArg (Prod.mk _) (calculate_refit advanced)
  | call t => exact call_refit m.advance keypad profile t
  | ret => exact ret_refit m.advance keypad profile
  | skipPressed x | skipReleased x =>
    obtain rfl := keys rfl
    exact skipOnKey_refit m.advance profile x _
  | awaitKey x =>
    obtain rfl := keys rfl
    exact pollKey_refit { m with keyWait := some x } profile x
  | draw x y rows =>
    simp only [execute, drawSprite_eq]
    rfl
  | storeDecimal x =>
    simp only [execute, storeDecimal_eq]
    rfl
  | storeRegisters x =>
    have moves := moves_iff (.inl rfl) agreed (congrArg Prod.fst (storeRegisters_eq m.advance x))
    simp only [execute, refit_advance, storeRegisters_eq, refit_memory, refit_index,
      refit_registers, refit_profile, moves]
    rfl
  | loadRegisters x =>
    have moves := moves_iff (.inr rfl) agreed (congrArg Prod.fst (loadRegisters_eq m.advance x))
    simp only [execute, refit_advance, loadRegisters_eq, refit_memory, refit_index,
      refit_registers, refit_profile, moves]
    rfl

/-! ## Ticks -/

/-- A tick does the same on another keypad and under another profile, if its instruction looks at
no key and the profiles agree on it. -/
theorem tick_refit (keys : ∀ i, m.instruction? = some i → i.looksAtKeys = true → keypad = m.keypad)
    (agreed : ∀ i, m.instruction? = some i → ¬ m.Disputed profile i) :
    (m.refit keypad profile).tick = refitStep keypad profile m.tick := by
  refine tick_related (R := fun s s' => s' = refitStep keypad profile s) rfl rfl ?_ ?_ ?_ ?_
  · intro x waits
    have code : m.instruction? = some (.awaitKey x) := by simp only [instruction?, waits]
    obtain rfl := keys _ code rfl
    exact pollKey_refit m profile x
  · exact fun fault => rfl
  · exact fun fault => rfl
  · intro i running word
    have code := instruction?_of_fetch running word
    exact execute_refit (keys i code) (agreed i code)

theorem not_disputed_self (m : Machine) (i : Instruction) : ¬ m.Disputed m.profile i := by
  rintro (⟨_, differ, _⟩ | ⟨_, differ, _⟩)
  · exact differ rfl
  · exact differ rfl

/-! ## Operations on the keypad -/

/-- What an operation on the keypad answers and does depends on the keypad alone. -/
theorem apply_of_setsKeys {m' : Machine} {op : Operation} (keys : op.setsKeys = true)
    (same : m'.keypad = m.keypad) :
    m'.apply op = ((m.apply op).1, m'.refit (m.apply op).2.keypad m'.profile) := by
  have whole : m' = m'.refit m.keypad m'.profile := by
    rw [← same]
    rfl
  cases op with
  | keyDown index | keyUp index =>
    simp only [apply, pressKey, same]
    cases m.keypad.press index _ with
    | ok keypad => rfl
    | error fault => exact congrArg (Prod.mk _) whole
  | setKey key pressed =>
    simp only [apply, setKey, same]
    rfl
  | clearKeys => rfl
  | _ => cases keys

end Machine

end Chip8
