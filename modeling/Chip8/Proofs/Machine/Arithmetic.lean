import Chip8.Proofs.Machine.Profiles

/-!
# Register arithmetic

What an instruction of family 8 leaves in the registers, with the result and the flag as one
equation between numbers. Both operands are read before anything is written and the flag is written
last, so that the registers may coincide in any way.

Results:
1. `computes_result`: the result and the flag of each operation.
2. `tick_arithmetic`: the machine after the tick.
3. `register_tick_undoes`: a sum and a difference undo each other.
4. `arithmetic_exact`: all of it.
-/

namespace Chip8

/-! ## Definitions -/

/-- How the result `r` and the flag `f` belong to the operands `a` and `b`; a shift takes the
operand `s`. -/
def Arithmetic.Computes (a b s r f : UInt8) : Arithmetic → Prop
  | copy => r = b
  | or => r = a ||| b
  | and => r = a &&& b
  | xor => r = a ^^^ b
  | add => 256 * f.toNat + r.toNat = a.toNat + b.toNat
  | sub => r.toNat + b.toNat = a.toNat + 256 * (1 - f.toNat)
  | shiftRight => 2 * r.toNat + f.toNat = s.toNat
  | subFrom => r.toNat + a.toNat = b.toNat + 256 * (1 - f.toNat)
  | shiftLeft => 256 * f.toNat + r.toNat = 2 * s.toNat

/-- The flag of an operation as a byte, and zero for those without one. -/
def Arithmetic.flagByte (op : Arithmetic) (profile : Profile) (a b : UInt8) : UInt8 :=
  if (op.flag? profile a b).getD false then 1 else 0

/-- The operations that undo a sum and a difference. -/
inductive Arithmetic.Undoes : Arithmetic → Arithmetic → Prop
  | sub : Undoes .sub .add
  | add : Undoes .add .sub

namespace Arithmetic

variable {profile : Profile} {a b : UInt8}

/-! ## Results with what they leave over -/

theorem sum_carry (a b : UInt8) :
    256 * (if a.toNat + b.toNat ≥ 256 then 1 else 0) + (a + b).toNat = a.toNat + b.toNat := by
  have ha := a.toNat_lt
  have hb := b.toNat_lt
  rw [UInt8.toNat_add]
  split <;> omega

theorem difference_borrow (a b : UInt8) :
    (a - b).toNat + b.toNat =
      a.toNat + 256 * (1 - if b.toNat ≤ a.toNat then 1 else 0) := by
  have ha := a.toNat_lt
  have hb := b.toNat_lt
  rw [UInt8.toNat_sub]
  split <;> omega

theorem half_lowest (s : UInt8) :
    2 * (s >>> 1).toNat + (if s.toNat % 2 = 1 then 1 else 0) = s.toNat := by
  have half : (s >>> 1).toNat = s.toNat / 2 := by
    rw [UInt8.toNat_shiftRight]
    exact Nat.shiftRight_eq_div_pow ..
  rw [half]
  split <;> omega

theorem double_highest (s : UInt8) :
    256 * (if s.toNat ≥ 128 then 1 else 0) + (s <<< 1).toNat = 2 * s.toNat := by
  have hs := s.toNat_lt
  have double : (s <<< 1).toNat = 2 * s.toNat % 256 := by
    rw [UInt8.toNat_shiftLeft, Nat.shiftLeft_eq, Nat.mul_comm]
    rfl
  rw [double]
  split <;> omega

/-! ## Flags -/

theorem flagByte_eq (op : Arithmetic) (profile : Profile) (a b : UInt8) :
    op.flagByte profile a b = 0 ∨ op.flagByte profile a b = 1 := by
  unfold flagByte
  split
  · exact .inr rfl
  · exact .inl rfl

theorem toNat_flagByte {op : Arithmetic} {p : Prop} [Decidable p]
    (flag : op.flag? profile a b = some (decide p)) :
    (op.flagByte profile a b).toNat = if p then 1 else 0 := by
  unfold flagByte
  rw [flag]
  by_cases h : p <;> simp [h]

/-! ## Operations -/

theorem computes_result (op : Arithmetic) (profile : Profile) (a b : UInt8) :
    op.Computes a b (shifted profile a b) (op.result profile a b) (op.flagByte profile a b) := by
  let s := shifted profile a b
  cases op with
  | copy | or | and | xor => rfl
  | add =>
    rw [Computes, toNat_flagByte (p := a.toNat + b.toNat ≥ 256) rfl]
    exact sum_carry a b
  | sub =>
    rw [Computes, toNat_flagByte (p := b.toNat ≤ a.toNat) rfl]
    exact difference_borrow a b
  | shiftRight =>
    rw [Computes, toNat_flagByte (p := s.toNat % 2 = 1) rfl]
    exact half_lowest s
  | subFrom =>
    rw [Computes, toNat_flagByte (p := a.toNat ≤ b.toNat) rfl]
    exact difference_borrow b a
  | shiftLeft =>
    rw [Computes, toNat_flagByte (p := s.toNat ≥ 128) rfl]
    exact double_highest s

/-- Neither a sum nor a difference depends on the profile. -/
theorem result_undoes {op back : Arithmetic} (undoes : back.Undoes op) (p q : Profile)
    (a b : UInt8) : back.result q (op.result p a b) b = a := by
  cases undoes with
  | sub => exact UInt8.add_sub_cancel a b
  | add => exact UInt8.sub_add_cancel a b

end Arithmetic

namespace Machine

variable {m n : Machine} {op back : Arithmetic} {x y : Register}

/-! ## Ticks -/

theorem tick_arithmetic (code : m.instruction? = some (.arithmetic op x y)) :
    let result := op.result m.profile (m.register x) (m.register y)
    let flag := op.flagByte m.profile (m.register x) (m.register y)
    let written := m.setRegister x result
    m.tick = (.ok .proceed,
      { (if op.flags then written.setRegister .flag flag else written) with pc := m.pc + 2 }) := by
  rw [tick_of_instruction? code]
  cases op <;> rfl

theorem register_tick_arithmetic (code : m.instruction? = some (.arithmetic op x y))
    (flagless : x ≠ .flag) :
    m.tick.2.register x = op.result m.profile (m.register x) (m.register y) := by
  let result := op.result m.profile (m.register x) (m.register y)
  have written : (m.setRegister x result).register x = result :=
    (register_setRegister m x x result).trans (if_pos rfl)
  rw [tick_arithmetic code]
  cases op.flags with
  | true => exact (register_setRegister _ .flag x _).trans ((if_neg flagless).trans written)
  | false => exact written

theorem register_tick_undoes (code : m.instruction? = some (.arithmetic op x y)) (apart : x ≠ y)
    (flagless : x ≠ .flag) (flagless' : y ≠ .flag) (undoes : back.Undoes op)
    (code' : n.instruction? = some (.arithmetic back x y))
    (first : n.register x = m.tick.2.register x) (second : n.register y = m.tick.2.register y) :
    n.tick.2.register x = m.register x := by
  have kept : m.tick.2.register y = m.register y := by
    rw [tick_of_instruction? code]
    exact register_execute_arithmetic m op y apart.symm flagless'
  rw [register_tick_arithmetic code' flagless, first, second, kept,
    register_tick_arithmetic code flagless]
  exact Arithmetic.result_undoes undoes m.profile n.profile _ _

/-! ## All of it -/

/-- **Arithmetic is exact.** An arithmetic instruction puts a result into its first register and
then, if it has a flag, the flag into VF. Result and flag make up the sum, the difference or the
shift of the operands, whichever registers these are. Nothing else changes, and a sum and a
difference that share no register with each other or with VF undo each other. -/
theorem arithmetic_exact (code : m.instruction? = some (.arithmetic op x y)) :
    let a := m.register x
    let b := m.register y
    let s := if m.profile.shiftSecond then b else a
    (∃ r f : UInt8, (f = 0 ∨ f = 1) ∧ op.Computes a b s r f ∧
      let written := m.setRegister x r
      m.tick = (.ok .proceed,
        { (if op.flags then written.setRegister .flag f else written) with pc := m.pc + 2 })) ∧
    (x ≠ y → x ≠ .flag → y ≠ .flag → ∀ (n : Machine) (back : Arithmetic), back.Undoes op →
      n.instruction? = some (.arithmetic back x y) → n.register x = m.tick.2.register x →
      n.register y = m.tick.2.register y → n.tick.2.register x = a) := by
  intro a b s
  refine ⟨⟨op.result m.profile a b, op.flagByte m.profile a b, ?_, ?_, tick_arithmetic code⟩, ?_⟩
  · exact op.flagByte_eq m.profile a b
  · exact op.computes_result m.profile a b
  · intro apart flagless flagless' n back undoes code' first second
    exact register_tick_undoes code apart flagless flagless' undoes code' first second

/-- A sum with a carry, and the difference after it. -/
theorem arithmetic_exact_carry :
    let m : Machine := { Machine.new {} (.constant 0) with
      registers := ((Vector.replicate 16 0).set 0 200).set 1 100
      memory := Memory.zero.overlay 512 [0x80, 0x14, 0x80, 0x15] }
    m.instruction? = some (.arithmetic .add 0 1) ∧
      m.tick.2.instruction? = some (.arithmetic .sub 0 1) ∧
      m.tick.2.register 0 = 44 ∧ m.tick.2.register .flag = 1 ∧ m.tick.2.pc = 514 ∧
      m.tick.2.tick.2.register 0 = 200 := by
  intro m
  have code : m.instruction? = some (.arithmetic .add 0 1) :=
    instruction?_of_fetch rfl (fetch_of_overlay rfl (by decide) rfl rfl)
  obtain ⟨⟨r, f, bit, computes, ticked⟩, undone⟩ := arithmetic_exact code
  have first : m.register 0 = 200 := rfl
  have second : m.register 1 = 100 := rfl
  have carry : 256 * f.toNat + r.toNat = 300 := by
    have sum : 256 * f.toNat + r.toNat = (m.register 0).toNat + (m.register 1).toNat := computes
    rwa [first, second] at sum
  have registers (k : Register) :
      m.tick.2.register k = ((m.setRegister 0 r).setRegister .flag f).register k :=
    congrArg (·.2.register k) ticked
  have counter : m.tick.2.pc = 514 := congrArg (·.2.pc) ticked
  have running : m.tick.2.keyWait = none := congrArg (·.2.keyWait) ticked
  have memory : m.tick.2.memory = m.memory := congrArg (·.2.memory) ticked
  have word : m.tick.2.fetch = .ok (Word.ofBytes 0x80 0x15) := by
    refine fetch_of_read ?_ ?_ <;> rw [memory, counter]
    · exact Memory.read_overlay_of_lt (k := 2) (by decide) (by decide)
    · exact Memory.read_overlay_of_lt (k := 3) (by decide) (by decide)
  have code' : m.tick.2.instruction? = some (.arithmetic .sub 0 1) :=
    instruction?_of_fetch running word
  have back : m.tick.2.tick.2.register 0 = 200 :=
    (undone (by decide) (by decide) (by decide) m.tick.2 .sub .sub code' rfl rfl).trans first
  have bound := r.toNat_lt
  obtain rfl : f = 1 := by
    rcases bit with rfl | one
    · change 0 + r.toNat = 300 at carry
      omega
    · exact one
  obtain rfl : r = 44 := UInt8.toNat_inj.mp (Nat.add_left_cancel carry)
  refine ⟨code, code', ?_, ?_, counter, back⟩
  · simp only [registers, register_setRegister]
    rfl
  · simp only [registers, register_setRegister]
    rfl

end Machine

end Chip8
