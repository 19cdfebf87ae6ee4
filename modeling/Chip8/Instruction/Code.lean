import Chip8.Instruction

/-!
# The code of instructions

`Instruction.encode` is the word of an instruction and `Instruction.decode?` the instruction of
a word, if it has one. Every instruction has one word and most words have none.

Results: `decode?_encode`, `encode_of_decode?` and, of both, `decode?_eq_some_iff`: a word is code
exactly if it is the word of an instruction.
-/

namespace Chip8

/-! ## From instructions to words -/

/-- The last digit of the family 8 word. -/
def Arithmetic.code : Arithmetic → Nat
  | copy => 0x0
  | or => 0x1
  | and => 0x2
  | xor => 0x3
  | add => 0x4
  | sub => 0x5
  | shiftRight => 0x6
  | subFrom => 0x7
  | shiftLeft => 0xE

namespace Instruction

/-- A word made of a family and a three-digit operand. -/
def wordOf (family nnn : Nat) : Word := UInt16.ofNat (4096 * family + nnn)

/-- The one word of each instruction. -/
def encode : Instruction → Word
  | noOp => wordOf 0x0 0x000
  | clearScreen => wordOf 0x0 0x0E0
  | ret => wordOf 0x0 0x0EE
  | jump target => wordOf 0x1 target
  | call target => wordOf 0x2 target
  | skipEqual x value => wordOf 0x3 (256 * x + value.toNat)
  | skipUnequal x value => wordOf 0x4 (256 * x + value.toNat)
  | skipSame x y => wordOf 0x5 (256 * x + 16 * y)
  | setByte x value => wordOf 0x6 (256 * x + value.toNat)
  | addByte x value => wordOf 0x7 (256 * x + value.toNat)
  | arithmetic op x y => wordOf 0x8 (256 * x + 16 * y + op.code)
  | skipDifferent x y => wordOf 0x9 (256 * x + 16 * y)
  | setIndex target => wordOf 0xA target
  | jumpOffset target => wordOf 0xB target
  | random x mask => wordOf 0xC (256 * x + mask.toNat)
  | draw x y rows => wordOf 0xD (256 * x + 16 * y + rows)
  | skipPressed x => wordOf 0xE (256 * x + 0x9E)
  | skipReleased x => wordOf 0xE (256 * x + 0xA1)
  | readDelay x => wordOf 0xF (256 * x + 0x07)
  | awaitKey x => wordOf 0xF (256 * x + 0x0A)
  | setDelay x => wordOf 0xF (256 * x + 0x15)
  | setSound x => wordOf 0xF (256 * x + 0x18)
  | addIndex x => wordOf 0xF (256 * x + 0x1E)
  | pointGlyph x => wordOf 0xF (256 * x + 0x29)
  | storeDecimal x => wordOf 0xF (256 * x + 0x33)
  | storeRegisters x => wordOf 0xF (256 * x + 0x55)
  | loadRegisters x => wordOf 0xF (256 * x + 0x65)

end Instruction

/-! ## From words to instructions -/

/-- The operation that the last digit of a family 8 word names. -/
def Arithmetic.ofCode? (n : Nat) : Option Arithmetic :=
  match n with
  | 0x0 => some copy
  | 0x1 => some or
  | 0x2 => some and
  | 0x3 => some xor
  | 0x4 => some add
  | 0x5 => some sub
  | 0x6 => some shiftRight
  | 0x7 => some subFrom
  | 0xE => some shiftLeft
  | _ => none

namespace Instruction

/-- Family 0: three words without operands. -/
def ofSystem? (nnn : Nat) : Option Instruction :=
  match nnn with
  | 0x000 => some noOp
  | 0x0E0 => some clearScreen
  | 0x0EE => some ret
  | _ => none

/-- Family E: skips on the state of a key. -/
def ofKeySkip? (x : Register) (nn : Nat) : Option Instruction :=
  match nn with
  | 0x9E => some (skipPressed x)
  | 0xA1 => some (skipReleased x)
  | _ => none

/-- Family F: timers, index and bulk transfers. -/
def ofMiscellany? (x : Register) (nn : Nat) : Option Instruction :=
  match nn with
  | 0x07 => some (readDelay x)
  | 0x0A => some (awaitKey x)
  | 0x15 => some (setDelay x)
  | 0x18 => some (setSound x)
  | 0x1E => some (addIndex x)
  | 0x29 => some (pointGlyph x)
  | 0x33 => some (storeDecimal x)
  | 0x55 => some (storeRegisters x)
  | 0x65 => some (loadRegisters x)
  | _ => none

/-- The instruction of a word. Families 5 and 9 demand a last digit of zero. -/
def decode? (w : Word) : Option Instruction :=
  match w.family.val with
  | 0x0 => ofSystem? w.nnn
  | 0x1 => some (jump w.nnn)
  | 0x2 => some (call w.nnn)
  | 0x3 => some (skipEqual w.x w.nn)
  | 0x4 => some (skipUnequal w.x w.nn)
  | 0x5 => if w.n.val = 0 then some (skipSame w.x w.y) else none
  | 0x6 => some (setByte w.x w.nn)
  | 0x7 => some (addByte w.x w.nn)
  | 0x8 => (Arithmetic.ofCode? w.n).map (arithmetic · w.x w.y)
  | 0x9 => if w.n.val = 0 then some (skipDifferent w.x w.y) else none
  | 0xA => some (setIndex w.nnn)
  | 0xB => some (jumpOffset w.nnn)
  | 0xC => some (random w.x w.nn)
  | 0xD => some (draw w.x w.y w.n)
  | 0xE => ofKeySkip? w.x w.nn.toNat
  | 0xF => ofMiscellany? w.x w.nn.toNat
  | _ => none

example : decode? 0x8AB6 = some (arithmetic .shiftRight 0xA 0xB) := by decide
example : decode? 0x5AB1 = none := by decide
example : decode? 0x01E0 = none := by decide
/-! ## The two directions -/

theorem toNat_wordOf {family nnn : Nat} (hf : family < 16) (hn : nnn < 4096) :
    (wordOf family nnn).toNat = 4096 * family + nnn := by
  simp only [wordOf, UInt16.toNat_ofNat']
  omega

theorem family_wordOf {family nnn : Nat} (hf : family < 16) (hn : nnn < 4096) :
    (wordOf family nnn).family.val = family := by
  simp only [Word.family, toNat_wordOf hf hn]
  omega

theorem nnn_wordOf {family nnn : Nat} (hf : family < 16) (hn : nnn < 4096) :
    (wordOf family nnn).nnn = ⟨nnn, hn⟩ := by
  simp only [Word.nnn, toNat_wordOf hf hn, Fin.mk.injEq]
  omega

/-- The register and the byte of a word made of them. -/
theorem byteOperands_wordOf {family nn : Nat} (hf : family < 16) (x : Register) (hn : nn < 256) :
    (wordOf family (256 * x + nn)).x = x ∧
      (wordOf family (256 * x + nn)).nn = UInt8.ofNat nn := by
  have h : (wordOf family (256 * x + nn)).toNat = _ := toNat_wordOf hf (by omega)
  constructor
  · simp only [Word.x, h, Fin.ext_iff]
    omega
  · simp only [Word.nn, h]
    congr 1
    omega

/-- The registers and the last digit of a word made of them. -/
theorem digitOperands_wordOf {family n : Nat} (hf : family < 16) (x y : Register) (hn : n < 16) :
    (wordOf family (256 * x + 16 * y + n)).x = x ∧
      (wordOf family (256 * x + 16 * y + n)).y = y ∧
      (wordOf family (256 * x + 16 * y + n)).n = ⟨n, hn⟩ := by
  have h : (wordOf family (256 * x + 16 * y + n)).toNat = _ := toNat_wordOf hf (by omega)
  refine ⟨?_, ?_, ?_⟩ <;> simp only [Word.x, Word.y, Word.n, h, Fin.ext_iff] <;> omega

theorem ofCode?_code (op : Arithmetic) : Arithmetic.ofCode? op.code = some op := by
  cases op <;> rfl

theorem code_lt (op : Arithmetic) : op.code < 16 := by cases op <;> decide

/-- Reading the word of an instruction gives the instruction back. -/
theorem decode?_encode (i : Instruction) : decode? i.encode = some i := by
  cases i with
  | noOp | clearScreen | ret => decide
  | jump t | call t | setIndex t | jumpOffset t =>
    simp only [encode, decode?, family_wordOf, nnn_wordOf, t.isLt, Nat.reduceLT]
  | skipEqual x v | skipUnequal x v | setByte x v | addByte x v | random x v =>
    have hv := v.toNat_lt
    have hn : 256 * x.val + v.toNat < 4096 := by omega
    simp only [encode, decode?, family_wordOf, byteOperands_wordOf, hn, hv, Nat.reduceLT,
      UInt8.ofNat_toNat]
  | skipSame x y | skipDifferent x y =>
    have h5 := digitOperands_wordOf (show 5 < 16 by decide) x y (show 0 < 16 by decide)
    have h9 := digitOperands_wordOf (show 9 < 16 by decide) x y (show 0 < 16 by decide)
    have hn : 256 * x.val + 16 * y.val < 4096 := by omega
    simp_all [encode, decode?, family_wordOf]
  | draw x y rows =>
    have hn : 256 * x.val + 16 * y.val + rows.val < 4096 := by omega
    simp only [encode, decode?, family_wordOf, digitOperands_wordOf, hn, rows.isLt, Nat.reduceLT]
  | arithmetic op x y =>
    have hc := code_lt op
    have hn : 256 * x.val + 16 * y.val + op.code < 4096 := by omega
    simp only [encode, decode?, family_wordOf, digitOperands_wordOf, hn, hc, Nat.reduceLT,
      ofCode?_code, Option.map_some]
  | skipPressed x | skipReleased x | readDelay x | awaitKey x | setDelay x | setSound x
  | addIndex x | pointGlyph x | storeDecimal x | storeRegisters x | loadRegisters x =>
    simp only [encode]
    rw [decode?, family_wordOf (by decide) (by omega)]
    simp [byteOperands_wordOf, ofKeySkip?, ofMiscellany?]

/-- A word is its family and its address. -/
theorem wordOf_self (w : Word) : wordOf w.family w.nnn = w := by
  have hw := w.toNat_lt
  apply UInt16.toNat_inj.1
  rw [toNat_wordOf w.family.isLt w.nnn.isLt]
  simp only [Word.family, Word.nnn]
  omega

/-- The address of a word is its register and its byte. -/
theorem nnn_eq_byteOperands (w : Word) : (w.nnn : Nat) = 256 * w.x + w.nn.toNat := by
  simp only [Word.nnn, Word.x, Word.nn, UInt8.toNat_ofNat']
  omega

/-- The address of a word is its registers and its last digit. -/
theorem nnn_eq_digitOperands (w : Word) : (w.nnn : Nat) = 256 * w.x + 16 * w.y + w.n := by
  simp only [Word.nnn, Word.x, Word.y, Word.n]
  omega

theorem code_of_ofCode? {n : Nat} {op : Arithmetic} (h : Arithmetic.ofCode? n = some op) :
    op.code = n := by
  unfold Arithmetic.ofCode? at h
  split at h <;> cases h <;> rfl

theorem encode_of_ofSystem? {nnn : Nat} {i : Instruction} (h : ofSystem? nnn = some i) :
    i.encode = wordOf 0x0 nnn := by
  unfold ofSystem? at h
  split at h <;> cases h <;> rfl

theorem encode_of_ofKeySkip? {x : Register} {nn : Nat} {i : Instruction}
    (h : ofKeySkip? x nn = some i) : i.encode = wordOf 0xE (256 * x + nn) := by
  unfold ofKeySkip? at h
  split at h <;> cases h <;> rfl

theorem encode_of_ofMiscellany? {x : Register} {nn : Nat} {i : Instruction}
    (h : ofMiscellany? x nn = some i) : i.encode = wordOf 0xF (256 * x + nn) := by
  unfold ofMiscellany? at h
  split at h <;> cases h <;> rfl

/-- An instruction read from a word has that word. -/
theorem encode_of_decode? {w : Word} {i : Instruction} (h : decode? w = some i) :
    i.encode = w := by
  have self := wordOf_self w
  have bytes := nnn_eq_byteOperands w
  have digits := nnn_eq_digitOperands w
  unfold decode? at h
  split at h <;> rename_i hf
  case h_1 => rw [encode_of_ofSystem? h, ← hf, self]
  case h_2 | h_3 | h_11 | h_12 =>
    cases h
    rw [encode, ← hf, self]
  case h_4 | h_5 | h_7 | h_8 | h_13 =>
    cases h
    rw [encode, ← bytes, ← hf, self]
  case h_6 | h_10 =>
    split at h
    · rename_i hn
      cases h
      rw [hn] at digits
      rw [encode, ← hf]
      exact digits ▸ self
    · cases h
  case h_9 =>
    obtain ⟨op, hop, rfl⟩ := Option.map_eq_some_iff.1 h
    rw [encode, code_of_ofCode? hop, ← digits, ← hf, self]
  case h_14 =>
    cases h
    rw [encode, ← digits, ← hf, self]
  case h_15 => rw [encode_of_ofKeySkip? h, ← bytes, ← hf, self]
  case h_16 => rw [encode_of_ofMiscellany? h, ← bytes, ← hf, self]
  case h_17 => cases h

/-- A word is code exactly if it is the word of an instruction. -/
theorem decode?_eq_some_iff {w : Word} {i : Instruction} :
    decode? w = some i ↔ i.encode = w :=
  ⟨encode_of_decode?, fun h => h ▸ decode?_encode i⟩

end Instruction

end Chip8
