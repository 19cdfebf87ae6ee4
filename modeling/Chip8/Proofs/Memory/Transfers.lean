import Chip8.Memory

/-!
# Transfers byte by byte

What `Memory.readEach` and `Memory.writeEach` do when part of their range lies past the end of
memory.

Results:
1. `readEach_faults_iff`, `writeEach_faults_iff`: a transfer faults exactly if it is not empty and
   its range leaves memory; the address named is the first of the range that does not exist.
2. `getElem?_readEach`, `read_writeEach_of_lt`, `read_writeEach_of_outside`: the bytes that exist
   are transferred, whether the transfer faults or not, and no others are touched.
3. `readEach_congr`: what is read depends on the bytes, not on where they are.
-/

namespace Chip8.Memory

theorem read_of_lt {m : Memory} {address : Nat} (h : address < 4096) :
    m.read address = .ok m.cells[address] := by
  simp [read, h]

theorem read_of_le {m : Memory} {address : Nat} (h : 4096 ≤ address) :
    m.read address = .error (.outOfBounds address) := by
  simp [read, Nat.not_lt.mpr h]

theorem read_eq_ok_iff {m : Memory} {address : Nat} {value : UInt8} :
    m.read address = .ok value ↔ ∃ h : address < 4096, m.cells[address] = value := by
  rcases Nat.lt_or_ge address 4096 with h | h
  · simp [read_of_lt h, h]
  · simp [read_of_le h, Nat.not_lt.mpr h]

/-- A block holds its values. -/
theorem read_overlay_of_lt {m : Memory} {start k : Nat} {values : List UInt8}
    (h : k < values.length) (inside : start + k < 4096) :
    (m.overlay start values).read (start + k) = .ok values[k] := by
  rw [read_of_lt inside]
  simp [overlay, h]

theorem readWord_overlay_of_lt {m : Memory} {start k : Nat} {values : List UInt8}
    (h : k + 1 < values.length) (inside : start + k + 1 < 4096) :
    (m.overlay start values).readWord (start + k) =
      .ok (Word.ofBytes values[k] values[k + 1]) := by
  have high : (m.overlay start values).read (start + k) = .ok values[k] :=
    read_overlay_of_lt _ (Nat.lt_of_succ_lt inside)
  have low : (m.overlay start values).read (start + (k + 1)) = .ok values[k + 1] :=
    read_overlay_of_lt h inside
  rw [readWord, Nat.add_assoc, high, low]

/-! ## Blocks and glyphs -/

theorem read_overlay_of_outside {m : Memory} {start address : Nat} {values : List UInt8}
    (h : address < start ∨ start + values.length ≤ address) :
    (m.overlay start values).read address = m.read address := by
  rcases Nat.lt_or_ge address 4096 with inside | past
  · have apart : ¬ (start ≤ address ∧ address - start < values.length) := by omega
    rw [read_of_lt inside, read_of_lt inside]
    simp [overlay, apart]
  · rw [read_of_le past, read_of_le past]

@[simp]
theorem overlay_nil (m : Memory) (start : Nat) : m.overlay start [] = m := by
  simp [overlay]

theorem read_withFont_of_lt (m : Memory) (font : Font) {address : Nat} (h : address < 80) :
    (m.withFont font).read address = .ok font[address] := by
  rw [read_of_lt (by omega)]
  simp [withFont, h]

theorem read_withFont_of_le (m : Memory) (font : Font) {address : Nat} (h : 80 ≤ address) :
    (m.withFont font).read address = m.read address := by
  rcases Nat.lt_or_ge address 4096 with inside | past
  · rw [read_of_lt inside, read_of_lt inside]
    simp [withFont, Nat.not_lt.mpr h]
  · rw [read_of_le past, read_of_le past]

theorem read_zero {address : Nat} (h : address < 4096) : zero.read address = .ok 0 := by
  rw [read_of_lt h]
  simp [zero]

/-! ## Words -/

/-- A word is missing exactly if one of its bytes is; the address named is the first missing. -/
theorem readWord_eq_error_iff {m : Memory} {address : Nat} {fault : Fault} :
    m.readWord address = .error fault ↔
      4095 ≤ address ∧ fault = .outOfBounds (max address 4096) := by
  unfold readWord
  rcases Nat.lt_or_ge address 4096 with high | high
  · rw [read_of_lt high]
    rcases Nat.lt_or_ge (address + 1) 4096 with low | low
    · simp [read_of_lt low]
      omega
    · obtain rfl : address = 4095 := by omega
      rw [read_of_le low]
      simp [eq_comm]
  · rw [read_of_le high, Nat.max_eq_left high]
    simp only [Except.error.injEq]
    constructor
    · rintro rfl
      exact ⟨by omega, rfl⟩
    · rintro ⟨-, rfl⟩
      rfl

/-! ## Reading -/

theorem readEach_snd (m : Memory) (start count : Nat) :
    (m.readEach start count).2 =
      if start + count ≤ 4096 ∨ count = 0 then none else some (.outOfBounds (max start 4096)) := by
  induction count generalizing start with
  | zero => simp [readEach]
  | succ count ih =>
    unfold readEach
    rcases Nat.lt_or_ge start 4096 with h | h
    · have first : max (start + 1) 4096 = max start 4096 := by omega
      have same : start + 1 + count ≤ 4096 ∨ count = 0 ↔ start + (count + 1) ≤ 4096 := by omega
      simp only [read_of_lt h, ih, first, same, Nat.add_one_ne_zero, or_false]
    · have past : ¬ start + (count + 1) ≤ 4096 := by omega
      simp [read_of_le h, past, Nat.max_eq_left h]

theorem readEach_faults_iff {m : Memory} {start count : Nat} {fault : Fault} :
    (m.readEach start count).2 = some fault ↔
      0 < count ∧ 4096 < start + count ∧ fault = .outOfBounds (max start 4096) := by
  rw [readEach_snd]
  split
  · next complete =>
    constructor
    · intro h
      cases h
    · rintro ⟨_, _, _⟩
      omega
  · next broken =>
    rw [Option.some.injEq, eq_comm]
    constructor
    · intro h
      exact ⟨by omega, by omega, h⟩
    · exact fun h => h.2.2

theorem getElem?_readEach (m : Memory) (start count k : Nat) :
    (m.readEach start count).1[k]? = if k < count then m.cells[start + k]? else none := by
  induction count generalizing start k with
  | zero => simp [readEach]
  | succ count ih =>
    unfold readEach
    rcases Nat.lt_or_ge start 4096 with h | h
    · rw [read_of_lt h]
      cases k with
      | zero => simp [h]
      | succ k => simp [ih, Nat.add_assoc, Nat.add_comm 1 k]
    · have past : ¬ start + k < 4096 := by omega
      simp [read_of_le h, past]

theorem length_readEach_le (m : Memory) (start count : Nat) :
    (m.readEach start count).1.length ≤ count := by
  have past := getElem?_readEach m start count count
  rw [if_neg (Nat.lt_irrefl count)] at past
  exact List.getElem?_eq_none_iff.mp past

/-- Where the same bytes are, or the same addresses are refused, the same is read. -/
theorem readEach_congr {m n : Memory} {start start' count : Nat}
    (same : ∀ k < count, n.read (start' + k) = m.read (start + k)) :
    n.readEach start' count = m.readEach start count := by
  induction count generalizing start start' with
  | zero => rfl
  | succ count ih =>
    have first : n.read start' = m.read start := same 0 (Nat.succ_pos count)
    have rest : n.readEach (start' + 1) count = m.readEach (start + 1) count := by
      refine ih fun k below => ?_
      rw [Nat.add_right_comm, Nat.add_right_comm start]
      exact same (k + 1) (Nat.succ_lt_succ below)
    simp only [readEach, first, rest]

/-! ## Writing -/

theorem writeEach_snd (m : Memory) (start : Nat) (values : List UInt8) :
    (m.writeEach start values).2 =
      if start + values.length ≤ 4096 ∨ values = [] then none
      else some (.outOfBounds (max start 4096)) := by
  induction values generalizing m start with
  | nil => simp [writeEach]
  | cons value values ih =>
    unfold writeEach
    rcases Nat.lt_or_ge start 4096 with h | h
    · have first : max (start + 1) 4096 = max start 4096 := by omega
      have same : start + 1 + values.length ≤ 4096 ∨ values = [] ↔
          start + (values.length + 1) ≤ 4096 := by
        rw [← List.length_eq_zero_iff]
        omega
      simp only [write, h, ↓reduceDIte, ih, first, same, List.length_cons, reduceCtorEq, or_false]
    · have past : ¬ start + (values.length + 1) ≤ 4096 := by omega
      simp [write, Nat.not_lt.mpr h, past, Nat.max_eq_left h]

theorem writeEach_faults_iff {m : Memory} {start : Nat} {values : List UInt8} {fault : Fault} :
    (m.writeEach start values).2 = some fault ↔
      values ≠ [] ∧ 4096 < start + values.length ∧ fault = .outOfBounds (max start 4096) := by
  rw [writeEach_snd]
  split
  · next complete =>
    constructor
    · intro h
      cases h
    · rintro ⟨nonempty, past, _⟩
      exact (complete.elim (Nat.not_le.mpr past) nonempty).elim
  · next broken =>
    obtain ⟨past, nonempty⟩ := not_or.mp broken
    rw [Option.some.injEq, eq_comm]
    constructor
    · intro h
      exact ⟨nonempty, Nat.not_le.mp past, h⟩
    · exact fun h => h.2.2

theorem read_writeEach_of_outside {m : Memory} {start address : Nat} {values : List UInt8}
    (h : address < start ∨ start + values.length ≤ address) :
    (m.writeEach start values).1.read address = m.read address := by
  induction values generalizing m start with
  | nil => rfl
  | cons value values ih =>
    rw [List.length_cons] at h
    unfold writeEach
    split
    · rfl
    · next written hw =>
      have apart : address ≠ start := by omega
      rw [ih (by omega), read_write hw, if_neg apart]

theorem read_writeEach_of_lt {m : Memory} {start k : Nat} {values : List UInt8}
    (h : k < values.length) (inside : start + k < 4096) :
    (m.writeEach start values).1.read (start + k) = .ok values[k] := by
  induction values generalizing m start k with
  | nil => simp at h
  | cons value values ih =>
    have room : start < 4096 := by omega
    unfold writeEach
    split
    · next hw => simp [write, room] at hw
    · next written hw =>
      cases k with
      | zero =>
        rw [read_writeEach_of_outside (by omega), read_write hw]
        simp
      | succ k =>
        have next : start + (k + 1) = start + 1 + k := by omega
        rw [next]
        exact ih (by simpa using h) (by omega)

end Chip8.Memory
