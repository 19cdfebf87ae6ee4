import Chip8.Machine.Listing
import Chip8.Proofs.Machine.Invariants
import Chip8.Proofs.Memory.Transfers
import Chip8.Proofs.Number.Spelling
import Chip8.Proofs.Screen.Parity

/-!
# Faithful listings

A listing is read back as the bytes it shows: every line tells its address and, in two hexadecimal
digits each, two bytes or a last odd one. There is a listing for every count of bytes but the
greatest ones, which leave no room for the end address in 64 bits.

Results:
1. `Listing.lists_lines`, `Listing.read?_lines`: the text of bytes, and what is read from it.
2. `Machine.listing?_of_lt`, `Machine.listing?_of_load`: the bytes that a machine lists.
3. `Machine.listing_faithful`, `Machine.listing_lost`: listings for all counts, and a count without
   one.
-/

namespace Chip8

namespace Listing

/-! ## Definitions -/

/-- A line shows bytes at an address: its four digits, a colon and a space, and two digits for each
byte. -/
def ShownAt (line : List Char) (address : Nat) (values : List UInt8) : Prop :=
  ∃ start digits, line = start ++ ':' :: ' ' :: digits ∧ Hex.Printed 4 start address ∧
    digits.length = 2 * values.length ∧
    ∀ j (inside : j < values.length), Hex.Printed 2 ((digits.drop (2 * j)).take 2) values[j].toNat

/-- A text lists bytes from the start of the program area on: two to a line but for a last odd one,
and nothing after the last line end. -/
structure Lists (text : String) (values : List UInt8) : Prop where
  count : (text.toList.splitOn '\n').length = (values.length + 1) / 2 + 1
  last : (text.toList.splitOn '\n')[(values.length + 1) / 2]? = some []
  line : ∀ i, 2 * i < values.length → ∃ line, (text.toList.splitOn '\n')[i]? = some line ∧
    ShownAt line (0x200 + 2 * i) ((values.drop (2 * i)).take 2)

/-- The bytes that pairs of digits stand for. -/
def bytes? : List Char → Option (List UInt8)
  | [] => some []
  | [_] => none
  | high :: low :: rest =>
    match Number.hexDigit? high, Number.hexDigit? low, bytes? rest with
    | some h, some l, some values => some (UInt8.ofNat (16 * h + l) :: values)
    | _, _, _ => none

/-- The bytes that the digits of a listing stand for, read past the address of each line. -/
def read? (text : String) : Option (List UInt8) :=
  bytes? ((text.toList.splitOn '\n').flatMap (List.drop 6))

/-- The digits of a byte. -/
def pair (value : UInt8) : List Char := Hex.padded 2 value.toNat

/-- A line without its line end. -/
def row (address : Nat) (values : List UInt8) : List Char :=
  Hex.padded 4 address ++ ':' :: ' ' :: values.flatMap pair

/-- The lines of bytes that begin at an address, without their line ends. -/
def rows (address : Nat) : List UInt8 → List (List Char)
  | [] => []
  | [a] => [row address [a]]
  | a :: b :: rest => row address [a, b] :: rows (address + 2) rest

/-! ## Lines -/

theorem line_eq (address : Nat) (values : List UInt8) :
    line address values = row address values ++ ['\n'] := by
  simp [line, row]
  rfl

theorem lines_eq (address : Nat) (values : List UInt8) :
    lines address values = (rows address values).flatMap fun row => row ++ ['\n'] := by
  induction address, values using rows.induct with
  | case1 address => rfl
  | case2 address a => simp [lines, rows, line_eq]
  | case3 address a b rest ih => simp [lines, rows, line_eq, ih]

theorem length_rows (address : Nat) (values : List UInt8) :
    (rows address values).length = (values.length + 1) / 2 := by
  induction address, values using rows.induct with
  | case1 address => rfl
  | case2 address a => simp [rows]
  | case3 address a b rest ih =>
    simp only [rows, List.length_cons, ih]
    omega

theorem getElem?_rows {address i : Nat} {values : List UInt8} (inside : 2 * i < values.length) :
    (rows address values)[i]? =
      some (row (address + 2 * i) ((values.drop (2 * i)).take 2)) := by
  induction address, values using rows.induct generalizing i with
  | case1 address => cases inside
  | case2 address a =>
    obtain rfl : i = 0 := by simp at inside; omega
    rfl
  | case3 address a b rest ih =>
    cases i with
    | zero => rfl
    | succ i =>
      have next : address + 2 + 2 * i = address + 2 * (i + 1) := by omega
      rw [rows, List.getElem?_cons_succ, ih (by simp at inside; omega), next]
      rfl

theorem pair_eq (value : UInt8) :
    pair value = [Hex.digit (value.toNat / 16), Hex.digit value.toNat] := by
  rw [pair, Hex.padded, Nat.max_eq_left (Hex.width_le (by decide) value.toNat_lt)]
  rfl

theorem length_pair (value : UInt8) : (pair value).length = 2 := by
  rw [pair_eq]
  rfl

theorem length_flatMap_pair (values : List UInt8) :
    (values.flatMap pair).length = 2 * values.length := by
  induction values with
  | nil => rfl
  | cons value values ih =>
    rw [List.flatMap_cons, List.length_append, length_pair, ih, List.length_cons]
    omega

theorem take_drop_flatMap_pair {values : List UInt8} {j : Nat} (inside : j < values.length) :
    ((values.flatMap pair).drop (2 * j)).take 2 = pair values[j] := by
  induction values generalizing j with
  | nil => cases inside
  | cons value values ih =>
    have size := length_pair value
    cases j with
    | zero =>
      simp only [List.flatMap_cons]
      rw [Nat.mul_zero, List.drop_zero, List.take_left' size]
      rfl
    | succ j =>
      have moved : 2 * (j + 1) = (pair value).length + 2 * j := by omega
      rw [List.flatMap_cons, moved, List.drop_length_add_append]
      exact ih (Nat.lt_of_succ_lt_succ inside)

theorem shownAt_row {address : Nat} (small : address < 16 ^ 4) (values : List UInt8) :
    ShownAt (row address values) address values := by
  refine ⟨_, _, rfl, Hex.printed_padded (by decide) small, length_flatMap_pair values, ?_⟩
  intro j inside
  rw [take_drop_flatMap_pair inside]
  exact Hex.printed_padded (by decide) values[j].toNat_lt

/-! ## Whole listings -/

theorem newline_not_mem_row (address : Nat) (values : List UInt8) : '\n' ∉ row address values := by
  have digit {least n : Nat} : '\n' ∉ Hex.padded least n :=
    fun mem => absurd (Hex.mem_capitals_of_mem_padded mem) (by decide)
  simp [row, pair, digit]

theorem newline_not_mem_rows {address : Nat} {values : List UInt8} :
    ∀ row ∈ rows address values, '\n' ∉ row := by
  induction address, values using rows.induct with
  | case1 address => nofun
  | case2 address a => simp [rows, newline_not_mem_row]
  | case3 address a b rest ih =>
    rw [rows]
    exact List.forall_mem_cons.mpr ⟨newline_not_mem_row _ _, ih⟩

theorem splitOn_lines (address : Nat) (values : List UInt8) :
    (lines address values).splitOn '\n' = rows address values ++ [[]] := by
  rw [lines_eq, Screen.splitOn_lines newline_not_mem_rows]

theorem lists_lines {values : List UInt8} (small : values.length ≤ 3584) :
    Lists (String.ofList (lines 0x200 values)) values where
  count := by simp [splitOn_lines, length_rows]
  last := by simp [splitOn_lines, ← length_rows 0x200 values]
  line i inside := by
    refine ⟨row (0x200 + 2 * i) ((values.drop (2 * i)).take 2), ?_, shownAt_row (by omega) _⟩
    have there : i < (rows 0x200 values).length := by
      rw [length_rows]
      omega
    rw [String.toList_ofList, splitOn_lines, List.getElem?_append_left there, getElem?_rows inside]

theorem bytes?_flatMap_pair (values : List UInt8) :
    bytes? (values.flatMap pair) = some values := by
  induction values with
  | nil => rfl
  | cons value values ih =>
    have below := value.toNat_lt
    have digit (n : Nat) : Number.hexDigit? (Hex.digit n) = some (n % 16) :=
      (Hex.digit_spec n).2.hexDigit? (Nat.le_refl 16)
    have halves : 16 * (value.toNat / 16 % 16) + value.toNat % 16 = value.toNat := by omega
    rw [List.flatMap_cons, pair_eq, List.cons_append, List.cons_append, List.nil_append, bytes?]
    simp only [digit, ih, halves, UInt8.ofNat_toNat]

theorem flatMap_drop_rows {address : Nat} {values : List UInt8}
    (small : address + values.length ≤ 16 ^ 4) :
    (rows address values).flatMap (List.drop 6) = values.flatMap pair := by
  have digits {address : Nat} (small : address < 16 ^ 4) (values : List UInt8) :
      (row address values).drop 6 = values.flatMap pair := by
    have size : (Hex.padded 4 address).length = 4 := Hex.length_padded (by decide) small
    rw [row, List.drop_append, size, List.drop_eq_nil_of_le (by omega)]
    rfl
  induction address, values using rows.induct with
  | case1 address => rfl
  | case2 address a =>
    rw [rows, List.flatMap_singleton, digits (by simp at small; omega)]
  | case3 address a b rest ih =>
    simp only [List.length_cons] at small
    rw [rows, List.flatMap_cons, digits (by omega), ih (by omega)]
    simp

theorem read?_lines {values : List UInt8} (small : values.length ≤ 3584) :
    read? (String.ofList (lines 0x200 values)) = some values := by
  rw [read?, String.toList_ofList, splitOn_lines, List.flatMap_append,
    flatMap_drop_rows (by omega), List.flatMap_singleton, List.drop_nil, List.append_nil,
    bytes?_flatMap_pair]

end Listing

namespace Machine

variable {m : Machine}

theorem listing?_of_lt {count : Nat} (small : 0x200 + count < UInt64.size) :
    ∃ values, m.listing? count = some (String.ofList (Listing.lines 0x200 values)) ∧
      values.length = min count 3584 ∧
      ∀ k (inside : k < values.length), m.memory.read (0x200 + k) = .ok values[k] := by
  refine ⟨m.memory.slice 0x200 (0x200 + count), if_pos small, ?_, ?_⟩
  · simp [Memory.slice]
    omega
  · intro k inside
    have size : k < 3584 := by
      simp [Memory.slice] at inside
      omega
    rw [Memory.read_of_lt (by omega)]
    simp [Memory.slice]

theorem listing?_of_le {count : Nat} (large : UInt64.size ≤ 0x200 + count) :
    m.listing? count = none := if_neg (Nat.not_lt.mpr large)

/-- A program that was loaded is what is listed first. -/
theorem listing?_of_load {old : Machine} {program : List UInt8}
    (loaded : old.load program = (.ok (), m)) :
    m.listing? program.length = some (String.ofList (Listing.lines 0x200 program)) ∧
      program.length ≤ 3584 := by
  rcases Nat.lt_or_ge 3584 program.length with large | small
  · rw [load_of_lt large] at loaded
    cases loaded
  · have inside : 0x200 + program.length < UInt64.size :=
      Nat.lt_of_le_of_lt (Nat.add_le_add_left small _) (by decide)
    obtain ⟨values, listed, size, held⟩ := m.listing?_of_lt inside
    have memory : m.memory = old.reset.memory.overlay 0x200 program := by
      rw [load_of_le small] at loaded
      cases loaded
      rfl
    have same : values = program := by
      refine List.ext_getElem (by omega) fun k here there => ?_
      have stored := held k here
      rw [memory, Memory.read_overlay_of_lt there (by omega)] at stored
      exact (Except.ok.inj stored).symm
    rw [same] at listed
    exact ⟨listed, small⟩

/-! ## All counts -/

/-- A machine lists any number of the bytes of its program area, all of them if that is more than
there are: two to a line behind the address of the first, as hexadecimal numbers from which the
bytes can be read again, and after a load the program. Only where the end address does not fit into
64 bits, there is no listing. -/
theorem listing_faithful (m : Machine) (count : Nat) :
    (0x200 + count < 2 ^ 64 → ∃ text values, m.listing? count = some text ∧
      values.length = min count 3584 ∧
      (∀ k (inside : k < values.length), m.memory.read (0x200 + k) = .ok values[k]) ∧
      Listing.Lists text values ∧ Listing.read? text = some values) ∧
    (2 ^ 64 ≤ 0x200 + count → m.listing? count = none) ∧
    ∀ (old : Machine) program, old.load program = (.ok (), m) →
      ∃ text, m.listing? program.length = some text ∧ Listing.read? text = some program := by
  refine ⟨fun small => ?_, listing?_of_le, fun old program loaded => ?_⟩
  · obtain ⟨values, listed, size, held⟩ := m.listing?_of_lt small
    have bound : values.length ≤ 3584 := by omega
    exact ⟨_, values, listed, size, held, Listing.lists_lines bound, Listing.read?_lines bound⟩
  · obtain ⟨listed, small⟩ := listing?_of_load loaded
    exact ⟨_, listed, Listing.read?_lines small⟩

/-- More bytes than there are, a count without a listing, and a program of an odd length. -/
theorem listing_faithful_odd :
    let m := Machine.new {} (.constant 0)
    (0x200 + 5000 < 2 ^ 64 ∧ ∃ text values, m.listing? 5000 = some text ∧
      values.length = 3584 ∧ Listing.Lists text values) ∧
    (2 ^ 64 ≤ 0x200 + (2 ^ 64 - 512) ∧ m.listing? (2 ^ 64 - 512) = none) ∧
    ∃ m', m.load [0x00, 0xE0, 0xAB] = (.ok (), m') ∧
      ∃ text, m'.listing? 3 = some text ∧ Listing.read? text = some [0x00, 0xE0, 0xAB] := by
  intro m
  obtain ⟨text, values, listed, size, -, lists, -⟩ := (m.listing_faithful 5000).1 (by decide)
  obtain ⟨m', loaded⟩ : ∃ m', m.load [0x00, 0xE0, 0xAB] = (.ok (), m') :=
    ⟨_, load_of_le (by decide)⟩
  exact ⟨⟨by decide, text, values, listed, size, lists⟩,
    ⟨by decide, (m.listing_faithful (2 ^ 64 - 512)).2.1 (by decide)⟩,
    m', loaded, (m'.listing_faithful 0).2.2 m _ loaded⟩

/-- The greatest count of 64 bits has no listing, though fewer bytes than that are listed as all. -/
theorem listing_lost :
    2 ^ 64 - 1 < 2 ^ 64 ∧ (Machine.new {} (.constant 0)).listing? (2 ^ 64 - 1) = none :=
  ⟨by decide, listing?_of_le (by decide)⟩

end Machine

end Chip8
