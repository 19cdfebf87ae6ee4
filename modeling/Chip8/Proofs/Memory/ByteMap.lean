import Chip8.Proofs.Machine.Guarded

/-!
# Memory as a byte map

Whatever is read, written, copied and cleared, memory holds at each address the byte that was put
there last, and an access is refused exactly if it reaches past the end. What is refused changes
nothing.

Results:
1. `read_access`, `read_accessAll`: the byte at an address after one access, and after many.
2. `fst_access`: the answer to an access.
3. `writeEach_of_copy_eq_ok`, `writeEach_of_copy_eq_error`: a block and its bytes one by one.
4. `guarded_access_eq`: no sum of addresses is too large.
5. `accesses_follow_byte_map`: all of it.
-/

namespace Chip8

/-! ## Definitions -/

namespace Memory

/-- A request to memory. -/
inductive Access
  | read (address : Nat)
  | readWord (address : Nat)
  | write (address : Nat) (value : UInt8)
  | copy (start : Nat) (values : List UInt8)
  | clear
  deriving DecidableEq, Repr

/-- What an access that succeeds is answered with. -/
inductive Reply
  | done
  | byte (value : UInt8)
  /-- A word, as a number. -/
  | word (value : Nat)
  deriving DecidableEq, Repr

/-- The outcome of an access that changes nothing when it is refused. -/
def settle (m : Memory) : Except Fault Memory → Except Fault Reply × Memory
  | .ok m' => (.ok .done, m')
  | .error fault => (.error fault, m)

/-- Performs one access. -/
def access (m : Memory) : Access → Except Fault Reply × Memory
  | .read address => ((m.read address).map .byte, m)
  | .readWord address => ((m.readWord address).map fun w => .word w.toNat, m)
  | .write address value => m.settle (m.write address value)
  | .copy start values => m.settle (m.copy start values)
  | .clear => (.ok .done, zero)

/-- Performs accesses in order, also after refused ones. -/
def accessAll (m : Memory) (accesses : List Access) : Memory :=
  accesses.foldl (fun m access => (m.access access).2) m

/-- The byte that an access puts at an address in memory, if it puts one there. -/
def Access.put? (address : Nat) : Access → Option UInt8
  | .read _ | .readWord _ => none
  | .write target value => if target = address then some value else none
  | .copy start values =>
    if start + values.length ≤ 4096 ∧ start ≤ address then values[address - start]? else none
  | .clear => some 0

/-- The byte that accesses put at an address last, or 0. -/
def lastPut (accesses : List Access) (address : Nat) : UInt8 :=
  (accesses.filterMap (Access.put? address)).getLast?.getD 0

/-- The answer to an access, where memory holds these bytes. -/
def Access.answer (bytes : Nat → UInt8) : Access → Except Fault Reply
  | .read address =>
    if address < 4096 then .ok (.byte (bytes address)) else .error (.outOfBounds address)
  | .readWord address =>
    if address < 4095 then
      .ok (.word (256 * (bytes address).toNat + (bytes (address + 1)).toNat))
    else .error (.outOfBounds (max address 4096))
  | .write address _ => if address < 4096 then .ok .done else .error (.outOfBounds address)
  | .copy start values =>
    if start + values.length ≤ 4096 then .ok .done else .error (.outOfBounds (max start 4096))
  | .clear => .ok .done

end Memory

namespace Guarded

/-- The word at an address; the address of its second byte has to fit. -/
def readWord (m : Memory) (address : Nat) : Option (Except Fault Word) :=
  match m.read address with
  | .error fault => some (.error fault)
  | .ok high => do
    match m.read (← sum address 1) with
    | .error fault => return .error fault
    | .ok low => return .ok (Word.ofBytes high low)

/-- Writes a whole block. An end that does not fit is past the end of memory. -/
def copy (m : Memory) (start : Nat) (values : List UInt8) : Except Fault Memory :=
  match (sum start values.length).filter (· ≤ 4096) with
  | some _ => .ok (m.overlay start values)
  | none => .error (.outOfBounds (max start 4096))

/-- Performs one access. -/
def access (m : Memory) : Memory.Access → Option (Except Fault Memory.Reply × Memory)
  | .readWord address => do
    return ((← readWord m address).map fun w => .word w.toNat, m)
  | .copy start values => some (m.settle (copy m start values))
  | other => some (m.access other)

end Guarded

namespace Memory

variable {m : Memory} {address start : Nat} {values : List UInt8}

/-! ## Bytes -/

/-- A memory is determined by its bytes. -/
theorem ext_read {m n : Memory} (same : ∀ address < 4096, m.read address = n.read address) :
    m = n := by
  have cells : m.cells = n.cells := by
    refine Vector.ext fun address inside => ?_
    have byte := same address inside
    rw [read_of_lt inside, read_of_lt inside] at byte
    exact Except.ok.inj byte
  obtain ⟨m_cells⟩ := m
  obtain ⟨n_cells⟩ := n
  exact congrArg mk cells

theorem write_eq_ok (m : Memory) (inside : address < 4096) (value : UInt8) :
    ∃ m', m.write address value = .ok m' :=
  ⟨_, dif_pos inside⟩

theorem write_eq_error (m : Memory) (past : ¬ address < 4096) (value : UInt8) :
    m.write address value = .error (.outOfBounds address) :=
  dif_neg past

theorem read_overlay (m : Memory) (inside : address < 4096) (start : Nat) (values : List UInt8) :
    (m.overlay start values).read address =
      .ok ((if start ≤ address then values[address - start]? else none).getD m.cells[address]) := by
  by_cases within : start ≤ address ∧ address - start < values.length
  · obtain ⟨above, below⟩ := within
    have there : start + (address - start) = address := Nat.add_sub_cancel' above
    have byte := read_overlay_of_lt (m := m) below (by rwa [there])
    rw [there] at byte
    rw [byte, if_pos above, List.getElem?_eq_getElem below, Option.getD_some]
  · have nothing : (if start ≤ address then values[address - start]? else none) = none := by
      split
      · next above => exact List.getElem?_eq_none (Nat.not_lt.mp fun below => within ⟨above, below⟩)
      · rfl
    rw [nothing, Option.getD_none, read_overlay_of_outside (by omega), read_of_lt inside]

/-- An access decides the bytes that it puts, and no others. -/
theorem read_access (m : Memory) (access : Access) (inside : address < 4096) :
    (m.access access).2.read address = .ok ((access.put? address).getD m.cells[address]) := by
  cases access with
  | read target => exact read_of_lt inside
  | readWord target => exact read_of_lt inside
  | write target value =>
    rcases Nat.lt_or_ge target 4096 with room | past
    · obtain ⟨m', written⟩ := write_eq_ok m room value
      simp only [Memory.access, settle, written, read_write written, Access.put?, eq_comm]
      split
      · rfl
      · exact read_of_lt inside
    · have apart : target ≠ address := by omega
      simp only [Memory.access, settle, write_eq_error m (Nat.not_lt.mpr past), Access.put?,
        if_neg apart]
      exact read_of_lt inside
  | copy start values =>
    simp only [Memory.access, Memory.copy, Access.put?]
    split
    · next fits =>
      simp only [settle, fits, true_and]
      exact read_overlay m inside start values
    · next large =>
      simp only [settle, large, false_and, if_false, Option.getD_none]
      exact read_of_lt inside
  | clear => exact read_zero inside

/-- Memory holds what was put there last. -/
theorem read_accessAll (m : Memory) (accesses : List Access) (inside : address < 4096) :
    (m.accessAll accesses).read address =
      .ok ((accesses.filterMap (Access.put? address)).getLast?.getD m.cells[address]) := by
  induction accesses generalizing m with
  | nil => exact read_of_lt inside
  | cons access accesses ih =>
    have byte : (m.access access).2.cells[address] =
        (access.put? address).getD m.cells[address] :=
      Except.ok.inj ((read_of_lt inside).symm.trans (read_access m access inside))
    refine (ih (m.access access).2).trans ?_
    rw [byte]
    cases puts : access.put? address with
    | none => rw [List.filterMap_cons_none puts, Option.getD_none]
    | some value =>
      rw [List.filterMap_cons_some puts, List.getLast?_cons]
      rfl

theorem read_accessAll_zero (accesses : List Access) (inside : address < 4096) :
    (zero.accessAll accesses).read address = .ok (lastPut accesses address) := by
  have cleared : zero.cells[address] = 0 :=
    Except.ok.inj ((read_of_lt inside).symm.trans (read_zero inside))
  rw [read_accessAll zero accesses inside, cleared]
  rfl

/-! ## Answers -/

theorem toNat_ofBytes (high low : UInt8) :
    (Word.ofBytes high low).toNat = 256 * high.toNat + low.toNat := by
  have high_lt := high.toNat_lt
  have low_lt := low.toNat_lt
  exact UInt16.toNat_ofNat_of_lt' (show 256 * high.toNat + low.toNat < 65536 by omega)

theorem readWord_of_read {high low : UInt8} (first : m.read address = .ok high)
    (second : m.read (address + 1) = .ok low) :
    m.readWord address = .ok (Word.ofBytes high low) := by
  simp only [readWord, first, second]

theorem fst_access {bytes : Nat → UInt8}
    (held : ∀ address < 4096, m.read address = .ok (bytes address)) (access : Access) :
    (m.access access).1 = access.answer bytes := by
  cases access with
  | read address =>
    simp only [Memory.access, Access.answer]
    split
    · next inside =>
      rw [held address inside]
      rfl
    · next past =>
      rw [read_of_le (Nat.not_lt.mp past)]
      rfl
  | readWord address =>
    simp only [Memory.access, Access.answer]
    split
    · next inside =>
      rw [readWord_of_read (held address (by omega)) (held (address + 1) (by omega))]
      simp only [Except.map, toNat_ofBytes]
    · next past =>
      rw [readWord_eq_error_iff.mpr ⟨Nat.not_lt.mp past, rfl⟩]
      rfl
  | write address value =>
    simp only [Memory.access, Access.answer]
    split
    · next inside =>
      obtain ⟨m', written⟩ := write_eq_ok m inside value
      rw [written]
      rfl
    · next past =>
      rw [write_eq_error m past]
      rfl
  | copy start values =>
    simp only [Memory.access, Memory.copy, Access.answer]
    split <;> rfl
  | clear => rfl

theorem settle_snd_of_error {result : Except Fault Memory} {fault : Fault}
    (refused : (m.settle result).1 = .error fault) : (m.settle result).2 = m := by
  cases result with
  | error _ => rfl
  | ok _ => cases refused

/-- What is refused changes nothing. -/
theorem access_snd_of_error {access : Access} {fault : Fault}
    (refused : (m.access access).1 = .error fault) : (m.access access).2 = m := by
  cases access with
  | read address | readWord address => rfl
  | write address value | copy start values => exact settle_snd_of_error refused
  | clear => cases refused

/-! ## Blocks -/

/-- A block leaves what its bytes leave that are written one by one. -/
theorem overlay_eq_writeEach (m : Memory) (start : Nat) (values : List UInt8) :
    m.overlay start values = (m.writeEach start values).1 := by
  refine ext_read fun address inside => ?_
  by_cases within : start ≤ address ∧ address < start + values.length
  · obtain ⟨k, rfl⟩ := Nat.exists_eq_add_of_le within.1
    have below : k < values.length := Nat.lt_of_add_lt_add_left within.2
    rw [read_overlay_of_lt below inside, read_writeEach_of_lt below inside]
  · rw [read_overlay_of_outside (by omega), read_writeEach_of_outside (by omega)]

theorem writeEach_of_copy_eq_ok {m' : Memory} (copied : m.copy start values = .ok m') :
    m.writeEach start values = (m', none) := by
  unfold copy at copied
  split at copied
  · next fits =>
    obtain rfl := Except.ok.inj copied
    refine Prod.ext (overlay_eq_writeEach m start values).symm ?_
    rw [writeEach_snd, if_pos (.inl fits)]
  · cases copied

theorem writeEach_of_copy_eq_error {fault : Fault} (refused : m.copy start values = .error fault)
    (some_bytes : values ≠ []) : (m.writeEach start values).2 = some fault := by
  unfold copy at refused
  split at refused
  · cases refused
  · next large =>
    obtain rfl := Except.error.inj refused
    exact writeEach_faults_iff.mpr ⟨some_bytes, Nat.not_le.mp large, rfl⟩

/-! ## Sums of addresses -/

theorem guarded_readWord_eq (m : Memory) (address : Nat) :
    Guarded.readWord m address = some (m.readWord address) := by
  unfold Guarded.readWord readWord
  rcases Nat.lt_or_ge address 4096 with inside | past
  · rw [read_of_lt inside]
    simp only [Guarded.sum_eq (show address + 1 < 0x10000000000000000 by omega),
      Option.bind_eq_bind, Option.bind_some]
    cases m.read (address + 1) <;> rfl
  · rw [read_of_le past]

/-- The end of a block counts only if it is in memory, so that one that does not fit is past it. -/
theorem guarded_stop_eq (start length : Nat) :
    (Guarded.sum start length).filter (· ≤ 4096) =
      if start + length ≤ 4096 then some (start + length) else none := by
  unfold Guarded.sum
  split
  · next room => simp [Option.filter]
  · next large =>
    rw [if_neg (by omega)]
    rfl

theorem guarded_copy_eq (m : Memory) (start : Nat) (values : List UInt8) :
    Guarded.copy m start values = m.copy start values := by
  rw [Guarded.copy, copy, guarded_stop_eq]
  by_cases fits : start + values.length ≤ 4096
  · simp only [if_pos fits]
  · simp only [if_neg fits]

theorem guarded_access_eq (m : Memory) (access : Access) :
    Guarded.access m access = some (m.access access) := by
  cases access with
  | readWord address =>
    simp only [Guarded.access, guarded_readWord_eq]
    rfl
  | copy start values =>
    simp only [Guarded.access, guarded_copy_eq]
    rfl
  | read address | write address value | clear => rfl

/-! ## Accesses -/

/-- After any accesses to a cleared memory, an access is answered from the bytes put last, and what
is refused changes nothing. A block that is copied leaves what its bytes leave that are written one
by one, and one that is not empty is refused with the address at which these stop. No address is
too large for its sums, whatever it is. -/
theorem accesses_follow_byte_map (accesses : List Access) :
    let m := zero.accessAll accesses
    (∀ access,
      (m.access access).1 = access.answer (lastPut accesses) ∧
      (∀ fault, (m.access access).1 = .error fault → (m.access access).2 = m) ∧
      Guarded.access m access = some (m.access access)) ∧
    ∀ start values,
      (∀ m', m.copy start values = .ok m' → m.writeEach start values = (m', none)) ∧
      ∀ fault, m.copy start values = .error fault → values ≠ [] →
        (m.writeEach start values).2 = some fault := by
  intro m
  constructor
  · intro access
    refine ⟨?_, fun fault => access_snd_of_error, guarded_access_eq m access⟩
    exact fst_access (fun address inside => read_accessAll_zero accesses inside) access
  · intro start values
    exact ⟨fun m' => writeEach_of_copy_eq_ok, fun fault => writeEach_of_copy_eq_error⟩

/-- Blocks that overlap, one that is refused, and the last byte of memory. -/
theorem accesses_follow_byte_map_overlapping :
    let m := zero.accessAll
      [.write 5 9, .copy 4 [1, 2, 3], .copy 6 [4, 4], .copy 4094 [7, 7, 7], .copy 4095 [8]]
    (m.access (.readWord 5)).1 = .ok (.word 0x0204) ∧
      (m.access (.readWord 4094)).1 = .ok (.word 0x0008) ∧
      (m.access (.readWord 4095)).1 = .error (.outOfBounds 4096) ∧
      (m.access (.copy 0xFFFFFFFFFFFFFFFF [1, 2])).1 = .error (.outOfBounds 0xFFFFFFFFFFFFFFFF) ∧
      (m.access (.copy 4095 [1, 2])).2 = m ∧
      (m.writeEach 4095 [1, 2]).2 = some (.outOfBounds 4096) := by
  intro m
  obtain ⟨each, blocks⟩ := accesses_follow_byte_map
    [.write 5 9, .copy 4 [1, 2, 3], .copy 6 [4, 4], .copy 4094 [7, 7, 7], .copy 4095 [8]]
  have refused : (m.access (.copy 4095 [1, 2])).1 = .error (.outOfBounds 4096) :=
    (each (.copy 4095 [1, 2])).1
  exact ⟨(each (.readWord 5)).1, (each (.readWord 4094)).1, (each (.readWord 4095)).1,
    (each (.copy 0xFFFFFFFFFFFFFFFF [1, 2])).1, (each (.copy 4095 [1, 2])).2.1 _ refused,
    (blocks 4095 [1, 2]).2 _ rfl (List.cons_ne_nil _ _)⟩

end Memory

end Chip8
