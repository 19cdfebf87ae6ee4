import Chip8.Fault
import Chip8.Hex

/-!
# Keypad

The sixteen keys 0 to F and the set of those that are down, kept as a mask with one bit a key.
-/

namespace Chip8

/-- A key of the hexadecimal keypad. -/
abbrev Key := Fin 16

namespace Key

/-- The key of a number; numbers above F name none. -/
def ofIndex (index : UInt8) : Except Fault Key :=
  if h : index.toNat < 16 then .ok ⟨index.toNat, h⟩ else .error (.badKeyIndex index)

/-- The key's number as a byte. -/
def toByte (key : Key) : UInt8 := UInt8.ofNat key.val

/-- The short name, such as `ka`. -/
def text (key : Key) : String := String.ofList ['k', Hex.lowerDigit key.val]

/-- The long name, such as `KeyA`. -/
def name (key : Key) : String := "Key" ++ String.ofList [Hex.digit key.val]

end Key

/-- The keys that are down: bit `k` of the mask for key `k`. -/
structure Keypad where
  bits : BitVec 16
  deriving DecidableEq

namespace Keypad

/-- No key down. -/
def released : Keypad := ⟨0⟩

/-- Puts a key down or up. -/
def set (p : Keypad) (key : Key) (pressed : Bool) : Keypad :=
  let mask := BitVec.twoPow 16 key.val
  ⟨if pressed then p.bits ||| mask else p.bits &&& ~~~mask⟩

/-- Whether a key is down. -/
def isDown (p : Keypad) (key : Key) : Bool := p.bits.getLsbD key.val

/-- `set` for the key of a number. -/
def press (p : Keypad) (index : UInt8) (pressed : Bool) : Except Fault Keypad :=
  (Key.ofIndex index).map (p.set · pressed)

/-- `isDown` for the key of a number. -/
def isPressed (p : Keypad) (index : UInt8) : Except Fault Bool :=
  (Key.ofIndex index).map p.isDown

/-- The least key that is down. -/
def lowest? (p : Keypad) : Option Key := (List.finRange 16).find? p.isDown

/-- Setting a key decides that key and no other. -/
theorem isDown_set (p : Keypad) (key other : Key) (pressed : Bool) :
    (p.set key pressed).isDown other = if other = key then pressed else p.isDown other := by
  by_cases h : other = key
  · subst h
    cases pressed <;> simp [set, isDown]
  · have hne : key.val ≠ other.val := fun e => h (Fin.ext e.symm)
    cases pressed
    · simpa [set, isDown, h] using fun _ => Ne.symm hne
    · simpa [set, isDown, h] using fun e => absurd e.symm hne

example : ((released.set 0xC true).set 3 true).lowest? = some 3 := by decide
example : (released.press 16 true) = .error (.badKeyIndex 16) := rfl

end Keypad

end Chip8
