/-!
# Random bytes

A stream of bytes and how many of them were taken. The machine takes one for each random
instruction; nothing but taking moves the stream on.
-/

namespace Chip8

/-- An endless stream of bytes, read up to `position`. -/
structure RandomStream where
  byteAt : Nat → UInt8
  position : Nat := 0

namespace RandomStream

/-- Takes the next byte. -/
def next (s : RandomStream) : UInt8 × RandomStream :=
  (s.byteAt s.position, { s with position := s.position + 1 })

/-- The same byte for ever. -/
def constant (value : UInt8) : RandomStream := { byteAt := fun _ => value }

/-- A sequence of bytes over and over; the empty sequence stands for zeros. -/
def cycle (values : List UInt8) : RandomStream :=
  let ring := values.toArray
  { byteAt := fun k => ring.getD (k % ring.size) 0 }

/-- The next `count` bytes. -/
def take (s : RandomStream) (count : Nat) : List UInt8 :=
  (List.range count).map fun k => s.byteAt (s.position + k)

end RandomStream

end Chip8
