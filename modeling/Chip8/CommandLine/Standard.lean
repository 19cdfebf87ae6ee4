import Chip8.CommandLine.Run
import Chip8.Random.ChaCha
import Chip8.Yaml.Format

/-!
# The standard host

Documents as configuration files, and the streams of `ChaCha` for seeds.
-/

namespace Chip8.CommandLine

/-- The standard host, with this stream for runs without a seed. -/
def Host.standard (unseeded : RandomStream) : Host Yaml.Tree where
  format := Yaml.format
  seeded := .seeded
  unseeded

end Chip8.CommandLine
