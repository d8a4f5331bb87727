import Mathlib.Init

namespace StarlingWg

-- A []byte of the source.
abbrev Bytes := List UInt8

end StarlingWg
