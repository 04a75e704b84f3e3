import Abacus.Binary64

/-!
# Real powers

The power of two doubles is taken from the platform's mathematical library, which rounds it
as it sees fit. Nothing in the rest of the library depends on how: whatever needs a real
power takes the function as a parameter, and this module gives the one that programs use.
-/

namespace Abacus

namespace Binary64

/-- The platform's power of two doubles. -/
def pow (x y : Binary64) : Binary64 :=
  ofBits (Float.pow (Float.ofBits x.toBits) (Float.ofBits y.toBits)).toBits

end Binary64

end Abacus
