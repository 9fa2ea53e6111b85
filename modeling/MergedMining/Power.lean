/-!
# Powers

A power of two natural numbers is always the power that core defines, also in a module that knows
more general ones: so the limits of this library's formats mean the same everywhere.
-/

namespace MergedMining

/-- Powers of natural numbers are those of core, also where the exponent is a numeral. -/
@[default_instance 20000]
scoped instance (priority := 2000) natPower : Pow Nat Nat := instPowNat

end MergedMining
