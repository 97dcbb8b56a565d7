/-! How deep values may nest. A value of too many levels can neither be read nor be written out,
and how many there may be depends on what the program runs on and on the calls under way at the
time, so nothing is assumed of these limits. -/

namespace ClusterBalance

/-- Limits on the nesting of values. -/
class Limits where
  /-- The levels that a value may have around its innermost part where it is written out. -/
  literalDepth : Nat
  /-- The levels of the JSON of settings. -/
  jsonDepth : Nat
  /-- The steps that values of TOML may take into each other, altogether. -/
  tomlSteps : Nat

/-- The limits that were measured where the program runs as a command. -/
@[reducible] def Limits.measured : Limits where
  literalDepth := 989
  jsonDepth := 989
  tomlSteps := 990

end ClusterBalance
