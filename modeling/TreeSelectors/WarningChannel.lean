import TreeSelectors.Notice

namespace TreeSelectors

/-!
# The warning channel

Warnings are reported once. A channel remembers the lines it has reported, a
line being the component in brackets and the message, until it is cleared;
while it is switched off it reports and remembers nothing.
-/

/-- A switch, and the lines reported since the channel was cleared. -/
structure WarningChannel where
  enabled : Bool
  reported : List String
deriving Repr, DecidableEq

namespace WarningChannel

/-- A channel that is switched on or off and has reported nothing. -/
def start (enabled : Bool) : WarningChannel :=
  ⟨enabled, []⟩

/-- The line under which a warning is remembered. -/
def line (component message : String) : String :=
  "[" ++ component ++ "] " ++ message

/-- Reports a warning unless it was reported before, and says whether it did. -/
def warn (channel : WarningChannel) (component message : String) : Bool × WarningChannel :=
  if channel.enabled && !channel.reported.contains (line component message) then
    (true, { channel with reported := line component message :: channel.reported })
  else
    (false, channel)

/-- Forgets what has been reported. -/
def clear (channel : WarningChannel) : WarningChannel :=
  { channel with reported := [] }

/-- Switches the channel on or off. -/
def setEnabled (channel : WarningChannel) (enabled : Bool) : WarningChannel :=
  { channel with enabled := enabled }

/-- Reports notices in order, and gives those that were reported. -/
def raise (channel : WarningChannel) : List Notice → List Notice × WarningChannel
  | [] =>
      ([], channel)
  | notice :: rest =>
      let (isNew, after) := channel.warn notice.component notice.message
      let (others, final) := after.raise rest
      (if isNew then notice :: others else others, final)

end WarningChannel

end TreeSelectors
