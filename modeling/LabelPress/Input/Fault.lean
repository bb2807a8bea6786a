import LabelPress.Charset.Codec

/-!
# Why input cannot be read

The causes for which reading commands from a source stops, with their wording.
-/

namespace LabelPress

/-- What a source failed to do for the cursor on it. -/
inductive StreamFault where
  /-- The length could not be found out, for the reason given. -/
  | unmeasurable (reason : String)
  | unlocatable
  | unreadable (position : Nat)
  /-- The bytes end before the reported size. -/
  | cutShort (position size : Nat)
  | immovable (distance : Int)
  | notRewindable
  /-- A file could not be opened. -/
  | unopened (path reason : String)
  deriving DecidableEq, Repr

def StreamFault.message : StreamFault → String
  | .unmeasurable reason => s!"Unable to get stream length: {reason}"
  | .unlocatable => "Unable to read current stream position. Ensure your stream is seekable"
  | .unreadable position => s!"Unable to read stream at position {position}"
  | .cutShort position size => s!"Unexpected end of stream at position {position} of {size}"
  | .immovable distance => s!"Unable to seek stream by {distance}"
  | .notRewindable => "Unable to rewind stream"
  | .unopened path reason => s!"Unable to read file '{path}': {reason}"

inductive InputFault where
  | stream (fault : StreamFault)
  /-- A move went beyond what any source can hold. -/
  | tooFar
  /-- A command was expected at the position, counted from one, and something else stands there. -/
  | stray (position : Nat)
  /-- The command at the position is no text in the encoding. -/
  | undecodable (position : Nat) (encoding reason : String)
  /-- The codec of the encoding failed by itself, and this is all that is known. -/
  | codec (message : String)
  deriving DecidableEq, Repr

def InputFault.message : InputFault → String
  | .stream fault => fault.message
  | .tooFar => "new position too large"
  | .stray position => s!"Unable to parse at stream position {position}"
  | .undecodable position encoding reason =>
    s!"Unable to decode command at stream position {position} as {encoding}: {reason}"
  | .codec message => message

/-- What a codec says of the command at a position, as a fault of the input. A failure of the codec
itself does not become one of the command. -/
def InputFault.ofCodec (position : Nat) (encoding : String) : CodecFault → InputFault
  | .refused reason => .undecodable position encoding reason
  | .failed message => .codec message

end LabelPress
