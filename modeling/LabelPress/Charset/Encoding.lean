import LabelPress.Charset.Codec
import LabelPress.Charset.Name
import LabelPress.Text.Quoted

/-!
# Encodings asked for by name

An encoding is a codec together with the name by which it was asked for, which messages repeat as it
was given. The codec is that of a character set or one of a library, and it has to keep ASCII
characters as their own bytes, which is tried on a sample.
-/

namespace LabelPress

/-- Why a name does not lead to an encoding. -/
inductive EncodingFault where
  | unknown
  /-- ASCII characters are not always their own bytes, so no command could be found. -/
  | incompatible
  | transformation
  /-- The codec does not even translate the sample. -/
  | untried (words : String)
  /-- The name holds the character NUL, which no name does. -/
  | nul
  /-- The name holds halves of pairs of 16-bit units, which have no bytes. -/
  | unwritable
  deriving DecidableEq, Repr

/-- Where the first halves of a name stand, in words. -/
def EncodingFault.halvesOf (name : Text) : String :=
  let start := (name.points.takeWhile (·.char?.isSome)).length
  match (name.drop start).points.takeWhile (·.char?.isNone) with
  | [p] => s!"character {(Text.singleton p).quote} in position {start}"
  | ps => s!"characters in position {start}-{start + ps.length - 1}"

/-- The reason in words, about an encoding of that name. -/
def EncodingFault.reason (name : Text) : EncodingFault → String
  | .unknown => s!"unknown encoding: {name}"
  | .incompatible => "not ASCII compatible"
  | .transformation =>
    s!"'{name}' is not a text encoding; use codecs.encode() to handle arbitrary codecs"
  | .untried words => words
  | .nul => "embedded null character"
  | .unwritable => s!"'utf-8' codec can't encode {halvesOf name}: surrogates not allowed"

structure Encoding where
  name : String
  codec : Codec

namespace Encoding

/-- The encoding that is used where none is asked for. -/
def standard : Encoding := ⟨"utf-8", Charset.utf8.codec⟩

/-- The characters on which codecs are tried: the marks, white space, and some of the others that
commands are made of. -/
def sample : List Char := "^~,\t\n\r AZaz09".toList

/-- A codec, if it keeps the sample as it is. -/
def tried (codec : Codec) : Except EncodingFault Codec :=
  match codec.encode sample with
  | .error fault => .error (.untried fault.words)
  | .ok bytes => if bytes = Charset.asciiBytes sample then .ok codec else .error .incompatible

/-- The codec of a name. The library is asked for names that no character set has. -/
def codecOf (library : Codec.Library) (name : String) : Except EncodingFault Codec :=
  match Charset.ofName? name with
  | some (.set c) => tried c.codec
  | some .incompatible => .error .incompatible
  | some .transformation => .error .transformation
  | none =>
    match library name with
    | some codec => tried codec
    | none => .error .unknown

def ofName (library : Codec.Library) (name : Text) : Except EncodingFault Encoding :=
  match name.string? with
  | none => .error .unwritable
  | some s =>
    if name.contains '\x00' then .error .nul
    else (⟨s, ·⟩) <$> codecOf library s

def decode (e : Encoding) (bytes : List UInt8) : Except CodecFault Text :=
  e.codec.decode bytes

def encode (e : Encoding) (text : String) : Except CodecFault (List UInt8) :=
  e.codec.encode text.toList

/-! ### Encodings by character sets -/

theorem tried_codec (set : Charset) : tried set.codec = .ok set.codec := by
  have hsample : set.encode? sample = some (Charset.asciiBytes sample) := by
    cases set <;> decide
  simp only [tried, Charset.codec, hsample, if_true]

/-- A name of a character set is that of an encoding, with any library. -/
theorem ofName_of_set {name : String} {set : Charset} (hnul : Text.contains name '\x00' = false)
    (hset : Charset.ofName? name = some (.set set)) (library : Codec.Library) :
    ofName library name = .ok ⟨name, set.codec⟩ := by
  have hstring : Text.string? name = some name := by
    simp [Text.string?, Text.ofString, Text.chars?_ofChars]
  simp only [ofName, hstring, hnul, codecOf, hset, tried_codec]
  rfl

theorem ofName_standard (library : Codec.Library) : ofName library "utf-8" = .ok standard :=
  ofName_of_set (by decide) (by decide) library

end Encoding

end LabelPress
