import LabelPress.Charset.Codec
import LabelPress.Charset.Name
import LabelPress.Charset.Punycode
import LabelPress.Text.Quoted

/-!
# Domain names

The codec of domain names, `idna`. A text is a row of labels between points, each of them written in
ASCII: as it is, or behind `xn--` in Punycode. Before a label is written its characters are brought
to a common form. That takes tables of characters, which are not part of this development: they are
the parameter `prepare`.

The codec keeps ASCII characters as their own bytes, so labels can be written in it. But most of what
it finds wrong it does not blame on the bytes: it fails by itself.
-/

namespace LabelPress.Charset.Idna

/-- Brings a label to its common form, or says why it has none. -/
abbrev Preparation := Text → Except String Text

variable (prepare : Preparation)

/-- `xn--` -/
def mark : List UInt8 := [0x78, 0x6e, 0x2d, 0x2d]

def point : UInt8 := 0x2e

/-- The bytes of a text, if it is ASCII. -/
def ascii? (t : Text) : Option (List UInt8) :=
  t.points.mapM fun p => if p.code < 0x80 then some p.code.toUInt8 else none

/-- ASCII bytes as a text. -/
def ofAscii (bytes : List UInt8) : Text :=
  .ofChars (bytes.map fun b => Char.ofNat b.toNat)

def lowered (b : UInt8) : UInt8 :=
  if 0x41 ≤ b && b ≤ 0x5a then b + 0x20 else b

/-- A label as it is written, if it is neither empty nor longer than 63 bytes. -/
def sized (label : List UInt8) : Except String (List UInt8) :=
  if 0 < label.length && label.length < 64 then .ok label else .error "label empty or too long"

/-- A label as it is written. -/
def written (label : Text) : Except String (List UInt8) :=
  match ascii? label with
  | some bytes => sized bytes
  | none => do
    let prepared ← prepare label
    match ascii? prepared with
    | some bytes => sized bytes
    | none =>
      if (ofAscii mark).points.isPrefixOf prepared.points then
        throw "Label starts with ACE prefix"
      else sized (mark ++ Punycode.encode (prepared.points.map (·.code)))

/-- The label that is written so. One in Punycode has to be what its text is written as. -/
def label (bytes : List UInt8) : Except CodecFault Text :=
  if bytes.any (0x80 ≤ ·) then .error (.refused DecodeFault.beyondAscii.reason)
  else if !mark.isPrefixOf bytes then .ok (ofAscii bytes)
  else
    match Punycode.decode (bytes.drop mark.length) with
    | .error message =>
      .error (.failed s!"decoding with 'punycode' codec failed (UnicodeError: {message})")
    | .ok codes =>
      let text : Text := ⟨codes.map .ofCode⟩
      match written prepare text with
      | .error message => .error (.failed message)
      | .ok again =>
        if again = bytes.map lowered then .ok text
        else
          let shown (bs : List UInt8) := "b" ++ (ofAscii bs).quote
          .error (.failed s!"('IDNA does not round-trip', {shown bytes}, {shown again})")

/-- A failure as the codec reports it. -/
def reported (doing : String) : CodecFault → CodecFault
  | .refused reason => .refused reason
  | .failed message => .failed s!"{doing} with 'idna' codec failed (UnicodeError: {message})"

def decode (bytes : List UInt8) : Except CodecFault Text :=
  match (bytes.splitOn point).mapM (label prepare) with
  | .ok labels => .ok (Text.intercalate "." labels)
  | .error fault => .error (reported "decoding" fault)

/-- Whether a character stands between labels: the point, or one of three that look like it. -/
def isPoint (c : Char) : Bool :=
  c == '.' || c == '\u3002' || c == '\uff0e' || c == '\uff61'

/-- Labels as they are written, with points between them. The last may be empty. -/
def writtenAll : List (List Char) → Except String (List UInt8)
  | [] | [[]] => .ok []
  | [cs] => written prepare (.ofChars cs)
  | cs :: rest => do
    let first ← written prepare (.ofChars cs)
    return first ++ point :: (← writtenAll rest)

/-- The bytes of an ASCII text, if its labels have a length that is allowed. -/
def checked (bytes : List UInt8) : Except String (List UInt8) :=
  let labels := bytes.splitOn point
  if labels.dropLast.any fun l => l.isEmpty || 64 ≤ l.length then .error "label empty or too long"
  else if 64 ≤ (labels.getLastD []).length then .error "label too long"
  else .ok bytes

def encode (cs : List Char) : Except CodecFault (List UInt8) :=
  let bytes :=
    match ascii? (.ofChars cs) with
    | some bytes => checked bytes
    | none => writtenAll prepare (cs.splitOnP isPoint)
  bytes.mapError fun message => reported "encoding" (.failed message)

/-! ### The laws of codecs -/

theorem decode_nil : decode prepare [] = .ok .empty := rfl

/-- A label that begins with a mark is not in Punycode, and is no empty text. -/
theorem label_mark {prepare : Preparation} {b : UInt8} {bs : List UInt8} {t : Text}
    (hb : b = 0x5e ∨ b = 0x7e) (h : label prepare (b :: bs) = .ok t) : t.points ≠ [] := by
  have hplain : mark.isPrefixOf (b :: bs) = false := by
    rcases hb with rfl | rfl <;> rfl
  unfold label at h
  rw [hplain] at h
  split at h
  · cases h
  · cases h
    exact List.cons_ne_nil _ _

/-- Texts one after another are not empty if the first is not. -/
theorem intercalate_ne_empty {t : Text} (ht : t.points ≠ []) (separator : Text) (ts : List Text) :
    Text.intercalate separator (t :: ts) ≠ .empty := by
  intro h
  have hpoints := congrArg Text.points h
  simp only [Text.intercalate, List.map_cons, Text.empty] at hpoints
  cases ts with
  | nil => exact ht (by simpa [List.intercalate] using hpoints)
  | cons u us =>
    rw [List.map_cons, List.intercalate_cons_cons, List.append_assoc] at hpoints
    exact ht (List.append_eq_nil_iff.1 hpoints).1

theorem decode_mark {prepare : Preparation} {b : UInt8} {bs : List UInt8} {t : Text}
    (hb : b = 0x5e ∨ b = 0x7e) (h : decode prepare (b :: bs) = .ok t) : t ≠ .empty := by
  -- the mark stands in the first label
  obtain ⟨l, ls, hlabels⟩ : ∃ l ls, (b :: bs).splitOn point = (b :: l) :: ls := by
    have hpoint : (b == point) = false := by
      rcases hb with rfl | rfl <;> rfl
    obtain ⟨l, ls, hrest⟩ :=
      List.exists_cons_of_ne_nil (List.splitOnP_ne_nil (· == point) bs)
    refine ⟨l, ls, ?_⟩
    rw [List.splitOn, List.splitOnP_cons_eq_if_modifyHead, hpoint, hrest]
    rfl
  unfold decode at h
  rw [hlabels, List.mapM_cons] at h
  cases hfirst : label prepare (b :: l) with
  | error fault =>
    rw [hfirst] at h
    cases h
  | ok first =>
    cases hothers : ls.mapM (label prepare) with
    | error fault =>
      rw [hfirst, hothers] at h
      cases h
    | ok others =>
      rw [hfirst, hothers] at h
      cases h
      exact intercalate_ne_empty (label_mark hb hfirst) _ _

/-- Takes every label as it is, except that the halves of pairs are in none. -/
def unprepared : Preparation := fun t =>
  match t.points.find? (·.char?.isNone) with
  | some p => .error s!"Invalid character {(Text.singleton p).quote}"
  | none => .ok t

end LabelPress.Charset.Idna

namespace LabelPress

/-- The codec of domain names. -/
def Charset.idna (prepare : Charset.Idna.Preparation) : Codec where
  decode := Charset.Idna.decode prepare
  encode := Charset.Idna.encode prepare
  decode_nil := Charset.Idna.decode_nil prepare
  decode_mark := Charset.Idna.decode_mark

/-- The library that the program comes with. It has the codec of domain names, for labels that are
in their common form already, and no other. -/
def Codec.Library.standard : Codec.Library := fun name =>
  if Charset.normalName name = "idna" then some (Charset.idna Charset.Idna.unprepared) else none

end LabelPress
