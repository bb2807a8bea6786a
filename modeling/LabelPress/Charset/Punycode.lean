/-!
# Punycode

Codes of characters as ASCII bytes: first the ASCII characters as they are, then, behind a hyphen,
one number for each of the others. A number says how many places in the growing row of codes are
passed before the next character is put in. Its digits count from the lowest, to the base 36, and
end with the first that is below its threshold. The thresholds follow the size of the numbers
before.
-/

namespace LabelPress.Charset.Punycode

/-- The digit at place `j` is the last of its number if it is below this. -/
def threshold (bias j : Nat) : Nat :=
  min 26 (max 1 (36 * (j + 1) - bias))

/-- A step divided down to at most 455, and 36 for each division. -/
def divided (step divisions : Nat) : Nat × Nat :=
  if 455 < step then divided (step / 35) (divisions + 36) else (step, divisions)
termination_by step
decreasing_by exact Nat.div_lt_self (by omega) (by decide)

/-- The bias after a number that passed `step` places, in a row of `count` codes. -/
def adapted (step : Nat) (first : Bool) (count : Nat) : Nat :=
  let step := if first then step / 700 else step / 2
  let (step, divisions) := divided (step + step / count) 0
  divisions + 36 * step / (step + 38)

/-! ### Reading -/

/-- The value of a digit: letters of either case, and then the digits. -/
def digit? (b : UInt8) : Option Nat :=
  if 0x61 ≤ b && b ≤ 0x7a then some (b.toNat - 0x61)
  else if 0x41 ≤ b && b ≤ 0x5a then some (b.toNat - 0x41)
  else if 0x30 ≤ b && b ≤ 0x39 then some (b.toNat - 0x30 + 26)
  else none

/-- The number in front of bytes, whose next digit is at place `j` and has weight `w`, and the bytes
behind it. -/
def number (bias j w : Nat) : List UInt8 → Except String (Nat × List UInt8)
  | [] => .error "incomplete punicode string"
  | b :: bs =>
    match digit? b with
    | none => .error s!"Invalid extended code point '{Char.ofNat b.toNat}'"
    | some d =>
      if d < threshold bias j then .ok (d * w, bs)
      else (fun (n, rest) => (d * w + n, rest)) <$>
        number bias (j + 1) (w * (36 - threshold bias j)) bs

theorem length_of_number {bias j w n : Nat} {bs rest : List UInt8}
    (h : number bias j w bs = .ok (n, rest)) : rest.length < bs.length := by
  induction bs generalizing j w n with
  | nil => cases h
  | cons b bs ih =>
    unfold number at h
    split at h
    · cases h
    · split at h
      · cases h
        exact Nat.lt_succ_self _
      · cases hnext : number bias (j + 1) _ bs with
        | error _ =>
          rw [hnext] at h
          cases h
        | ok r =>
          rw [hnext] at h
          cases h
          exact Nat.lt_succ_of_lt (ih hnext)

/-- Codes with more put in among them, as numbers say. The next is put in from `place` on, and its
code is at least `code`. -/
def putIn (codes : List Nat) (code place bias : Nat) (first : Bool) (bytes : List UInt8) :
    Except String (List Nat) :=
  if bytes = [] then .ok codes
  else
    match _h : number bias 0 1 bytes with
    | .error message => .error message
    | .ok (step, rest) =>
      let count := codes.length + 1
      let code := code + (place + step) / count
      let place := (place + step) % count
      if 0x10ffff < code then .error s!"Invalid character U+{String.ofList (Nat.toDigits 16 code)}"
      else putIn (codes.take place ++ code :: codes.drop place) code (place + 1)
        (adapted step first count) false rest
termination_by bytes.length
decreasing_by exact length_of_number _h

/-- The codes that ASCII bytes stand for. -/
def decode (bytes : List UInt8) : Except String (List Nat) :=
  let tail := (bytes.reverse.takeWhile (· ≠ 0x2d)).reverse
  let front := (bytes.take (bytes.length - tail.length)).dropLast
  putIn (front.map (·.toNat)) 0x80 0 72 true tail

/-! ### Writing -/

def digitByte (d : Nat) : UInt8 :=
  (if d < 26 then 0x61 + d else 0x30 + (d - 26)).toUInt8

theorem threshold_pos (bias j : Nat) : 1 ≤ threshold bias j := by
  unfold threshold
  omega

/-- The digits of a number from place `j` on. -/
def digits (bias j n : Nat) : List UInt8 :=
  let t := threshold bias j
  if n < t then [digitByte n]
  else digitByte (t + (n - t) % (36 - t)) :: digits bias (j + 1) ((n - t) / (36 - t))
termination_by n
decreasing_by
  have := threshold_pos bias j
  have := Nat.div_le_self (n - threshold bias j) (36 - threshold bias j)
  omega

/-- What has been written, and what the next number depends on. -/
structure Writing where
  written : List UInt8 := []
  bias : Nat := 72
  /-- How many codes the row has so far. -/
  count : Nat
  first : Bool := true
  /-- How many places have been passed since the last number. -/
  step : Nat := 0

/-- Passes a code when characters of the code `next` are put in. -/
def Writing.pass (next : Nat) (w : Writing) (code : Nat) : Writing :=
  if code < next then { w with step := w.step + 1 }
  else if code = next then
    { written := w.written ++ digits w.bias 0 w.step
      bias := adapted w.step w.first (w.count + 1)
      count := w.count + 1
      first := false }
  else w

/-- Writes all characters of the codes in a list, the lowest first. All codes below `code` are
written. -/
def Writing.writeAll (codes : List Nat) : List Nat → Nat → Writing → Writing
  | [], _, w => w
  | next :: rest, code, w =>
    let passed := { w with step := w.step + (next - code) * (w.count + 1) }
    let w := codes.foldl (Writing.pass next) passed
    writeAll codes rest (next + 1) { w with step := w.step + 1 }

def encode (codes : List Nat) : List UInt8 :=
  let front := (codes.filter (· < 0x80)).map Nat.toUInt8
  let others := (codes.filter (0x80 ≤ ·)).eraseDups.mergeSort
  let w := Writing.writeAll codes others 0x80 { count := front.length }
  front ++ (if front = [] then [] else [0x2d]) ++ w.written

end LabelPress.Charset.Punycode
