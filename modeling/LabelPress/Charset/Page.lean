import LabelPress.Charset.Basic

/-!
# Single-byte character sets

The upper halves of the sets with one byte for each character, as differences from Latin-1, where
every byte is the code of its character.
-/

namespace LabelPress.Charset

/-- The bytes of a set that do not stand for the character of their own number. -/
abbrev Page := List (Nat × Option Nat)

/-- Windows-1252. Five bytes stand for nothing. -/
def windows1252Page : Page := [
  (0x80, some 0x20ac), (0x81, none), (0x82, some 0x201a), (0x83, some 0x192),
  (0x84, some 0x201e), (0x85, some 0x2026), (0x86, some 0x2020), (0x87, some 0x2021),
  (0x88, some 0x2c6), (0x89, some 0x2030), (0x8a, some 0x160), (0x8b, some 0x2039),
  (0x8c, some 0x152), (0x8d, none), (0x8e, some 0x17d), (0x8f, none), (0x90, none),
  (0x91, some 0x2018), (0x92, some 0x2019), (0x93, some 0x201c), (0x94, some 0x201d),
  (0x95, some 0x2022), (0x96, some 0x2013), (0x97, some 0x2014), (0x98, some 0x2dc),
  (0x99, some 0x2122), (0x9a, some 0x161), (0x9b, some 0x203a), (0x9c, some 0x153),
  (0x9d, none), (0x9e, some 0x17e), (0x9f, some 0x178)]

/-- ISO 8859-15, Latin-9. -/
def latin9Page : Page := [
  (0xa4, some 0x20ac), (0xa6, some 0x160), (0xa8, some 0x161), (0xb4, some 0x17d),
  (0xb8, some 0x17e), (0xbc, some 0x152), (0xbd, some 0x153), (0xbe, some 0x178)]

/-- Code page 437. -/
def codePage437Page : Page := [
  (0x80, some 0xc7), (0x81, some 0xfc), (0x82, some 0xe9), (0x83, some 0xe2), (0x84, some 0xe4),
  (0x85, some 0xe0), (0x86, some 0xe5), (0x87, some 0xe7), (0x88, some 0xea), (0x89, some 0xeb),
  (0x8a, some 0xe8), (0x8b, some 0xef), (0x8c, some 0xee), (0x8d, some 0xec), (0x8e, some 0xc4),
  (0x8f, some 0xc5), (0x90, some 0xc9), (0x91, some 0xe6), (0x92, some 0xc6), (0x93, some 0xf4),
  (0x94, some 0xf6), (0x95, some 0xf2), (0x96, some 0xfb), (0x97, some 0xf9), (0x98, some 0xff),
  (0x99, some 0xd6), (0x9a, some 0xdc), (0x9b, some 0xa2), (0x9c, some 0xa3), (0x9d, some 0xa5),
  (0x9e, some 0x20a7), (0x9f, some 0x192), (0xa0, some 0xe1), (0xa1, some 0xed),
  (0xa2, some 0xf3), (0xa3, some 0xfa), (0xa4, some 0xf1), (0xa5, some 0xd1), (0xa6, some 0xaa),
  (0xa7, some 0xba), (0xa8, some 0xbf), (0xa9, some 0x2310), (0xaa, some 0xac),
  (0xab, some 0xbd), (0xac, some 0xbc), (0xad, some 0xa1), (0xae, some 0xab), (0xaf, some 0xbb),
  (0xb0, some 0x2591), (0xb1, some 0x2592), (0xb2, some 0x2593), (0xb3, some 0x2502),
  (0xb4, some 0x2524), (0xb5, some 0x2561), (0xb6, some 0x2562), (0xb7, some 0x2556),
  (0xb8, some 0x2555), (0xb9, some 0x2563), (0xba, some 0x2551), (0xbb, some 0x2557),
  (0xbc, some 0x255d), (0xbd, some 0x255c), (0xbe, some 0x255b), (0xbf, some 0x2510),
  (0xc0, some 0x2514), (0xc1, some 0x2534), (0xc2, some 0x252c), (0xc3, some 0x251c),
  (0xc4, some 0x2500), (0xc5, some 0x253c), (0xc6, some 0x255e), (0xc7, some 0x255f),
  (0xc8, some 0x255a), (0xc9, some 0x2554), (0xca, some 0x2569), (0xcb, some 0x2566),
  (0xcc, some 0x2560), (0xcd, some 0x2550), (0xce, some 0x256c), (0xcf, some 0x2567),
  (0xd0, some 0x2568), (0xd1, some 0x2564), (0xd2, some 0x2565), (0xd3, some 0x2559),
  (0xd4, some 0x2558), (0xd5, some 0x2552), (0xd6, some 0x2553), (0xd7, some 0x256b),
  (0xd8, some 0x256a), (0xd9, some 0x2518), (0xda, some 0x250c), (0xdb, some 0x2588),
  (0xdc, some 0x2584), (0xdd, some 0x258c), (0xde, some 0x2590), (0xdf, some 0x2580),
  (0xe0, some 0x3b1), (0xe1, some 0xdf), (0xe2, some 0x393), (0xe3, some 0x3c0),
  (0xe4, some 0x3a3), (0xe5, some 0x3c3), (0xe6, some 0xb5), (0xe7, some 0x3c4),
  (0xe8, some 0x3a6), (0xe9, some 0x398), (0xea, some 0x3a9), (0xeb, some 0x3b4),
  (0xec, some 0x221e), (0xed, some 0x3c6), (0xee, some 0x3b5), (0xef, some 0x2229),
  (0xf0, some 0x2261), (0xf1, some 0xb1), (0xf2, some 0x2265), (0xf3, some 0x2264),
  (0xf4, some 0x2320), (0xf5, some 0x2321), (0xf6, some 0xf7), (0xf7, some 0x2248),
  (0xf8, some 0xb0), (0xf9, some 0x2219), (0xfa, some 0xb7), (0xfb, some 0x221a),
  (0xfc, some 0x207f), (0xfd, some 0xb2), (0xfe, some 0x25a0), (0xff, some 0xa0)]

def Page.code? (p : Page) (b : Nat) : Option Nat :=
  match p.find? (·.1 == b) with
  | some (_, code) => code
  | none => some b

/-- The byte of a character beyond ASCII. -/
def Page.byte? (p : Page) (code : Nat) : Option Nat :=
  ((List.range 128).find? fun i => p.code? (128 + i) == some code).map (128 + ·)

def Page.decode (p : Page) : List UInt8 → Except DecodeFault (List Char)
  | [] => .ok []
  | b :: bs =>
    match if b < 0x80 then some b.toNat else p.code? b.toNat with
    | some code => (Char.ofNat code :: ·) <$> p.decode bs
    | none => .error .undefinedByte

/-- The bytes of characters, if the set has all of them. -/
def Page.encode? (p : Page) (cs : List Char) : Option (List UInt8) :=
  cs.mapM fun c =>
    if c.toNat < 128 then some c.toNat.toUInt8 else (p.byte? c.toNat).map Nat.toUInt8

end LabelPress.Charset
