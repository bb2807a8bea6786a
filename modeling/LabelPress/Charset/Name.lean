import LabelPress.Charset.Basic

/-!
# Names of character sets

A character set is asked for by name. Case does not matter, and neither does which punctuation
stands between the parts of a name. Some names are known and still of no use: the sets that do not
keep ASCII bytes, and the transformations that are not sets of characters at all. A name that is not
listed here may still be that of a codec in a library.
-/

namespace LabelPress.Charset

/-- What a name stands for. -/
inductive Named where
  | set (c : Charset)
  /-- A character set in which an ASCII character is not always its own byte. -/
  | incompatible
  /-- A transformation of bytes, not a character set. -/
  | transformation
  deriving DecidableEq, Repr

/-- What one name stands for, and others with it. -/
structure Listing where
  name : String
  aliases : List String
  meaning : Named

/-- The character sets of `Charset`, and names that lead to no codec of use, all in their normal form.
Further codecs are left to the library. -/
def listings : List Listing := [
  ⟨"utf_8", ["u8", "utf", "utf8", "utf8_ucs2", "utf8_ucs4", "cp65001"], .set .utf8⟩,
  ⟨"latin_1", ["8859", "cp819", "csisolatin1", "ibm819", "iso8859", "iso8859_1", "iso_8859_1",
    "iso_8859_1_1987", "iso_ir_100", "l1", "latin", "latin1"], .set .latin1⟩,
  ⟨"ascii", ["646", "ansi_x3.4_1968", "ansi_x3_4_1968", "ansi_x3.4_1986", "cp367", "csascii",
    "ibm367", "iso646_us", "iso_646.irv_1991", "iso_ir_6", "us", "us_ascii"], .set .ascii⟩,
  ⟨"cp1252", ["1252", "windows_1252"], .set .windows1252⟩,
  ⟨"iso8859_15", ["iso_8859_15", "l9", "latin9"], .set .latin9⟩,
  ⟨"cp437", ["437", "cspc8codepage437", "ibm437"], .set .codePage437⟩,
  ⟨"raw_unicode_escape", [], .set .escapedUnicode⟩,
  ⟨"utf_16", ["u16", "utf16"], .incompatible⟩,
  ⟨"utf_16_le", ["unicodelittleunmarked", "utf_16le"], .incompatible⟩,
  ⟨"utf_16_be", ["unicodebigunmarked", "utf_16be"], .incompatible⟩,
  ⟨"utf_32", ["u32", "utf32"], .incompatible⟩,
  ⟨"utf_32_le", ["utf_32le"], .incompatible⟩,
  ⟨"utf_32_be", ["utf_32be"], .incompatible⟩,
  ⟨"utf_7", ["u7", "utf7", "unicode_1_1_utf_7"], .incompatible⟩,
  ⟨"utf_8_sig", [], .incompatible⟩,
  ⟨"unicode_escape", [], .incompatible⟩,
  ⟨"punycode", [], .incompatible⟩,
  ⟨"hz", ["hzgb", "hz_gb", "hz_gb_2312"], .incompatible⟩,
  ⟨"cp037", ["037", "csibm037", "ebcdic_cp_ca", "ebcdic_cp_nl", "ebcdic_cp_us", "ebcdic_cp_wt",
    "ibm037", "ibm039"], .incompatible⟩,
  ⟨"cp273", ["273", "ibm273", "csibm273"], .incompatible⟩,
  ⟨"cp424", ["424", "csibm424", "ebcdic_cp_he", "ibm424"], .incompatible⟩,
  ⟨"cp500", ["500", "csibm500", "ebcdic_cp_be", "ebcdic_cp_ch", "ibm500"], .incompatible⟩,
  ⟨"cp875", [], .incompatible⟩,
  ⟨"cp1026", ["1026", "csibm1026", "ibm1026"], .incompatible⟩,
  ⟨"cp1140", ["1140", "ibm1140"], .incompatible⟩,
  ⟨"rot_13", ["rot13"], .transformation⟩,
  ⟨"hex_codec", ["hex"], .transformation⟩,
  ⟨"base64_codec", ["base64", "base_64"], .transformation⟩,
  ⟨"bz2_codec", ["bz2"], .transformation⟩,
  ⟨"zlib_codec", ["zip", "zlib"], .transformation⟩,
  ⟨"uu_codec", ["uu"], .transformation⟩,
  ⟨"quopri_codec", ["quopri", "quoted_printable", "quotedprintable"], .transformation⟩]

/-- A letter, a digit or the point: what the parts of a name are made of. -/
def isNameChar (c : Char) : Bool :=
  c.isAlphanum || c == '.'

/--
The normal form of a name: its parts in lower case with one underscore between two of them.
`pending` says that a separator was passed since the last part.
-/
def normalChars : Bool → Bool → List Char → List Char
  | _, _, [] => []
  | started, pending, c :: cs =>
    if isNameChar c then
      if started && pending then '_' :: c.toLower :: normalChars true false cs
      else c.toLower :: normalChars true false cs
    else normalChars started true cs

def normalName (s : String) : String :=
  String.ofList (normalChars false false s.toList)

/-- What an alias in its normal form stands for. -/
def ofAlias? (name : String) : Option Named :=
  (listings.find? (·.aliases.contains name)).map (·.meaning)

/-- What a name stands for, if it is known. A point may stand for an underscore in an alias. -/
def ofName? (s : String) : Option Named :=
  let name := normalName s
  let underscored := String.ofList (name.toList.map fun c => if c = '.' then '_' else c)
  ((ofAlias? name).or (ofAlias? underscored)).or
    ((listings.find? (·.name == name)).map (·.meaning))

end LabelPress.Charset
