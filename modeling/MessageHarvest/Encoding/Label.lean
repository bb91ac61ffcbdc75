import MessageHarvest.Encoding.Basic
import MessageHarvest.Encoding.Table
import MessageHarvest.Text.Blank

/-! # Labels of encodings

    The encodings of the web and their labels. Labels are compared without
    regard to case and to blanks around them. -/

namespace MessageHarvest.Encoding

/-- UTF-8. -/
def utf8 : Encoding where
  name := "UTF-8"
  form := .utf8
  labels := ["unicode-1-1-utf-8", "unicode11utf8", "unicode20utf8", "utf-8", "utf8",
    "x-unicode20utf8"]

/-- IBM866. -/
def ibm866 : Encoding where
  name := "IBM866"
  form := .singleByte Table.ibm866
  labels := ["866", "cp866", "csibm866", "ibm866"]

/-- ISO-8859-2. -/
def iso88592 : Encoding where
  name := "ISO-8859-2"
  form := .singleByte Table.iso88592
  labels := ["csisolatin2", "iso-8859-2", "iso-ir-101", "iso8859-2", "iso88592", "iso_8859-2",
    "iso_8859-2:1987", "l2", "latin2"]

/-- ISO-8859-3. -/
def iso88593 : Encoding where
  name := "ISO-8859-3"
  form := .singleByte Table.iso88593
  labels := ["csisolatin3", "iso-8859-3", "iso-ir-109", "iso8859-3", "iso88593", "iso_8859-3",
    "iso_8859-3:1988", "l3", "latin3"]

/-- ISO-8859-4. -/
def iso88594 : Encoding where
  name := "ISO-8859-4"
  form := .singleByte Table.iso88594
  labels := ["csisolatin4", "iso-8859-4", "iso-ir-110", "iso8859-4", "iso88594", "iso_8859-4",
    "iso_8859-4:1988", "l4", "latin4"]

/-- ISO-8859-5. -/
def iso88595 : Encoding where
  name := "ISO-8859-5"
  form := .singleByte Table.iso88595
  labels := ["csisolatincyrillic", "cyrillic", "iso-8859-5", "iso-ir-144", "iso8859-5",
    "iso88595", "iso_8859-5", "iso_8859-5:1988"]

/-- ISO-8859-6. -/
def iso88596 : Encoding where
  name := "ISO-8859-6"
  form := .singleByte Table.iso88596
  labels := ["arabic", "asmo-708", "csiso88596e", "csiso88596i", "csisolatinarabic", "ecma-114",
    "iso-8859-6", "iso-8859-6-e", "iso-8859-6-i", "iso-ir-127", "iso8859-6", "iso88596",
    "iso_8859-6", "iso_8859-6:1987"]

/-- ISO-8859-7. -/
def iso88597 : Encoding where
  name := "ISO-8859-7"
  form := .singleByte Table.iso88597
  labels := ["csisolatingreek", "ecma-118", "elot_928", "greek", "greek8", "iso-8859-7",
    "iso-ir-126", "iso8859-7", "iso88597", "iso_8859-7", "iso_8859-7:1987", "sun_eu_greek"]

/-- ISO-8859-8. -/
def iso88598 : Encoding where
  name := "ISO-8859-8"
  form := .singleByte Table.iso88598
  labels := ["csiso88598e", "csisolatinhebrew", "hebrew", "iso-8859-8", "iso-8859-8-e",
    "iso-ir-138", "iso8859-8", "iso88598", "iso_8859-8", "iso_8859-8:1988", "visual"]

/-- ISO-8859-8-I. -/
def iso88598I : Encoding where
  name := "ISO-8859-8-I"
  form := .singleByte Table.iso88598
  labels := ["csiso88598i", "iso-8859-8-i", "logical"]

/-- ISO-8859-10. -/
def iso885910 : Encoding where
  name := "ISO-8859-10"
  form := .singleByte Table.iso885910
  labels := ["csisolatin6", "iso-8859-10", "iso-ir-157", "iso8859-10", "iso885910", "l6",
    "latin6"]

/-- ISO-8859-13. -/
def iso885913 : Encoding where
  name := "ISO-8859-13"
  form := .singleByte Table.iso885913
  labels := ["iso-8859-13", "iso8859-13", "iso885913"]

/-- ISO-8859-14. -/
def iso885914 : Encoding where
  name := "ISO-8859-14"
  form := .singleByte Table.iso885914
  labels := ["iso-8859-14", "iso8859-14", "iso885914"]

/-- ISO-8859-15. -/
def iso885915 : Encoding where
  name := "ISO-8859-15"
  form := .singleByte Table.iso885915
  labels := ["csisolatin9", "iso-8859-15", "iso8859-15", "iso885915", "iso_8859-15", "l9"]

/-- ISO-8859-16. -/
def iso885916 : Encoding where
  name := "ISO-8859-16"
  form := .singleByte Table.iso885916
  labels := ["iso-8859-16"]

/-- KOI8-R. -/
def koi8R : Encoding where
  name := "KOI8-R"
  form := .singleByte Table.koi8R
  labels := ["cskoi8r", "koi", "koi8", "koi8-r", "koi8_r"]

/-- KOI8-U. -/
def koi8U : Encoding where
  name := "KOI8-U"
  form := .singleByte Table.koi8U
  labels := ["koi8-ru", "koi8-u"]

/-- macintosh. -/
def macintosh : Encoding where
  name := "macintosh"
  form := .singleByte Table.macintosh
  labels := ["csmacintosh", "mac", "macintosh", "x-mac-roman"]

/-- windows-874. -/
def windows874 : Encoding where
  name := "windows-874"
  form := .singleByte Table.windows874
  labels := ["dos-874", "iso-8859-11", "iso8859-11", "iso885911", "tis-620", "windows-874"]

/-- windows-1250. -/
def windows1250 : Encoding where
  name := "windows-1250"
  form := .singleByte Table.windows1250
  labels := ["cp1250", "windows-1250", "x-cp1250"]

/-- windows-1251. -/
def windows1251 : Encoding where
  name := "windows-1251"
  form := .singleByte Table.windows1251
  labels := ["cp1251", "windows-1251", "x-cp1251"]

/-- windows-1252. -/
def windows1252 : Encoding where
  name := "windows-1252"
  form := .singleByte Table.windows1252
  labels := ["ansi_x3.4-1968", "ascii", "cp1252", "cp819", "csisolatin1", "ibm819",
    "iso-8859-1", "iso-ir-100", "iso8859-1", "iso88591", "iso_8859-1", "iso_8859-1:1987", "l1",
    "latin1", "us-ascii", "windows-1252", "x-cp1252"]

/-- windows-1253. -/
def windows1253 : Encoding where
  name := "windows-1253"
  form := .singleByte Table.windows1253
  labels := ["cp1253", "windows-1253", "x-cp1253"]

/-- windows-1254. -/
def windows1254 : Encoding where
  name := "windows-1254"
  form := .singleByte Table.windows1254
  labels := ["cp1254", "csisolatin5", "iso-8859-9", "iso-ir-148", "iso8859-9", "iso88599",
    "iso_8859-9", "iso_8859-9:1989", "l5", "latin5", "windows-1254", "x-cp1254"]

/-- windows-1255. -/
def windows1255 : Encoding where
  name := "windows-1255"
  form := .singleByte Table.windows1255
  labels := ["cp1255", "windows-1255", "x-cp1255"]

/-- windows-1256. -/
def windows1256 : Encoding where
  name := "windows-1256"
  form := .singleByte Table.windows1256
  labels := ["cp1256", "windows-1256", "x-cp1256"]

/-- windows-1257. -/
def windows1257 : Encoding where
  name := "windows-1257"
  form := .singleByte Table.windows1257
  labels := ["cp1257", "windows-1257", "x-cp1257"]

/-- windows-1258. -/
def windows1258 : Encoding where
  name := "windows-1258"
  form := .singleByte Table.windows1258
  labels := ["cp1258", "windows-1258", "x-cp1258"]

/-- x-mac-cyrillic. -/
def xMacCyrillic : Encoding where
  name := "x-mac-cyrillic"
  form := .singleByte Table.xMacCyrillic
  labels := ["x-mac-cyrillic", "x-mac-ukrainian"]

/-- GBK. -/
def gbk : Encoding where
  name := "GBK"
  form := .ascii
  labels := ["chinese", "csgb2312", "csiso58gb231280", "gb2312", "gb_2312", "gb_2312-80", "gbk",
    "iso-ir-58", "x-gbk"]

/-- gb18030. -/
def gb18030 : Encoding where
  name := "gb18030"
  form := .ascii
  labels := ["gb18030"]

/-- Big5. -/
def big5 : Encoding where
  name := "Big5"
  form := .ascii
  labels := ["big5", "big5-hkscs", "cn-big5", "csbig5", "x-x-big5"]

/-- EUC-JP. -/
def eucJp : Encoding where
  name := "EUC-JP"
  form := .ascii
  labels := ["cseucpkdfmtjapanese", "euc-jp", "x-euc-jp"]

/-- ISO-2022-JP. -/
def iso2022Jp : Encoding where
  name := "ISO-2022-JP"
  form := .ascii
  labels := ["csiso2022jp", "iso-2022-jp"]

/-- Shift_JIS. -/
def shiftJis : Encoding where
  name := "Shift_JIS"
  form := .ascii
  labels := ["csshiftjis", "ms932", "ms_kanji", "shift-jis", "shift_jis", "sjis", "windows-31j",
    "x-sjis"]

/-- EUC-KR. -/
def eucKr : Encoding where
  name := "EUC-KR"
  form := .ascii
  labels := ["cseuckr", "csksc56011987", "euc-kr", "iso-ir-149", "korean", "ks_c_5601-1987",
    "ks_c_5601-1989", "ksc5601", "ksc_5601", "windows-949"]

/-- replacement. -/
def replacement : Encoding where
  name := "replacement"
  form := .replacement
  labels := ["csiso2022kr", "hz-gb-2312", "iso-2022-cn", "iso-2022-cn-ext", "iso-2022-kr",
    "replacement"]

/-- UTF-16BE. -/
def utf16be : Encoding where
  name := "UTF-16BE"
  form := .utf16 true
  labels := ["unicodefffe", "utf-16be"]

/-- UTF-16LE. -/
def utf16le : Encoding where
  name := "UTF-16LE"
  form := .utf16 false
  labels := ["csunicode", "iso-10646-ucs-2", "ucs-2", "unicode", "unicodefeff", "utf-16",
    "utf-16le"]

/-- x-user-defined. -/
def xUserDefined : Encoding where
  name := "x-user-defined"
  form := .userDefined
  labels := ["x-user-defined"]

/-- Every encoding once. -/
def all : List Encoding :=
  [utf8, ibm866, iso88592, iso88593,
  iso88594, iso88595, iso88596, iso88597, iso88598, iso88598I, iso885910, iso885913, iso885914,
  iso885915, iso885916, koi8R, koi8U, macintosh, windows874, windows1250, windows1251,
  windows1252, windows1253, windows1254, windows1255, windows1256, windows1257, windows1258,
  xMacCyrillic, gbk, gb18030, big5, eucJp, iso2022Jp, shiftJis, eucKr, replacement, utf16be,
  utf16le, xUserDefined]

/-- The encoding of a label. -/
def ofLabel? (label : String) : Option Encoding :=
  let l := String.ofList ((Text.trim label.toList).map Char.toLower)
  all.find? fun e => e.labels.contains l

/-- A label that no encoding has. -/
structure UnknownLabel where
  label : String
  deriving DecidableEq, Repr, Inhabited

/-- The error message. -/
def UnknownLabel.message (u : UnknownLabel) : String := "Unknown encoding label '" ++ u.label ++ "'"

/-- The encoding of a label, if there is one. -/
def resolve (label : String) : Except UnknownLabel Encoding :=
  match ofLabel? label with
  | some e => .ok e
  | none => .error ⟨label⟩

end MessageHarvest.Encoding
