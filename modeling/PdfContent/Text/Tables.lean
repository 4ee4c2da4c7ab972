import PdfContent.Text.CharacterSet

/-!
# Character sets by tables

A decoder for running the program. UTF-16 and the sets of one byte are complete. Of the East Asian sets
there are the characters that stand alone, ASCII and the few other single bytes that are characters, and
the first row of each table of two bytes, and they are decoded one code at a time.
-/

namespace PdfContent.Text

/-! ### UTF-16 -/

def isHighSurrogate (unit : Nat) : Bool := 0xD800 ≤ unit && unit < 0xDC00

def isLowSurrogate (unit : Nat) : Bool := 0xDC00 ≤ unit && unit < 0xE000

/-- The characters of units, after the high surrogate `lead` if there is one. Surrogates without their
partner and an incomplete end are none. -/
def utf16Chars : (lead : Option Nat) → Bytes → List (Option Char)
  | none, [] => []
  | some _, [] => [none]
  | _, [_] => [none]
  | lead, hi :: lo :: rest =>
    let unit := hi.toNat * 256 + lo.toNat
    match lead with
    | some high =>
      if isLowSurrogate unit then
        some (Char.ofNat (0x10000 + (high - 0xD800) * 1024 + (unit - 0xDC00))) :: utf16Chars none rest
      else if isHighSurrogate unit then none :: utf16Chars (some unit) rest
      else none :: some (Char.ofNat unit) :: utf16Chars none rest
    | none =>
      if isHighSurrogate unit then utf16Chars (some unit) rest
      else if isLowSurrogate unit then none :: utf16Chars none rest
      else some (Char.ofNat unit) :: utf16Chars none rest

/-! ### Sets of one byte -/

/-- Code points of the codes from 0x80 on in the Windows Latin set. -/
def windowsUpper : List Nat := [
  0x20AC, 0x81, 0x201A, 0x192, 0x201E, 0x2026, 0x2020, 0x2021, 0x2C6, 0x2030, 0x160, 0x2039, 0x152,
  0x8D, 0x17D, 0x8F, 0x90, 0x2018, 0x2019, 0x201C, 0x201D, 0x2022, 0x2013, 0x2014, 0x2DC, 0x2122,
  0x161, 0x203A, 0x153, 0x9D, 0x17E, 0x178, 0xA0, 0xA1, 0xA2, 0xA3, 0xA4, 0xA5, 0xA6, 0xA7, 0xA8,
  0xA9, 0xAA, 0xAB, 0xAC, 0xAD, 0xAE, 0xAF, 0xB0, 0xB1, 0xB2, 0xB3, 0xB4, 0xB5, 0xB6, 0xB7, 0xB8,
  0xB9, 0xBA, 0xBB, 0xBC, 0xBD, 0xBE, 0xBF, 0xC0, 0xC1, 0xC2, 0xC3, 0xC4, 0xC5, 0xC6, 0xC7, 0xC8,
  0xC9, 0xCA, 0xCB, 0xCC, 0xCD, 0xCE, 0xCF, 0xD0, 0xD1, 0xD2, 0xD3, 0xD4, 0xD5, 0xD6, 0xD7, 0xD8,
  0xD9, 0xDA, 0xDB, 0xDC, 0xDD, 0xDE, 0xDF, 0xE0, 0xE1, 0xE2, 0xE3, 0xE4, 0xE5, 0xE6, 0xE7, 0xE8,
  0xE9, 0xEA, 0xEB, 0xEC, 0xED, 0xEE, 0xEF, 0xF0, 0xF1, 0xF2, 0xF3, 0xF4, 0xF5, 0xF6, 0xF7, 0xF8,
  0xF9, 0xFA, 0xFB, 0xFC, 0xFD, 0xFE, 0xFF]

/-- Code points of the codes from 0x80 on in the Macintosh Roman set. -/
def macintoshUpper : List Nat := [
  0xC4, 0xC5, 0xC7, 0xC9, 0xD1, 0xD6, 0xDC, 0xE1, 0xE0, 0xE2, 0xE4, 0xE3, 0xE5, 0xE7, 0xE9, 0xE8,
  0xEA, 0xEB, 0xED, 0xEC, 0xEE, 0xEF, 0xF1, 0xF3, 0xF2, 0xF4, 0xF6, 0xF5, 0xFA, 0xF9, 0xFB, 0xFC,
  0x2020, 0xB0, 0xA2, 0xA3, 0xA7, 0x2022, 0xB6, 0xDF, 0xAE, 0xA9, 0x2122, 0xB4, 0xA8, 0x2260, 0xC6,
  0xD8, 0x221E, 0xB1, 0x2264, 0x2265, 0xA5, 0xB5, 0x2202, 0x2211, 0x220F, 0x3C0, 0x222B, 0xAA,
  0xBA, 0x3A9, 0xE6, 0xF8, 0xBF, 0xA1, 0xAC, 0x221A, 0x192, 0x2248, 0x2206, 0xAB, 0xBB, 0x2026,
  0xA0, 0xC0, 0xC3, 0xD5, 0x152, 0x153, 0x2013, 0x2014, 0x201C, 0x201D, 0x2018, 0x2019, 0xF7,
  0x25CA, 0xFF, 0x178, 0x2044, 0x20AC, 0x2039, 0x203A, 0xFB01, 0xFB02, 0x2021, 0xB7, 0x201A,
  0x201E, 0x2030, 0xC2, 0xCA, 0xC1, 0xCB, 0xC8, 0xCD, 0xCE, 0xCF, 0xCC, 0xD3, 0xD4, 0xF8FF, 0xD2,
  0xDA, 0xDB, 0xD9, 0x131, 0x2C6, 0x2DC, 0xAF, 0x2D8, 0x2D9, 0x2DA, 0xB8, 0x2DD, 0x2DB, 0x2C7]

/-- The character of a code, with the given upper half over ASCII. -/
def eightBitChar? (upper : List Nat) (code : UInt8) : Option Char :=
  if code < 0x80 then some (Char.ofNat code.toNat)
  else (upper[code.toNat - 0x80]?).map Char.ofNat

/-! ### Sets of one or two bytes -/

/-- The half-width katakana of a byte from 0xA1 to 0xDF. -/
def katakana (b : UInt8) : Char := Char.ofNat (0xFF61 + (b.toNat - 0xA1))

/-- The character that a byte is on its own. -/
def single? (set : CharacterSet) (b : UInt8) : Option Char :=
  if b < 0x80 then some (Char.ofNat b.toNat)
  else
    match set with
    | .gbk => if b == 0x80 then some (Char.ofNat 0x20AC) else none
    | .shiftJis =>
      if b == 0x80 then some (Char.ofNat 0x80)
      else if 0xA1 ≤ b && b ≤ 0xDF then some (katakana b)
      else none
    | _ => none

/-- The first row of the Japanese table: punctuation and signs. -/
def japaneseRow : String :=
  "　、。，．・：；？！゛゜´｀¨＾￣＿ヽヾゝゞ〃仝々〆〇ー―‐／＼～∥｜…‥‘’“”（）〔〕［］" ++
    "｛｝〈〉《》「」『』【】＋－±×÷＝≠＜＞≦≧∞∴♂♀°′″℃￥＄￠￡％＃＆＊＠§☆★○●◎◇"

/-- The first row of the simplified Chinese table. -/
def chineseRow : String :=
  "丂丄丅丆丏丒丗丟丠両丣並丩丮丯丱丳丵丷丼乀乁乂乄乆乊乑乕乗乚乛乢乣乤乥乧乨乪乫乬乭乮乯乲乴乵乶乷" ++
    "乸乹乺乻乼乽乿亀亁亂亃亄亅亇亊亐亖亗亙亜亝亞亣亪亯亰亱亴亶亷亸亹亼亽亾仈仌仏仐仒仚仛仜仠仢仦仧仩" ++
    "仭仮仯仱仴仸仹仺仼仾伀伂伃伄伅伆伇伈伋伌伒伓伔伕伖伜伝伡伣伨伩伬伭伮伱伳伵伷伹伻伾伿佀佁佂佄佅佇" ++
    "佈佉佊佋佌佒佔佖佡佢佦佨佪佫佭佮佱佲併佷佸佹佺佽侀侁侂侅來侇侊侌侎侐侒侓侕侖侘侙侚侜侞侟価侢"

/-- The first row of the Korean table. -/
def koreanRow : String :=
  "갂갃갅갆갋갌갍갎갏갘갞갟갡갢갣갥갦갧갨갩갪갫갮갲갳갴갵갶갷갺갻갽갾갿걁걂걃걄걅걆걇걈걉걊걌걎걏걐" ++
    "걑걒걓걕걖걗걙걚걛걝걞걟걠걡걢걣걤걥걦걧걨걩걪걫걬걭걮걯걲걳걵걶걹걻걼걽걾걿겂겇겈겍겎겏겑겒겓겕" ++
    "겖겗겘겙겚겛겞겢겣겤겥겦겧겫겭겮겱겲겳겴겵겶겷겺겾겿곀곂곃곅곆곇곉곊곋곍곎곏곐곑곒곓곔곖곘곙곚곛" ++
    "곜곝곞곟곢곣곥곦곩곫곭곮곲곴곷곸곹곺곻곾곿괁괂괃괅괇괈괉괊괋괎괐괒괓"

/-- The place of a second byte among bytes that run from `first` on and leave out 0x7F. -/
def rowPlace? (first : Nat) (low : UInt8) : Option Nat :=
  if low.toNat < first || low == 0x7F || low == 0xFF then none
  else some (if 0x7F < low && first < 0x7F then low.toNat - first - 1 else low.toNat - first)

/-- The place of a second byte among the two cases of ASCII letters and the bytes from 0x81 on. -/
def koreanPlace? (low : UInt8) : Option Nat :=
  if 0x41 ≤ low && low ≤ 0x5A then some (low.toNat - 0x41)
  else if 0x61 ≤ low && low ≤ 0x7A then some (low.toNat - 0x61 + 26)
  else if 0x81 ≤ low && low ≤ 0xFE then some (low.toNat - 0x81 + 52)
  else none

/-- The character of two bytes in the first row of a set's table. -/
def firstRow? (set : CharacterSet) (high low : UInt8) : Option Char :=
  let entry (row : String) (place : Option Nat) : Option Char := place >>= fun i => row.toList[i]?
  match set with
  | .shiftJis => if high == 0x81 then entry japaneseRow (rowPlace? 0x40 low) else none
  | .eucJp => if high == 0xA1 then entry japaneseRow (rowPlace? 0xA1 low) else none
  | .gbk => if high == 0x81 then entry chineseRow (rowPlace? 0x40 low) else none
  | .eucKr => if high == 0x81 then entry koreanRow (koreanPlace? low) else none
  | _ => none

/-- The characters of a code of one or two bytes. -/
def codeChars (set : CharacterSet) : Bytes → List (Option Char)
  | [] => []
  | [b] => [single? set b]
  | high :: low :: _ =>
    if set == .eucJp && high == 0x8E && 0xA1 ≤ low && low ≤ 0xDF then [some (katakana low)]
    else
      match firstRow? set high low, single? set high, single? set low with
      | some c, _, _ => [some c]
      | none, some c, some d => [some c, some d]
      | none, _, _ => [none]

/-! ### All sets -/

/-- The characters of bytes; what is malformed is none. -/
def charsByTables : CharacterSet → Bytes → List (Option Char)
  | .utf16, bytes => utf16Chars none bytes
  | .windows, bytes => bytes.map (eightBitChar? windowsUpper)
  | .macintosh, bytes => bytes.map (eightBitChar? macintoshUpper)
  | set, bytes => codeChars set bytes

@[reducible] def byTables : Decoder where
  decode set bytes :=
    let chars := charsByTables set bytes
    (String.ofList (chars.map fun c => c.getD replacement), chars.any Option.isNone)

end PdfContent.Text
