/-!
# Names of glyphs

The names that fonts give to characters, and the names that the standard encoding gives to codes. Both
are tables of a published standard.
-/

namespace PdfContent.Glyph

/-- Glyph names in alphabetical order, each with the code point of its character. -/
def characterTable : List (String × Nat) := [
  ("AE", 0xC6), ("Aacute", 0xC1), ("Abreve", 0x102), ("Acircumflex", 0xC2), ("Adieresis", 0xC4),
  ("Agrave", 0xC0), ("Amacron", 0x100), ("Aogonek", 0x104), ("Aring", 0xC5), ("Atilde", 0xC3),
  ("Cacute", 0x106), ("Ccaron", 0x10C), ("Ccedilla", 0xC7), ("Ccircumflex", 0x108),
  ("Cdotaccent", 0x10A), ("Dcaron", 0x10E), ("Dcroat", 0x110), ("Delta", 0x2206), ("Eacute", 0xC9),
  ("Ebreve", 0x114), ("Ecaron", 0x11A), ("Ecircumflex", 0xCA), ("Edieresis", 0xCB),
  ("Edotaccent", 0x116), ("Egrave", 0xC8), ("Emacron", 0x112), ("Eogonek", 0x118), ("Eth", 0xD0),
  ("Euro", 0x20AC), ("Gbreve", 0x11E), ("Gcedilla", 0x122), ("Gcircumflex", 0x11C),
  ("Gcommaaccent", 0x122), ("Gdotaccent", 0x120), ("Hcircumflex", 0x124), ("Iacute", 0xCD),
  ("Ibreve", 0x12C), ("Icircumflex", 0xCE), ("Idieresis", 0xCF), ("Idotaccent", 0x130),
  ("Igrave", 0xCC), ("Imacron", 0x12A), ("Iogonek", 0x12E), ("Itilde", 0x128),
  ("Jcircumflex", 0x134), ("Kcedilla", 0x136), ("Kcommaaccent", 0x136), ("Lacute", 0x139),
  ("Lcaron", 0x13D), ("Lcedilla", 0x13B), ("Lcommaaccent", 0x13B), ("Lslash", 0x141),
  ("Nacute", 0x143), ("Ncaron", 0x147), ("Ncedilla", 0x145), ("Ncommaaccent", 0x145),
  ("Ntilde", 0xD1), ("OE", 0x152), ("Oacute", 0xD3), ("Obreve", 0x14E), ("Ocircumflex", 0xD4),
  ("Odieresis", 0xD6), ("Ograve", 0xD2), ("Ohungarumlaut", 0x150), ("Omacron", 0x14C),
  ("Omega", 0x3A9), ("Oslash", 0xD8), ("Otilde", 0xD5), ("Racute", 0x154), ("Rcaron", 0x158),
  ("Rcedilla", 0x156), ("Rcommaaccent", 0x156), ("Sacute", 0x15A), ("Scaron", 0x160),
  ("Scedilla", 0x15E), ("Scircumflex", 0x15C), ("Scommaaccent", 0x218), ("Tcaron", 0x164),
  ("Tcedilla", 0x162), ("Tcommaaccent", 0x162), ("Thorn", 0xDE), ("Uacute", 0xDA),
  ("Ubreve", 0x16C), ("Ucircumflex", 0xDB), ("Udieresis", 0xDC), ("Ugrave", 0xD9),
  ("Uhungarumlaut", 0x170), ("Umacron", 0x16A), ("Uogonek", 0x172), ("Uring", 0x16E),
  ("Utilde", 0x168), ("Wcircumflex", 0x174), ("Yacute", 0xDD), ("Ycircumflex", 0x176),
  ("Ydieresis", 0x178), ("Zacute", 0x179), ("Zcaron", 0x17D), ("Zdotaccent", 0x17B),
  ("aacute", 0xE1), ("abreve", 0x103), ("acircumflex", 0xE2), ("acute", 0xB4), ("adieresis", 0xE4),
  ("ae", 0xE6), ("agrave", 0xE0), ("alpha", 0x3B1), ("amacron", 0x101), ("ampersand", 0x26),
  ("aogonek", 0x105), ("apple", 0xF8FF), ("approxequal", 0x2248), ("aring", 0xE5),
  ("arrowboth", 0x2194), ("arrowdown", 0x2193), ("arrowleft", 0x2190), ("arrowright", 0x2192),
  ("arrowup", 0x2191), ("asciicircum", 0x5E), ("asciitilde", 0x7E), ("asterisk", 0x2A),
  ("at", 0x40), ("atilde", 0xE3), ("backslash", 0x5C), ("bar", 0x7C), ("beta", 0x3B2),
  ("braceleft", 0x7B), ("braceright", 0x7D), ("bracketleft", 0x5B), ("bracketright", 0x5D),
  ("breve", 0x2D8), ("brokenbar", 0xA6), ("bullet", 0x2022), ("cacute", 0x107), ("caron", 0x2C7),
  ("ccaron", 0x10D), ("ccedilla", 0xE7), ("ccircumflex", 0x109), ("cdotaccent", 0x10B),
  ("cedilla", 0xB8), ("cent", 0xA2), ("checkmark", 0x2713), ("circumflex", 0x2C6), ("colon", 0x3A),
  ("comma", 0x2C), ("commaaccent", 0xF6C3), ("copyright", 0xA9), ("currency", 0xA4),
  ("dagger", 0x2020), ("daggerdbl", 0x2021), ("dcaron", 0x10F), ("dcroat", 0x111),
  ("degree", 0xB0), ("delta", 0x3B4), ("dieresis", 0xA8), ("divide", 0xF7), ("dollar", 0x24),
  ("dotaccent", 0x2D9), ("dotlessi", 0x131), ("dotlessj", 0x237), ("eacute", 0xE9),
  ("ebreve", 0x115), ("ecaron", 0x11B), ("ecircumflex", 0xEA), ("edieresis", 0xEB),
  ("edotaccent", 0x117), ("egrave", 0xE8), ("eight", 0x38), ("ellipsis", 0x2026),
  ("emacron", 0x113), ("emdash", 0x2014), ("endash", 0x2013), ("eogonek", 0x119),
  ("epsilon", 0x3B5), ("equal", 0x3D), ("eth", 0xF0), ("exclam", 0x21), ("exclamdown", 0xA1),
  ("ff", 0xFB00), ("ffi", 0xFB03), ("ffl", 0xFB04), ("fi", 0xFB01), ("five", 0x35), ("fl", 0xFB02),
  ("florin", 0x192), ("four", 0x34), ("fraction", 0x2044), ("gamma", 0x3B3), ("gbreve", 0x11F),
  ("gcedilla", 0x123), ("gcircumflex", 0x11D), ("gcommaaccent", 0x123), ("gdotaccent", 0x121),
  ("germandbls", 0xDF), ("grave", 0x60), ("greater", 0x3E), ("greaterequal", 0x2265),
  ("guillemotleft", 0xAB), ("guillemotright", 0xBB), ("guilsinglleft", 0x2039),
  ("guilsinglright", 0x203A), ("hcircumflex", 0x125), ("hungarumlaut", 0x2DD), ("hyphen", 0x2D),
  ("iacute", 0xED), ("ibreve", 0x12D), ("icircumflex", 0xEE), ("idieresis", 0xEF),
  ("igrave", 0xEC), ("imacron", 0x12B), ("infinity", 0x221E), ("integral", 0x222B),
  ("iogonek", 0x12F), ("itilde", 0x129), ("jcircumflex", 0x135), ("kcedilla", 0x137),
  ("kcommaaccent", 0x137), ("lacute", 0x13A), ("lambda", 0x3BB), ("lcaron", 0x13E),
  ("lcedilla", 0x13C), ("lcommaaccent", 0x13C), ("less", 0x3C), ("lessequal", 0x2264),
  ("logicalnot", 0xAC), ("lozenge", 0x25CA), ("lslash", 0x142), ("macron", 0xAF), ("middot", 0xB7),
  ("minus", 0x2212), ("mu", 0xB5), ("mu1", 0xB5), ("multiply", 0xD7), ("nacute", 0x144),
  ("nbspace", 0xA0), ("ncaron", 0x148), ("ncedilla", 0x146), ("ncommaaccent", 0x146),
  ("nine", 0x39), ("nonbreakingspace", 0xA0), ("notequal", 0x2260), ("ntilde", 0xF1),
  ("numbersign", 0x23), ("oacute", 0xF3), ("obreve", 0x14F), ("ocircumflex", 0xF4),
  ("odieresis", 0xF6), ("oe", 0x153), ("ogonek", 0x2DB), ("ograve", 0xF2),
  ("ohungarumlaut", 0x151), ("omacron", 0x14D), ("omega", 0x3C9), ("one", 0x31), ("onehalf", 0xBD),
  ("onequarter", 0xBC), ("onesuperior", 0xB9), ("ordfeminine", 0xAA), ("ordmasculine", 0xBA),
  ("oslash", 0xF8), ("otilde", 0xF5), ("overscore", 0xAF), ("paragraph", 0xB6),
  ("parenleft", 0x28), ("parenright", 0x29), ("partialdiff", 0x2202), ("percent", 0x25),
  ("period", 0x2E), ("periodcentered", 0xB7), ("perthousand", 0x2030), ("phi", 0x3C6),
  ("pi", 0x3C0), ("plus", 0x2B), ("plusminus", 0xB1), ("product", 0x220F), ("question", 0x3F),
  ("questiondown", 0xBF), ("quotedbl", 0x22), ("quotedblbase", 0x201E), ("quotedblleft", 0x201C),
  ("quotedblright", 0x201D), ("quoteleft", 0x2018), ("quoteright", 0x2019),
  ("quotesinglbase", 0x201A), ("quotesingle", 0x27), ("racute", 0x155), ("radical", 0x221A),
  ("rcaron", 0x159), ("rcedilla", 0x157), ("rcommaaccent", 0x157), ("registered", 0xAE),
  ("ring", 0x2DA), ("sacute", 0x15B), ("scaron", 0x161), ("scedilla", 0x15F),
  ("scircumflex", 0x15D), ("scommaaccent", 0x219), ("section", 0xA7), ("semicolon", 0x3B),
  ("seven", 0x37), ("sfthyphen", 0xAD), ("sigma", 0x3C3), ("six", 0x36), ("slash", 0x2F),
  ("space", 0x20), ("sterling", 0xA3), ("summation", 0x2211), ("tau", 0x3C4), ("tcaron", 0x165),
  ("tcedilla", 0x163), ("tcommaaccent", 0x163), ("theta", 0x3B8), ("thorn", 0xFE), ("three", 0x33),
  ("threequarters", 0xBE), ("threesuperior", 0xB3), ("tilde", 0x2DC), ("trademark", 0x2122),
  ("two", 0x32), ("twosuperior", 0xB2), ("uacute", 0xFA), ("ubreve", 0x16D), ("ucircumflex", 0xFB),
  ("udieresis", 0xFC), ("ugrave", 0xF9), ("uhungarumlaut", 0x171), ("umacron", 0x16B),
  ("underscore", 0x5F), ("uogonek", 0x173), ("uring", 0x16F), ("utilde", 0x169),
  ("wcircumflex", 0x175), ("yacute", 0xFD), ("ycircumflex", 0x177), ("ydieresis", 0xFF),
  ("yen", 0xA5), ("zacute", 0x17A), ("zcaron", 0x17E), ("zdotaccent", 0x17C), ("zero", 0x30)]

/-- The names of the codes from 0x20 to 0x7E in the standard encoding. -/
def standardLower : List String := [
  "space", "exclam", "quotedbl", "numbersign", "dollar", "percent", "ampersand", "quoteright",
  "parenleft", "parenright", "asterisk", "plus", "comma", "hyphen", "period", "slash", "zero",
  "one", "two", "three", "four", "five", "six", "seven", "eight", "nine", "colon", "semicolon",
  "less", "equal", "greater", "question", "at", "A", "B", "C", "D", "E", "F", "G", "H", "I", "J",
  "K", "L", "M", "N", "O", "P", "Q", "R", "S", "T", "U", "V", "W", "X", "Y", "Z", "bracketleft",
  "backslash", "bracketright", "asciicircum", "underscore", "quoteleft", "a", "b", "c", "d", "e",
  "f", "g", "h", "i", "j", "k", "l", "m", "n", "o", "p", "q", "r", "s", "t", "u", "v", "w", "x",
  "y", "z", "braceleft", "bar", "braceright", "asciitilde"]

/-- The names of the codes from 0xA1 on in the standard encoding; the rest have none. -/
def standardUpper : List (Nat × String) := [
  (0xA1, "exclamdown"), (0xA2, "cent"), (0xA3, "sterling"), (0xA4, "fraction"), (0xA5, "yen"),
  (0xA6, "florin"), (0xA7, "section"), (0xA8, "currency"), (0xA9, "quotesingle"),
  (0xAA, "quotedblleft"), (0xAB, "guillemotleft"), (0xAC, "guilsinglleft"),
  (0xAD, "guilsinglright"), (0xAE, "fi"), (0xAF, "fl"), (0xB1, "endash"), (0xB2, "dagger"),
  (0xB3, "daggerdbl"), (0xB4, "periodcentered"), (0xB6, "paragraph"), (0xB7, "bullet"),
  (0xB8, "quotesinglbase"), (0xB9, "quotedblbase"), (0xBA, "quotedblright"),
  (0xBB, "guillemotright"), (0xBC, "ellipsis"), (0xBD, "perthousand"), (0xBF, "questiondown"),
  (0xC1, "grave"), (0xC2, "acute"), (0xC3, "circumflex"), (0xC4, "tilde"), (0xC5, "macron"),
  (0xC6, "breve"), (0xC7, "dotaccent"), (0xC8, "dieresis"), (0xCA, "ring"), (0xCB, "cedilla"),
  (0xCD, "hungarumlaut"), (0xCE, "ogonek"), (0xCF, "caron"), (0xD0, "emdash"), (0xE1, "AE"),
  (0xE3, "ordfeminine"), (0xE8, "Lslash"), (0xE9, "Oslash"), (0xEA, "OE"), (0xEB, "ordmasculine"),
  (0xF1, "ae"), (0xF5, "dotlessi"), (0xF8, "lslash"), (0xF9, "oslash"), (0xFA, "oe"),
  (0xFB, "germandbls")]

/-- The name of a code in the standard encoding. -/
def standardName? (code : Nat) : Option String :=
  if 0x20 ≤ code && code ≤ 0x7E then standardLower[code - 0x20]?
  else (standardUpper.find? fun entry => entry.1 == code).map Prod.snd

end PdfContent.Glyph
