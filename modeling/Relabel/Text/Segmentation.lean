import Relabel.Text.Property
import Relabel.Text.Script

/-!
# Segmentation of texts

The classes of characters by which Unicode finds the ends of characters as readers see them
(grapheme clusters), of words and of sentences.
-/

namespace Relabel.Text

/-- The zero width joiner. -/
def joiner : CharClass :=
  .single 0x200d

/-- Carriage return and line feed, each by itself. -/
def returnAndFeed : List NamedClass :=
  [⟨["CR"], .single 13⟩, ⟨["LF"], .single 10⟩]

/-! ### Grapheme clusters -/

/-- Characters that go with the one before them. -/
def clusterExtend : CharClass :=
  .union graphemeExtend (listed "Emoji_Modifier")

/-- Characters that end a cluster on both sides. -/
def clusterControl : CharClass :=
  .diff (.union (inCategories ["Zl", "Zp", "Cc", "Cf"]) (defaultIgnorable.diff assigned))
    (.unions [.ofLines ["a d 200c-200d"], listed "Prepended_Concatenation_Mark", graphemeExtend])

/-- Spacing marks that stand in a cluster of their own. -/
def detachedMarks : CharClass :=
  .ofLines ["102b-102c 1038 1062-1064 1067-106d 1083 1087-108c 108f 109a-109c 1a61 1a63-1a64 aa7b",
    "aa7d 11720-11721"]

/-- Spacing marks that go with the character before them. -/
def clusterSpacingMark : CharClass :=
  .union (.diff (inCategories ["Mc"]) (.union clusterExtend detachedMarks)) (.ofLines ["e33 eb3"])

/-- Syllables without a final consonant. -/
def openSyllables : CharClass :=
  .ofLines ["ac00-d788/1c"]

/-- The classes of characters in grapheme clusters. -/
def clusterBreaks : List NamedClass :=
  returnAndFeed ++
  [⟨["Control", "CN"], clusterControl⟩,
   ⟨["Extend", "EX"], clusterExtend⟩,
   ⟨["ZWJ"], joiner⟩,
   ⟨["Regional_Indicator", "RI"], listed "Regional_Indicator"⟩,
   ⟨["Prepend", "PP"], .union (listed "Prepended_Concatenation_Mark")
    (.ofLines ["d4e 111c2-111c3 113d1 1193f 11941 11a3a 11a84-11a89 11d46 11f02"])⟩,
   ⟨["SpacingMark", "SM"], clusterSpacingMark⟩,
   ⟨["L"], .ofLines ["1100-115f a960-a97c"]⟩,
   ⟨["V"], .ofLines ["1160-11a7 d7b0-d7c6 16d63 16d67-16d6a"]⟩,
   ⟨["T"], .ofLines ["11a8-11ff d7cb-d7fb"]⟩,
   ⟨["LV"], openSyllables⟩,
   ⟨["LVT"], .diff [(0xac00, 0xd7a3)] openSyllables⟩]

/-! ### Words -/

/-- Characters that go with the one before them. -/
def wordExtend : CharClass :=
  .union clusterExtend (inCategories ["Mc"])

/-- The characters of scripts. -/
def inScripts (codes : List String) : CharClass :=
  .unions ((scripts.filter fun s => s.names.any codes.contains).map (·.members))

/-- Katakana, and the marks it shares. -/
def wordKatakana : CharClass :=
  .union (inScripts ["Kana"]) (.ofLines ["3031-3035 309b-309c 30a0 30fc ff70"])

/-- The letters of the Hebrew script. -/
def wordHebrew : CharClass :=
  .inter (inScripts ["Hebr"]) (inCategories ["Lo"])

/-- Letters of the scripts that put blanks between words. -/
def wordLetters : CharClass :=
  .diff (.union letters (.ofLines ["2c2-2c5 2d2-2d7 2de-2df 2e5-2eb 2ed 2ef-2ff 55a-55c 55e 58a",
    "5f3 a708-a716 a720-a721 a789-a78a ab5b"]))
    (.unions [listed "Ideographic", wordKatakana, wordHebrew, wordExtend,
      inScripts ["Hira", "Thai", "Laoo", "Mymr", "Khmr", "Tale", "Talu", "Lana", "Tavt", "Ahom"]])

/-- The classes of characters in words. -/
def wordBreaks : List NamedClass :=
  returnAndFeed ++
  [⟨["Newline", "NL"], .ofLines ["b-c 85 2028-2029"]⟩,
   ⟨["Extend"], wordExtend⟩,
   ⟨["ZWJ"], joiner⟩,
   ⟨["Regional_Indicator", "RI"], listed "Regional_Indicator"⟩,
   ⟨["Format", "FO"],
    .diff (inCategories ["Cf"]) (.union (.ofLines ["200b-200d"]) graphemeExtend)⟩,
   ⟨["Katakana", "KA"], wordKatakana⟩,
   ⟨["Hebrew_Letter", "HL"], wordHebrew⟩,
   ⟨["ALetter", "LE"], wordLetters⟩,
   ⟨["Single_Quote", "SQ"], .single 0x27⟩,
   ⟨["Double_Quote", "DQ"], .single 0x22⟩,
   ⟨["MidNumLet", "MB"], .ofLines ["2e 2018-2019 2024 fe52 ff07 ff0e"]⟩,
   ⟨["MidLetter", "ML"], .ofLines ["3a b7 387 55f 5f4 2027 fe13 fe55 ff1a"]⟩,
   ⟨["MidNum", "MN"],
    .ofLines ["2c 3b 37e 589 60c-60d 66c 7f8 2044 fe10 fe14 fe50 fe54 ff0c ff1b"]⟩,
   ⟨["Numeric", "NU"], .union (inCategories ["Nd"]) (.single 0x66b)⟩,
   ⟨["ExtendNumLet", "EX"], .union (inCategories ["Pc"]) (.single 0x202f)⟩,
   ⟨["WSegSpace"], .diff (inCategories ["Zs"]) (.ofLines ["a0 2007 202f"])⟩]

/-! ### Sentences -/

/-- Characters that go with the one before them. -/
def sentenceExtend : CharClass :=
  .unions [graphemeExtend, inCategories ["Mc"], joiner]

/-- Lower case letters of the scripts that start sentences with a capital. -/
def sentenceLower : CharClass :=
  .diff lowercase (.union graphemeExtend (.ofLines ["10d0-10fa 10fd-10ff"]))

/-- Capital letters of the scripts that start sentences with one. -/
def sentenceUpper : CharClass :=
  .diff (.union uppercase (inCategories ["Lt"])) (.ofLines ["1c90-1cba 1cbd-1cbf"])

/-- Full stops that may end something else than a sentence. -/
def ambiguousStops : CharClass :=
  .ofLines ["2e 2024 fe52 ff0e"]

/-- The classes of characters in sentences. -/
def sentenceBreaks : List NamedClass :=
  returnAndFeed ++
  [⟨["Sep", "SE"], .ofLines ["85 2028-2029"]⟩,
   ⟨["Extend", "EX"], sentenceExtend⟩,
   ⟨["Format", "FO"],
    .diff (inCategories ["Cf"]) (.union (.ofLines ["200c-200d"]) graphemeExtend)⟩,
   ⟨["Sp", "SP"], .ofLines ["9 b-c 20 a0 1680 2000-200a 202f 205f 3000"]⟩,
   ⟨["Lower", "LO"], sentenceLower⟩,
   ⟨["Upper", "UP"], sentenceUpper⟩,
   ⟨["OLetter", "LE"], .diff (.union letters (.single 0x5f3))
    (.unions [sentenceLower, sentenceUpper, sentenceExtend])⟩,
   ⟨["Numeric", "NU"], .union (inCategories ["Nd"]) (.ofLines ["66b-66c"])⟩,
   ⟨["ATerm", "AT"], ambiguousStops⟩,
   ⟨["STerm", "ST"], .diff (listed "Sentence_Terminal") ambiguousStops⟩,
   ⟨["SContinue", "SC"],
    .ofLines ["2c-2d 3a-3b 37e 55d 60c-60d 7f8 1802 1808 2013-2014 3001 fe10-fe11 fe13-fe14",
      "fe31-fe32 fe50-fe51 fe54-fe55 fe58 fe63 ff0c-ff0d ff1a-ff1b ff64"]⟩,
   ⟨["Close", "CL"], .union (inCategories ["Ps", "Pe", "Pi", "Pf"])
    (.ofLines ["22 27 275b-2760 2e00-2e01 2e06-2e08 2e0b 1f676-1f678"])⟩]

end Relabel.Text
