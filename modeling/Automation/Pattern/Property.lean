import Automation.Pattern.CharSet
import Automation.Unicode.Writing
/-! Named sets of characters: the classes of digits, blanks and word characters, the
bracketed names of ASCII sets, general categories, scripts, and a few yes-or-no
properties. Names are compared without regard to case, blanks, hyphens and underscores. -/
namespace Automation.Pattern
open Automation.Unicode

namespace CharSet

def digit : CharSet := ofCategories (· == .decimalNumber)

def blank : CharSet :=
  ofRanges [(9, 13), (0x20, 0x20), (0x85, 0x85), (0xA0, 0xA0), (0x1680, 0x1680),
    (0x2000, 0x200A), (0x2028, 0x2029), (0x202F, 0x202F), (0x205F, 0x205F), (0x3000, 0x3000)]

def enclosedLetters : CharSet :=
  ofRanges [(0x24B6, 0x24E9), (0x1F130, 0x1F149), (0x1F150, 0x1F169), (0x1F170, 0x1F189)]

def word : CharSet :=
  ((ofCategories fun c =>
    c.isLetter || c.isMark || c == .decimalNumber || c == .letterNumber || c == .connector).union
    enclosedLetters).union (ofRanges [(0x200C, 0x200D)])

def asciiDigit : CharSet := ofRanges [(48, 57)]
def asciiBlank : CharSet := ofRanges [(9, 13), (32, 32)]
def asciiWord : CharSet := ofRanges [(48, 57), (65, 90), (95, 95), (97, 122)]

def asciiNamed? (name : String) : Option CharSet :=
  (([("alnum", [(48, 57), (65, 90), (97, 122)]), ("alpha", [(65, 90), (97, 122)]),
    ("ascii", [(0, 127)]), ("blank", [(9, 9), (32, 32)]), ("cntrl", [(0, 31), (127, 127)]),
    ("digit", [(48, 57)]), ("graph", [(33, 126)]), ("lower", [(97, 122)]),
    ("print", [(32, 126)]), ("punct", [(33, 47), (58, 64), (91, 96), (123, 126)]),
    ("space", [(9, 13), (32, 32)]), ("upper", [(65, 90)]),
    ("word", [(48, 57), (65, 90), (95, 95), (97, 122)]),
    ("xdigit", [(48, 57), (65, 70), (97, 102)])] : List (String × List (Nat × Nat))).find?
    fun row => row.1 == name).map fun row => ofRanges row.2

end CharSet

def plainName (name : List Char) : String :=
  let kept := name.filter fun c => !(c == ' ' || c == '_' || c == '-')
  let lower := kept.map Char.toLower
  match lower with
  | 'i' :: 's' :: rest => if rest == ['c'] then String.ofList lower else String.ofList rest
  | _ => String.ofList lower

def categoryNames : List (String × List String) :=
  [("uppercaseletter", ["Lu"]), ("lowercaseletter", ["Ll"]), ("titlecaseletter", ["Lt"]),
   ("modifierletter", ["Lm"]), ("otherletter", ["Lo"]), ("nonspacingmark", ["Mn"]),
   ("spacingmark", ["Mc"]), ("enclosingmark", ["Me"]), ("decimalnumber", ["Nd"]),
   ("letternumber", ["Nl"]), ("othernumber", ["No"]), ("connectorpunctuation", ["Pc"]),
   ("dashpunctuation", ["Pd"]), ("openpunctuation", ["Ps"]), ("closepunctuation", ["Pe"]),
   ("initialpunctuation", ["Pi"]), ("finalpunctuation", ["Pf"]), ("otherpunctuation", ["Po"]),
   ("mathsymbol", ["Sm"]), ("currencysymbol", ["Sc"]), ("modifiersymbol", ["Sk"]),
   ("othersymbol", ["So"]), ("spaceseparator", ["Zs"]), ("lineseparator", ["Zl"]),
   ("paragraphseparator", ["Zp"]), ("control", ["Cc"]), ("format", ["Cf"]),
   ("surrogate", ["Cs"]), ("privateuse", ["Co"]), ("unassigned", ["Cn"]),
   ("digit", ["Nd"]), ("cntrl", ["Cc"]),
   ("l", ["Lu", "Ll", "Lt", "Lm", "Lo"]), ("letter", ["Lu", "Ll", "Lt", "Lm", "Lo"]),
   ("lc", ["Lu", "Ll", "Lt"]), ("casedletter", ["Lu", "Ll", "Lt"]),
   ("m", ["Mn", "Mc", "Me"]), ("mark", ["Mn", "Mc", "Me"]), ("combiningmark", ["Mn", "Mc", "Me"]),
   ("n", ["Nd", "Nl", "No"]), ("number", ["Nd", "Nl", "No"]),
   ("p", ["Pc", "Pd", "Ps", "Pe", "Pi", "Pf", "Po"]),
   ("punctuation", ["Pc", "Pd", "Ps", "Pe", "Pi", "Pf", "Po"]),
   ("punct", ["Pc", "Pd", "Ps", "Pe", "Pi", "Pf", "Po"]),
   ("s", ["Sm", "Sc", "Sk", "So"]), ("symbol", ["Sm", "Sc", "Sk", "So"]),
   ("z", ["Zs", "Zl", "Zp"]), ("separator", ["Zs", "Zl", "Zp"]),
   ("c", ["Cc", "Cf", "Cs", "Co", "Cn"]), ("other", ["Cc", "Cf", "Cs", "Co", "Cn"])]

def categoriesNamed? (name : String) : Option (List String) :=
  match categoryNames.find? fun row => row.1 == name with
  | some row => some row.2
  | none => (Category.all.find? fun row => row.1.toLower == name).map fun row => [row.1]

def setOfCategories (names : List String) : CharSet :=
  let wanted := Category.all.filter fun row => names.contains row.1
  CharSet.ofCategories fun c => wanted.any fun row => row.2 == c

def generalCategory? (name : String) : Option CharSet :=
  if name = "any" then some CharSet.all
  else if name = "ascii" then some (CharSet.ofRanges [(0, 127)])
  else if name = "assigned" then some (setOfCategories ["Cn"]).complement
  else (categoriesNamed? name).map setOfCategories

def scriptCodes : List (String × String) :=
  [("arab", "arabic"), ("armn", "armenian"), ("beng", "bengali"), ("brai", "braille"),
   ("cher", "cherokee"), ("cyrl", "cyrillic"), ("deva", "devanagari"), ("ethi", "ethiopic"),
   ("geor", "georgian"), ("grek", "greek"), ("hang", "hangul"), ("hani", "han"),
   ("hebr", "hebrew"), ("hira", "hiragana"), ("kana", "katakana"), ("khmr", "khmer"),
   ("laoo", "lao"), ("latn", "latin"), ("mong", "mongolian"), ("mymr", "myanmar"),
   ("syrc", "syriac"), ("taml", "tamil"), ("thai", "thai"), ("tibt", "tibetan")]

def scriptNamed? (name : String) : Option CharSet :=
  let full := ((scriptCodes.find? fun row => row.1 == name).map Prod.snd).getD name
  (script? full).map CharSet.ofRanges

def upperExtras : List (Nat × Nat) :=
  [(0x2160, 0x216F), (0x24B6, 0x24CF), (0x1F130, 0x1F149), (0x1F150, 0x1F169), (0x1F170, 0x1F189)]

def lowerExtras : List (Nat × Nat) :=
  [(0xAA, 0xAA), (0xBA, 0xBA), (0x2B0, 0x2B8), (0x2C0, 0x2C1), (0x2E0, 0x2E4), (0x345, 0x345),
   (0x37A, 0x37A), (0x1D2C, 0x1D6A), (0x1D78, 0x1D78), (0x1D9B, 0x1DBF), (0x2071, 0x2071),
   (0x207F, 0x207F), (0x2090, 0x209C), (0x2170, 0x217F), (0x24D0, 0x24E9), (0x2C7C, 0x2C7D),
   (0xA69C, 0xA69D), (0xA770, 0xA770), (0xA7F8, 0xA7F9), (0xAB5C, 0xAB5F)]

def property? (name : String) : Option CharSet :=
  if name = "alphabetic" ∨ name = "alpha" then
    some ((CharSet.ofCategories fun c => c.isLetter || c == .letterNumber || c == .spacingMark).union
      CharSet.enclosedLetters)
  else if name = "uppercase" ∨ name = "upper" then
    some ((setOfCategories ["Lu"]).union (CharSet.ofRanges upperExtras))
  else if name = "lowercase" ∨ name = "lower" then
    some ((setOfCategories ["Ll"]).union (CharSet.ofRanges lowerExtras))
  else if name = "whitespace" ∨ name = "wspace" ∨ name = "space" then some CharSet.blank
  else if name = "asciihexdigit" ∨ name = "ahex" then
    some (CharSet.ofRanges [(48, 57), (65, 70), (97, 102)])
  else if name = "hexdigit" ∨ name = "hex" then
    some (CharSet.ofRanges [(48, 57), (65, 70), (97, 102), (0xFF10, 0xFF19), (0xFF21, 0xFF26),
      (0xFF41, 0xFF46)])
  else none

def named? (name : List Char) : Option CharSet :=
  let plain := plainName name
  let yesNo := if plain = "cf" ∨ plain = "sc" ∨ plain = "lc" then none else property? plain
  (yesNo.orElse fun _ => generalCategory? plain).orElse fun _ => scriptNamed? plain

def namedValue? (name value : List Char) : Option CharSet :=
  let plain := plainName name
  if plain = "gc" ∨ plain = "generalcategory" then generalCategory? (plainName value)
  else if plain = "sc" ∨ plain = "script" ∨ plain = "scx" ∨ plain = "scriptextensions" then
    scriptNamed? (plainName value)
  else none

end Automation.Pattern
