import BlockFsck.Path
import BlockFsck.Text.Letter.Composition
import BlockFsck.Text.Letter.Direction
import BlockFsck.Text.Letter.Joining
import BlockFsck.Text.Letter.Name
import BlockFsck.Text.Letter.Script
import BlockFsck.Text.Punycode

/-!
# Host names in ASCII

A host name is a list of labels with dots between them. A label with characters beyond ASCII is
written in Punycode after a mark, if its characters may stand in names, and where they do.
-/

namespace BlockFsck.Text

/-- What a label in Punycode starts with. -/
def codedMark : List Char := "xn--".toList

def isArabicDigit (c : Char) : Bool := 0x660 ≤ c.toNat && c.toNat ≤ 0x669

def isPersianDigit (c : Char) : Bool := 0x6F0 ≤ c.toNat && c.toNat ≤ 0x6F9

/-- The character may stand in the label, between the characters before it, the nearest one first,
and those after it. -/
def fits (label before : List Char) (c : Char) (after : List Char) : Bool :=
  let follows := before.head?.any fun d => markClass d = joinerClass
  if c = '\u00b7' then before.head? = some 'l' && after.head? = some 'l'
  else if c = '\u0375' then after.head?.any isGreek
  else if c = '\u05f3' || c = '\u05f4' then before.head?.any isHebrew
  else if c = '\u30fb' then label.any isJapanese
  else if isArabicDigit c then !label.any isPersianDigit
  else if isPersianDigit c then !label.any isArabicDigit
  else if c = '\u200c' then follows || wouldJoin before after
  else if c = '\u200d' then follows
  else isNameCharacter c

/-- All characters of a label fit, where those before are given, the nearest one first. -/
def allFit (label before : List Char) : List Char → Bool
  | [] => true
  | c :: rest => fits label before c rest && allFit label (c :: before) rest

/-- No hyphen stands at either end, nor two at the third place. -/
def keepsHyphens (label : List Char) : Bool :=
  label.head? ≠ some '-' && label.getLast? ≠ some '-' && (label.drop 2).take 2 ≠ ['-', '-']

/-- A label in the form that its readers see. -/
def isLabel (label : List Char) : Bool :=
  label ≠ [] && isComposed label && keepsHyphens label && !label.head?.any isMark &&
    allFit label [] label && keepsDirection label

/-- A label in ASCII may stand for another one. -/
def isAsciiLabel (label : List Char) : Bool :=
  if codedMark.isPrefixOf label then
    let coded := label.drop 4
    coded ≠ [] && coded.getLast? ≠ some '-' && (Punycode.decode? coded).any isLabel
  else isLabel label

/-- One label, if it may be one. -/
def label? (label : List Char) : Option (List Char) :=
  let ascii := label.all (·.toNat < 128)
  let written := if ascii then label else codedMark ++ Punycode.encode label
  if (if ascii then isAsciiLabel label else isLabel label) && written.length ≤ 63 then some written
  else none

/-- The dots of other scripts. -/
def plainDot (c : Char) : Char := if "\u3002\uff0e\uff61".toList.contains c then '.' else c

/-- A name written in ASCII; a dot may end it, and the rest is no longer than 253 characters. -/
def asciiName? (cs : List Char) : Option (List Char) :=
  let labels := Path.pieces '.' (cs.map plainDot)
  let ended := labels.getLast? = some []
  match (if ended then labels.dropLast else labels).mapM label? with
  | none | some [] => none
  | some written =>
    let name := List.intercalate ['.'] written
    if name.length ≤ 253 then some (if ended then name ++ ['.'] else name) else none

end BlockFsck.Text
