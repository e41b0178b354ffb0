import ContentSync.Text.Mark

/-!
# The direction of labels

Letters are written from left to right or from right to left. Where a name holds letters of the
second kind, each label must be such that its characters are shown in one order only, whatever
stands beside it.

* `Domain.direction` — how a character is written;
* `Domain.keepsDirection` — whether a label is shown in one order only;
* `Domain.isMixed` — whether a name needs that of its labels.
-/

set_option autoImplicit false

namespace ContentSync.Domain

/-- How a character is written. -/
inductive Direction where
  | leftToRight
  | rightToLeft
  | arabicNumber
  | number
  /-- Like what stands around it. -/
  | neutral
  /-- Like the letter before it. -/
  | mark
  deriving DecidableEq, Repr

/-- Letters that are written from right to left. Like those that follow, the runs go on over code
points that no name holds, and over marks. -/
def rightToLeftSet : Text.CodeSet := Text.CodeSet.ofText
  "5BE-5F4 608 60B 60D 61B-64A 66D-6D5 6E5-6E6 6EE-6EF 6FA-7F5 7FA-8C9 FBB2-FBC2 FE73
    10800-1091B 10920-10B35 10B40-10D23 10D40-10D4F 10D6F-10D8F 10E80-10EC7 10F00-10FF6
    1E800-1ED3D"

def arabicNumberSet : Text.CodeSet := Text.CodeSet.ofText
  "660-669 66B-66C 10D30-10D39 10E60-10E7E"

def numberSet : Text.CodeSet := Text.CodeSet.ofText
  "6F0-6F9 102E1-102FB"

def neutralSet : Text.CodeSet := Text.CodeSet.ofText
  "A1-D7 F7 2B9-2BA 2C2-2CF 2D2-2ED 2EF-2FF 375 3F6 58A-58F 606-607 609-60A 60C 60E-60F 66A 6DE
    6E9 7F6-7F9 9F2-9F3 9FB AF1 BF3-BFA C78-C7E E3F F3A-F3D 1390-1399 1400 169B-169C 17DB
    17F0-180A 1940-1945 19DE-19FF 200C-214D 218A-2335 237B-2394 2396-26AB 26AD-27FF 2900-2BFF
    2CE5-2CEA 2CF9-2CFF 2E00-3004 3008-3020 3030 3037 303D-303F 30A0 30FB 31C0-31E5 4DC0-4DFF
    A490-A4C6 A60D-A60F A673-A67F A700-A721 A788 A828-A82B A838-A839 A874-A877 AB6A-AB6B
    FBC3-FE46 10101 10140-1018C 10190-101A0 1091F 10B39-10B3F 10D6E 10ED0-10ED8 11052-11065
    11660-1166C 11FD5-11FF1 16FE2 1CC00-1CEF0 1D1E9-1D245 1D300-1D356 1E2FF 1EEF0-1F12F
    1F16D-1F16F 1F1AD 1F260-1FBFA"

/-- The marks that are written like letters. -/
def letterMarks : List Nat := [0xCBF, 0xCC6, 0x11A07, 0x11A08, 0x11C3F]

def direction (c : Char) : Direction :=
  let n := c.toNat
  if n < 0x80 then
    if c.isAlpha then .leftToRight else if c.isDigit then .number else .neutral
  else if Text.isNonspacing c && !letterMarks.contains n then .mark
  else if arabicNumberSet.contains n then .arabicNumber
  else if numberSet.contains n then .number
  else if neutralSet.contains n then .neutral
  else if rightToLeftSet.contains n then .rightToLeft
  else .leftToRight

/-- Whether a name holds a character that is not written from left to right. -/
def isMixed (name : List Char) : Bool :=
  name.any fun c => 0x80 ≤ c.toNat && [.rightToLeft, .arabicNumber].contains (direction c)

/-- What a label that is written from left to right may hold, and how it may end. -/
def keepsLeftToRight (ds : List Direction) : Bool :=
  ds.all [.leftToRight, .number, .neutral, .mark].contains
    && ((ds.reverse.dropWhile (· == .mark)).head?.map
      [Direction.leftToRight, .number].contains).getD true

/-- What a label that is written from right to left may hold, and how it may end. It does not hold
figures of two kinds. -/
def keepsRightToLeft (ds : List Direction) : Bool :=
  ds.all [.rightToLeft, .arabicNumber, .number, .neutral, .mark].contains
    && ((ds.reverse.dropWhile (· == .mark)).head?.map
      [Direction.rightToLeft, .number, .arabicNumber].contains).getD true
    && !(ds.contains .number && ds.contains .arabicNumber)

/-- Whether a label is shown in one order only. It starts with a letter. -/
def keepsDirection (label : List Char) : Bool :=
  let ds := label.map direction
  match ds with
  | [] => true
  | .leftToRight :: _ => keepsLeftToRight ds
  | .rightToLeft :: _ => keepsRightToLeft ds
  | _ => false

end ContentSync.Domain
