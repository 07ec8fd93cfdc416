import CutPath.Decimal.Format
import CutPath.Text.Case

namespace CutPath

/-- Numerals of a page description: the shortest digits that read back, always with a point or an
exponent, and without an exponent from 0.0001 to below 10^16. -/
def numeral : Decimal.Format := ⟨some (-4), some 16, true, false, .up⟩

structure SpotColor where
  name : Text
  cyan : Binary64
  magenta : Binary64
  yellow : Binary64
  black : Binary64
  deriving DecidableEq, Repr

namespace SpotColor

def cutContourName : Text := "CutContour"

def cutContour : SpotColor := ⟨cutContourName, .zero, .one, .zero, .zero⟩

def channels (c : SpotColor) : List Binary64 := [c.cyan, c.magenta, c.yellow, c.black]

def headerChannels (c : SpotColor) : Text :=
  Text.join [' '] (c.channels.map Decimal.writeHundredths)

def literalChannels (c : SpotColor) : Text := Text.join [' '] (c.channels.map numeral.write)

end SpotColor

structure StrokeStyle where
  width : Binary64
  deriving DecidableEq, Repr

namespace StrokeStyle

def hairline : StrokeStyle := ⟨.finite false (Nat.pow 2 52) (-54)⟩

def literalWidth (s : StrokeStyle) : Text := numeral.write s.width

end StrokeStyle

structure RegionTag where
  needles : List Text
  deriving DecidableEq, Repr

namespace RegionTag

/-- Case and blanks around a word do not matter; a blank word counts for nothing. -/
def ofWords (words : List Text) : RegionTag :=
  ⟨(words.map fun w => Text.lowercase (Text.trim w)).filter (!·.isEmpty)⟩

def accepts (tag : RegionTag) (name : Text) : Bool :=
  let lower := Text.lowercase name
  tag.needles.any (Text.occursIn · lower)

def isEmpty (tag : RegionTag) : Bool := tag.needles.isEmpty

def default : RegionTag := ofWords [SpotColor.cutContourName]

end RegionTag
end CutPath
