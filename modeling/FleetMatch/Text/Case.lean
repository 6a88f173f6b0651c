/-!
# Letter case

Words of commands and settings are matched with the letters A to Z folded to small letters.  Other
letters stand for themselves: no word of this library has one.  There is one further character whose
small letter is among a to z, the Kelvin sign.
-/

namespace FleetMatch.Text

/-- The text with its letters A to Z made small. -/
def lowered (s : String) : String := String.ofList (s.toList.map Char.toLower)

/-- The small letter of a character, if that is one of a to z; otherwise the character itself. -/
def small (c : Char) : Char := if c = '\u212a' then 'k' else c.toLower

/-- The text with every character made small that has a small letter among a to z. -/
def allSmall (s : String) : String := String.ofList (s.toList.map small)

end FleetMatch.Text
