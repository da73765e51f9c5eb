/-
Letter case, as far as names in ASCII need it.

The Kelvin sign is the only character beyond ASCII whose small letter is an ASCII letter. All others are left alone: text
with one of them is no name in ASCII, whatever its case.
-/

namespace Errand.Text

def smallChar (c : Char) : Char := if c = '\u212A' then 'k' else c.toLower

def small (s : String) : String := String.ofList (s.toList.map smallChar)

end Errand.Text
