import FileMagic.Pattern.Match
import FileMagic.Pattern.Parse
import FileMagic.RegexEngine

/-! The engine of regular expressions whose expressions are patterns. -/

namespace FileMagic

namespace Pattern

def toRegex (p : Pattern) : Regex := ⟨p.search⟩

instance engine : RegexEngine := ⟨fun fold source => (ofBytes? fold source).map toRegex⟩

end Pattern
end FileMagic
