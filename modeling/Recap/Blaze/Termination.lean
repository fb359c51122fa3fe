import Recap.Blaze.ParserProgress
import Recap.Blaze.ParserStarved

/-! When the parser comes to an end, whatever its uninitialised locals hold. -/

namespace Recap.Blaze.Parser

end Recap.Blaze.Parser
