import TokenSearch.Proofs.Search.Limit
import TokenSearch.Proofs.Service.Search

namespace TokenSearch.Service

/-! The limit of a search: the one that is given, or else that of the settings. -/

open Data Artifact
open Search (effectiveLimit)
open Store (bare)

variable {settings : Settings} {root : Path} {text : Text.RawText} {query : Query}
  {limit : Option Int} {world : World} {store : Store}

end TokenSearch.Service
