import TokenSearch.Digest.Sha256

namespace TokenSearch

/-! What tells whether a file changed. -/

structure Fingerprint where
  size : Int
  sha256 : String
  modified : Option Int
deriving DecidableEq, Repr, Inhabited

namespace Fingerprint

def ofContent (content : Bytes) (modified : Option Int) : Fingerprint :=
  ⟨content.length, Digest.Sha256.digest content, modified⟩

/-- Equal size and digest; the time of change does not count. -/
def isEquivalent (a b : Fingerprint) : Bool :=
  a.size = b.size && a.sha256 = b.sha256

end Fingerprint

end TokenSearch
