/-!
# Listener identities
-/

namespace HardwareSigner

/-- The number a listener is registered under. Ids that a client allocates for itself start at
`ListenerId.firstAllocated`, so that they never meet small ids picked by hand. -/
structure ListenerId where
  value : UInt64
  deriving DecidableEq, Repr

namespace ListenerId

def firstAllocated : Nat := 4294967296

def display (id : ListenerId) : String := s!"#{id.value}"

end ListenerId

end HardwareSigner
