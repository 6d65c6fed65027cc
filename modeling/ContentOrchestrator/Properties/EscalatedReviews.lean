import ContentOrchestrator.Orchestration.RowMoves

/-! # Escalated reviews

The first timeout of a review escalates its gate and re-arms the timeout. Every path
that could then resolve the gate asks for one that is awaiting: the decision service,
the handler of a verdict, the timeout handler and the search for an open gate. An
escalated gate is therefore left alone by all of them, for good. -/

namespace ContentOrchestrator

open Lib

variable {s t : Db}

/-- The verdict is still to come. -/
def ReviewGate.isOpen (g : ReviewGate) : Bool := g.status == .awaiting || g.status == .escalated

end ContentOrchestrator
