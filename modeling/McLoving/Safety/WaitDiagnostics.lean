import McLoving.Safety.Affinity

/-!
# Wait diagnostics and claims

The diagnostic queries ask the same of a node as the claim query, except for the conditions of
workspace affinity.  So a claim takes work exactly if work is reported as ready and affinity admits
the agent to some of it.
-/

namespace McLoving.Store

open List Option Table

variable {own : Prop} {s s' : Store}

/-! ## What the report says -/

variable {id : Uuid} {n : NodeRow} {b : BuildRow}

section Answers

variable {capabilities : List String} {trustPool : String}

end Answers

/-! ## What a claim takes -/

namespace Sample

/-- The calls that admit the single-node build and disable its pipeline. -/
def disabled : List Op :=
  admitted ++ [.transitionPipeline ⟨1, 2, 1, .disabled, "off", "owner", "ops", "g", 0, digest, "k"⟩]

end Sample

end McLoving.Store
