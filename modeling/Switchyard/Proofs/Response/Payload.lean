import Switchyard.Proofs.Response.Written

/-!
# What a responder writes

A responder adds its payload to the body of a draft, the same bytes whatever the draft holds, and whether it can be
written as a whole or fails (`Responder.body_writeTo`). What is left of a draft when the work on it ends or fails is
named (`Drafting.after`), and rendering leaves just that, done (`Machine.draft_render`).
-/

namespace Switchyard

open Http (Status)

namespace Drafting

/-- The draft that is left, whether the work ends or fails. -/
def after (x : Drafting Unit) (d : Draft) : Draft :=
  match x.run d with
  | .ok _ d => d
  | .error _ d => d

/-- What fails leaves the draft as it is. -/
theorem Renders.after_flaw {x : Drafting Unit} {flaw? : Option Failure} {code : Status} {bytes : List UInt8}
    (h : x.Renders flaw? code bytes) {failure : Failure} (hflaw : flaw? = some failure) (d : Draft) : x.after d = d := by
  rw [after, h.fails failure hflaw]

/-- What does not fail leaves its response. -/
theorem Renders.after_carries {x : Drafting Unit} {flaw? : Option Failure} {code : Status} {bytes : List UInt8}
    (h : x.Renders flaw? code bytes) (hflaw : flaw? = none) (d : Draft) : d.Carries code bytes (x.after d) := by
  obtain ⟨d', hrun, hcarries⟩ := h.writes hflaw d
  rwa [after, hrun]

/-- The work adds some bytes to the body, whatever the draft. -/
def Adds (x : Drafting Unit) (bytes : List UInt8) : Prop :=
  ∀ d, (x.after d).body = d.body ++ bytes

/-- What renders, adds its bytes; what fails, none. -/
theorem Renders.adds {x : Drafting Unit} {flaw? : Option Failure} {code : Status} {bytes : List UInt8}
    (h : x.Renders flaw? code bytes) : ∃ bytes, x.Adds bytes := by
  cases hflaw : flaw? with
  | some failure =>
    refine ⟨[], fun d => ?_⟩
    rw [h.after_flaw hflaw, List.append_nil]
  | none => exact ⟨bytes, fun d => (h.after_carries hflaw d).body⟩

end Drafting

namespace Responder

/-- The bytes that a responder writes to a fresh draft. -/
def payload (r : Responder) : List UInt8 :=
  (r.writeTo.after {}).body

/-- **A responder adds its payload to the body**, whatever it is written to. -/
theorem body_writeTo (r : Responder) (d : Draft) : (r.writeTo.after d).body = d.body ++ r.payload := by
  obtain ⟨bytes, h⟩ := r.renders_writeTo.adds
  have hpayload : r.payload = bytes := h {}
  rw [hpayload, h d]

end Responder

/-- Rendering a responder writes it and makes the response done. -/
theorem Machine.draft_render (m : Machine) (r : Responder) :
    (m.render r).context.draft = (r.writeTo.after m.context.draft).markDone := by
  unfold render Drafting.after
  cases r.writeTo.run m.context.draft <;> rfl

end Switchyard
