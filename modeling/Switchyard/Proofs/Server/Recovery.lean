import Switchyard.Proofs.Chain.Alone
import Switchyard.Proofs.Server.Dispatch

/-!
# Recovery from panics

A server that catches panics has one guard below its chain. Where an entry panics, the guard runs the panic handler, on
the context of the entry without anything of the response, and with both lanes closed. If the handler is secluded and
does not panic itself, the response is what it makes of that context on its own (`Server.faultResponse`), whatever was
written before the panic (`Server.fault_answered`).
-/

namespace Switchyard

namespace Thread

/-- The panic handler is about to run for a fault that was caught in a context: it finds that context without anything of
the response, and nothing to drive. -/
structure Handed (handler : Fault → Program) (fault : Fault) (c : Context) (t : Thread) : Prop where
  control : t.control = .program (handler fault)
  frames : t.frames = []
  context : t.machine.context = { c with draft := {} }
  closed : t.machine.Closed
  faults : t.machine.journal.faults = [fault]

/-- A panic was caught, and its handler was run. -/
def Recovering (handler : Fault → Program) (fault : Fault) (c : Context) (t : Thread) : Prop :=
  ∃ u : Thread, u.Handed handler fault c ∧ u.SharedSteps t

variable {handler : Fault → Program} {fault : Fault} {c : Context} {t u v : Thread}

theorem Recovering.tail (h : t.Recovering handler fault c) (hs : t.SharedStep u) : u.Recovering handler fault c :=
  h.imp fun _ hw => ⟨hw.1, hw.2.tail hs⟩

theorem Catches.step (h : t.Catches u) : t.step = some u := by
  obtain ⟨control, frames, m⟩ := t
  obtain ⟨payload, handler, rest, hcontrol, hframes, rfl⟩ := h
  obtain rfl : control = .unwind payload := hcontrol
  obtain rfl : frames = .guard handler :: rest := hframes
  rfl

theorem handed_caught {m : Machine} (h : m.journal.faults = []) (handler : Fault → Program) (fault : Fault) :
    Handed handler fault m.context ⟨.program (handler fault), [], m.caught fault⟩ where
  control := rfl
  frames := rfl
  context := rfl
  closed kind := m.isOpen_halt kind
  faults := by
    have hbefore : ({ m.halt with context := m.context.resetResponse } : Machine).journal.faults = [] := h
    exact (Machine.faults_report _ _).trans (by rw [hbefore]; rfl)

/-- What a guard catches it hands over. -/
theorem Guarded.handed (h : t.Guarded handler) (hc : t.Catches u) :
    ∃ payload, t.control = .unwind payload ∧ u.Handed handler (.ofPanic payload) t.machine.context := by
  obtain ⟨payload, hcontrol, rfl⟩ := h.catches hc
  exact ⟨payload, hcontrol, handed_caught h.faults handler _⟩

theorem Handed.face (h : t.Handed handler fault c) : t.face = (.program (handler fault), [], c.resetResponse) := by
  rw [Thread.face, h.control, h.frames, h.context]
  rfl

/-- A panic under a guard is handed over for what it is. -/
theorem Guarded.handed_doomed (h : t.Guarded handler) {payload : Panic} (hd : t.Doomed payload) (hc : t.Catches u) :
    u.Handed handler (.ofPanic payload) t.machine.context := by
  obtain ⟨payload', hcontrol, hhanded⟩ := h.handed hc
  rcases hd with hprogram | hunwind
  · cases hprogram.symm.trans hcontrol
  · cases hunwind.symm.trans hcontrol
    exact hhanded

/-- **What becomes of a thread under a guard**: it goes on, ends, or recovers. -/
theorem Guarded.fate (h : t.Guarded handler) (hv : t.SharedSteps v) :
    v.Guarded handler ∨ v.Returned ∨ ∃ fault c, v.Recovering handler fault c := by
  induction hv with
  | refl => exact .inl h
  | tail _ hs ih =>
    rcases ih with hguarded | hreturned | ⟨fault, c, hrecovering⟩
    · cases hs with
      | others w => exact .inl (hguarded.inWorld w)
      | own hs =>
        rcases hguarded.step hs with hguarded' | hreturned | hcatch
        · exact .inl hguarded'
        · exact .inr (.inl hreturned)
        · obtain ⟨payload, -, hhanded⟩ := hguarded.handed hcatch
          exact .inr (.inr ⟨_, _, _, hhanded, .refl⟩)
    · exact .inr (.inl (hreturned.sharedStep hs))
    · exact .inr (.inr ⟨fault, c, hrecovering.tail hs⟩)

/-- **What becomes of a panic under a guard**: it leaves the context as it is until it is caught, and then its handler
runs on that. -/
theorem Guarded.fate_doomed (h : t.Guarded handler) {payload : Panic} (hd : t.Doomed payload) (hv : t.SharedSteps v) :
    (v.Guarded handler ∧ v.Doomed payload ∧ v.machine.context = t.machine.context) ∨
      v.Recovering handler (.ofPanic payload) t.machine.context := by
  induction hv with
  | refl => exact .inl ⟨h, hd, rfl⟩
  | tail _ hs ih =>
    rcases ih with ⟨hguarded, hdoomed, hcontext⟩ | hrecovering
    · cases hs with
      | others w => exact .inl ⟨hguarded.inWorld w, hdoomed, hcontext⟩
      | own hs =>
        rcases hguarded.step_doomed hdoomed hs with ⟨hguarded', hdoomed', hmachine⟩ | hcatch
        · exact .inl ⟨hguarded', hdoomed', hmachine ▸ hcontext⟩
        · exact .inr ⟨_, hcontext ▸ hguarded.handed_doomed hdoomed hcatch, .refl⟩
    · exact .inr (hrecovering.tail hs)

section Secluded

variable (hsecluded : ∀ fault, (handler fault).Within Deed.Secluded)
include hsecluded

theorem Handed.solo (h : t.Handed handler fault c) : t.Solo where
  control := h.control ▸ hsecluded fault
  frames _ hmem := absurd (h.frames ▸ hmem) List.not_mem_nil
  closed := h.closed
  unguarded _ hmem := absurd (h.frames ▸ hmem) List.not_mem_nil

variable {flow : Flow} {m : Machine} (hrun : (handler fault).runAlone c.resetResponse = (.ok flow, m))
include hrun

/-- **A recovery ends as the handler does on its own**, and catches nothing more. -/
theorem Recovering.ends (h : t.Recovering handler fault c) :
    t.machine.journal.faults = [fault] ∧ (∀ payload, ¬ t.Doomed payload) ∧
      (t.step = none → t.control = .idle ∧ t.frames = [] ∧ t.machine.context = m.context) := by
  obtain ⟨u, hhanded, hsteps⟩ := h
  obtain ⟨hsame, hdoomed, hend⟩ := (hhanded.solo hsecluded).ends_alone hrun hhanded.face hsteps
  exact ⟨hsame.trans hhanded.faults, hdoomed, hend⟩

/-- The handler comes to an end. -/
theorem Handed.steps_end (h : t.Handed handler fault c) : ∃ v, t.Steps v ∧ v.step = none := by
  obtain ⟨-, -, v, hv, -, hface⟩ :=
    (solo_alone (hsecluded fault) _).follows (h.solo hsecluded) h.face.symm (steps_alone hrun).shared
  obtain ⟨hcontrol, hframes, -⟩ := face_eq hface
  refine ⟨v, hv, ?_⟩
  obtain ⟨control, frames, n⟩ := v
  obtain rfl : .idle = control := hcontrol
  obtain rfl : [] = frames := hframes
  rfl

end Secluded

end Thread

namespace Server

/-- The finished response of the panic handler to a fault, in a context without any response. -/
def faultResponse (s : Server) (fault : Fault) (c : Context) (isHead : Bool) : Response :=
  finish ((s.panicHandler fault).runAlone c.resetResponse).2.context.draft isHead

/-- Only what the handler makes of the fault and the context without the response matter. -/
theorem faultResponse_congr {s s' : Server} {fault fault' : Fault} {c c' : Context} {isHead : Bool}
    (hhandler : s'.panicHandler fault' = s.panicHandler fault)
    (hcontext : { c' with draft := {} } = { c with draft := {} }) :
    s'.faultResponse fault' c' isHead = s.faultResponse fault c isHead := by
  unfold faultResponse
  rw [hhandler, show c'.resetResponse = c.resetResponse from hcontext]

/-- A handler makes the same of two faults with one message, if they come from one place or it makes nothing of
places. -/
theorem panicHandler_congr {s : Server} {fault fault' : Fault} (hmessage : fault'.message = fault.message)
    (hplace : fault'.location = fault.location ∨
      ∀ fault location, s.panicHandler { fault with location } = s.panicHandler fault) :
    s.panicHandler fault' = s.panicHandler fault := by
  obtain ⟨message, location⟩ := fault
  obtain ⟨message', location'⟩ := fault'
  obtain rfl : message' = message := hmessage
  rcases hplace with hsame | hblind
  · obtain rfl : location' = location := hsame
    rfl
  · exact hblind ⟨message', location⟩ location'

/-- The response of the default panic handler. -/
def defaultFaultResponse (isHead : Bool) : Response where
  status := .serverError
  headers := ⟨[(.contentType, Cors.value Http.MediaType.json.text)]⟩
  body :=
    if isHead then .empty
    else .ofText
      "\x7b\"errors\":[\x7b\"message\":\"internal server error\"\x7d],\"code\":500,\"success\":false\x7d"

theorem defaultPanicHandler_secluded (fault : Fault) : (defaultPanicHandler fault).Within Deed.Secluded :=
  fun _ => ⟨trivial, trivial⟩

theorem defaultPanicHandler_runAlone (fault : Fault) (c : Context) :
    ∃ m, (defaultPanicHandler fault).runAlone c = (.ok .proceed, m) :=
  ⟨_, rfl⟩

theorem faultResponse_default {s : Server} (h : s.panicHandler = defaultPanicHandler) (fault : Fault) (c : Context)
    (isHead : Bool) : s.faultResponse fault c isHead = defaultFaultResponse isHead := by
  unfold faultResponse
  rw [h]
  have hdraft : ((defaultPanicHandler fault).runAlone c.resetResponse).2.context.draft =
      ⟨some .serverError, ⟨[(.contentType, Cors.value Http.MediaType.json.text)]⟩, (defaultFaultResponse false).body.bytes,
        (defaultFaultResponse false).body.bytes.length, true⟩ := rfl
  rw [hdraft]
  cases isHead <;> rfl

variable {s : Server} {r : Request}

theorem depart_guarded (hcatch : s.options.catchPanics = true) (k : Carrier) :
    (s.depart k r).thread.Guarded s.panicHandler where
  frames := ⟨[], if_pos hcatch, nofun⟩
  faults := poise_filterMap (fun _ _ _ => rfl) s k r

section Handled

variable (hcatch : s.options.catchPanics = true) (hsecluded : ∀ fault, (s.panicHandler fault).Within Deed.Secluded)
  (hquiet : ∀ fault c, c.draft = {} → ∃ flow m, (s.panicHandler fault).runAlone c = (.ok flow, m))
  {k : Carrier} {t : Thread} (ht : (s.depart k r).thread.SharedSteps t) {payload : Panic}
  (hpanic : t.control = .program (.panic payload))
include hcatch hsecluded hquiet ht hpanic

/-- Nothing was caught before an entry panics: a handler that runs does not panic. -/
theorem guarded_of_panic : t.Guarded s.panicHandler := by
  rcases (depart_guarded hcatch k).fate ht with hguarded | hreturned | ⟨fault, c, hrecovering⟩
  · exact hguarded
  · cases hreturned.control.symm.trans hpanic
  · obtain ⟨flow, m, hrun⟩ := hquiet fault c.resetResponse rfl
    exact absurd (.inl hpanic) ((hrecovering.ends hsecluded hrun).2.1 payload)

/-- The panic is caught once, and answered as the handler does on its own. -/
theorem fault_ended {v : Thread} (hv : t.SharedSteps v) (hend : v.step = none) :
    v.machine.journal.faults = [.ofPanic payload] ∧ Flight.outcome? ⟨r, v⟩ =
      some (.ok (s.faultResponse (.ofPanic payload) t.machine.context (r.method == .standard .head))) := by
  have hguarded := guarded_of_panic hcatch hsecluded hquiet ht hpanic
  rcases hguarded.fate_doomed (.inl hpanic) hv with ⟨hv', hdoomed, -⟩ | hrecovering
  · obtain ⟨w, hsteps, hcatches⟩ := hv'.steps_catch hdoomed
    -- what still has a panic to catch makes a step
    rcases Relation.ReflTransGen.cases_head hsteps with rfl | ⟨u, hu, -⟩
    · cases hend.symm.trans hcatches.step
    · cases hend.symm.trans hu
  · obtain ⟨flow, m, hrun⟩ := hquiet (.ofPanic payload) t.machine.context.resetResponse rfl
    obtain ⟨hfaults, -, hended⟩ := hrecovering.ends hsecluded hrun
    obtain ⟨hcontrol, hframes, hcontext⟩ := hended hend
    refine ⟨hfaults, ?_⟩
    obtain ⟨control, frames, n⟩ := v
    obtain rfl : control = .idle := hcontrol
    obtain rfl : frames = [] := hframes
    have hfinish : Flight.outcome? ⟨r, ⟨.idle, [], n⟩⟩ = some (.ok (finish n.context.draft (r.method == .standard .head))) :=
      rfl
    rw [hfinish, show n.context = m.context from hcontext, faultResponse, hrun]

/-- The recovery comes to an end. -/
theorem fault_ends : ∃ v, t.Steps v ∧ v.step = none := by
  have hguarded := guarded_of_panic hcatch hsecluded hquiet ht hpanic
  obtain ⟨u, hu, hcatches⟩ := hguarded.steps_catch (.inl hpanic)
  obtain ⟨flow, m, hrun⟩ := hquiet (.ofPanic payload) t.machine.context.resetResponse rfl
  obtain ⟨v, hv, hend⟩ := (Thread.handed_caught hguarded.faults _ _).steps_end hsecluded hrun
  exact ⟨v, (hu.tail hcatches.step).trans hv, hend⟩

end Handled

/-- A server whose handler panics after it has written some bytes, within the drive of a middleware. -/
def breaking (bytes : List UInt8) (location : Option String) : Server :=
  { Server.new { catchPanics := true } .empty with
    world := { lists := [[.drive .all (.finish .proceed)]] }
    router := ((Router.new {}).insert "" .get ⟨"/", "/", []⟩
      ⟨0, [.change (.write bytes) (.panic ⟨.text "boom", location⟩)]⟩).2 }

/-- A handler that answers with the text of the fault shows where the panic was raised, so that for this one the same
message alone does not make the same response. -/
example :
    let s := { breaking [1] none with panicHandler := fun fault => .render (.text fault.text) (.finish .proceed) }
    (s.faultResponse ⟨"boom", some "main.rs:7:5"⟩ {} false).body.bytes = "boom at main.rs:7:5".toUTF8.toList ∧
      (s.faultResponse ⟨"boom", some "main.rs:9:5"⟩ {} false).body.bytes ≠ "boom at main.rs:7:5".toUTF8.toList := by
  decide +kernel

end Server

end Switchyard
