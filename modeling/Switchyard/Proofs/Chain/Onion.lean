import Switchyard.Proofs.Chain.Runs

/-!
# A chain is an onion

Here a chain is one list of layers, the middleware and after them the handlers, without cursors and flags. The first
drive of a layer runs the layers inside it, and every later one does nothing; a layer that goes on without having
driven is followed by the layers inside it; nothing is run once the response is done, and a layer that responds or
stops, or empties the context, drops what it has not run (`Onion.run`).

For entries that only drive the whole chain, the machine with its two lanes does just that (`driveChain_bare`):
the same events in the same order, the same context, and the same panic. The proof relates a machine to the layers
that are still to be run (`Meets`): either the response is done, or they are the entries left in the open lanes.
Driving both lanes is driving the one list of these entries (`driveAll_middleware`, `driveAll_handlers`).
-/

namespace Switchyard

/-! ## The onion -/

/-- An entry with the place it is started at. -/
structure Layer where
  kind : LaneKind
  index : Nat
  entry : Program

/-- The entries of a lane as layers. -/
def layers (kind : LaneKind) (entries : List Program) : List Layer :=
  entries.zipIdx.map fun (entry, index) => ⟨kind, index, entry⟩

namespace Onion

/-- Runs a program around the layers inside it, which its first drive runs; tells whether they are used up. -/
def peel (inside : Run Unit) : (used : Bool) → Program → Run (Flow × Bool)
  | used, .finish flow => pure (flow, used)
  | _, .panic payload => throw payload
  | used, .look next => do
    let m ← get
    peel inside used (next m.context)
  | used, .change c next => do
    modify (·.apply c)
    peel inside used next
  | used, .render r next => do
    modify (·.render r)
    peel inside used next
  | _, .recycle next => do
    modify (·.recycle)
    peel inside true next
  | true, .drive _ next => peel inside true next
  | false, .drive _ next => do
    inside
    peel inside true next
  | used, .note script action reply next => do
    modify (·.report (.note script action reply))
    peel inside used next
  | used, .log r next => do
    modify (·.report (.logged r))
    peel inside used next
  | used, .readFile path next => do
    let m ← get
    modify (·.report (.fileRead path))
    peel inside used (next (m.world.files.read path))
  | used, .count counter next => do
    let m ← get
    modify fun m => { m with world := m.world.count counter }
    peel inside used (next (m.world.counted counter))
  | used, .attach list entry next => do
    modify fun m => { m with world := m.world.attach list entry }
    peel inside used next
  | used, .lengthOf list next => do
    let m ← get
    peel inside used (next (m.world.list list).length)

/-- Runs layers, each around those after it, until the response is done. The lanes of the machine are never looked
at. -/
def run : List Layer → Run Unit
  | [] => pure ()
  | layer :: rest => do
    let m ← get
    if m.context.draft.done then
      pure ()
    else
      modify (·.report (.started layer.kind layer.index))
      let (flow, used) ← peel (run rest) false layer.entry
      modify (·.report (.finished layer.kind layer.index flow))
      match flow with
      | .proceed => if used then pure () else run rest
      | .respond r => modify (·.render r)
      | .stop => pure ()

end Onion

/-- Whether a program drives the chain only as a whole. -/
def Program.DrivesWhole : Program → Prop
  | .finish _ => True
  | .panic _ => True
  | .look next => ∀ c, (next c).DrivesWhole
  | .change _ next => next.DrivesWhole
  | .render _ next => next.DrivesWhole
  | .recycle next => next.DrivesWhole
  | .drive d next => d = .all ∧ next.DrivesWhole
  | .note _ _ _ next => next.DrivesWhole
  | .log _ next => next.DrivesWhole
  | .readFile _ next => ∀ result, (next result).DrivesWhole
  | .count _ next => ∀ n, (next n).DrivesWhole
  | .attach _ _ next => next.DrivesWhole
  | .lengthOf _ next => ∀ n, (next n).DrivesWhole

/-- A machine without its lanes. -/
def Machine.bare (m : Machine) : Machine :=
  { m with middleware := {}, handlers := {} }

/-- The outcome of a run, on a machine without its lanes. -/
def bareResult {α : Type} : EStateM.Result Panic Machine α → EStateM.Result Panic Machine α
  | .ok a m => .ok a m.bare
  | .error payload m => .error payload m.bare

/-! ## What is still to be run -/

/-- The entries of an open lane that were not started. -/
def Lane.rest (kind : LaneKind) (l : Lane) : List Layer :=
  if l.isOpen then (layers kind l.entries).drop l.started else []

/-- The entries that were not started, in the order in which the lanes are driven. -/
def Machine.rest (m : Machine) : List Layer :=
  m.middleware.rest .middleware ++ m.handlers.rest .handlers

theorem getElem?_layers (kind : LaneKind) (entries : List Program) (i : Nat) :
    (layers kind entries)[i]? = entries[i]?.map fun entry => ⟨kind, i, entry⟩ := by
  simp only [layers, List.getElem?_map, List.getElem?_zipIdx]
  cases entries[i]? <;> simp

namespace Lane

variable {kind : LaneKind} {l : Lane}

theorem rest_next {index : Nat} {entry : Program} (h : l.next? = some (index, entry)) :
    l.rest kind = ⟨kind, index, entry⟩ :: l.advance.rest kind := by
  obtain ⟨ho, rfl, he⟩ := next?_eq_some h
  have hl : (layers kind l.entries)[l.started]? = some ⟨kind, l.started, entry⟩ := by rw [getElem?_layers, he]; rfl
  obtain ⟨hlt, hget⟩ := List.getElem?_eq_some_iff.1 hl
  rw [rest, if_pos ho, List.drop_eq_getElem_cons hlt, hget, rest, advance, if_pos ho]

theorem rest_empty (h : l.next? = none) : l.rest kind = [] := by
  unfold rest
  unfold next? at h
  split at h
  · rename_i ho
    have hlen : l.entries.length ≤ l.started := by simpa using h
    rw [if_pos ho, List.drop_eq_nil_iff]
    simpa [layers] using hlen
  · rename_i ho; rw [if_neg ho]

theorem close_eq (h : l.isOpen = false) : l.close = l := by
  cases l; cases h; rfl

theorem next?_closed (h : l.isOpen = false) : l.next? = none := by
  simp [next?, h]

end Lane

/-- Closing a closed lane once more changes nothing. -/
theorem Machine.close_eq {m : Machine} {kind : LaneKind} (h : (m.lane kind).isOpen = false) : m.close kind = m := by
  have hset : ∀ {l : Lane}, l = m.lane kind → m.setLane kind l = m := by
    rintro l rfl
    cases kind <;> rfl
  exact hset (Lane.close_eq h)

/-! ## The two lanes as one list -/

/-- A closed lane is not opened again. -/
theorem kept_closed (kind : LaneKind) :
    Kept fun m m' => (m.lane kind).isOpen = false → (m'.lane kind).isOpen = false where
  refl _ h := h
  trans h h' hm := h' (h hm)
  apply m c h := by cases c <;> exact h
  render m r _ := by
    unfold Machine.render
    cases r.writeTo.run m.context.draft <;> cases kind <;> rfl
  recycle _ _ := by cases kind <;> rfl
  report _ _ h := h
  world _ _ _ h := h
  close m k h := by cases k <;> cases kind <;> first | rfl | exact h
  start {m k index entry} _ h := by cases k <;> cases kind <;> exact h

section DriveAll

variable {bound : Nat} {m : Machine}

theorem driveAll_done (bound : Nat) (h : m.context.draft.done = true) :
    driveBy (runLane bound) .all m = .ok () m.halt := by
  rw [driveBy_all, runLane_done _ h]
  exact runLane_done bound h

theorem driveAll_empty (bound : Nat) (hm : (m.lane .middleware).next? = none)
    (hh : (m.lane .handlers).next? = none) :
    driveBy (runLane bound) .all m = .ok () m.halt := by
  rw [driveBy_all, runLane_empty _ hm]
  exact runLane_empty bound hh

/-- A middleware that does not go on is the last entry of the chain. -/
theorem runLane_settled {flow : Flow} (bound : Nat) (m : Machine) (h : flow.goesOn = false) :
    runLane bound .handlers ((m.settle .middleware flow).close .middleware) =
      .ok () (m.settle .middleware flow).halt := by
  cases flow with
  | proceed => cases h
  | respond r =>
    apply runLane_done
    unfold Machine.settle Machine.render
    cases r.writeTo.run m.context.draft <;> rfl
  | stop => exact runLane_empty bound (Lane.next?_closed rfl)

/-- Driving the chain starts with the next middleware, and goes on with the chain. -/
theorem driveAll_middleware {index : Nat} {entry : Program} (hb : m.pending ≤ bound + 1)
    (hd : m.context.draft.done = false)
    (hn : (m.lane .middleware).next? = some (index, entry)) :
    driveBy (runLane (bound + 1)) .all m =
      match entry.run (driveBy (runLane bound)) (m.start .middleware index) with
      | .error payload m => .error payload m
      | .ok flow m =>
        let settled := (m.report (.finished .middleware index flow)).settle .middleware flow
        if flow.goesOn then driveBy (runLane bound) .all settled else .ok () settled.halt := by
  have hs := Machine.pending_start hn
  have hle := kept_pending.run (kept_pending.driveBy (kept_pending.runLane bound)) entry (m.start .middleware index)
  rw [driveBy_all, runLane_next hd hn]
  cases hr : entry.run (driveBy (runLane bound)) (m.start .middleware index) with
  | error payload m' => rfl
  | ok flow m' =>
    rw [Run.after_ok hr] at hle
    dsimp only
    cases hg : flow.goesOn with
    | false => exact runLane_settled (bound + 1) _ hg
    | true =>
      -- the handlers have the old bound, which is as good as the new one
      rw [if_pos rfl, if_pos rfl, driveBy_all]
      have hset := kept_pending.settle (m'.report (.finished .middleware index flow)) .middleware flow
      have hlane := kept_pending.runLane bound .middleware
        ((m'.report (.finished .middleware index flow)).settle .middleware flow)
      have hle' := Nat.le_trans hset hle
      cases hl : runLane bound .middleware ((m'.report (.finished .middleware index flow)).settle .middleware flow) with
      | error payload m'' => rfl
      | ok u m'' =>
        rw [Run.after_ok hl] at hlane
        exact (runLane_bound (Nat.le_succ bound) .handlers m'' (by omega)).symm

/-- Without a middleware left, driving the chain starts with the next handler, and goes on with the chain. -/
theorem driveAll_handlers {index : Nat} {entry : Program} (hd : m.context.draft.done = false)
    (hm : (m.lane .middleware).next? = none)
    (hn : (m.lane .handlers).next? = some (index, entry)) :
    driveBy (runLane (bound + 1)) .all m =
      match entry.run (driveBy (runLane bound)) ((m.close .middleware).start .handlers index) with
      | .error payload m => .error payload m
      | .ok flow m =>
        let settled := (m.report (.finished .handlers index flow)).settle .handlers flow
        if flow.goesOn then driveBy (runLane bound) .all settled else .ok () settled.halt := by
  have hk := kept_closed .middleware
  have hc := hk.run (hk.driveBy (hk.runLane bound)) entry ((m.close .middleware).start .handlers index) rfl
  have hn' : ((m.close .middleware).lane .handlers).next? = some (index, entry) := hn
  rw [driveBy_all, runLane_empty _ hm]
  dsimp only
  rw [runLane_next (m := m.close .middleware) hd hn']
  cases hr : entry.run (driveBy (runLane bound)) ((m.close .middleware).start .handlers index) with
  | error payload m' => rfl
  | ok flow m' =>
    rw [Run.after_ok hr] at hc
    have hset : (((m'.report (.finished .handlers index flow)).settle .handlers flow).lane .middleware).isOpen = false :=
      hk.settle _ .handlers flow hc
    dsimp only
    generalize (m'.report (.finished .handlers index flow)).settle .handlers flow = settled at hset ⊢
    have hnone : (settled.lane .middleware).next? = none := Lane.next?_closed hset
    rw [driveBy_all, runLane_empty bound hnone, Machine.halt, Machine.close_eq hset]

end DriveAll

/-! ## The simulation -/

/-- A machine and a bare one that are at the same place of a chain: `rest` is still to be run, unless the response is
done and nothing will be. -/
structure Meets (m : Machine) (rest : List Layer) (s : Machine) : Prop where
  bare : m.bare = s
  rest : m.context.draft.done = true ∨ m.rest = rest

namespace Meets

variable {m s : Machine} {rest : List Layer}

theorem done_eq (h : Meets m rest s) : s.context.draft.done = m.context.draft.done := by
  rw [← h.bare]; rfl

theorem apply (h : Meets m rest s) (c : Context.Change) : Meets (m.apply c) rest (s.apply c) where
  bare := by rw [← h.bare]; cases c <;> rfl
  rest := by
    cases c with
    | write bytes => exact .inl rfl
    | _ => exact h.rest

theorem report (h : Meets m rest s) (e : Event) : Meets (m.report e) rest (s.report e) where
  bare := by rw [← h.bare]; rfl
  rest := h.rest

theorem world (h : Meets m rest s) (w : World) : Meets { m with world := w } rest { s with world := w } where
  bare := by rw [← h.bare]; rfl
  rest := h.rest

theorem render (h : Meets m rest s) (r : Responder) : Meets (m.render r) rest (s.render r) where
  bare := by
    have hc : m.bare.context = m.context := rfl
    rw [← h.bare]
    unfold Machine.render
    rw [hc]
    cases r.writeTo.run m.context.draft <;> rfl
  rest := by
    left
    unfold Machine.render
    cases r.writeTo.run m.context.draft <;> rfl

theorem recycle (h : Meets m rest s) : Meets m.recycle [] s.recycle where
  bare := by rw [← h.bare]; rfl
  rest := .inr rfl

theorem halt (h : Meets m rest s) : Meets m.halt [] s where
  bare := by rw [← h.bare]; rfl
  rest := .inr rfl

end Meets

/-- Two runs that end alike, in results and machines related by `Q`, or in the same panic. -/
def Agree {α β : Type} (Q : α → Machine → β → Machine → Prop) :
    EStateM.Result Panic Machine α → EStateM.Result Panic Machine β → Prop
  | .ok a m, .ok b s => Q a m b s
  | .error payload m, .error payload' s => payload = payload' ∧ m.bare = s
  | _, _ => False

/-- Driving the chain agrees with running the layers that are left. -/
def DrivesLike (bound : Nat) (rest : List Layer) : Prop :=
  ∀ m s, m.pending ≤ bound → Meets m rest s →
    Agree (fun _ m _ s => Meets m [] s) (driveBy (runLane bound) .all m) (Onion.run rest s)

/-- A drive runs the layers inside, unless they are used up, and uses them up. -/
theorem Onion.peel_drive (inside : Run Unit) (used : Bool) (d : Drive) (next : Program) :
    peel inside used (.drive d next) = (if used then pure () else inside) >>= fun _ => peel inside true next := by
  cases used <;> rfl

/-- A program agrees with its peeling: the layers inside it are those left to be run, and none once they are used. -/
theorem run_meets_peel {bound : Nat} {inside : List Layer} (hin : DrivesLike bound inside)
    (hnil : DrivesLike bound []) {p : Program} (hp : p.DrivesWhole) : ∀ {used : Bool} {m s : Machine},
      m.pending ≤ bound → Meets m (if used then [] else inside) s →
      Agree (fun flow m result s => flow = result.1 ∧ Meets m (if result.2 then [] else inside) s)
        (p.run (driveBy (runLane bound)) m) (Onion.peel (Onion.run inside) used p s) := by
  induction p with
  | finish flow => exact fun _ h => ⟨rfl, h⟩
  | panic payload => exact fun _ h => ⟨rfl, h.bare⟩
  | look next ih =>
    intro used m s hb h
    have hc : s.context = m.context := by rw [← h.bare]; rfl
    have := ih m.context (hp _) hb h
    rw [Program.run_look]
    show Agree _ _ (Onion.peel _ used (next s.context) s)
    rwa [hc]
  | change c next ih => exact fun hb h => ih hp (by rwa [Machine.pending_apply]) (h.apply c)
  | render r next ih => exact fun hb h => ih hp (by rwa [Machine.pending_render]) (h.render r)
  | recycle next ih => exact fun _ h => ih hp (Nat.zero_le _) h.recycle
  | drive d next ih =>
    intro used m s hb h
    obtain ⟨rfl, hp⟩ := hp
    have hle := kept_pending.driveBy (kept_pending.runLane bound) .all m
    -- a drive of layers that are used up is a drive of no layers
    have hdrive : Agree (fun _ m _ s => Meets m [] s) (driveBy (runLane bound) .all m)
        (Onion.run (if used then [] else inside) s) := by
      cases used with
      | true => exact hnil m s hb h
      | false => exact hin m s hb h
    rw [Program.run_drive, Onion.peel_drive, Run.bind_eq]
    have hlayers : (if used then pure () else Onion.run inside) = Onion.run (if used then [] else inside) := by
      cases used <;> rfl
    rw [hlayers]
    cases hr : driveBy (runLane bound) .all m with
    | error payload m' =>
      cases ho : Onion.run (if used then [] else inside) s with
      | error payload' s' => rw [hr, ho] at hdrive; exact hdrive
      | ok u s' => rw [hr, ho] at hdrive; exact hdrive.elim
    | ok u m' =>
      cases ho : Onion.run (if used then [] else inside) s with
      | error payload' s' => rw [hr, ho] at hdrive; exact hdrive.elim
      | ok u' s' =>
        rw [hr, ho] at hdrive
        rw [Run.after_ok hr] at hle
        exact ih hp (Nat.le_trans hle hb) hdrive
  | note script action reply next ih => exact fun hb h => ih hp hb (h.report _)
  | log r next ih => exact fun hb h => ih hp hb (h.report _)
  | readFile path next ih =>
    intro used m s hb h
    have hw : s.world = m.world := by rw [← h.bare]; rfl
    have := ih (m.world.files.read path) (hp _) (m := m.report (.fileRead path)) hb (h.report _)
    rw [Program.run_readFile]
    show Agree _ _ (Onion.peel _ used (next (s.world.files.read path)) _)
    rwa [hw]
  | count counter next ih =>
    intro used m s hb h
    have hw : s.world = m.world := by rw [← h.bare]; rfl
    have := ih (m.world.counted counter) (hp _) (m := { m with world := m.world.count counter }) hb (h.world _)
    rw [Program.run_count]
    show Agree _ _ (Onion.peel _ used (next (s.world.counted counter)) { s with world := s.world.count counter })
    rwa [hw]
  | attach list entry next _ ih =>
    intro used m s hb h
    have hw : s.world = m.world := by rw [← h.bare]; rfl
    have := ih hp (m := { m with world := m.world.attach list entry }) hb (h.world _)
    rw [Program.run_attach]
    show Agree _ _ (Onion.peel _ used next { s with world := s.world.attach list entry })
    rwa [hw]
  | lengthOf list next ih =>
    intro used m s hb h
    have hw : s.world = m.world := by rw [← h.bare]; rfl
    have := ih (m.world.list list).length (hp _) hb h
    rw [Program.run_lengthOf]
    show Agree _ _ (Onion.peel _ used (next (s.world.list list).length) s)
    rwa [hw]

/-- A run of layers ends where the response is done. -/
theorem Onion.run_done {s : Machine} (rest : List Layer) (h : s.context.draft.done = true) :
    Onion.run rest s = .ok () s := by
  cases rest with
  | nil => rfl
  | cons layer rest =>
    rw [run, Run.bind_get, if_pos h]
    rfl

/-- The outermost layer is peeled; how it ends decides whether the layers inside are still to be run. -/
theorem Onion.run_cons {layer : Layer} {rest : List Layer} {s : Machine} (h : s.context.draft.done = false) :
    Onion.run (layer :: rest) s =
      match peel (run rest) false layer.entry (s.report (.started layer.kind layer.index)) with
      | .error payload s => .error payload s
      | .ok (flow, used) s =>
        let reported := s.report (.finished layer.kind layer.index flow)
        match flow with
        | .proceed => run (if used then [] else rest) reported
        | .respond r => .ok () (reported.render r)
        | .stop => .ok () reported := by
  rw [run, Run.bind_get, if_neg (Bool.eq_false_iff.1 h), Run.bind_modify, Run.bind_eq]
  cases peel (run rest) false layer.entry (s.report (.started layer.kind layer.index)) with
  | error payload s => rfl
  | ok result s =>
    obtain ⟨flow, used⟩ := result
    cases flow with
    | proceed => cases used <;> rfl
    | respond r => rfl
    | stop => rfl

/-- A layer with its entry started, and the layers inside it left. -/
theorem layer_meets {bound : Nat} {layer : Layer} {rest : List Layer} {m s : Machine}
    (ih : ∀ rest : List Layer, (∀ l ∈ rest, l.entry.DrivesWhole) → DrivesLike bound rest)
    (hw : ∀ l ∈ layer :: rest, l.entry.DrivesWhole) (hd : s.context.draft.done = false) (hb : m.pending ≤ bound)
    (hm : Meets m rest (s.report (.started layer.kind layer.index))) :
    Agree (fun _ m _ s => Meets m [] s)
      (match layer.entry.run (driveBy (runLane bound)) m with
      | .error payload m => .error payload m
      | .ok flow m =>
        let settled := (m.report (.finished layer.kind layer.index flow)).settle layer.kind flow
        if flow.goesOn then driveBy (runLane bound) .all settled else .ok () settled.halt)
      (Onion.run (layer :: rest) s) := by
  have hrest : ∀ l ∈ rest, l.entry.DrivesWhole := fun l hl => hw l (List.mem_cons_of_mem _ hl)
  have hfresh : Meets m (if false = true then [] else rest) (s.report (.started layer.kind layer.index)) := hm
  have hrun := run_meets_peel (ih rest hrest) (ih [] (by simp)) (hw layer List.mem_cons_self) hb hfresh
  have hle := kept_pending.run (kept_pending.driveBy (kept_pending.runLane bound)) layer.entry m
  rw [Onion.run_cons hd]
  cases hr : layer.entry.run (driveBy (runLane bound)) m with
  | error payload m' =>
    cases ho : Onion.peel (Onion.run rest) false layer.entry (s.report (.started layer.kind layer.index)) with
    | error payload' s' => rw [hr, ho] at hrun; exact hrun
    | ok result s' => rw [hr, ho] at hrun; exact hrun.elim
  | ok flow m' =>
    rw [Run.after_ok hr] at hle
    cases ho : Onion.peel (Onion.run rest) false layer.entry (s.report (.started layer.kind layer.index)) with
    | error payload' s' => rw [hr, ho] at hrun; exact hrun.elim
    | ok result s' =>
      obtain ⟨flow', used⟩ := result
      rw [hr, ho] at hrun
      obtain ⟨hflow, hm'⟩ := hrun
      dsimp only at hflow hm' ⊢
      subst hflow
      have hrep := hm'.report (.finished layer.kind layer.index flow)
      cases flow with
      | proceed =>
        -- the chain goes on with the layers inside, or with none if the entry has driven them
        refine ih (if used then [] else rest) ?_ _ _ (Nat.le_trans hle hb) hrep
        cases used with
        | true => simp
        | false => exact hrest
      | respond r => exact (hrep.render r).halt
      | stop =>
        have : (m'.report (.finished layer.kind layer.index .stop)).settle layer.kind .stop =
            if layer.kind = .middleware then (m'.report (.finished layer.kind layer.index .stop)).close .handlers
            else m'.report (.finished layer.kind layer.index .stop) := rfl
        show Meets _ [] _
        rw [this]
        split
        · exact ⟨hrep.halt.bare, .inr rfl⟩
        · exact hrep.halt

/-- **The simulation**: driving both lanes agrees with running the entries left in them as layers. -/
theorem drivesLike (bound : Nat) (rest : List Layer) (hw : ∀ l ∈ rest, l.entry.DrivesWhole) : DrivesLike bound rest := by
  intro m s hb h
  cases hd : m.context.draft.done with
  | true =>
    rw [driveAll_done bound hd, Onion.run_done rest (by rw [h.done_eq, hd])]
    exact h.halt
  | false =>
    have hds : s.context.draft.done = false := by rw [h.done_eq, hd]
    have hrest : m.rest = rest := by simpa [hd] using h.rest
    cases hn : (m.lane .middleware).next? with
    | some next =>
      obtain ⟨index, entry⟩ := next
      have hp := Machine.pending_start hn
      obtain ⟨bound, rfl⟩ : ∃ b, bound = b + 1 := ⟨bound - 1, by omega⟩
      have hcons : rest = ⟨.middleware, index, entry⟩ :: (m.start .middleware index).rest := by
        rw [← hrest, Machine.rest, Lane.rest_next (l := m.middleware) hn]; rfl
      rw [driveAll_middleware hb hd hn, hcons]
      rw [hcons] at hw
      exact layer_meets (drivesLike bound) hw hds (by omega) ⟨by rw [← h.bare]; rfl, .inr rfl⟩
    | none =>
      have hmiddle : m.middleware.rest .middleware = [] := Lane.rest_empty hn
      cases hn' : (m.lane .handlers).next? with
      | some next =>
        obtain ⟨index, entry⟩ := next
        have hp := Machine.pending_start hn'
        obtain ⟨bound, rfl⟩ : ∃ b, bound = b + 1 := ⟨bound - 1, by omega⟩
        have hcons : rest = ⟨.handlers, index, entry⟩ :: ((m.close .middleware).start .handlers index).rest := by
          rw [← hrest, Machine.rest, hmiddle, Lane.rest_next (l := m.handlers) hn']; rfl
        have hp' : ((m.close .middleware).start .handlers index).pending ≤ bound := by
          have : ((m.close .middleware).start .handlers index).pending = (m.start .handlers index).pending := rfl
          omega
        rw [driveAll_handlers hd hn hn', hcons]
        rw [hcons] at hw
        exact layer_meets (drivesLike bound) hw hds hp' ⟨by rw [← h.bare]; rfl, .inr rfl⟩
      | none =>
        have hhandlers : m.handlers.rest .handlers = [] := Lane.rest_empty hn'
        rw [driveAll_empty bound hn hn', ← hrest, Machine.rest, hmiddle, hhandlers]
        exact h.halt
termination_by bound

theorem bareResult_of_agree {rest : List Layer} {x y : EStateM.Result Panic Machine Unit}
    (h : Agree (fun _ m _ s => Meets m rest s) x y) : bareResult x = y := by
  cases x with
  | ok u m =>
    cases y with
    | ok u' s => rw [bareResult, h.bare]
    | error payload' s => exact h.elim
  | error payload m =>
    cases y with
    | ok u' s => exact h.elim
    | error payload' s =>
      obtain ⟨rfl, rfl⟩ := h
      rfl

/-- Driving the chain is running the layers that are left. -/
theorem driveChain_rest (m : Machine) (h : ∀ l ∈ m.rest, l.entry.DrivesWhole) :
    bareResult (driveChain .all m) = Onion.run m.rest m.bare :=
  bareResult_of_agree (drivesLike m.pending m.rest h m m.bare (Nat.le_refl _) ⟨rfl, .inr rfl⟩)

/-- **A chain is an onion**: driven as a whole by entries that drive it as a whole, the middleware and the handlers
leave the context, the world and the journal, and end or panic, as the layers of the one list of them do. -/
theorem driveChain_bare (c : Context) (w : World) (j : Journal) (middleware handlers : List Program)
    (h : ∀ p ∈ middleware ++ handlers, p.DrivesWhole) :
    bareResult (driveChain .all
        { context := c, middleware := .ofList middleware, handlers := .ofList handlers, world := w, journal := j }) =
      Onion.run (layers .middleware middleware ++ layers .handlers handlers)
        { context := c, world := w, journal := j } := by
  have hw : ∀ l ∈ layers .middleware middleware ++ layers .handlers handlers, l.entry.DrivesWhole := by
    intro l hl
    simp only [layers, List.mem_append, List.mem_map] at hl
    obtain ⟨⟨p, i⟩, hp, rfl⟩ | ⟨⟨p, i⟩, hp, rfl⟩ := hl
    · exact h p (List.mem_append_left _ (List.fst_mem_of_mem_zipIdx hp))
    · exact h p (List.mem_append_right _ (List.fst_mem_of_mem_zipIdx hp))
  exact bareResult_of_agree (drivesLike _ _ hw _ _ (Nat.le_refl _) ⟨rfl, .inr rfl⟩)

/-- A middleware that drives the chain twice, and adds a header before and after. -/
def insistent : Program :=
  .change (.appendHeader .vary ⟨[49]⟩) <| .drive .all <| .drive .all <| .change (.appendHeader .vary ⟨[50]⟩) <|
    .finish .proceed

/-- A handler that drives the chain too, and writes after that. -/
def latecomer : Program :=
  .drive .all (.change (.write [1]) (.finish .proceed))

/-- Around another middleware and such a handler, which both run within the first drive, and once. -/
theorem driveChain_bare_twice :
    (∀ p ∈ [insistent, .finish .proceed] ++ [latecomer], p.DrivesWhole) ∧
    bareResult (driveChain .all
        { context := {}, middleware := .ofList [insistent, .finish .proceed], handlers := .ofList [latecomer]
          world := {}, journal := [] }) =
      Onion.run (layers .middleware [insistent, .finish .proceed] ++ layers .handlers [latecomer])
        { context := {}, world := {}, journal := [] } ∧
    ∃ m, Onion.run (layers .middleware [insistent, .finish .proceed] ++ layers .handlers [latecomer])
        { context := {}, world := {}, journal := [] } = .ok () m ∧
      m.journal = [.started .middleware 0, .started .middleware 1, .finished .middleware 1 .proceed,
        .started .handlers 0, .wrote [1], .finished .handlers 0 .proceed, .finished .middleware 0 .proceed] ∧
      m.context.draft.headers = ⟨[(.vary, ⟨[49]⟩), (.vary, ⟨[50]⟩)]⟩ := by
  have h : ∀ p ∈ [insistent, .finish .proceed] ++ [latecomer], p.DrivesWhole := by
    simp [insistent, latecomer, Program.DrivesWhole]
  exact ⟨h, driveChain_bare {} {} [] _ _ h, _, rfl, rfl, rfl⟩

end Switchyard
