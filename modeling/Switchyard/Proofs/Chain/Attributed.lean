import Switchyard.Proofs.Chain.Alone
import Switchyard.Proofs.Chain.Onion

/-!
# Which entry has logged a record

Entries start and end in a journal like brackets, so that a record was logged by the entry that has started last of those
that have not ended (`Journal.servedBy`). What runs inside an entry passes by unseen (`Journal.Passes`): its brackets are
closed again, and what it logs is its own.

- once the first middleware has started, whatever runs without a panic passes by it (`Program.run_adds`, `runLane_adds`);
- a drive of the whole chain that returns leaves nothing to be run (`driveAll_closes`);
- so a request log that is the first middleware logs one record, with the status that the chain leaves
  (`servedBy_first`).
-/

namespace Switchyard

open Http (Status)

/-! ## Journals as brackets -/

/-- The statuses of served requests in the records of the entry at a place, given the entries that are underway, the
innermost in front. -/
def Journal.servedBy (place : LaneKind × Nat) : List (LaneKind × Nat) → Journal → List Status
  | _, [] => []
  | underway, .started kind index :: j => servedBy place ((kind, index) :: underway) j
  | underway, .finished _ _ _ :: j => servedBy place underway.tail j
  | underway, .logged (.served _ _ _ status _ _) :: j =>
    (if underway.head? = some place then [status] else []) ++ servedBy place underway j
  | underway, _ :: j => servedBy place underway j

/-- The events pass by the entry at a place, if the entries underway are as allowed: they leave these as they are, and
hold no record of that entry. -/
def Journal.Passes (place : LaneKind × Nat) (allowed : List (LaneKind × Nat) → Prop) (es : Journal) : Prop :=
  ∀ underway, allowed underway → ∀ j, servedBy place underway (es ++ j) = servedBy place underway j

/-- Another entry than that at a place is the innermost underway. -/
def Elsewhere (place : LaneKind × Nat) (underway : List (LaneKind × Nat)) : Prop :=
  underway.head? ≠ some place

namespace Journal.Passes

variable {place : LaneKind × Nat} {allowed allowed' : List (LaneKind × Nat) → Prop} {es es' : Journal}

theorem nil : Passes place allowed [] :=
  fun _ _ _ => rfl

theorem append (h : Passes place allowed es) (h' : Passes place allowed es') : Passes place allowed (es ++ es') :=
  fun underway hunder j => by rw [List.append_assoc, h underway hunder, h' underway hunder]

theorem mono (h : Passes place allowed es) (hallowed : ∀ underway, allowed' underway → allowed underway) :
    Passes place allowed' es :=
  fun underway hunder => h underway (hallowed underway hunder)

/-- What an entry does that is not started at the place passes by. -/
theorem entry (h : Passes place (Elsewhere place) es) {kind : LaneKind} {index : Nat} (hne : (kind, index) ≠ place)
    (flow : Flow) : Passes place allowed (.started kind index :: es ++ [.finished kind index flow]) := by
  intro underway _ j
  have helsewhere : Elsewhere place ((kind, index) :: underway) := fun he => hne (Option.some.inj he)
  rw [List.append_assoc]
  exact h _ helsewhere (.finished kind index flow :: j)

theorem of_forall (h : ∀ e ∈ es, Passes place allowed [e]) : Passes place allowed es := by
  induction es with
  | nil => exact .nil
  | cons e es ih =>
    obtain ⟨he, hes⟩ := List.forall_mem_cons.1 h
    exact he.append (ih hes)

/-- Deeds are told without brackets, and records are another's. -/
theorem of_tells {deeds : Deed → Prop} (h : ∀ e ∈ es, e.Tells deeds) : Passes place (Elsewhere place) es := by
  refine of_forall fun e he underway hunder j => ?_
  cases h e he with
  | logged r =>
    cases r with
    | served number ip agent status method path =>
      show (if underway.head? = some place then [status] else []) ++ servedBy place underway j = _
      rw [if_neg hunder, List.nil_append]
    | _ => rfl
  | _ => rfl

end Journal.Passes

/-! ## Runs past the first middleware -/

namespace Machine

/-- The events that were added pass by the entry at a place. -/
def Adds (place : LaneKind × Nat) (allowed : List (LaneKind × Nat) → Prop) (m m' : Machine) : Prop :=
  ∃ es, m'.journal = m.journal ++ es ∧ Journal.Passes place allowed es

/-- The first middleware is not to be started any more. -/
def Past (m : Machine) : Prop :=
  (m.lane .middleware).isOpen = true → 0 < (m.lane .middleware).started

variable {place : LaneKind × Nat} {allowed allowed' : List (LaneKind × Nat) → Prop} {m m' m'' : Machine}

theorem Adds.same (h : m'.journal = m.journal) : m.Adds place allowed m' :=
  ⟨[], by rw [h, List.append_nil], .nil⟩

theorem Adds.trans (h : m.Adds place allowed m') (h' : m'.Adds place allowed m'') : m.Adds place allowed m'' := by
  obtain ⟨es, hes, hpasses⟩ := h
  obtain ⟨es', hes', hpasses'⟩ := h'
  exact ⟨es ++ es', by rw [hes', hes, List.append_assoc], hpasses.append hpasses'⟩

theorem Adds.mono (h : m.Adds place allowed m') (hallowed : ∀ underway, allowed' underway → allowed underway) :
    m.Adds place allowed' m' :=
  h.imp fun _ hes => ⟨hes.1, hes.2.mono hallowed⟩

/-- The deeds of another entry pass by. -/
theorem Acts.adds {deeds : Deed → Prop} (h : m.Acts deeds m') : m.Adds place (Elsewhere place) m' :=
  h.tells.imp fun _ hes => ⟨hes.1, .of_tells hes.2⟩

theorem adds_close (m : Machine) (kind : LaneKind) : m.Adds place allowed (m.close kind) :=
  .same (by cases kind <;> rfl)

/-- No record of a served request is logged where a responder is written. -/
theorem adds_render (m : Machine) (r : Responder) : m.Adds place allowed (m.render r) := by
  unfold render
  cases r.writeTo.run m.context.draft with
  | ok u draft => exact ⟨[_], rfl, fun _ _ _ => rfl⟩
  | error failure draft => exact ⟨[_, _], List.append_assoc m.journal [_] [_], fun _ _ _ => rfl⟩

theorem adds_settle (m : Machine) (kind : LaneKind) (flow : Flow) : m.Adds place allowed (m.settle kind flow) := by
  cases flow with
  | proceed => exact .same rfl
  | respond r => exact m.adds_render r
  | stop =>
    cases kind with
    | middleware => exact m.adds_close .handlers
    | handlers => exact .same rfl

/-- **An entry that has run from its start to its end passes by**, if it is not the one at the place. -/
theorem adds_entry {kind : LaneKind} {index : Nat} (hne : (kind, index) ≠ place)
    (h : (m.start kind index).Adds place (Elsewhere place) m') (flow : Flow) :
    m.Adds place allowed (m'.report (.finished kind index flow)) := by
  obtain ⟨es, hes, hpasses⟩ := h
  have hstart : (m.start kind index).journal = m.journal ++ [.started kind index] := by cases kind <;> rfl
  refine ⟨.started kind index :: es ++ [.finished kind index flow], ?_, hpasses.entry hne flow⟩
  rw [report, hes, hstart]
  simp only [List.append_assoc, List.cons_append, List.nil_append]

end Machine

/-- The first middleware starts once. -/
theorem kept_past : Kept fun m m' => m.Past → m'.Past where
  refl _ h := h
  trans h h' hm := h' (h hm)
  apply m c h := by cases c <;> exact h
  render m r _ ho := by
    rw [Machine.isOpen_render] at ho
    cases ho
  recycle _ _ ho := by cases ho
  report _ _ h := h
  world _ _ _ h := h
  close m kind h := by
    cases kind with
    | middleware => exact fun ho => by cases ho
    | handlers => exact h
  start {m kind index entry} _ h := by
    cases kind with
    | middleware => exact fun _ => Nat.succ_pos _
    | handlers => exact h

variable {place : LaneKind × Nat}

/-- A program that does not run at the place passes by, if what it drives does. -/
theorem Program.run_adds {drive : Drive → Run Unit} (hpast : ∀ d m, m.Past → (Run.after (drive d) m).Past)
    (hdrive : ∀ {d m m'}, m.Past → drive d m = .ok () m' → m.Adds place (fun _ => True) m') (p : Program) :
    ∀ {m m' : Machine} {flow : Flow}, m.Past → p.run drive m = .ok flow m' → m.Adds place (Elsewhere place) m' := by
  have hacts : ∀ {m m' : Machine}, m.Acts (fun _ => True) m' → m.Adds place (Elsewhere place) m' := fun h => h.adds
  induction p with
  | finish flow =>
    intro m m' flow' _ hr
    cases hr
    exact .same rfl
  | panic payload =>
    intro m m' flow' _ hr
    cases hr
  | look next ih => exact fun hm hr => ih _ hm hr
  | change c next ih =>
    exact fun hm hr => (hacts (.apply _ trivial)).trans (ih (kept_past.apply _ c hm) hr)
  | render r next ih =>
    exact fun hm hr => (hacts (.render _ trivial)).trans (ih (kept_past.render _ r hm) hr)
  | recycle next ih => exact fun hm hr => (hacts (.recycle _ trivial)).trans (ih (kept_past.recycle _ hm) hr)
  | drive d next ih =>
    intro m m' flow hm hr
    have hn := hpast d m hm
    rw [run_drive] at hr
    cases hd : drive d m with
    | error payload n => rw [hd] at hr; cases hr
    | ok u n =>
      rw [hd] at hr
      rw [Run.after_ok hd] at hn
      exact ((hdrive hm hd).mono fun _ _ => trivial).trans (ih hn hr)
  | note script action reply next ih =>
    exact fun hm hr => (hacts (.note _ script action reply)).trans (ih (kept_past.report _ _ hm) hr)
  | log r next ih => exact fun hm hr => (hacts (.log _ r)).trans (ih (kept_past.report _ _ hm) hr)
  | readFile path next ih =>
    exact fun hm hr => (hacts (.readFile _ trivial)).trans (ih _ (kept_past.report _ _ hm) hr)
  | count counter next ih =>
    exact fun {m} _ _ hm hr => (hacts (.world m (m.world.count counter))).trans (ih _ hm hr)
  | attach list entry next _ ih =>
    exact fun {m} _ _ hm hr => (hacts (.world m (m.world.attach list entry))).trans (ih hm hr)
  | lengthOf list next ih => exact fun hm hr => ih _ hm hr

theorem driveBy_adds {lane : LaneKind → Run Unit} (hpast : ∀ kind m, m.Past → (Run.after (lane kind) m).Past)
    (hlane : ∀ {kind m m'}, m.Past → lane kind m = .ok () m' → m.Adds place (fun _ => True) m') {d : Drive}
    {m m' : Machine} (hm : m.Past) (hr : driveBy lane d m = .ok () m') : m.Adds place (fun _ => True) m' := by
  cases d with
  | middleware => exact hlane hm hr
  | handlers => exact hlane hm hr
  | all =>
    have hn := hpast .middleware m hm
    rw [driveBy_all] at hr
    cases hd : lane .middleware m with
    | error payload n => rw [hd] at hr; cases hr
    | ok u n =>
      rw [hd] at hr
      rw [Run.after_ok hd] at hn
      exact (hlane hm hd).trans (hlane hn hr)

/-- A lane that returns was closed where it was, or has run its next entry and was driven on or closed after that. -/
theorem runLane_cases {bound : Nat} {kind : LaneKind} {m m' : Machine} (h : runLane bound kind m = .ok () m') :
    m' = m.close kind ∨ ∃ bound' index entry flow n, bound = bound' + 1 ∧ (m.lane kind).next? = some (index, entry) ∧
      entry.run (driveBy (runLane bound')) (m.start kind index) = .ok flow n ∧
      let settled := (n.report (.finished kind index flow)).settle kind flow
      runLane bound' kind settled = .ok () m' ∨ m' = settled.close kind := by
  cases hd : m.context.draft.done with
  | true =>
    rw [runLane_done _ hd] at h
    cases h
    exact .inl rfl
  | false =>
    cases hn : (m.lane kind).next? with
    | none =>
      rw [runLane_empty _ hn] at h
      cases h
      exact .inl rfl
    | some entry =>
      obtain ⟨index, entry⟩ := entry
      cases bound with
      | zero =>
        cases h
        exact .inl rfl
      | succ bound =>
        rw [runLane_next hd hn] at h
        cases he : entry.run (driveBy (runLane bound)) (m.start kind index) with
        | error payload n => rw [he] at h; cases h
        | ok flow n =>
          rw [he] at h
          refine .inr ⟨bound, index, entry, flow, n, rfl, rfl, he, ?_⟩
          dsimp only at h ⊢
          split at h
          · exact .inl h
          · cases h
            exact .inr rfl

/-- **Once the first middleware has started, a lane that is driven to its end passes by it.** -/
theorem runLane_adds (bound : Nat) (kind : LaneKind) {m m' : Machine} (hm : m.Past)
    (hr : runLane bound kind m = .ok () m') : m.Adds (.middleware, 0) (fun _ => True) m' := by
  rcases runLane_cases hr with rfl | ⟨bound, index, entry, flow, n, rfl, hn, he, hrest⟩
  · exact m.adds_close kind
  · have hne : (kind, index) ≠ (.middleware, 0) := by
      rintro ⟨⟩
      obtain ⟨ho, hindex, -⟩ := Lane.next?_eq_some hn
      exact absurd hindex (Nat.ne_of_lt (hm ho))
    have hkept := kept_past.driveBy (kept_past.runLane bound)
    have hstart := kept_past.start hn hm
    have hpast := kept_past.run hkept entry _ hstart
    rw [Run.after_ok he] at hpast
    have hentry := Program.run_adds hkept (driveBy_adds (kept_past.runLane bound) (runLane_adds bound _)) entry hstart he
    have hsettled : m.Adds (.middleware, 0) (fun _ => True) _ :=
      (Machine.adds_entry hne hentry flow).trans (Machine.adds_settle _ kind flow)
    rcases hrest with hrest | rfl
    · have hpast' := kept_past.settle _ kind flow (kept_past.report _ (.finished kind index flow) hpast)
      exact hsettled.trans (runLane_adds bound kind hpast' hrest)
    · exact hsettled.trans (Machine.adds_close _ kind)

/-! ## Drives that return -/

theorem runLane_closes (bound : Nat) (kind : LaneKind) {m m' : Machine} (hr : runLane bound kind m = .ok () m') :
    (m'.lane kind).isOpen = false := by
  rcases runLane_cases hr with rfl | ⟨bound, index, entry, flow, n, rfl, -, -, hrest | rfl⟩
  · exact m.isOpen_close kind
  · exact runLane_closes bound kind hrest
  · exact Machine.isOpen_close _ kind

/-- **A drive of the whole chain that returns leaves both lanes closed.** -/
theorem driveAll_closes {bound : Nat} {m m' : Machine} (hr : driveBy (runLane bound) .all m = .ok () m') :
    m'.Closed := by
  rw [driveBy_all] at hr
  cases hd : runLane bound .middleware m with
  | error payload n => rw [hd] at hr; cases hr
  | ok u n =>
    rw [hd] at hr
    have hkept := (kept_closed .middleware).runLane bound .handlers n (runLane_closes bound .middleware hd)
    rw [Run.after_ok hr] at hkept
    exact .of_lanes hkept (runLane_closes bound .handlers hr)

/-- With both lanes closed there is nothing to drive. -/
theorem driveBy_closed {bound : Nat} {d : Drive} {m : Machine} (h : m.Closed) :
    driveBy (runLane bound) d m = .ok () m := by
  have hlane : ∀ kind, runLane bound kind m = .ok () m := fun kind => by
    rw [runLane_empty bound (h.next? kind), Machine.close_eq (h kind)]
  cases d with
  | all => rw [driveBy_all, hlane]; exact hlane .handlers
  | middleware => exact hlane .middleware
  | handlers => exact hlane .handlers

/-! ## The first middleware -/

/-- The record that a log writes in a context. -/
def logRecord (number : Nat) (c : Context) : Record :=
  .served number ((c.clientIp?).getD "-") c.userAgent c.draft.status c.method.name c.path

/-- The log counts, drives the chain, and writes its record in the context that the chain has left. -/
theorem logRequests_run (drive : Drive → Run Unit) (counter : Nat) (m : Machine) :
    (logRequests counter).run drive m =
      match drive .all { m with world := m.world.count counter } with
      | .error payload n => .error payload n
      | .ok _ n => .ok .proceed (n.report (.logged (logRecord (m.world.counted counter) n.context))) := by
  rw [logRequests, Program.run_count, Program.run_drive]
  cases drive .all { m with world := m.world.count counter } <;> rfl

/-- A log that is the next middleware has nothing left behind it once the chain inside it has returned. -/
theorem driveAll_logRequests {bound index counter : Nat} {m : Machine} (hb : m.pending ≤ bound + 1)
    (hd : m.context.draft.done = false) (hn : (m.lane .middleware).next? = some (index, logRequests counter)) :
    driveBy (runLane (bound + 1)) .all m =
      match driveBy (runLane bound) .all { m.start .middleware index with world := m.world.count counter } with
      | .error payload n => .error payload n
      | .ok _ n => .ok () ((n.report (.logged (logRecord (m.world.counted counter) n.context))).report
          (.finished .middleware index .proceed)) := by
  have hworld : (m.start .middleware index).world = m.world := rfl
  rw [driveAll_middleware hb hd hn, logRequests_run, hworld]
  cases hinside : driveBy (runLane bound) .all { m.start .middleware index with world := m.world.count counter } with
  | error payload n => rfl
  | ok u n =>
    have hclosed : n.Closed := driveAll_closes hinside
    show driveBy (runLane bound) .all ((n.report _).report _) = .ok () ((n.report _).report _)
    exact driveBy_closed hclosed

/-- **A request log that is the first middleware logs one record**, with the status that the chain leaves, whatever the
other entries do but panic. -/
theorem servedBy_first {counter : Nat} {rest : List Program} {m m' : Machine}
    (hm : m.lane .middleware = .ofList (logRequests counter :: rest)) (hd : m.context.draft.done = false)
    (hr : driveChain .all m = .ok () m') :
    ∃ es, m'.journal = m.journal ++ es ∧ ∀ j, Journal.servedBy (.middleware, 0) [] (es ++ j) =
      m'.context.draft.status :: Journal.servedBy (.middleware, 0) [] j := by
  have hn : (m.lane .middleware).next? = some (0, logRequests counter) := by rw [hm]; rfl
  have hpending := Machine.pending_start hn
  have hpast : Machine.Past { m.start .middleware 0 with world := m.world.count counter } := fun _ => Nat.succ_pos _
  replace hr : driveBy (runLane m.pending) .all m = .ok () m' := hr
  rw [← hpending, driveAll_logRequests (Nat.le_of_eq hpending.symm) hd hn] at hr
  cases hinside : driveBy (runLane (m.start .middleware 0).pending) .all
      { m.start .middleware 0 with world := m.world.count counter } with
  | error payload n => rw [hinside] at hr; cases hr
  | ok u n =>
    rw [hinside] at hr
    cases hr
    obtain ⟨es, hes, hpasses⟩ : Machine.Adds (.middleware, 0) (fun _ => True) _ n :=
      driveBy_adds (kept_past.runLane _) (runLane_adds _ _) hpast hinside
    refine ⟨.started .middleware 0 :: (es ++ [.logged (logRecord (m.world.counted counter) n.context),
      .finished .middleware 0 .proceed]), ?_, fun j => ?_⟩
    · have hstart : (m.start .middleware 0).journal = m.journal ++ [.started .middleware 0] := rfl
      rw [Machine.report, Machine.report, hes]
      simp only [hstart, List.append_assoc, List.cons_append, List.nil_append]
    · rw [List.cons_append, List.append_assoc]
      exact hpasses [(.middleware, 0)] trivial _

end Switchyard
