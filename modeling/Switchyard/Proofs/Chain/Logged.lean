import Mathlib.Data.List.Forall2
import Switchyard.Proofs.Chain.Attributed

/-!
# A request log among the layers

A middleware that logs requests is put somewhere between the layers of a chain. It counts, runs the layers inside it,
logs and goes on, so that it changes nothing that another layer could see, as long as this one keeps off its counter and
does not ask how long the lists are (`Deed.Apart`), or is the same log once more (`Insertion.Admits`). The journal has what
the log tells of itself besides, and the middleware behind it have moved up by one place (`Journal.Logged`).

- machines that differ in this only are alike (`Machine.Alike`), and stay so after each change (`Alike.apply` and its
  like), after a program that is peeled (`Onion.peel_alike`), and after a layer (`Onion.run_alike_cons`);
- so the layers around the log and those inside it run as they would without it (`Onion.run_inserted`), and so does a
  chain with both its lanes (`driveChain_logged`);
- a program that has nothing to drive runs alike too (`Program.run_closed_alike`).
-/

namespace Switchyard

/-! ## What the log adds to a journal -/

/-- A request log that is put in among middleware: where, and with which counter. It may be shared, so that it stands
among the other entries as well. -/
structure Insertion where
  position : Nat
  counter : Nat
  shared : Prop

/-- The place of a middleware once another was put in at a position. -/
def placeWith (position index : Nat) : Nat :=
  if index < position then index else index + 1

/-- The event, told with the new places. -/
def Event.movedUp (position : Nat) : Event → Event
  | .started .middleware index => .started .middleware (placeWith position index)
  | .finished .middleware index flow => .finished .middleware (placeWith position index) flow
  | e => e

/-- The layer at its new place. -/
def Layer.movedUp (position : Nat) (l : Layer) : Layer :=
  { l with index := if l.kind = .middleware then placeWith position l.index else l.index }

theorem Layer.started_movedUp (position : Nat) (l : Layer) : (Event.started l.kind l.index).movedUp position =
    .started (l.movedUp position).kind (l.movedUp position).index := by
  obtain ⟨kind, index, entry⟩ := l
  cases kind <;> rfl

theorem Layer.finished_movedUp (position : Nat) (l : Layer) (flow : Flow) :
    (Event.finished l.kind l.index flow).movedUp position =
      .finished (l.movedUp position).kind (l.movedUp position).index flow := by
  obtain ⟨kind, index, entry⟩ := l
  cases kind <;> rfl

/-- An event as it is told with the log: at the new places, and with another number if a shared log has counted once
more. -/
inductive Event.Retold (i : Insertion) : Event → Event → Prop where
  | moved (e : Event) : Retold i e (e.movedUp i.position)
  | renumbered (h : i.shared) (number number' : Nat) (c : Context) :
    Retold i (.logged (logRecord number c)) (.logged (logRecord number' c))

abbrev Journal.Retold (i : Insertion) : Journal → Journal → Prop :=
  List.Forall₂ (Event.Retold i)

/-- How far the log has come: it has not started, is underway, or has ended. -/
inductive LogPhase where
  | absent
  | underway
  | ended

/-- The second journal is the first as it is told with the log, and has what the log tells of itself. -/
inductive Journal.Logged (i : Insertion) : LogPhase → Journal → Journal → Prop where
  | absent {j j' : Journal} (h : Retold i j j') : Logged i .absent j j'
  | underway {before before' inside inside' : Journal} (hbefore : Retold i before before')
    (hinside : Retold i inside inside') :
    Logged i .underway (before ++ inside) (before' ++ .started .middleware i.position :: inside')
  | ended {before before' inside inside' after after' : Journal} (hbefore : Retold i before before')
    (hinside : Retold i inside inside') (hafter : Retold i after after') (number : Nat) (c : Context) :
    Logged i .ended (before ++ inside ++ after)
      (before' ++ .started .middleware i.position :: inside' ++
        .logged (logRecord number c) :: .finished .middleware i.position .proceed :: after')

namespace Journal.Logged

variable {i : Insertion} {j j' : Journal}

/-- What else is told is told in both journals. -/
theorem report {phase : LogPhase} (h : Logged i phase j j') {e e' : Event} (he : e.Retold i e') :
    Logged i phase (j ++ [e]) (j' ++ [e']) := by
  have hone : Retold i [e] [e'] := .cons he .nil
  cases h with
  | absent h => exact .absent (List.rel_append h hone)
  | underway hbefore hinside =>
    have hlater := Logged.underway hbefore (List.rel_append hinside hone)
    simpa using hlater
  | ended hbefore hinside hafter number c =>
    have hlater := Logged.ended hbefore hinside (List.rel_append hafter hone) number c
    simpa using hlater

theorem start (h : Logged i .absent j j') : Logged i .underway j (j' ++ [.started .middleware i.position]) := by
  cases h with
  | absent h =>
    have hstarted := Logged.underway h .nil
    rwa [List.append_nil] at hstarted

theorem finish (h : Logged i .underway j j') (number : Nat) (c : Context) : Logged i .ended j
    (j' ++ [.logged (logRecord number c)] ++ [.finished .middleware i.position .proceed]) := by
  cases h with
  | underway hbefore hinside =>
    have hfinished := Logged.ended hbefore hinside .nil number c
    simpa using hfinished

end Journal.Logged

/-! ## Machines that differ in the log -/

/-- Anything but counting on a counter and asking how long a list is. -/
def Deed.Apart (counter : Nat) : Deed → Prop
  | .count n => n ≠ counter
  | .lengthOf _ => False
  | _ => True

/-- What the log changes nothing about: an entry that keeps off its counter and does not ask how long the lists are, or
the log itself where it is shared. -/
def Insertion.Admits (i : Insertion) (p : Program) : Prop :=
  p.Within (Deed.Apart i.counter) ∨ i.shared ∧ p = logRequests i.counter

/-- Machines of which the second has the log besides, which has come to one of some phases. -/
structure Machine.Alike (i : Insertion) (P : LogPhase → Prop) (m m' : Machine) : Prop where
  context : m'.context = m.context
  files : m'.world.files = m.world.files
  counters : ∀ n, n ≠ i.counter → m'.world.counters[n]? = m.world.counters[n]?
  journal : ∃ phase, P phase ∧ Journal.Logged i phase m.journal m'.journal

namespace Machine.Alike

variable {i : Insertion} {P Q : LogPhase → Prop} {m m' : Machine}

theorem mono (h : Alike i P m m') (hPQ : ∀ phase, P phase → Q phase) : Alike i Q m m' :=
  ⟨h.context, h.files, h.counters, h.journal.imp fun phase hphase => ⟨hPQ phase hphase.1, hphase.2⟩⟩

/-- Whether or not the layers inside are used up, the log has come to one of the phases it may be in when they are. -/
theorem of_used (hPQ : ∀ phase, P phase → Q phase) {used : Bool}
    (h : Alike i (if used then Q else P) m m') : Alike i Q m m' := by
  cases used with
  | true => exact h
  | false => exact h.mono hPQ

theorem retell (h : Alike i P m m') {e e' : Event} (he : e.Retold i e') : Alike i P (m.report e) (m'.report e') :=
  ⟨h.context, h.files, h.counters, h.journal.imp fun _ hphase => ⟨hphase.1, hphase.2.report he⟩⟩

theorem report (h : Alike i P m m') (e : Event) : Alike i P (m.report e) (m'.report (e.movedUp i.position)) :=
  h.retell (.moved e)

/-- Both get the same context, and both chains stop. -/
theorem halt (h : Alike i P m m') (c : Context) :
    Alike i P ({ m with context := c } : Machine).halt ({ m' with context := c } : Machine).halt :=
  ⟨rfl, h.files, h.counters, h.journal⟩

theorem caught (h : Alike i P m m') (fault : Fault) :
    Alike i P (m.caught fault) (m'.caught fault) := by
  have hreset : Alike i P ({ m with context := m.context.resetResponse } : Machine).halt
      ({ m' with context := m'.context.resetResponse } : Machine).halt :=
    ⟨congrArg Context.resetResponse h.context, h.files, h.counters, h.journal⟩
  exact hreset.report (.caught fault)

theorem apply (h : Alike i P m m') (c : Context.Change) :
    Alike i P (m.apply c) (m'.apply c) := by
  have hchanged : Alike i P { m with context := m.context.apply c }
      { m' with context := m'.context.apply c } := ⟨congrArg (·.apply c) h.context, h.files, h.counters, h.journal⟩
  cases c with
  | write bytes => exact hchanged.report (.wrote bytes)
  | _ => exact hchanged

theorem render (h : Alike i P m m') (r : Responder) :
    Alike i P (m.render r) (m'.render r) := by
  unfold Machine.render
  rw [h.context]
  cases r.writeTo.run m.context.draft with
  | ok u draft => exact (h.halt _).report (.rendered r none)
  | error failure draft => exact ((h.report (.logged _)).halt _).report (.rendered r (some failure))

theorem recycle (h : Alike i P m m') : Alike i P m.recycle m'.recycle := by
  have hemptied : Alike i P { m with toCarrier := m.toCarrier.recycle }
      { m' with toCarrier := m'.toCarrier.recycle } :=
    ⟨congrArg Context.recycle h.context, h.files, h.counters, h.journal⟩
  exact hemptied.report .recycled

theorem counted (h : Alike i P m m') {n : Nat} (hn : n ≠ i.counter) :
    m'.world.counted n = m.world.counted n := by
  rw [World.counted, World.counted, h.counters n hn]

theorem count (h : Alike i P m m') (n : Nat) : Alike i P
    { m with world := m.world.count n } { m' with world := m'.world.count n } := by
  refine ⟨h.context, h.files, fun k hk => ?_, h.journal⟩
  simp only [World.count, List.getElem?_modify, h.counters k hk]

theorem attach (h : Alike i P m m') (list : Nat) (entry : Program) : Alike i P
    { m with world := m.world.attach list entry } { m' with world := m'.world.attach list entry } :=
  ⟨h.context, h.files, h.counters, h.journal⟩

/-- The log starts, and counts. -/
theorem startLog (h : Alike i (· = .absent) m m') : Alike i (· = .underway) m
    { m'.report (.started .middleware i.position) with world := m'.world.count i.counter } := by
  obtain ⟨phase, rfl, hjournal⟩ := h.journal
  refine ⟨h.context, h.files, fun k hk => ?_, _, rfl, hjournal.start⟩
  rw [← h.counters k hk]
  exact (List.getElem?_modify ..).trans (by simp [hk.symm])

/-- The log writes its record and ends. -/
theorem finishLog (h : Alike i (· = .underway) m m') (number : Nat) (c : Context) :
    Alike i (· ≠ .underway) m
      ((m'.report (.logged (logRecord number c))).report (.finished .middleware i.position .proceed)) := by
  obtain ⟨phase, rfl, hjournal⟩ := h.journal
  exact ⟨h.context, h.files, h.counters, .ended, nofun, hjournal.finish ..⟩

end Machine.Alike

/-! ## Runs that differ in the log -/

/-- Two runs that end alike, in results and machines related by `Q`, or in the same panic on machines that are alike. -/
def Matches (i : Insertion) {α β : Type} (Q : α → Machine → β → Machine → Prop) :
    EStateM.Result Panic Machine α → EStateM.Result Panic Machine β → Prop
  | .ok a m, .ok b m' => Q a m b m'
  | .error payload m, .error payload' m' =>
    payload' = payload ∧ Machine.Alike i (fun _ => True) m m'
  | _, _ => False

theorem Matches.cases {i : Insertion} {α β : Type} {Q : α → Machine → β → Machine → Prop}
    {x : EStateM.Result Panic Machine α} {x' : EStateM.Result Panic Machine β} (h : Matches i Q x x') :
    (∃ a m b m', x = .ok a m ∧ x' = .ok b m' ∧ Q a m b m') ∨
      ∃ payload m m', x = .error payload m ∧ x' = .error payload m' ∧ m.Alike i (fun _ => True) m' := by
  cases x with
  | ok a m =>
    cases x' with
    | ok b m' => exact .inl ⟨a, m, b, m', rfl, rfl, h⟩
    | error payload m' => exact h.elim
  | error payload m =>
    cases x' with
    | ok b m' => exact h.elim
    | error payload' m' =>
      obtain ⟨rfl, halike⟩ := h
      exact .inr ⟨_, m, m', rfl, rfl, halike⟩

/-- What comes after runs that end alike is compared from where they have ended. -/
theorem Matches.bind {i : Insertion} {α β γ δ : Type} {Q : α → Machine → β → Machine → Prop}
    {R : γ → Machine → δ → Machine → Prop} {x : Run α} {x' : Run β} {f : α → Run γ} {f' : β → Run δ} {m m' : Machine}
    (h : Matches i Q (x m) (x' m'))
    (hf : ∀ a m b m', Q a m b m' → Matches i R (f a m) (f' b m')) :
    Matches i R ((x >>= f) m) ((x' >>= f') m') := by
  rw [Run.bind_eq, Run.bind_eq]
  rcases h.cases with ⟨a, n, b, n', hx, hx', hn⟩ | ⟨payload, n, n', hx, hx', hn⟩ <;> rw [hx, hx']
  · exact hf a n b n' hn
  · exact ⟨rfl, hn⟩

/-- Two runs that take machines that are alike in phases `P` to machines that are alike in phases `Q`. -/
def RunsAlike (i : Insertion) (P Q : LogPhase → Prop) (x x' : Run Unit) : Prop :=
  ∀ m m', Machine.Alike i P m m' →
    Matches i (fun _ m _ m' => Machine.Alike i Q m m') (x m) (x' m')

namespace Onion

variable {i : Insertion} {P Q : LogPhase → Prop}

/-- Programs are peeled alike around layers that run alike. -/
theorem peel_alike (hPQ : ∀ phase, P phase → Q phase) {inside inside' : Run Unit}
    (hin : RunsAlike i P Q inside inside') {p : Program} (hp : p.Within (Deed.Apart i.counter)) :
    ∀ (used : Bool) (m m' : Machine), Machine.Alike i (if used then Q else P) m m' →
      Matches i (fun x m x' m' => x' = x ∧ Machine.Alike i (if x.2 then Q else P) m m')
        (peel inside used p m) (peel inside' used p m') := by
  induction p with
  | finish flow => exact fun _ _ _ h => ⟨rfl, h⟩
  | panic payload => exact fun _ _ _ h => ⟨rfl, (h.of_used hPQ).mono fun _ _ => trivial⟩
  | look next ih =>
    intro used m m' h
    show Matches i _ (peel inside used (next m.context) m) (peel inside' used (next m'.context) m')
    rw [h.context]
    exact ih m.context (hp _) used _ _ h
  | change c next ih => exact fun used _ _ h => ih hp.2 used _ _ (h.apply c)
  | render r next ih => exact fun used _ _ h => ih hp.2 used _ _ (h.render r)
  | recycle next ih => exact fun _ _ _ h => ih hp.2 true _ _ (h.of_used hPQ).recycle
  | drive d next ih =>
    intro used m m' h
    rw [peel_drive, peel_drive]
    cases used with
    | true => exact ih hp.2 true _ _ h
    | false => exact (hin m m' h).bind fun _ _ _ _ hdriven => ih hp.2 true _ _ hdriven
  | note script action reply next ih => exact fun used _ _ h => ih hp used _ _ (h.report (.note script action reply))
  | log r next ih => exact fun used _ _ h => ih hp used _ _ (h.report (.logged r))
  | readFile path next ih =>
    intro used m m' h
    show Matches i _ (peel inside used (next (m.world.files.read path)) (m.report (.fileRead path)))
      (peel inside' used (next (m'.world.files.read path)) (m'.report (.fileRead path)))
    rw [h.files]
    exact ih _ (hp.2 _) used _ _ (h.report (.fileRead path))
  | count n next ih =>
    intro used m m' h
    show Matches i _ (peel inside used (next (m.world.counted n)) { m with world := m.world.count n })
      (peel inside' used (next (m'.world.counted n)) { m' with world := m'.world.count n })
    rw [h.counted hp.1]
    exact ih _ (hp.2 _) used _ _ (h.count n)
  | attach list entry next _ ih => exact fun used _ _ h => ih hp.2 used _ _ (h.attach list entry)
  | lengthOf list next ih => exact hp.1.elim

/-- The log counts, runs the layers inside it, and writes its record in the context that they have left. -/
theorem peel_logRequests (inside : Run Unit) (counter : Nat) (m : Machine) :
    peel inside false (logRequests counter) m =
      match inside { m with world := m.world.count counter } with
      | .error payload n => .error payload n
      | .ok _ n => .ok (.proceed, true) (n.report (.logged (logRecord (m.world.counted counter) n.context))) := by
  rw [logRequests]
  show (inside >>= fun _ => peel inside true _) { m with world := m.world.count counter } = _
  rw [Run.bind_eq]
  cases inside { m with world := m.world.count counter } <;> rfl

/-- An entry that does not show what it has counted is peeled alike, and so is the log where it is shared. -/
theorem peel_admitted (hPQ : ∀ phase, P phase → Q phase) {inside inside' : Run Unit}
    (hin : RunsAlike i P Q inside inside') {p : Program} (hp : i.Admits p) {m m' : Machine} (h : m.Alike i P m') :
    Matches i (fun x m x' m' => x' = x ∧ m.Alike i (if x.2 then Q else P) m')
      (peel inside false p m) (peel inside' false p m') := by
  rcases hp with hp | ⟨hshared, rfl⟩
  · exact peel_alike hPQ hin hp false m m' h
  · rw [peel_logRequests, peel_logRequests]
    rcases (hin _ _ (h.count i.counter)).cases with ⟨_, n, _, n', hx, hx', hn⟩ | ⟨payload, n, n', hx, hx', hn⟩ <;>
      rw [hx, hx']
    · refine ⟨rfl, ?_⟩
      rw [hn.context]
      exact hn.retell (.renumbered hshared ..)
    · exact ⟨rfl, hn⟩

/-- A layer runs alike around layers that run alike. -/
theorem run_alike_cons (hPQ : ∀ phase, P phase → Q phase) {layer : Layer} {rest rest' : List Layer}
    (hentry : i.Admits layer.entry) (hrest : RunsAlike i P Q (run rest) (run rest')) :
    RunsAlike i P Q (run (layer :: rest)) (run (layer.movedUp i.position :: rest')) := by
  intro m m' h
  cases hd : m.context.draft.done with
  | true =>
    rw [run_done _ hd, run_done _ (by rw [h.context, hd])]
    exact h.mono hPQ
  | false =>
    have hstart := h.report (.started layer.kind layer.index)
    rw [layer.started_movedUp] at hstart
    rw [run, run, Run.bind_get, Run.bind_get, h.context, if_neg (Bool.eq_false_iff.1 hd), if_neg (Bool.eq_false_iff.1 hd),
      Run.bind_modify, Run.bind_modify]
    refine (peel_admitted hPQ hrest hentry hstart).bind ?_
    rintro ⟨flow, used⟩ n - n' ⟨rfl, hn⟩
    have hfinish := hn.report (.finished layer.kind layer.index flow)
    rw [layer.finished_movedUp] at hfinish
    dsimp only at hfinish ⊢
    rw [Run.bind_modify, Run.bind_modify]
    cases flow with
    | proceed =>
      cases used with
      | true => exact hfinish
      | false => exact hrest _ _ hfinish
    | respond r => exact (hfinish.of_used hPQ).render r
    | stop => exact hfinish.of_used hPQ

/-- Layers run alike at their new places. -/
theorem run_alike {rest : List Layer} (hrest : ∀ layer ∈ rest, i.Admits layer.entry) :
    RunsAlike i P P (run rest) (run (rest.map (Layer.movedUp i.position))) := by
  induction rest with
  | nil => exact fun _ _ h => h
  | cons layer rest ih =>
    obtain ⟨hlayer, hrest⟩ := List.forall_mem_cons.1 hrest
    exact run_alike_cons (fun _ h => h) hlayer (ih hrest)

theorem run_logRequests {position counter : Nat} {rest : List Layer} {m : Machine} (hd : m.context.draft.done = false) :
    run (⟨.middleware, position, logRequests counter⟩ :: rest) m =
      match run rest { m.report (.started .middleware position) with world := m.world.count counter } with
      | .error payload n => .error payload n
      | .ok _ n => .ok () ((n.report (.logged (logRecord (m.world.counted counter) n.context))).report
          (.finished .middleware position .proceed)) := by
  have hworld : (m.report (.started .middleware position)).world = m.world := rfl
  rw [run_cons hd]
  dsimp only
  rw [peel_logRequests, hworld]
  cases run rest { m.report (.started .middleware position) with world := m.world.count counter } <;> rfl

/-- The layers inside the log run as they would without it. -/
theorem run_log {inside : List Layer} (hinside : ∀ layer ∈ inside, i.Admits layer.entry) :
    RunsAlike i (· = .absent) (· ≠ .underway) (run inside)
      (run (⟨.middleware, i.position, logRequests i.counter⟩ :: inside.map (Layer.movedUp i.position))) := by
  intro m m' h
  cases hd : m.context.draft.done with
  | true =>
    rw [run_done _ hd, run_done _ (by rw [h.context, hd])]
    exact h.mono (by rintro _ rfl; nofun)
  | false =>
    have hrun := run_alike hinside m _ h.startLog
    rw [run_logRequests (by rw [h.context, hd])]
    rcases hrun.cases with ⟨_, n, _, n', hx, hx', hn⟩ | ⟨payload, n, n', hx, hx', hn⟩ <;> rw [hx, hx']
    · exact hn.finishLog _ _
    · exact ⟨rfl, hn⟩

/-- **The layers around the log and those inside it run as they would without it.** -/
theorem run_inserted {before inside : List Layer} (hbefore : ∀ layer ∈ before, i.Admits layer.entry)
    (hinside : ∀ layer ∈ inside, i.Admits layer.entry) :
    RunsAlike i (· = .absent) (· ≠ .underway) (run (before ++ inside))
      (run (before.map (Layer.movedUp i.position) ++
        ⟨.middleware, i.position, logRequests i.counter⟩ :: inside.map (Layer.movedUp i.position))) := by
  induction before with
  | nil => exact run_log hinside
  | cons layer before ih =>
    obtain ⟨hlayer, hbefore⟩ := List.forall_mem_cons.1 hbefore
    exact run_alike_cons (by rintro _ rfl; nofun) hlayer (ih hbefore)

end Onion

/-! ## Chains that differ in the log -/

theorem entry_mem_of_layers {kind : LaneKind} {entries : List Program} {l : Layer} (h : l ∈ layers kind entries) :
    l.entry ∈ entries := by
  obtain ⟨⟨entry, index⟩, hmem, rfl⟩ := List.mem_map.1 h
  exact List.fst_mem_of_mem_zipIdx hmem

theorem layers_append (kind : LaneKind) (before after : List Program) : layers kind (before ++ after) =
    layers kind before ++ (after.zipIdx before.length).map fun (entry, index) => ⟨kind, index, entry⟩ := by
  rw [layers, List.zipIdx_append, List.map_append, Nat.zero_add]
  rfl

/-- Layers in front of a position stay in their places. -/
theorem layers_movedUp (entries : List Program) :
    (layers .middleware entries).map (Layer.movedUp entries.length) = layers .middleware entries := by
  refine (List.map_congr_left fun l hl => ?_).trans (List.map_id _)
  obtain ⟨⟨entry, index⟩, hmem, rfl⟩ := List.mem_map.1 hl
  obtain ⟨-, hlt, -⟩ := List.mem_zipIdx hmem
  have hplace : placeWith entries.length index = index := if_pos (by omega)
  exact congrArg (fun index => Layer.mk .middleware index entry) hplace

/-- The layers in front of an entry that is put in stay in their places, and those behind it move up. -/
theorem layers_insert (before after : List Program) (p : Program) : ∃ outer inner,
    layers .middleware (before ++ after) = outer ++ inner ∧
    layers .middleware (before ++ p :: after) = outer.map (Layer.movedUp before.length) ++
      ⟨.middleware, before.length, p⟩ :: inner.map (Layer.movedUp before.length) := by
  refine ⟨_, _, layers_append .middleware before after, ?_⟩
  rw [layers_append, layers_movedUp, List.zipIdx_cons, List.map_cons, List.map_map, List.zipIdx_succ, List.map_map]
  refine congrArg (fun inner => _ ++ Layer.mk .middleware before.length p :: inner) (List.map_congr_left ?_)
  rintro ⟨entry, index⟩ hmem
  have hplace : placeWith before.length index = index + 1 := if_neg (Nat.not_lt.2 (List.le_snd_of_mem_zipIdx hmem))
  exact congrArg (fun index => Layer.mk .middleware index entry) hplace.symm

theorem layers_handlers_movedUp (position : Nat) (handlers : List Program) :
    (layers .handlers handlers).map (Layer.movedUp position) = layers .handlers handlers := by
  refine (List.map_congr_left fun l hl => ?_).trans (List.map_id _)
  obtain ⟨⟨entry, index⟩, -, rfl⟩ := List.mem_map.1 hl
  rfl

theorem logRequests_drivesWhole (counter : Nat) : (logRequests counter).DrivesWhole :=
  fun _ => ⟨rfl, fun _ => trivial⟩

/-- Both lanes of a chain are ready to be driven. -/
structure Machine.Opened (m : Machine) (middleware handlers : List Program) : Prop where
  middleware : m.middleware = .ofList middleware
  handlers : m.handlers = .ofList handlers

/-- Before it is driven, all of a chain is left to be run. -/
theorem Machine.Opened.rest {m : Machine} {middleware handlers : List Program} (h : m.Opened middleware handlers) :
    m.rest = layers .middleware middleware ++ layers .handlers handlers := by
  rw [Machine.rest, h.middleware, h.handlers]
  rfl

theorem Machine.Opened.entry_mem {m : Machine} {middleware handlers : List Program} (h : m.Opened middleware handlers)
    {l : Layer} (hl : l ∈ m.rest) : l.entry ∈ middleware ++ handlers := by
  rw [h.rest] at hl
  rcases List.mem_append.1 hl with hl | hl
  · exact List.mem_append_left _ (entry_mem_of_layers hl)
  · exact List.mem_append_right _ (entry_mem_of_layers hl)

section Chains

variable {i : Insertion} {P : LogPhase → Prop} {m m' : Machine}

/-- Lanes are not looked at. -/
theorem Matches.of_bare {x x' : EStateM.Result Panic Machine Unit}
    (h : Matches i (fun _ n _ n' => n.Alike i P n') (bareResult x) (bareResult x')) :
    Matches i (fun _ n _ n' => n.Alike i P n') x x' := by
  cases x with
  | ok u n =>
    cases x' with
    | ok u' n' => exact ⟨h.context, h.files, h.counters, h.journal⟩
    | error payload n' => exact h.elim
  | error payload n =>
    cases x' with
    | ok u' n' => exact h.elim
    | error payload' n' => exact ⟨h.1, h.2.context, h.2.files, h.2.counters, h.2.journal⟩

/-- **A chain runs with the log among its middleware as it runs without it.** -/
theorem driveChain_logged {before after handlers : List Program} (hi : i.position = before.length)
    (hm : m.Opened (before ++ after) handlers) (hm' : m'.Opened (before ++ logRequests i.counter :: after) handlers)
    (hwhole : ∀ p ∈ before ++ after ++ handlers, p.DrivesWhole) (hadmits : ∀ p ∈ before ++ after ++ handlers, i.Admits p)
    (h : m.Alike i (· = .absent) m') :
    Matches i (fun _ n _ n' => n.Alike i (· ≠ .underway) n') (driveChain .all m) (driveChain .all m') := by
  obtain ⟨outer, inner, hlayers, hlayers'⟩ := layers_insert before after (logRequests i.counter)
  have hrest : m.rest = outer ++ (inner ++ layers .handlers handlers) := by
    rw [hm.rest, hlayers, List.append_assoc]
  have hrest' : m'.rest = outer.map (Layer.movedUp i.position) ++ ⟨.middleware, i.position, logRequests i.counter⟩ ::
      (inner ++ layers .handlers handlers).map (Layer.movedUp i.position) := by
    rw [hm'.rest, hlayers', hi, List.map_append, layers_handlers_movedUp, List.append_assoc, List.cons_append]
  have hwhole' : ∀ p ∈ before ++ logRequests i.counter :: after ++ handlers, p.DrivesWhole := by
    intro p hp
    have hcases : p = logRequests i.counter ∨ p ∈ before ++ after ++ handlers := by
      simp only [List.mem_append, List.mem_cons] at hp ⊢
      tauto
    rcases hcases with rfl | hp
    · exact logRequests_drivesWhole i.counter
    · exact hwhole p hp
  have hadmitted : ∀ l ∈ m.rest, i.Admits l.entry := fun l hl => hadmits _ (hm.entry_mem hl)
  have hbare : m.bare.Alike i (· = .absent) m'.bare := ⟨h.context, h.files, h.counters, h.journal⟩
  refine .of_bare ?_
  rw [driveChain_rest m fun l hl => hwhole _ (hm.entry_mem hl),
    driveChain_rest m' fun l hl => hwhole' _ (hm'.entry_mem hl), hrest']
  rw [hrest] at hadmitted ⊢
  obtain ⟨houter, hinner⟩ := List.forall_mem_append.1 hadmitted
  exact Onion.run_inserted houter hinner _ _ hbare

/-! ## Programs with nothing to drive -/

/-- With both lanes closed a program runs as one whose layers inside are used up. -/
theorem Program.run_closed (inside : Run Unit) (p : Program) : ∀ {m : Machine}, m.Closed → p.run driveChain m =
    match Onion.peel inside true p m with
    | .ok (flow, _) m => .ok flow m
    | .error payload m => .error payload m := by
  induction p with
  | finish flow => exact fun _ => rfl
  | panic payload => exact fun _ => rfl
  | look next ih => exact fun hm => ih _ hm
  | change c next ih => exact fun hm => ih ((Machine.Turns.apply _ c).keeps_closed hm)
  | render r next ih => exact fun hm => ih ((Machine.Turns.render _ r).keeps_closed hm)
  | recycle next ih => exact fun hm => ih ((Machine.Turns.recycle _).keeps_closed hm)
  | drive d next ih =>
    intro m hm
    have hdrive : driveChain d m = .ok () m := driveBy_closed hm
    rw [run_drive, hdrive]
    exact ih hm
  | note script action reply next ih => exact fun hm => ih ((Machine.Turns.note _ script action reply).keeps_closed hm)
  | log r next ih => exact fun hm => ih ((Machine.Turns.log _ r).keeps_closed hm)
  | readFile path next ih => exact fun hm => ih _ ((Machine.Turns.readFile _ path).keeps_closed hm)
  | count n next ih => exact fun hm => ih _ ((Machine.Turns.world _ _).keeps_closed hm)
  | attach list entry next _ ih => exact fun hm => ih ((Machine.Turns.world _ _).keeps_closed hm)
  | lengthOf list next ih => exact fun hm => ih _ hm

/-- Without anything to drive, programs run alike. -/
theorem Program.run_closed_alike {p : Program} (hp : p.Within (Deed.Apart i.counter)) (hm : m.Closed) (hm' : m'.Closed)
    (h : m.Alike i P m') :
    Matches i (fun flow n flow' n' => flow' = flow ∧ n.Alike i P n')
      (p.run driveChain m) (p.run driveChain m') := by
  have hnothing : RunsAlike i P P (pure ()) (pure ()) := fun _ _ h => h
  have hpeel := Onion.peel_alike (fun _ h => h) hnothing hp true m m' h
  rw [p.run_closed (pure ()) hm, p.run_closed (pure ()) hm']
  rcases hpeel.cases with ⟨_, n, _, n', hx, hx', rfl, hn⟩ | ⟨payload, n, n', hx, hx', hn⟩ <;> rw [hx, hx']
  · exact ⟨rfl, hn.of_used fun _ h => h⟩
  · exact ⟨rfl, hn⟩

end Chains

end Switchyard
