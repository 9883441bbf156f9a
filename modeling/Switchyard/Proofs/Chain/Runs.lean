import Switchyard.Machine

/-!
# Running chains

- the equations of a run: what a program has it do (`Program.run_drive` and its like), and one for each way a lane goes
  on (`runLane_done`, `runLane_empty`, `runLane_next`);
- a relation between machines that every primitive change keeps is kept by every run (`Kept.run`, `Kept.runLane`);
- no run leaves more entries to start than there were, so that any bound that is not below `Machine.pending` gives
  the same run (`runLane_bound`): the bound never cuts a run short.
-/

namespace Switchyard

/-- Where a run leaves the machine, whether it ends or panics. -/
def Run.after {α : Type} (x : Run α) (m : Machine) : Machine :=
  match x m with
  | .ok _ m => m
  | .error _ m => m

theorem Run.after_ok {α : Type} {x : Run α} {a : α} {m m' : Machine} (h : x m = .ok a m') : x.after m = m' := by
  rw [after, h]

theorem Run.after_error {α : Type} {x : Run α} {payload : Panic} {m m' : Machine} (h : x m = .error payload m') :
    x.after m = m' := by
  rw [after, h]

theorem Run.bind_eq {α β : Type} (x : Run α) (f : α → Run β) (m : Machine) : (x >>= f) m =
    match x m with
    | .ok a m => f a m
    | .error payload m => .error payload m := by
  show EStateM.bind x f m = _
  unfold EStateM.bind
  cases x m <;> rfl

theorem Run.bind_get {α : Type} (f : Machine → Run α) (m : Machine) : (get >>= f) m = f m m := rfl

theorem Run.bind_modify {α : Type} (g : Machine → Machine) (f : PUnit → Run α) (m : Machine) :
    (modify g >>= f) m = f ⟨⟩ (g m) := rfl

/-! ## Programs, step by step -/

namespace Program

variable {drive : Drive → Run Unit} {m : Machine} {next : Program}

theorem run_look (next : Context → Program) : (look next).run drive m = (next m.context).run drive m := rfl

theorem run_drive (d : Drive) : (Program.drive d next).run drive m =
    match drive d m with
    | .ok _ m => next.run drive m
    | .error payload m => .error payload m := by
  rw [run]
  refine (Run.bind_eq _ _ m).trans ?_
  cases drive d m <;> rfl

theorem run_readFile (path : FilePath) (next : Except FileError (String × List UInt8) → Program) :
    (readFile path next).run drive m = (next (m.world.files.read path)).run drive (m.report (.fileRead path)) := rfl

theorem run_count (counter : Nat) (next : Nat → Program) : (count counter next).run drive m =
    (next (m.world.counted counter)).run drive { m with world := m.world.count counter } := rfl

theorem run_attach (list : Nat) (entry : Program) : (attach list entry next).run drive m =
    next.run drive { m with world := m.world.attach list entry } := rfl

theorem run_lengthOf (list : Nat) (next : Nat → Program) :
    (lengthOf list next).run drive m = (next (m.world.list list).length).run drive m := rfl

end Program

/-! ## Lanes, step by step -/

/-- Whether a lane goes on after an entry that ended so. -/
def Flow.goesOn : Flow → Bool
  | .proceed => true
  | .respond _ => false
  | .stop => false

/-- The machine once the flow of an entry has been seen to. -/
def Machine.settle (m : Machine) (kind : LaneKind) : Flow → Machine
  | .proceed => m
  | .respond r => m.render r
  | .stop => if kind = .middleware then m.close .handlers else m

theorem settle_eq (kind : LaneKind) (flow : Flow) (m : Machine) :
    settle kind flow m = .ok flow.goesOn (m.settle kind flow) := by
  cases flow with
  | proceed => rfl
  | respond r => rfl
  | stop => cases kind <;> rfl

variable {m : Machine} {kind : LaneKind}

theorem runLane_zero : runLane 0 kind m = .ok () (m.close kind) := rfl

/-- A lane is not driven once the response is done. -/
theorem runLane_done (bound : Nat) (h : m.context.draft.done = true) : runLane bound kind m = .ok () (m.close kind) := by
  cases bound with
  | zero => rfl
  | succ bound =>
    rw [runLane, Run.bind_get, if_pos h]
    rfl

/-- A lane that is closed or has come to its end has nothing to run. -/
theorem runLane_empty (bound : Nat) (h : (m.lane kind).next? = none) : runLane bound kind m = .ok () (m.close kind) := by
  cases bound with
  | zero => rfl
  | succ bound =>
    rw [runLane, Run.bind_get, h]
    split <;> rfl

/-- A lane with an entry left starts it; how the entry ends decides whether the lane goes on. -/
theorem runLane_next {bound index : Nat} {entry : Program} (hd : m.context.draft.done = false)
    (hn : (m.lane kind).next? = some (index, entry)) : runLane (bound + 1) kind m =
      match entry.run (driveBy (runLane bound)) (m.start kind index) with
      | .error payload m => .error payload m
      | .ok flow m =>
        let settled := (m.report (.finished kind index flow)).settle kind flow
        if flow.goesOn then runLane bound kind settled else .ok () (settled.close kind) := by
  rw [runLane, Run.bind_get, if_neg (Bool.eq_false_iff.1 hd), hn]
  dsimp only
  rw [Run.bind_modify, Run.bind_eq]
  cases entry.run (driveBy (runLane bound)) (m.start kind index) with
  | error payload m => rfl
  | ok flow m =>
    dsimp only
    rw [Run.bind_modify, Run.bind_eq, settle_eq]
    cases flow <;> rfl

theorem driveBy_all (lane : LaneKind → Run Unit) : driveBy lane .all m =
    match lane .middleware m with
    | .ok _ m => lane .handlers m
    | .error payload m => .error payload m := by
  rw [driveBy]
  refine (Run.bind_eq _ _ m).trans ?_
  cases lane .middleware m <;> rfl

/-! ## What every run keeps -/

/-- A relation between an earlier and a later machine that each change made in a run keeps. -/
structure Kept (R : Machine → Machine → Prop) : Prop where
  refl : ∀ m, R m m
  trans : ∀ {a b c}, R a b → R b c → R a c
  apply : ∀ m c, R m (m.apply c)
  render : ∀ m r, R m (m.render r)
  recycle : ∀ m, R m m.recycle
  report : ∀ m e, R m (m.report e)
  /-- Entries count and attach, but leave the files alone. -/
  world : ∀ m w, w.files = m.world.files → R m { m with world := w }
  close : ∀ m kind, R m (m.close kind)
  start : ∀ {m kind index entry}, (m.lane kind).next? = some (index, entry) → R m (m.start kind index)

namespace Kept

variable {R : Machine → Machine → Prop}

theorem settle (hR : Kept R) (m : Machine) (kind : LaneKind) (flow : Flow) : R m (m.settle kind flow) := by
  cases flow with
  | proceed => exact hR.refl m
  | respond r => exact hR.render m r
  | stop =>
    simp only [Machine.settle]
    split
    · exact hR.close m .handlers
    · exact hR.refl m

/-- A program keeps what its drives keep. -/
theorem run (hR : Kept R) {drive : Drive → Run Unit} (hd : ∀ d m, R m (Run.after (drive d) m)) (p : Program) :
    ∀ m, R m (Run.after (p.run drive) m) := by
  induction p with
  | finish flow => exact hR.refl
  | panic payload => exact hR.refl
  | look next ih => exact fun m => ih m.context m
  | change c next ih => exact fun m => hR.trans (hR.apply m c) (ih _)
  | render r next ih => exact fun m => hR.trans (hR.render m r) (ih _)
  | recycle next ih => exact fun m => hR.trans (hR.recycle m) (ih _)
  | drive d next ih =>
    intro m
    have h := hd d m
    rw [Run.after, Program.run_drive]
    cases hr : drive d m with
    | ok u m' => rw [Run.after_ok hr] at h; exact hR.trans h (ih m')
    | error payload m' => rw [Run.after_error hr] at h; exact h
  | note script action reply next ih => exact fun m => hR.trans (hR.report m _) (ih _)
  | log r next ih => exact fun m => hR.trans (hR.report m _) (ih _)
  | readFile path next ih => exact fun m => hR.trans (hR.report m _) (ih _ _)
  | count counter next ih => exact fun m => hR.trans (hR.world m (m.world.count counter) rfl) (ih _ _)
  | attach list entry next _ ih => exact fun m => hR.trans (hR.world m (m.world.attach list entry) rfl) (ih _)
  | lengthOf list next ih => exact fun m => ih _ m

theorem driveBy (hR : Kept R) {lane : LaneKind → Run Unit} (hl : ∀ kind m, R m (Run.after (lane kind) m)) :
    ∀ d m, R m (Run.after (driveBy lane d) m)
  | .middleware, m => hl .middleware m
  | .handlers, m => hl .handlers m
  | .all, m => by
    have h := hl .middleware m
    rw [Run.after, driveBy_all]
    cases hr : lane .middleware m with
    | ok u m' => rw [Run.after_ok hr] at h; exact hR.trans h (hl .handlers m')
    | error payload m' => rw [Run.after_error hr] at h; exact h

/-- **Every run of a lane keeps what each change keeps.** -/
theorem runLane (hR : Kept R) : ∀ bound kind m, R m (Run.after (runLane bound kind) m)
  | 0, kind, m => hR.close m kind
  | bound + 1, kind, m => by
    cases hd : m.context.draft.done with
    | true => rw [Run.after_ok (runLane_done _ hd)]; exact hR.close m kind
    | false =>
      cases hn : (m.lane kind).next? with
      | none => rw [Run.after_ok (runLane_empty _ hn)]; exact hR.close m kind
      | some entry =>
        obtain ⟨index, entry⟩ := entry
        have h := hR.run (hR.driveBy (hR.runLane bound)) entry (m.start kind index)
        rw [Run.after, runLane_next hd hn]
        cases hr : entry.run (Switchyard.driveBy (Switchyard.runLane bound)) (m.start kind index) with
        | error payload m' => rw [Run.after_error hr] at h; exact hR.trans (hR.start hn) h
        | ok flow m' =>
          rw [Run.after_ok hr] at h
          -- the lane goes on, or is closed, from where the entry and its flow have left the machine
          have hs := hR.trans (hR.trans (hR.start hn) h)
            (hR.trans (hR.report m' (.finished kind index flow)) (hR.settle _ kind flow))
          dsimp only
          by_cases hg : flow.goesOn = true
          · rw [if_pos hg]; exact hR.trans hs (hR.runLane bound kind _)
          · rw [if_neg hg]; exact hR.trans hs (hR.close _ kind)

end Kept

/-! ## Entries left to start -/

/-- What the next entry of a lane tells about the lane. -/
theorem Lane.next?_eq_some {l : Lane} {index : Nat} {entry : Program} (h : l.next? = some (index, entry)) :
    l.isOpen = true ∧ index = l.started ∧ l.entries[l.started]? = some entry := by
  unfold next? at h
  split at h
  · rename_i ho
    cases he : l.entries[l.started]? with
    | none => rw [he] at h; cases h
    | some e => rw [he] at h; cases h; exact ⟨ho, rfl, rfl⟩
  · cases h

/-- Starting an entry leaves one less to start. -/
theorem Lane.pending_advance {l : Lane} {index : Nat} {entry : Program} (h : l.next? = some (index, entry)) :
    l.advance.pending + 1 = l.pending := by
  obtain ⟨hlt, -⟩ := List.getElem?_eq_some_iff.1 (next?_eq_some h).2.2
  simp only [pending, advance]
  omega

theorem Lane.next?_of_pending {l : Lane} (h : l.pending = 0) : l.next? = none := by
  cases hn : l.next? with
  | none => rfl
  | some entry => have := pending_advance hn; omega

namespace Machine

theorem pending_close (m : Machine) (kind : LaneKind) : (m.close kind).pending = m.pending := by
  cases kind <;> rfl

theorem pending_apply (m : Machine) (c : Context.Change) : (m.apply c).pending = m.pending := by
  cases c <;> rfl

theorem pending_render (m : Machine) (r : Responder) : (m.render r).pending = m.pending := by
  unfold render
  cases r.writeTo.run m.context.draft <;> rfl

theorem pending_start {m : Machine} {kind : LaneKind} {index : Nat} {entry : Program}
    (h : (m.lane kind).next? = some (index, entry)) : (m.start kind index).pending + 1 = m.pending := by
  have := Lane.pending_advance h
  cases kind <;> simp only [lane] at this <;> simp only [start, setLane, lane, report, pending] <;> omega

/-- Without entries left to start, no lane has a next one. -/
theorem next?_of_pending {m : Machine} (h : m.pending = 0) (kind : LaneKind) : (m.lane kind).next? = none := by
  unfold pending at h
  cases kind <;> exact Lane.next?_of_pending (by simp only [lane]; omega)

end Machine

/-- No run adds to the entries left to start. -/
theorem kept_pending : Kept fun m m' => m'.pending ≤ m.pending where
  refl _ := Nat.le_refl _
  trans h h' := Nat.le_trans h' h
  apply m c := Nat.le_of_eq (m.pending_apply c)
  render m r := Nat.le_of_eq (m.pending_render r)
  recycle _ := Nat.zero_le _
  report _ _ := Nat.le_refl _
  world _ _ _ := Nat.le_refl _
  close m kind := Nat.le_of_eq (m.pending_close kind)
  start h := by have := Machine.pending_start h; omega

/-! ## The bound -/

/-- A program runs alike under two ways to drive that agree wherever it may drive. -/
theorem Program.run_congr {drive drive' : Drive → Run Unit} {bound : Nat}
    (hk : ∀ d m, (Run.after (drive d) m).pending ≤ m.pending)
    (hd : ∀ d m, m.pending ≤ bound → drive d m = drive' d m) (p : Program) :
    ∀ m : Machine, m.pending ≤ bound → p.run drive m = p.run drive' m := by
  induction p with
  | finish flow => exact fun _ _ => rfl
  | panic payload => exact fun _ _ => rfl
  | look next ih => exact fun m h => ih m.context m h
  | change c next ih => exact fun m h => ih _ (by rwa [m.pending_apply])
  | render r next ih => exact fun m h => ih _ (by rwa [m.pending_render])
  | recycle next ih => exact fun m _ => ih _ (Nat.zero_le _)
  | drive d next ih =>
    intro m h
    have hle := hk d m
    rw [run_drive, run_drive, ← hd d m h]
    cases hr : drive d m with
    | error payload m' => rfl
    | ok u m' => rw [Run.after_ok hr] at hle; exact ih m' (Nat.le_trans hle h)
  | note script action reply next ih => exact fun m h => ih _ h
  | log r next ih => exact fun m h => ih _ h
  | readFile path next ih => exact fun m h => ih _ _ h
  | count counter next ih => exact fun m h => ih _ _ h
  | attach list entry next _ ih => exact fun m h => ih _ h
  | lengthOf list next ih => exact fun m h => ih _ m h

theorem driveBy_congr {lane lane' : LaneKind → Run Unit} {bound : Nat}
    (hk : ∀ kind m, (Run.after (lane kind) m).pending ≤ m.pending)
    (hl : ∀ kind m, m.pending ≤ bound → lane kind m = lane' kind m) :
    ∀ (d : Drive) (m : Machine), m.pending ≤ bound → driveBy lane d m = driveBy lane' d m
  | .middleware, m, h => hl .middleware m h
  | .handlers, m, h => hl .handlers m h
  | .all, m, h => by
    have hle := hk .middleware m
    rw [driveBy_all, driveBy_all, ← hl .middleware m h]
    cases hr : lane .middleware m with
    | error payload m' => rfl
    | ok u m' => rw [Run.after_ok hr] at hle; exact hl .handlers m' (Nat.le_trans hle h)

/-- **The bound never cuts a run short**: all bounds that leave room for the entries left give the same run. -/
theorem runLane_bound : ∀ {bound bound' : Nat}, bound ≤ bound' → ∀ (kind : LaneKind) (m : Machine),
    m.pending ≤ bound → runLane bound kind m = runLane bound' kind m
  | 0, bound', _, kind, m, h => by
    rw [runLane_zero, runLane_empty bound' (Machine.next?_of_pending (by omega) kind)]
  | bound + 1, 0, hb, _, _, _ => absurd hb (by omega)
  | bound + 1, bound' + 1, hb, kind, m, h => by
    have ih := @runLane_bound bound bound' (by omega)
    cases hd : m.context.draft.done with
    | true => rw [runLane_done _ hd, runLane_done _ hd]
    | false =>
      cases hn : (m.lane kind).next? with
      | none => rw [runLane_empty _ hn, runLane_empty _ hn]
      | some entry =>
        obtain ⟨index, entry⟩ := entry
        have hs := Machine.pending_start hn
        have hk := kept_pending.driveBy (kept_pending.runLane bound)
        have hrun := Program.run_congr hk (driveBy_congr (kept_pending.runLane bound) ih) entry (m.start kind index)
          (by omega)
        rw [runLane_next hd hn, runLane_next hd hn, ← hrun]
        have hle := kept_pending.run hk entry (m.start kind index)
        cases hr : entry.run (driveBy (runLane bound)) (m.start kind index) with
        | error payload m' => rfl
        | ok flow m' =>
          rw [Run.after_ok hr] at hle
          dsimp only
          split
          · have hset := kept_pending.settle (m'.report (.finished kind index flow)) kind flow
            have := Nat.le_trans hset hle
            exact ih kind _ (by omega)
          · rfl

end Switchyard
