import Switchyard.Proofs.Chain.Order

/-!
# Chains halt

A machine is halted when its response is done or both lanes are closed (`Machine.Halted`). It stays halted whatever
is done to it, a caught panic and an emptied context included, since these close the lanes (`Turns.keeps_halted`).

- after something was written or rendered, an entry has answered, or a middleware has stopped, the machine is halted
  (`Event.Ends`, `SharedSteps.halted`);
- in a thread whose machine is halted nothing starts, and what is underway only ends (`SharedSteps.starts_halted`).
-/

namespace Switchyard

/-- Whether an event ends a chain: something was written or rendered, an entry answered, or a middleware stopped. -/
def Event.Ends : Event → Prop
  | .wrote _ => True
  | .rendered _ _ => True
  | .finished _ _ (.respond _) => True
  | .finished .middleware _ .stop => True
  | _ => False

namespace Machine

/-- No entry is to be started any more. -/
def Halted (m : Machine) : Prop :=
  m.context.draft.done = true ∨ m.Closed

theorem done_render (m : Machine) (r : Responder) : (m.render r).context.draft.done = true := by
  unfold render
  cases r.writeTo.run m.context.draft <;> rfl

theorem done_close (m : Machine) (kind : LaneKind) : (m.close kind).context.draft.done = m.context.draft.done := by
  cases kind <;> rfl

variable {m m' : Machine}

/-- A halted machine starts nothing. -/
theorem Halted.next? (h : m.Halted) (hd : m.context.draft.done = false) (kind : LaneKind) :
    (m.lane kind).next? = none := by
  rcases h with hdone | hclosed
  · rw [hd] at hdone
    cases hdone
  · simp [Lane.next?, hclosed kind]

/-- A flow that does not go on halts the machine, but for a handler that stops. -/
theorem conclude_halted (m : Machine) (kind : LaneKind) (index : Nat) {flow : Flow}
    (h : (Event.finished kind index flow).Ends) : (m.conclude kind index flow).Halted := by
  unfold conclude
  cases flow with
  | proceed => exact h.elim
  | respond r => exact .inl ((done_close _ kind).trans (done_render _ r))
  | stop =>
    cases kind with
    | middleware => exact .inr (.of_lanes rfl rfl)
    | handlers => exact h.elim

theorem Turns.keeps_done (h : m.Turns m') (hd : m.context.draft.done = true) : m'.Halted := by
  cases h with
  | apply c =>
    left
    cases c with
    | write bytes => rfl
    | _ => exact hd
  | render r => exact .inl (done_render m r)
  | recycle => exact .inr (.of_lanes rfl rfl)
  | close h => exact .inl ((done_close m _).trans hd)
  | conclude kind index flow =>
    unfold Machine.conclude
    cases flow with
    | proceed => exact .inl hd
    | respond r => exact .inl ((done_close _ kind).trans (done_render _ r))
    | stop => cases kind <;> exact .inl hd
  | caught fault => exact .inr (isOpen_halt m)
  | _ => exact .inl hd

/-- **A halted machine stays halted.** -/
theorem Turns.keeps_halted (h : m.Turns m') (hm : m.Halted) : m'.Halted := by
  rcases hm with hd | hc
  · exact h.keeps_done hd
  · exact .inr (h.keeps_closed hc)

/-- A turn that adds an event which ends the chain halts the machine. -/
theorem Turns.halted_of_ends (h : m.Turns m') {e : Event} (he : e ∈ m'.journal) (hends : e.Ends) :
    e ∈ m.journal ∨ m'.Halted := by
  -- what is reported in one of these turns ends no chain
  have hother : ∀ {new : Event}, ¬ new.Ends → e ∈ m.journal ++ [new] → e ∈ m.journal ∨ m'.Halted := by
    intro new hnew hmem
    rcases List.mem_append.1 hmem with hmem | hmem
    · exact .inl hmem
    · obtain rfl := List.mem_singleton.1 hmem
      exact absurd hends hnew
  cases h with
  | keep => exact .inl he
  | apply c =>
    cases c with
    | write bytes => exact .inr (.inl rfl)
    | _ => exact .inl he
  | render r => exact .inr (.inl (done_render m r))
  | recycle => exact hother id he
  | note script action reply => exact hother id he
  | log r => exact hother id he
  | readFile path => exact hother id he
  | world w => exact .inl he
  | @close kind h => exact .inl (by cases kind <;> exact he)
  | conclude kind index flow =>
    cases flow with
    | proceed => exact hother id he
    | respond r => exact .inr (m.conclude_halted kind index trivial)
    | stop =>
      cases kind with
      | middleware => exact .inr (m.conclude_halted .middleware index trivial)
      | handlers => exact hother id he
  | caught fault => exact hother id he

end Machine

namespace Thread

variable {t u : Thread}

/-- **After an event that ends the chain, the machine is halted.** -/
theorem SharedSteps.halted (h : t.SharedSteps u) (ht : ∀ e ∈ t.machine.journal, ¬ e.Ends) {e : Event}
    (he : e ∈ u.machine.journal) (hends : e.Ends) : u.machine.Halted := by
  refine h.keeps (P := fun m => ∀ e ∈ m.journal, e.Ends → m.Halted) (fun h hm e he hends => ?_)
    (fun {m kind index entry} hd hn hm e he hends => ?_) (fun e he hends => absurd hends (ht e he)) e he hends
  · rcases h.halted_of_ends he hends with hold | hhalted
    · exact h.keeps_halted (hm e hold hends)
    · exact hhalted
  · have hjournal : (m.start kind index).journal = m.journal ++ [.started kind index] := by cases kind <;> rfl
    rw [hjournal] at he
    rcases List.mem_append.1 he with he | he
    · have hnone := (hm e he hends).next? hd kind
      rw [hn] at hnone
      cases hnone
    · obtain rfl := List.mem_singleton.1 he
      exact hends.elim

/-- **Nothing starts on a halted machine**, and entries that are underway only end. -/
theorem SharedSteps.starts_halted (h : t.SharedSteps u) (ht : t.machine.Halted) :
    u.machine.Halted ∧ (∀ kind, u.machine.journal.starts kind = t.machine.journal.starts kind) ∧
      u.underway <:+ t.underway := by
  induction h with
  | refl => exact ⟨ht, fun _ => rfl, List.suffix_refl _⟩
  | tail _ hs ih =>
    obtain ⟨hhalted, hstarts, hunder⟩ := ih
    rcases hs.cases with ⟨kind, index, entry, hs⟩ | ⟨hturn, hsuffix⟩
    · have hnone := hhalted.next? hs.running kind
      rw [hs.next] at hnone
      cases hnone
    · exact ⟨hturn.keeps_halted hhalted, fun kind => (hturn.starts kind).trans (hstarts kind), hsuffix.trans hunder⟩

end Thread

end Switchyard
