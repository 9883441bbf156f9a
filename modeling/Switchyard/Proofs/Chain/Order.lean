import Switchyard.Proofs.Chain.Turns

/-!
# Entries start in order

While the entries of a chain run, each lane has started the entries at its first places, one after the other and each
of them once; an open lane is the lane that was opened, with its cursor behind these places (`Machine.InOrder`).

- turns and starts keep that (`Turns.inOrder`, `inOrder_start`), whichever entries drive what, and so does a whole
  thread (`Thread.SharedSteps.inOrder`);
- where a step starts something, it starts the next entry of the list the lane was opened with (`Starts.next_entry`);
- where both lanes are closed, nothing starts any more (`Thread.SharedSteps.starts_closed`).
-/

namespace Switchyard

/-- The entries of each lane were started in their order up to some place; an open lane has its cursor there. -/
def Machine.InOrder (entries : LaneKind → List Program) (m : Machine) : Prop :=
  ∀ kind, ∃ n ≤ (entries kind).length, m.journal.starts kind = List.range n ∧
    ((m.lane kind).isOpen = true → (m.lane kind).entries = entries kind ∧ (m.lane kind).started = n)

namespace Machine

variable {entries : LaneKind → List Program} {m m' : Machine}

theorem Turns.inOrder (h : m.Turns m') (hm : m.InOrder entries) : m'.InOrder entries := by
  intro kind
  obtain ⟨n, hn, hstarts, hlane⟩ := hm kind
  refine ⟨n, hn, (h.starts kind).trans hstarts, fun ho => ?_⟩
  rcases h.lane kind with heq | hclosed
  · rw [heq] at ho ⊢
    exact hlane ho
  · rw [hclosed] at ho
    cases ho

theorem lane_start (m : Machine) (kind k : LaneKind) (index : Nat) :
    (m.start kind index).lane k = if kind = k then (m.lane k).advance else m.lane k := by
  cases kind <;> cases k <;> rfl

/-- The next entry of a lane is that of the list it was opened with, at the first place that was not started. -/
theorem InOrder.next_entry (h : m.InOrder entries) {kind : LaneKind} {index : Nat} {entry : Program}
    (hn : (m.lane kind).next? = some (index, entry)) :
    m.journal.starts kind = List.range index ∧ (entries kind)[index]? = some entry ∧
      (m.lane kind).entries = entries kind ∧ (m.lane kind).started = index := by
  obtain ⟨n, -, hstarts, hlane⟩ := h kind
  obtain ⟨ho, rfl, he⟩ := Lane.next?_eq_some hn
  obtain ⟨hentries, hstarted⟩ := hlane ho
  rw [hstarted] at he ⊢
  rw [hentries] at he
  exact ⟨hstarts, he, hentries, rfl⟩

theorem inOrder_start {kind : LaneKind} {index : Nat} {entry : Program} (h : m.InOrder entries)
    (hn : (m.lane kind).next? = some (index, entry)) : (m.start kind index).InOrder entries := by
  obtain ⟨hstarts, hentry, hentries, hstarted⟩ := h.next_entry hn
  intro k
  rw [starts_start, lane_start]
  by_cases hk : kind = k
  · subst hk
    obtain ⟨hlt, -⟩ := List.getElem?_eq_some_iff.1 hentry
    rw [if_pos rfl, if_pos rfl, hstarts, ← List.range_succ]
    exact ⟨index + 1, hlt, rfl, fun _ => ⟨hentries, congrArg (· + 1) hstarted⟩⟩
  · rw [if_neg hk, if_neg hk, List.append_nil]
    exact h k

/-- Both lanes are closed. -/
def Closed (m : Machine) : Prop :=
  ∀ kind, (m.lane kind).isOpen = false

theorem Closed.of_lanes (hm : (m.lane .middleware).isOpen = false) (hh : (m.lane .handlers).isOpen = false) : m.Closed
  | .middleware => hm
  | .handlers => hh

theorem Turns.keeps_closed (h : m.Turns m') (hm : m.Closed) : m'.Closed :=
  fun kind => h.closed (hm kind)

end Machine

namespace Thread

variable {entries : LaneKind → List Program} {t u : Thread}

/-- **Entries start in order**, whatever drives the chain. -/
theorem SharedSteps.inOrder (h : t.SharedSteps u) (ht : t.machine.InOrder entries) : u.machine.InOrder entries :=
  h.keeps (P := Machine.InOrder entries) (fun h hm => h.inOrder hm)
    (fun _ hn hm => Machine.inOrder_start hm hn) ht

/-- A step starts nothing, or one entry: the next of the list that its lane was opened with. -/
theorem SharedStep.next_entry (h : t.SharedStep u) (ht : t.machine.InOrder entries) (kind : LaneKind) :
    u.machine.journal.starts kind = t.machine.journal.starts kind ∨
      ∃ index entry, (entries kind)[index]? = some entry ∧ t.machine.journal.starts kind = List.range index ∧
        u.machine.journal.starts kind = List.range (index + 1) ∧
        u.control = .program entry ∧ u.frames = .entry kind index :: t.frames := by
  rcases h.cases with ⟨k, index, entry, hs⟩ | ⟨hs, -⟩
  · obtain ⟨hstarts, hentry, -⟩ := ht.next_entry hs.next
    rw [hs.result]
    by_cases hk : k = kind
    · subst hk
      refine .inr ⟨index, entry, hentry, hstarts, ?_, rfl, rfl⟩
      rw [Machine.starts_start, if_pos rfl, hstarts, List.range_succ]
    · left
      rw [Machine.starts_start, if_neg hk, List.append_nil]
  · exact .inl (hs.starts kind)

/-- In a lane that is closed nothing starts any more. -/
theorem SharedSteps.starts_lane (h : t.SharedSteps u) {kind : LaneKind} (hc : (t.machine.lane kind).isOpen = false) :
    (u.machine.lane kind).isOpen = false ∧ u.machine.journal.starts kind = t.machine.journal.starts kind := by
  refine h.keeps
    (P := fun m => (m.lane kind).isOpen = false ∧ m.journal.starts kind = t.machine.journal.starts kind)
    (fun h hm => ⟨h.closed hm.1, (h.starts kind).trans hm.2⟩) (fun {m k index entry} _ hn hm => ?_) ⟨hc, rfl⟩
  have hne : k ≠ kind := by
    rintro rfl
    rw [(Lane.next?_eq_some hn).1] at hm
    cases hm.1
  rw [Machine.lane_start, Machine.starts_start, if_neg hne, if_neg hne, List.append_nil]
  exact hm

/-- With both lanes closed nothing starts any more. -/
theorem SharedSteps.starts_closed (h : t.SharedSteps u) (ht : t.machine.Closed) :
    u.machine.Closed ∧ ∀ kind, u.machine.journal.starts kind = t.machine.journal.starts kind :=
  ⟨fun kind => (h.starts_lane (ht kind)).1, fun kind => (h.starts_lane (ht kind)).2⟩

end Thread

end Switchyard
