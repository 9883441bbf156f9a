import Mathlib.Tactic.MkIffOfInductiveProp
import Switchyard.Assets
import Switchyard.Proofs.Chain.Stop

/-!
# Directories are not left

The handler of a directory splits what the wildcard of its route has captured at slashes of either kind. It resolves the
parts below its root exactly if each of them is a plain name (`Assets.resolve?_eq_some_iff`).

While the handler is at work its frame is on top, as it drives nothing. It goes through a few stages (`Assets.Stage`): it
looks at the context, asks for the file that was resolved or for none, and answers. Every step of a thread in which no
other handlers start keeps to that (`Thread.Serving.step`), and what a step of the handler asks for is known from the
stage it starts in (`Assets.Stage.step`, `Thread.Serving.asks`). It does come to an answer, and to which one is known from
the files there are (`Assets.answer`, `Assets.steps_answer`).
-/

namespace Switchyard

/-! ## What is asked for -/

namespace Assets

/-- A name that leads from a directory to an entry of it, and nowhere else. -/
@[mk_iff]
structure PlainName (name : String) : Prop where
  nonempty : name ≠ ""
  notDot : name ≠ "."
  notDotDot : name ≠ ".."
  slash : '/' ∉ name.toList
  backslash : '\\' ∉ name.toList
  colon : ':' ∉ name.toList

instance (name : String) : Decidable (PlainName name) :=
  decidable_of_iff _ (plainName_iff name).symm

/-- What the wildcard of a directory has captured. -/
def captured (c : Context) : String :=
  (c.params.get? param).getD ""

/-- A captured path of plain names only. -/
def Plain (value : String) : Prop :=
  ∀ name ∈ parts value, PlainName name

instance (value : String) : Decidable (Plain value) :=
  inferInstanceAs (Decidable (∀ name ∈ parts value, PlainName name))

theorem isName_iff {value name : String} (h : name ∈ parts value) : isName name = true ↔ PlainName name := by
  obtain ⟨piece, hpiece, rfl⟩ := List.mem_map.1 h
  obtain ⟨hsplit, -⟩ := List.mem_filter.1 hpiece
  have hslash : '/' ∉ piece := Text.splitOn_free '/' _ piece hsplit
  have hbackslash : '\\' ∉ piece := by
    intro hmem
    obtain ⟨c, -, hc⟩ := List.mem_map.1 (Text.mem_of_mem_splitOn hsplit hmem)
    split at hc
    · cases hc
    · rename_i hne
      exact hne hc
  have hnonempty : String.ofList piece ≠ "" := fun he =>
    Text.ne_nil_of_mem_pieces hpiece (String.ofList_injective he)
  have hname : isName (.ofList piece) = true ↔ String.ofList piece ≠ "." ∧ String.ofList piece ≠ ".." ∧ ':' ∉ piece := by
    simp [isName, and_assoc]
  rw [hname]
  constructor
  · rintro ⟨hdot, hdots, hcolon⟩
    exact ⟨hnonempty, hdot, hdots, by simpa using hslash, by simpa using hbackslash, by simpa using hcolon⟩
  · intro hplain
    exact ⟨hplain.notDot, hplain.notDotDot, by simpa using hplain.colon⟩

theorem resolve?_eq_some_iff {root path : FilePath} {value : String} :
    resolve? root value = some path ↔ Plain value ∧ path = root.below (parts value) := by
  have hall : (parts value).all isName = true ↔ Plain value := by
    rw [List.all_eq_true]
    exact forall₂_congr fun name h => isName_iff h
  unfold resolve?
  split
  · rename_i h
    rw [Option.some.injEq, and_iff_right (hall.1 h), eq_comm]
  · rename_i h
    exact iff_of_false nofun fun ⟨hplain, _⟩ => h (hall.2 hplain)

theorem resolve?_eq_none_iff {root : FilePath} {value : String} :
    resolve? root value = none ↔ ¬ Plain value := by
  rw [Option.eq_none_iff_forall_ne_some]
  constructor
  · exact fun h hplain => h _ (resolve?_eq_some_iff.2 ⟨hplain, rfl⟩)
  · exact fun h path hsome => h (resolve?_eq_some_iff.1 hsome).1

end Assets

/-- The file that an event tells was asked for. -/
def Event.fileRead? : Event → Option FilePath
  | .fileRead path => some path
  | _ => none

/-- The files that were asked for, the first in front. -/
def Journal.filesRead (j : Journal) : List FilePath :=
  j.filterMap Event.fileRead?

/-- Only an answer. -/
def Deed.Responds : Deed → Prop
  | .finish (.respond _) => True
  | _ => False

namespace Machine

theorem filesRead_report (m : Machine) (e : Event) :
    (m.report e).journal.filesRead = m.journal.filesRead ++ e.fileRead?.toList :=
  filterMap_report _ m e

theorem filesRead_conclude (m : Machine) (kind : LaneKind) (index : Nat) (flow : Flow) :
    (m.conclude kind index flow).journal.filesRead = m.journal.filesRead := by
  refine (filterMap_conclude (fun _ he => ?_) m kind index flow).trans (List.append_nil _)
  cases he with
  | fileRead h => exact h.elim
  | _ => rfl

end Machine

/-! ## The handler at work -/

namespace Assets

/-- The handler looks at what was captured. -/
theorem directory_eq (root : FilePath) : ∃ next, directory root = .look next ∧ ∀ c, next c =
    match resolve? root (captured c) with
    | some path => serve path
    | none => .respond (.status .notFound) :=
  ⟨_, rfl, fun _ => rfl⟩

/-- What is served is asked for, and then answered with. -/
theorem serve_eq (path : FilePath) :
    ∃ next, serve path = .readFile path next ∧ ∀ result, (next result).Within Deed.Responds := by
  refine ⟨_, rfl, fun result => ?_⟩
  match result with
  | .ok (name, bytes) => exact trivial
  | .error .notFound => exact trivial
  | .error .denied => exact trivial
  | .error .unreadable => exact fun _ => trivial

/-- How far the handler of a directory has come, in a context. -/
inductive Stage (root : FilePath) (c : Context) : Program → Prop where
  | asked : Stage root c (directory root)
  | resolved {path : FilePath} (h : resolve? root (captured c) = some path) : Stage root c (serve path)
  | answering {path : FilePath} (h : resolve? root (captured c) = some path) {p : Program}
    (hp : p.Within Deed.Responds) : Stage root c p
  | refused (h : resolve? root (captured c) = none) : Stage root c (.respond (.status .notFound))

/-- The handler goes on, in the same context; it may have asked for what the captured path is resolved to. -/
structure Proceeds (root : FilePath) (t u : Thread) : Prop where
  frames : u.frames = t.frames
  stage : ∃ p, u.control = .program p ∧ Stage root u.machine.context p
  context : u.machine.context = t.machine.context
  filesRead : u.machine.journal.filesRead = t.machine.journal.filesRead ∨
    ∃ path, resolve? root (captured t.machine.context) = some path ∧
      u.machine.journal.filesRead = t.machine.journal.filesRead ++ [path]

/-- The handler ends with an answer; it is that nothing was found if the captured path is not resolved. -/
structure Answers (root : FilePath) (index : Nat) (t u : Thread) (r : Responder) : Prop where
  ends : t.Ends .handlers index (.respond r) u
  filesRead : u.machine.journal.filesRead = t.machine.journal.filesRead
  refused : resolve? root (captured t.machine.context) = none → r = .status .notFound

variable {root : FilePath} {p : Program} {m : Machine}

/-- **The handler goes from stage to stage until it answers.** -/
theorem Stage.step (h : Stage root m.context p) (index : Nat) (frames : List Frame) :
    Proceeds root ⟨.program p, .entry .handlers index :: frames, m⟩
        (Thread.programStep (.entry .handlers index :: frames) m p) ∨
      ∃ r, Answers root index ⟨.program p, .entry .handlers index :: frames, m⟩
        (Thread.programStep (.entry .handlers index :: frames) m p) r := by
  have hnothing : ∀ e : Event, e.fileRead? = none → (m.report e).journal.filesRead = m.journal.filesRead := by
    intro e he
    rw [Machine.filesRead_report, he, Option.toList_none, List.append_nil]
  cases h with
  | asked =>
    obtain ⟨next, heq, hnext⟩ := directory_eq root
    have hstage : Stage root m.context (next m.context) := by
      rw [hnext]
      split
      · rename_i path hresolve
        exact .resolved hresolve
      · rename_i hresolve
        exact .refused hresolve
    rw [heq]
    exact .inl ⟨rfl, ⟨_, rfl, hstage⟩, rfl, .inl rfl⟩
  | @resolved path hresolve =>
    obtain ⟨next, heq, hnext⟩ := serve_eq path
    rw [heq]
    have hread : (m.report (.fileRead path)).journal.filesRead = m.journal.filesRead ++ [path] :=
      Machine.filesRead_report m (.fileRead path)
    exact .inl ⟨rfl, ⟨_, rfl, .answering hresolve (hnext _)⟩, rfl, .inr ⟨path, hresolve, hread⟩⟩
  | refused hresolve =>
    have hsame := m.filesRead_conclude .handlers index (.respond (.status .notFound))
    exact .inr ⟨_, ⟨rfl, rfl, rfl⟩, hsame, fun _ => rfl⟩
  | @answering path hresolve _ hp =>
    cases p with
    | finish flow =>
      cases flow with
      | respond r =>
        refine .inr ⟨r, ⟨rfl, rfl, rfl⟩, m.filesRead_conclude .handlers index (.respond r), fun hnone => ?_⟩
        cases hnone.symm.trans hresolve
      | _ => exact hp.elim
    | look next => exact .inl ⟨rfl, ⟨_, rfl, .answering hresolve (hp _)⟩, rfl, .inl rfl⟩
    | note script action reply next =>
      exact .inl ⟨rfl, ⟨_, rfl, .answering hresolve hp⟩, rfl, .inl (hnothing _ rfl)⟩
    | log r next => exact .inl ⟨rfl, ⟨_, rfl, .answering hresolve hp⟩, rfl, .inl (hnothing _ rfl)⟩
    | panic payload => exact hp.elim
    | _ => exact hp.1.elim

/-! ## The handler comes to its answer -/

/-- The answer for what was read. -/
def answerTo : Except FileError (String × List UInt8) → Responder
  | .ok (name, bytes) => .plain (.ofFileName name) bytes .ok
  | .error .notFound => .status .notFound
  | .error .denied => .status .forbidden
  | .error .unreadable => .status .serverError

/-- The answer for what was captured, by the files there are. -/
def answer (root : FilePath) (files : FileSystem) (value : String) : Responder :=
  match resolve? root value with
  | some path => answerTo (files.read path)
  | none => .status .notFound

/-- What is served is read once and answered in the same context. -/
theorem steps_serve (path : FilePath) (frames : List Frame) (m : Machine) :
    ∃ m', Thread.Steps ⟨.program (serve path), frames, m⟩
        ⟨.program (.respond (answerTo (m.world.files.read path))), frames, m'⟩ ∧
      m'.context = m.context ∧ m'.journal.filesRead = m.journal.filesRead ++ [path] := by
  have hread : Thread.step ⟨.program (serve path), frames, m⟩ =
      some ⟨.program _, frames, m.report (.fileRead path)⟩ := rfl
  have hfiles : (m.report (.fileRead path)).journal.filesRead = m.journal.filesRead ++ [path] :=
    Machine.filesRead_report m (.fileRead path)
  match hfile : m.world.files.read path with
  | .ok (name, bytes) =>
    rw [hfile] at hread
    exact ⟨_, .single hread, rfl, hfiles⟩
  | .error .notFound =>
    rw [hfile] at hread
    exact ⟨_, .single hread, rfl, hfiles⟩
  | .error .denied =>
    rw [hfile] at hread
    exact ⟨_, .single hread, rfl, hfiles⟩
  | .error .unreadable =>
    -- that it could not be read is logged before the answer
    rw [hfile] at hread
    refine ⟨(m.report (.fileRead path)).report
      (.logged (.fileUnreadable path.text m.context.path)),
      .head hread (.head rfl (.single rfl)), rfl, ?_⟩
    rw [Machine.filesRead_report, hfiles]
    exact List.append_nil _

/-- **The handler comes to its answer**, in the same context: that nothing was found, with nothing done before, or one
for which it has read the file that was resolved. -/
theorem steps_answer (root : FilePath) (frames : List Frame) (m : Machine) :
    ∃ m', Thread.Steps ⟨.program (directory root), frames, m⟩
        ⟨.program (.respond (answer root m.world.files (captured m.context))), frames, m'⟩ ∧
      m'.context = m.context ∧
      (∀ path, resolve? root (captured m.context) = some path →
        m'.journal.filesRead = m.journal.filesRead ++ [path]) ∧
      (resolve? root (captured m.context) = none → m' = m) := by
  obtain ⟨next, heq, hnext⟩ := directory_eq root
  have hlook : Thread.step ⟨.program (directory root), frames, m⟩ = some ⟨.program (next m.context), frames, m⟩ := by
    rw [heq]
    rfl
  rw [hnext] at hlook
  unfold answer
  cases hresolve : resolve? root (captured m.context) with
  | none =>
    rw [hresolve] at hlook
    exact ⟨m, .single hlook, rfl, nofun, fun _ => rfl⟩
  | some path =>
    rw [hresolve] at hlook
    obtain ⟨m', hserve, hcontext, hfiles⟩ := steps_serve path frames m
    refine ⟨m', .head hlook hserve, hcontext, fun path' hpath => ?_, nofun⟩
    obtain rfl := Option.some.inj hpath
    exact hfiles

theorem answer_of_not_plain {value : String} (h : ¬ Plain value) (root : FilePath) (files : FileSystem) :
    answer root files value = .status .notFound := by
  rw [answer, resolve?_eq_none_iff.2 h]

end Assets

/-! ## The handler among others -/

def Frame.IsHandler : Frame → Prop
  | .entry .handlers _ => True
  | _ => False

theorem Frame.mem_underway {frames : List Frame} :
    (∃ frame ∈ frames, frame.IsHandler) ↔ ∃ index, (.handlers, index) ∈ Frame.underway frames := by
  unfold Frame.underway
  constructor
  · rintro ⟨frame, hmem, hframe⟩
    match frame, hframe with
    | .entry .handlers index, _ => exact ⟨index, List.mem_filterMap.2 ⟨_, hmem, rfl⟩⟩
  · rintro ⟨index, hmem⟩
    obtain ⟨frame, hframe, heq⟩ := List.mem_filterMap.1 hmem
    match frame, heq with
    | .entry .handlers index, _ => exact ⟨_, hframe, trivial⟩

namespace Thread

/-- No handler but that of a directory is at work, and it is so on top of the frames. -/
structure Serving (root : FilePath) (t : Thread) : Prop where
  below : ∀ frame ∈ t.frames.tail, ¬ frame.IsHandler
  stage : ∀ index frames, t.frames = .entry .handlers index :: frames →
    ∃ p, t.control = .program p ∧ Assets.Stage root t.machine.context p

variable {root : FilePath} {t u : Thread}

theorem serving_of_none (h : ∀ frame ∈ t.frames, ¬ frame.IsHandler) : t.Serving root where
  below frame hmem := h frame (List.mem_of_mem_tail hmem)
  stage index _ heq := absurd trivial (h (.entry .handlers index) (heq ▸ List.mem_cons_self))

/-- A handler that is underway is on top. -/
theorem Serving.top (h : t.Serving root) {index : Nat} (hunder : (.handlers, index) ∈ t.underway) :
    ∃ frames, t.frames = .entry .handlers index :: frames := by
  obtain ⟨frame, hmem, heq⟩ := List.mem_filterMap.1 hunder
  obtain rfl : frame = .entry .handlers index := by
    cases frame with
    | entry kind i =>
      obtain ⟨rfl, rfl⟩ := Prod.mk.inj (Option.some.inj heq)
      rfl
    | _ => cases heq
  cases hframes : t.frames with
  | nil => exact absurd (hframes ▸ hmem) List.not_mem_nil
  | cons top frames =>
    rcases List.mem_cons.1 (hframes ▸ hmem) with rfl | hmem
    · exact ⟨frames, rfl⟩
    · exact absurd trivial (h.below (.entry .handlers index) (by rwa [hframes]))

/-- **The handler of a directory stays on top** until it has answered, if it is the only handler. -/
theorem Serving.step (h : t.Serving root)
    (hentries : ∀ p ∈ (t.machine.lane .handlers).entries, p = Assets.directory root) (hs : t.step = some u) :
    u.Serving root := by
  by_cases htop : ∃ index frames, t.frames = .entry .handlers index :: frames
  · obtain ⟨index, frames, hframes⟩ := htop
    obtain ⟨p, hcontrol, hp⟩ := h.stage index frames hframes
    obtain ⟨control, framesOf, m⟩ := t
    obtain rfl : control = .program p := hcontrol
    obtain rfl : framesOf = .entry .handlers index :: frames := hframes
    obtain rfl := Option.some.inj hs
    rcases hp.step index frames with hproceeds | ⟨r, hanswers⟩
    · exact ⟨hproceeds.frames ▸ h.below, fun _ _ _ => hproceeds.stage⟩
    · have hrest : frames = (programStep (.entry .handlers index :: frames) m p).frames :=
        (List.cons.inj hanswers.ends.frames).2
      exact serving_of_none fun frame hmem => h.below frame (hrest ▸ hmem)
  · have hnone : ∀ frame ∈ t.frames, ¬ frame.IsHandler := by
      intro frame hmem hframe
      cases hframes : t.frames with
      | nil => exact List.not_mem_nil (hframes ▸ hmem)
      | cons top frames =>
        rcases List.mem_cons.1 (hframes ▸ hmem) with rfl | hmem
        · match frame, hframe with
          | .entry .handlers index, _ => exact htop ⟨index, frames, hframes⟩
        · exact h.below frame (by rwa [hframes]) hframe
    rcases step_cases hs with ⟨kind, index, entry, hst⟩ | ⟨-, hunder⟩
    · rw [hst.result]
      refine ⟨hnone, fun i frames heq => ⟨entry, rfl, ?_⟩⟩
      obtain ⟨htopEq, -⟩ := List.cons.inj heq
      obtain ⟨rfl, -⟩ := Frame.entry.inj htopEq
      rw [hentries entry (List.mem_of_getElem? (Lane.next?_eq_some hst.next).2.2)]
      exact .asked
    · refine serving_of_none fun frame hmem hframe => ?_
      obtain ⟨index, hindex⟩ := Frame.mem_underway.1 ⟨frame, hmem, hframe⟩
      obtain ⟨old, hold, hhandler⟩ := Frame.mem_underway.2 ⟨index, hunder.subset hindex⟩
      exact hnone old hold hhandler

/-- **What the handler asks for in a step**: nothing, or the file that its captured path stands for. If that has other
parts than plain names, the handler ends with the answer that nothing was found. -/
theorem Serving.asks (h : t.Serving root) {index : Nat} (hunder : (.handlers, index) ∈ t.underway)
    (hs : t.step = some u) :
    (u.machine.journal.filesRead = t.machine.journal.filesRead ∨
      (Assets.Plain (Assets.captured t.machine.context) ∧ u.machine.journal.filesRead =
        t.machine.journal.filesRead ++ [root.below (Assets.parts (Assets.captured t.machine.context))])) ∧
    ∀ flow, t.Ends .handlers index flow u → ¬ Assets.Plain (Assets.captured t.machine.context) →
      flow = .respond (.status .notFound) := by
  obtain ⟨frames, hframes⟩ := h.top hunder
  obtain ⟨p, hcontrol, hstage⟩ := h.stage index frames hframes
  obtain ⟨control, framesOf, m⟩ := t
  obtain rfl : control = .program p := hcontrol
  obtain rfl : framesOf = .entry .handlers index :: frames := hframes
  obtain rfl := Option.some.inj hs
  rcases hstage.step index frames with hproceeds | ⟨answer, hanswers⟩
  · constructor
    · rcases hproceeds.filesRead with hsame | ⟨path, hpath, hfiles⟩
      · exact .inl hsame
      · obtain ⟨hplain, rfl⟩ := Assets.resolve?_eq_some_iff.1 hpath
        exact .inr ⟨hplain, hfiles⟩
    · intro flow hends
      have hlonger := hends.frames
      rw [hproceeds.frames] at hlonger
      exact absurd hlonger.symm (List.cons_ne_self _ _)
  · refine ⟨.inl hanswers.filesRead, fun flow hends hplain => ?_⟩
    obtain rfl := hanswers.refused (Assets.resolve?_eq_none_iff.2 hplain)
    have hcontrol := hends.control.symm.trans hanswers.ends.control
    exact Program.finish.inj (Control.program.inj hcontrol)

theorem SharedSteps.serving (h : t.SharedSteps u) (ht : t.Serving root)
    (hentries : ∀ p ∈ (t.machine.lane .handlers).entries, p = Assets.directory root) : u.Serving root := by
  induction h with
  | refl => exact ht
  | tail hsteps hs ih =>
    cases hs with
    | own hs => exact ih.step (fun p hp => hentries p (SharedSteps.entries hsteps .handlers p hp)) hs
    | others w => exact ⟨ih.below, ih.stage⟩

end Thread

end Switchyard
