import Switchyard.Proofs.Assets.Tree
import Switchyard.Proofs.Server.Directory

/-!
# The answers of a directory

The answers of a directory can be written (`Assets.flaw?_answer`), so that each is written to the draft as a whole. A
request for a directory is answered with the file that stands for what was captured, or with 404 if there is none, unless
it is obstructed or barred: then the answer is 500 or 403 (`Server.directory_answers`). It is 500 also where no file is
below the directory that could be served (`Server.missing_below_file`).
-/

namespace Switchyard

open Http (Status HeaderValue MediaType)

/-! ## Answers are written -/

/-- Every type that a file may have can stand in a header. -/
theorem typeFlaw?_ofFileName (name : String) : Drafting.typeFlaw? (.ofFileName name) = none := by
  have hall : ∀ row ∈ MediaType.byExtension, Drafting.typeFlaw? row.2 = none := by decide +kernel
  unfold MediaType.ofFileName
  cases hlookup : MediaType.byExtension.lookup (MediaType.extension name).toLower with
  | none => decide +kernel
  | some type =>
    obtain ⟨before, after, hrows, -⟩ := List.lookup_eq_some_iff.1 hlookup
    exact hall (_, type) (hrows ▸ List.mem_append_right before List.mem_cons_self)

theorem Assets.flaw?_answerTo (result : Except FileError (String × List UInt8)) : (answerTo result).flaw? = none := by
  match result with
  | .ok (name, bytes) => exact typeFlaw?_ofFileName name
  | .error .notFound => rfl
  | .error .denied => rfl
  | .error .unreadable => rfl

theorem Assets.flaw?_answer (root : FilePath) (files : FileSystem) (value : String) :
    (answer root files value).flaw? = none := by
  unfold answer
  split
  · exact flaw?_answerTo _
  · rfl

/-! ## Requests -/

namespace Server

variable {g : Group} {route : Route Chain} {s s₁ s₂ : Server} {path dir : String} {k : Carrier} {r : Request}
  {t u : Thread} {index : Nat} {entry : Program} {entries : List (String × FileTree)}

/-- **A directory answers with the file that stands for what was captured, or that there is none**, unless this is
obstructed or barred. Whenever the handler starts while a request is served that has matched the route of a directory, and
the root of this leads to a directory, be it absolute, relative or empty, the handler ends with an answer, which is written
to the draft as a whole.

- The answer is 500 exactly if what was captured has plain names that lead below a file, to a name that is too long or to
  a directory whose `index.html` is a directory, or that make no path that can be asked for.
- It is 403 exactly if they lead to what may not be read, and it never is where all may be read. -/
theorem directory_answers (hadd : s.addDirectory g path dir = .ok (route, s₁))
    (hfound : (s₂.router.lookupInto r.method r.uri.path {}).1 = .found route)
    (ht : (s₂.depart k r).thread.SharedSteps t) (hstart : t.Starts .handlers index entry u)
    (htop : u.machine.world.files.reach ⟨dir⟩ = .ok (.dir entries)) :
    ∃ v w answer, u.Steps v ∧ v.Ends .handlers index (.respond answer) w ∧
      u.machine.context.draft.Carries answer.code answer.content w.machine.context.draft ∧
      (answer = Assets.fileAnswer (Assets.target? ⟨dir⟩ (.dir entries) (Assets.captured u.machine.context)) ↔
        ¬ Assets.Obstructed u.machine.world.files ⟨dir⟩ (.dir entries) (Assets.captured u.machine.context) ∧
        ¬ Assets.Barred u.machine.world.files ⟨dir⟩ (.dir entries) (Assets.captured u.machine.context)) ∧
      (answer = .status .serverError ↔
        Assets.Obstructed u.machine.world.files ⟨dir⟩ (.dir entries) (Assets.captured u.machine.context)) ∧
      (answer = .status .forbidden ↔
        Assets.Barred u.machine.world.files ⟨dir⟩ (.dir entries) (Assets.captured u.machine.context)) ∧
      ((FileTree.dir entries).Readable →
        ¬ Assets.Barred u.machine.world.files ⟨dir⟩ (.dir entries) (Assets.captured u.machine.context)) := by
  have hentry : entry = Assets.directory ⟨dir⟩ := by
    obtain ⟨-, hentry, -⟩ := (ht.inOrder (s₂.poise_inOrder k r)).next_entry hstart.next
    rw [chainFor_directory hadd hfound] at hentry
    exact List.mem_singleton.1 (List.mem_of_getElem? hentry)
  obtain ⟨m, frames, hu⟩ : ∃ m frames, u = ⟨.program entry, .entry .handlers index :: frames, m⟩ :=
    ⟨_, _, hstart.result⟩
  subst hu hentry
  obtain ⟨m', hsteps, hcontext, -⟩ :=
    Assets.steps_answer ⟨dir⟩ (.entry .handlers index :: frames) m
  have hflaw := Assets.flaw?_answer ⟨dir⟩ m.world.files (Assets.captured m.context)
  generalize hanswer : Assets.answer ⟨dir⟩ m.world.files (Assets.captured m.context) = answer
    at hsteps hflaw
  have hcarries := Machine.carries_conclude hflaw m' .handlers index
  rw [hcontext] at hcarries
  refine ⟨_, ⟨.idle, frames, m'.conclude .handlers index (.respond answer)⟩, answer, hsteps, ⟨rfl, rfl, rfl⟩,
    hcarries, ?_⟩
  subst hanswer
  obtain ⟨hfile, hserverError, hforbidden⟩ := Assets.answer_iff htop (Assets.captured m.context)
  exact ⟨hfile, hserverError, hforbidden, Assets.not_barred⟩

/-- A page, a style sheet, and a directory of the name of a page. -/
def published : List (String × FileTree) :=
  [("index.html", .file [60]), ("css", .dir [("site.css", .file [98])]), ("odd", .dir [("index.html", .dir [])])]

/-- A server of one directory. What is published stands in the working directory, beside a key that may not be read. -/
def press (dir : String) : Server :=
  let files : FileSystem :=
    { entries := [("srv", .dir [("public", .dir published), ("key", .locked false)])], workdir := ["srv"] }
  match (Server.new {} files).addDirectory {} "/assets" dir with
  | .ok (_, s) => s
  | .error _ => Server.new {} files

/-- A request for something below that directory. -/
def pressRequest (rest : String) : Request :=
  { method := .standard .get, uri := { path := "/assets" ++ rest } }

/-- By a relative path, the style sheet is answered with its bytes; by an absolute path, what is below the style sheet
is answered with 500; by the empty path, files are found from the working directory on, and the key is answered with
403. -/
theorem directory_answers_press :
    (∃ u v w answer, ((press "public").depart {} (pressRequest "/css/site.css")).thread.Steps u ∧ u.Steps v ∧
      v.Ends .handlers 0 (.respond answer) w ∧ answer = .plain (.ofFileName "site.css") [98] .ok ∧
      w.machine.context.draft.written = some .ok ∧ w.machine.context.draft.body = [98]) ∧
    (∃ u v w, ((press "/srv/public").depart {} (pressRequest "/css/site.css/x")).thread.Steps u ∧ u.Steps v ∧
      v.Ends .handlers 0 (.respond (.status .serverError)) w ∧ w.machine.context.draft.written = some .serverError) ∧
    ∃ u v w, ((press "").depart {} (pressRequest "/key")).thread.Steps u ∧ u.Steps v ∧
      v.Ends .handlers 0 (.respond (.status .forbidden)) w ∧ w.machine.context.draft.written = some .forbidden := by
  refine ⟨?relative, ?absolute, ?empty⟩
  case relative =>
    have hadd : (Server.new {} (press "public").world.files).addDirectory {} "/assets" "public" =
        .ok (_, press "public") := rfl
    have ht : ((press "public").depart {} (pressRequest "/css/site.css")).thread.Steps _ :=
      .head rfl <| .head rfl <| .head rfl .refl
    obtain ⟨v, w, answer, hv, hends, hcarries, hclear, -⟩ :=
      directory_answers hadd rfl ht.shared ⟨rfl, rfl, rfl, rfl⟩ rfl
    have hanswer := hclear.2 (by decide +kernel)
    have hfile : answer = .plain (.ofFileName "site.css") [98] .ok := hanswer
    subst hfile
    exact ⟨_, v, w, _, ht.tail rfl, hv, hends, rfl, hcarries.written, hcarries.body⟩
  case absolute =>
    have hadd : (Server.new {} (press "/srv/public").world.files).addDirectory {} "/assets" "/srv/public" =
        .ok (_, press "/srv/public") := rfl
    have ht : ((press "/srv/public").depart {} (pressRequest "/css/site.css/x")).thread.Steps _ :=
      .head rfl <| .head rfl <| .head rfl .refl
    obtain ⟨v, w, answer, hv, hends, hcarries, -, hobstructed, -⟩ :=
      directory_answers hadd rfl ht.shared ⟨rfl, rfl, rfl, rfl⟩ rfl
    obtain rfl := hobstructed.2 (by decide +kernel)
    exact ⟨_, v, w, ht.tail rfl, hv, hends, hcarries.written⟩
  case empty =>
    have hadd : (Server.new {} (press "").world.files).addDirectory {} "/assets" "" = .ok (_, press "") := rfl
    have ht : ((press "").depart {} (pressRequest "/key")).thread.Steps _ :=
      .head rfl <| .head rfl <| .head rfl .refl
    obtain ⟨v, w, answer, hv, hends, hcarries, -, -, hbarred, -⟩ :=
      directory_answers hadd rfl ht.shared ⟨rfl, rfl, rfl, rfl⟩ rfl
    obtain rfl := hbarred.2 (by decide +kernel)
    exact ⟨_, v, w, ht.tail rfl, hv, hends, hcarries.written⟩

/-- All that is published may be read. Below a file, and where the `index.html` of a directory is a directory itself,
there is no file that could be served, but the answer is 500; beside that file it is 404. -/
theorem missing_below_file :
    (FileTree.dir published).Readable ∧
      (press "public").world.files.reach ⟨"public"⟩ = .ok (.dir published) ∧
      (∀ value ∈ ["css/site.css/x", "odd", "css/none"],
        Assets.target? ⟨"public"⟩ (.dir published) value = none) ∧
      ((press "public").handle (pressRequest "/css/site.css/x")).1.outcome.toOption.map Response.status =
        some .serverError ∧
      ((press "public").handle (pressRequest "/odd")).1.outcome.toOption.map Response.status = some .serverError ∧
      ((press "public").handle (pressRequest "/css/none")).1.outcome.toOption.map Response.status = some .notFound := by
  have hreadable : (FileTree.dir published).Readable := by
    refine .dir ?entries
    rw [published, List.forall_mem_cons, List.forall_mem_cons, List.forall_mem_singleton]
    refine ⟨.file _, .dir ?css, .dir ?odd⟩
    case css => exact List.forall_mem_singleton.2 (.file _)
    case odd => exact List.forall_mem_singleton.2 (.dir nofun)
  exact ⟨hreadable, rfl, by decide +kernel, by decide +kernel, by decide +kernel, by decide +kernel⟩

end Server

end Switchyard
