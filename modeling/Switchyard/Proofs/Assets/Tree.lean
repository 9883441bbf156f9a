import Switchyard.Proofs.Assets.Contained

/-!
# What stands below a directory

For a captured path of plain names, reading does not depend on how the root of a directory was reached
(`FileTree.walk_append`, `FileTree.opened_eq`), nor on a slash at its end (`FileSystem.reach_below`): it gives the file
that stands for the names below the root (`FileTree.fileAt?`), and finds nothing where there is none, unless the names are
blocked (`FileTree.isBlocked`) or barred (`FileTree.isBarred`). What is blocked is not found to be missing; it cannot be
read. What is barred may not be read, and nothing is where all may be read (`FileTree.Readable.isBarred`).

So the answer of a directory is the file that stands for what was captured, or that there is none, unless this is
obstructed or barred (`Assets.answer_eq`, `Assets.answer_iff`).
-/

namespace Switchyard

open FileSystem (index)

namespace FileTree

/-! ## Places -/

/-- What stands in a place, given by the names that lead down to it. -/
def get? : FileTree → List String → Option FileTree
  | tree, [] => some tree
  | .dir entries, name :: rest => (entries.lookup name).bind (get? · rest)
  | .file _, _ :: _ => none
  | .locked _, _ :: _ => none

/-- The file that is read for a tree of some name: itself, or the `index.html` in it. -/
def fileOf? (name : String) : FileTree → Option (String × List UInt8)
  | .file bytes => some (name, bytes)
  | .dir entries =>
    match entries.lookup index with
    | some (.file bytes) => some (index, bytes)
    | _ => none
  | .locked _ => none

/-- The file that stands for a place below a directory, with its name. -/
def fileAt? (top : FileTree) (names : List String) : Option (String × List UInt8) :=
  (top.get? names).bind (fileOf? (names.getLast?.getD ""))

/-- Names that lead below a file, to a name that is too long, or to a directory whose `index.html` is a directory. -/
def isBlocked (maxName : Nat) : FileTree → List String → Bool
  | .file _, names => !names.isEmpty
  | .locked isDir, names => !isDir && !names.isEmpty
  | .dir entries, [] => maxName < index.utf8ByteSize ||
    match entries.lookup index with
    | some (.dir _) => true
    | _ => false
  | .dir entries, name :: rest => maxName < name.utf8ByteSize || (entries.lookup name).any (isBlocked maxName · rest)

/-- Names that lead to what may not be read, into a directory that may not be entered, or to a directory whose
`index.html` may not be read. -/
def isBarred : FileTree → List String → Bool
  | .file _, _ => false
  | .locked isDir, names => isDir || names.isEmpty
  | .dir entries, [] =>
    match entries.lookup index with
    | some (.locked _) => true
    | _ => false
  | .dir entries, name :: rest => (entries.lookup name).any (isBarred · rest)

/-- All that stands here may be read. -/
inductive Readable : FileTree → Prop where
  | file (bytes : List UInt8) : Readable (.file bytes)
  | dir {entries : List (String × FileTree)} (h : ∀ entry ∈ entries, Readable entry.2) : Readable (.dir entries)

theorem Readable.lookup {entries : List (String × FileTree)} (h : Readable (.dir entries)) {name : String}
    {tree : FileTree} (hlookup : entries.lookup name = some tree) : tree.Readable := by
  cases h with
  | dir hentries =>
    obtain ⟨before, after, rfl, -⟩ := List.lookup_eq_some_iff.1 hlookup
    exact hentries (name, tree) (List.mem_append_right before List.mem_cons_self)

/-- Where all may be read, nothing is barred. -/
theorem Readable.isBarred {tree : FileTree} (h : tree.Readable) (names : List String) : tree.isBarred names = false := by
  induction names generalizing tree with
  | nil =>
    cases h with
    | file bytes => rfl
    | @dir entries hentries =>
      rw [FileTree.isBarred]
      cases hlookup : entries.lookup index with
      | none => rfl
      | some page => cases (Readable.dir hentries).lookup hlookup <;> rfl
  | cons name rest ih =>
    cases h with
    | file bytes => rfl
    | @dir entries hentries =>
      rw [FileTree.isBarred]
      cases hlookup : entries.lookup name with
      | none => rfl
      | some tree => exact ih ((Readable.dir hentries).lookup hlookup)

/-! ## Walking -/

variable {maxName : Nat}

/-- A walk makes its first step, if it is in a directory. -/
theorem walk_step (above : List FileTree) (entries : List (String × FileTree)) (step : String) (rest : List String) :
    walk maxName above (.dir entries) (step :: rest) =
      if step = "" ∨ step = "." then walk maxName above (.dir entries) rest
      else if step = ".." then walk maxName above.tail (above.headD (.dir entries)) rest
      else if maxName < step.utf8ByteSize then .error .unreadable
      else (entries.lookup step).elim (.error .notFound) fun tree => walk maxName (.dir entries :: above) tree rest := by
  rw [walk.eq_def]
  dsimp only
  cases entries.lookup step <;> rfl

/-- A step that does not fail leads to some place, wherever the walk goes from there. -/
theorem walk_next {above : List FileTree} {entries : List (String × FileTree)} {step : String} {lead : List String}
    {top : FileTree} (h : walk maxName above (.dir entries) (step :: lead) = .ok top) :
    ∃ above' tree, ∀ rest, walk maxName above (.dir entries) (step :: rest) = walk maxName above' tree rest := by
  by_cases hstays : step = "" ∨ step = "."
  · exact ⟨above, .dir entries, fun rest => by rw [walk_step, if_pos hstays]⟩
  by_cases hup : step = ".."
  · exact ⟨above.tail, above.headD (.dir entries), fun rest => by rw [walk_step, if_neg hstays, if_pos hup]⟩
  rw [walk_step, if_neg hstays, if_neg hup] at h
  by_cases hlong : maxName < step.utf8ByteSize
  · rw [if_pos hlong] at h
    cases h
  rw [if_neg hlong] at h
  cases hlookup : entries.lookup step with
  | none =>
    rw [hlookup] at h
    cases h
  | some tree =>
    refine ⟨.dir entries :: above, tree, fun rest => ?_⟩
    rw [walk_step, if_neg hstays, if_neg hup, if_neg hlong, hlookup]
    rfl

/-- A walk goes on where its first part has ended, though with what is above that place behind it. -/
theorem walk_append {above : List FileTree} {tree top : FileTree} {lead : List String}
    (h : walk maxName above tree lead = .ok top) :
    ∃ above', ∀ rest, walk maxName above tree (lead ++ rest) = walk maxName above' top rest := by
  induction lead generalizing above tree with
  | nil =>
    obtain rfl := Except.ok.inj h
    exact ⟨above, fun rest => rfl⟩
  | cons step lead ih =>
    cases tree with
    | dir entries =>
      obtain ⟨next, tree, hnext⟩ := walk_next h
      rw [hnext] at h
      obtain ⟨above', hrest⟩ := ih h
      exact ⟨above', fun rest => (hnext (lead ++ rest)).trans (hrest rest)⟩
    | _ => cases h

/-- A slash too many on the way makes no difference. -/
theorem walk_slash (above : List FileTree) (tree : FileTree) (lead : List String) (step : String) (rest : List String) :
    walk maxName above tree (lead ++ "" :: step :: rest) = walk maxName above tree (lead ++ step :: rest) := by
  induction lead generalizing above tree with
  | nil =>
    cases tree with
    | dir entries => exact (walk_step above entries "" (step :: rest)).trans (if_pos (.inl rfl))
    | _ => rfl
  | cons first lead ih =>
    cases tree with
    | dir entries =>
      rw [List.cons_append, List.cons_append, walk_step, walk_step]
      simp only [ih]
    | _ => rfl

/-- A plain name leads down, whatever is above. -/
theorem walk_name {name : String} (h : Assets.PlainName name) (above : List FileTree)
    (entries : List (String × FileTree)) (rest : List String) :
    walk maxName above (.dir entries) (name :: rest) =
      if maxName < name.utf8ByteSize then .error .unreadable
      else (entries.lookup name).elim (.error .notFound) fun tree => walk maxName (.dir entries :: above) tree rest := by
  rw [walk_step, if_neg (not_or.2 ⟨h.nonempty, h.notDot⟩), if_neg h.notDotDot]

/-! ## Reading -/

/-- What is read where a walk along some names ends: the file there, or the `index.html` in the directory there, if this
can be asked for. -/
def opened (maxName : Nat) (asks : Bool) (last : String) (above : List FileTree) (top : FileTree) (names : List String) :
    Except FileError (String × List UInt8) :=
  (walk maxName above top names).bind fun tree =>
    if tree.isDir then
      if asks then (walk maxName above top (names ++ [index])).bind fun page => page.contents.map (index, ·)
      else .error .unreadable
    else tree.contents.map (last, ·)

/-- **Reading along plain names gives the file that stands for them**, unless they are blocked or barred. -/
theorem opened_eq {names : List String} (h : ∀ name ∈ names, Assets.PlainName name) (asks : Bool) (last : String)
    (above : List FileTree) (top : FileTree) :
    opened maxName asks last above top names =
      if top.isBlocked maxName names ∨ (asks = false ∧ (top.get? names).any isDir) then .error .unreadable
      else if top.isBarred names then .error .denied
      else ((top.get? names).bind (fileOf? last)).elim (.error .notFound) .ok := by
  induction names generalizing above top with
  | nil =>
    cases top with
    | file bytes => cases asks <;> rfl
    | locked isDir => cases asks <;> cases isDir <;> rfl
    | dir entries =>
      have hwalk := @walk_name maxName index (by decide) above entries []
      cases asks with
      | false => exact (if_pos (.inr ⟨rfl, rfl⟩)).symm
      | true =>
        show (walk maxName above (.dir entries) [index]).bind _ = _
        rw [hwalk, isBlocked, isBarred]
        by_cases hlong : maxName < index.utf8ByteSize
        · simp [hlong, Except.bind]
        · cases hlookup : entries.lookup index with
          | none => simp [hlong, get?, fileOf?, hlookup, Except.bind]
          | some page => cases page <;> simp [hlong, get?, fileOf?, hlookup, Except.bind, Except.map, contents, walk]
  | cons name rest ih =>
    obtain ⟨hname, hrest⟩ := List.forall_mem_cons.1 h
    cases top with
    | file bytes => simp [opened, walk, isBlocked, Except.bind]
    | locked isDir => cases isDir <;> simp [opened, walk, isBlocked, isBarred, get?, Except.bind]
    | dir entries =>
      rw [opened, List.cons_append, walk_name hname, walk_name hname, isBlocked, isBarred, get?]
      by_cases hlong : maxName < name.utf8ByteSize
      · simp [hlong, Except.bind]
      · cases hlookup : entries.lookup name with
        | none => simp [hlong, Except.bind]
        | some tree => simpa [hlong, opened] using ih hrest (.dir entries :: above) tree

end FileTree

/-! ## Paths below a directory -/

namespace FilePath

theorem below_concat (root : FilePath) (names : List String) (name : String) :
    root.below (names ++ [name]) = (root.below names).push name :=
  List.foldl_append

theorem name_push {name : String} (h : '/' ∉ name.toList) (p : FilePath) : (p.push name).name = name := by
  rcases p.steps_push h with hsteps | ⟨front, -, hsteps⟩ <;>
    rw [FilePath.name, hsteps, List.getLast?_concat, Option.getD_some]

/-- Below a directory, the last name is that of the path. -/
theorem name_below (root : FilePath) {names : List String} (hne : names ≠ [])
    (h : ∀ name ∈ names, Assets.PlainName name) : (root.below names).name = names.getLast?.getD "" := by
  obtain ⟨front, name, rfl⟩ := (List.eq_nil_or_concat names).resolve_left hne
  rw [List.concat_eq_append] at h ⊢
  have hslash := (h name (List.mem_append_right front List.mem_cons_self)).slash
  rw [below_concat, name_push hslash, List.getLast?_concat, Option.getD_some]

/-- What a name was appended to is not empty. -/
theorem text_push_ne (p : FilePath) {name : String} (h : name ≠ "") : (p.push name).text ≠ "" := by
  unfold push
  split <;> simp [h]

end FilePath

namespace FileSystem

variable {fs : FileSystem} {root : FilePath} {entries : List (String × FileTree)} {names : List String}

/-- Appending a name is a step more on the way, whether or not a slash is at the end. -/
theorem walk_push (fs : FileSystem) (path : FilePath) {name : String} (h : '/' ∉ name.toList) (rest : List String) :
    FileTree.walk fs.maxName [] (.dir fs.entries) (fs.way (path.push name) ++ rest) =
      FileTree.walk fs.maxName [] (.dir fs.entries) (fs.way path ++ name :: rest) := by
  rw [way, way, path.isAbsolute_push h]
  generalize (if path.isAbsolute then [] else fs.workdir) = lead
  rcases path.steps_push h with hsteps | ⟨front, hslash, hsteps⟩
  · rw [hsteps, List.append_assoc, List.append_assoc, List.append_assoc]
    rfl
  · have hskip := @FileTree.walk_slash fs.maxName [] (.dir fs.entries) (lead ++ front) name rest
    rw [hsteps, hslash]
    simpa using hskip.symm

/-- Names below a directory are reached through the steps that lead to it. -/
theorem reach_below (fs : FileSystem) (root : FilePath) (h : ∀ name ∈ names, Assets.PlainName name) :
    fs.reach (root.below names) = FileTree.walk fs.maxName [] (.dir fs.entries) (fs.way root ++ names) := by
  induction names generalizing root with
  | nil => rw [List.append_nil]; rfl
  | cons name names ih =>
    obtain ⟨hname, hrest⟩ := List.forall_mem_cons.1 h
    exact (ih (root.push name) hrest).trans (fs.walk_push root hname.slash names)

theorem read_eq {path : FilePath} (hasks : fs.accepts path = true) (htext : path.text ≠ "") :
    fs.read path = (fs.reach path).bind fun tree =>
      if tree.isDir then
        if fs.accepts (path.push index) then
          (fs.reach (path.push index)).bind fun page => page.contents.map (index, ·)
        else .error .unreadable
      else tree.contents.map (path.name, ·) := by
  have hfind : fs.find path = fs.reach path := by rw [find, hasks, if_neg (by decide), if_neg htext]
  have hpage : fs.find (path.push index) =
      if fs.accepts (path.push index) then fs.reach (path.push index) else .error .unreadable := by
    unfold find
    cases fs.accepts (path.push index) with
    | true => exact if_neg (path.text_push_ne (by decide))
    | false => rfl
  have hcontents : ∀ (tree : FileTree) (name : String),
      (tree.contents >>= fun bytes => pure (name, bytes)) = tree.contents.map (name, ·) := by
    intro tree name
    cases tree.contents <;> rfl
  unfold read
  rw [hfind]
  cases hreach : fs.reach path with
  | error e => rfl
  | ok tree =>
    show (fs.find (if tree.isDir then path.push index else path) >>= fun file => _) = ite _ _ _
    cases tree.isDir with
    | false =>
      rw [if_neg Bool.false_ne_true, if_neg Bool.false_ne_true, hfind, hreach]
      exact hcontents tree path.name
    | true =>
      rw [if_pos rfl, if_pos rfl, hpage]
      cases fs.accepts (path.push index) with
      | false => rfl
      | true =>
        rw [if_pos rfl, if_pos rfl, FilePath.name_push (by decide)]
        exact congrArg _ (funext fun page => hcontents page index)

/-- A path that cannot be asked for is not looked for. -/
theorem read_of_not_accepts {path : FilePath} (h : fs.accepts path = false) : fs.read path = .error .unreadable := by
  rw [read, find, h]
  rfl

theorem read_of_empty {path : FilePath} (h : path.text = "") : fs.read path = .error .notFound := by
  have hasks : fs.accepts path = true := by
    rw [accepts, h]
    simp
  rw [read, find, hasks, if_pos h]
  rfl

/-- What is read below a directory. -/
theorem read_below (htop : fs.reach root = .ok (.dir entries)) (hasks : fs.accepts (root.below names) = true)
    (htext : (root.below names).text ≠ "") (h : ∀ name ∈ names, Assets.PlainName name) :
    fs.read (root.below names) =
      if FileTree.isBlocked fs.maxName (.dir entries) names ∨ (fs.accepts (root.below (names ++ [index])) = false ∧
          ((FileTree.dir entries).get? names).any FileTree.isDir) then .error .unreadable
      else if FileTree.isBarred (.dir entries) names then .error .denied
      else (FileTree.fileAt? (.dir entries) names).elim (.error .notFound) .ok := by
  obtain ⟨above, hwalk⟩ := FileTree.walk_append htop
  have hpage : ∀ name ∈ names ++ [index], Assets.PlainName name :=
    List.forall_mem_append.2 ⟨h, List.forall_mem_singleton.2 (by decide)⟩
  rw [read_eq hasks htext, ← FilePath.below_concat, reach_below fs root h, reach_below fs root hpage, hwalk, hwalk,
    FileTree.fileAt?]
  refine (FileTree.opened_eq h _ (root.below names).name above (.dir entries)).trans ?_
  -- the name of the root is of no matter, since a directory is read through its index
  cases names with
  | nil => rfl
  | cons name rest => rw [FilePath.name_below root (List.cons_ne_nil name rest) h]

end FileSystem

namespace Assets

/-! ## Answers -/

/-- What was captured has plain names, and makes a path. The empty path is none, and leads nowhere. -/
def Leads (root : FilePath) (value : String) : Prop :=
  Plain value ∧ (root.below (parts value)).text ≠ ""

instance (root : FilePath) (value : String) : Decidable (Leads root value) :=
  inferInstanceAs (Decidable (_ ∧ _))

/-- The file that stands for what was captured, below the directory that is served. -/
def target? (root : FilePath) (top : FileTree) (value : String) : Option (String × List UInt8) :=
  if Leads root value then top.fileAt? (parts value) else none

/-- What was captured leads somewhere, but it is blocked, or too long to be asked for or with a NUL in it; of a directory
it is its `index.html` that is asked for. -/
def Obstructed (fs : FileSystem) (root : FilePath) (top : FileTree) (value : String) : Prop :=
  Leads root value ∧ (fs.accepts (root.below (parts value)) = false ∨ top.isBlocked fs.maxName (parts value) ∨
    (fs.accepts (root.below (parts value ++ [index])) = false ∧ (top.get? (parts value)).any FileTree.isDir))

instance (fs : FileSystem) (root : FilePath) (top : FileTree) (value : String) :
    Decidable (Obstructed fs root top value) :=
  inferInstanceAs (Decidable (_ ∧ _))

/-- What was captured leads to what may not be read. -/
def Barred (fs : FileSystem) (root : FilePath) (top : FileTree) (value : String) : Prop :=
  Leads root value ∧ ¬ Obstructed fs root top value ∧ top.isBarred (parts value)

instance (fs : FileSystem) (root : FilePath) (top : FileTree) (value : String) :
    Decidable (Barred fs root top value) :=
  inferInstanceAs (Decidable (_ ∧ _))

/-- The answer with a file, or that there is none. -/
def fileAnswer (target : Option (String × List UInt8)) : Responder :=
  answerTo (target.elim (.error .notFound) .ok)

theorem fileAnswer_ne (target : Option (String × List UInt8)) :
    fileAnswer target ≠ .status .serverError ∧ fileAnswer target ≠ .status .forbidden := by
  rcases target with - | ⟨name, bytes⟩
  · exact ⟨by simp [fileAnswer, answerTo, Http.Status.notFound, Http.Status.serverError],
      by simp [fileAnswer, answerTo, Http.Status.notFound, Http.Status.forbidden]⟩
  · exact ⟨nofun, nofun⟩

variable {fs : FileSystem} {root : FilePath} {entries : List (String × FileTree)} {value : String}

/-- What may be read is not barred. -/
theorem not_barred {top : FileTree} (h : top.Readable) : ¬ Barred fs root top value := by
  intro hbarred
  cases (h.isBarred (parts value)).symm.trans hbarred.2.2

theorem answer_of_plain (h : Plain value) (root : FilePath) (fs : FileSystem) :
    answer root fs value = answerTo (fs.read (root.below (parts value))) := by
  rw [answer, resolve?_eq_some_iff.2 ⟨h, rfl⟩]

theorem answer_of_stray (h : ¬ Leads root value) : answer root fs value = .status .notFound := by
  by_cases hplain : Plain value
  · have hempty : (root.below (parts value)).text = "" := Decidable.not_not.1 fun htext => h ⟨hplain, htext⟩
    rw [answer_of_plain hplain, FileSystem.read_of_empty hempty]
    rfl
  · exact answer_of_not_plain hplain root fs

/-- **The answer of a directory**: the file that stands for what was captured, or that there is none, unless this is
obstructed or barred. -/
theorem answer_eq (htop : fs.reach root = .ok (.dir entries)) (value : String) : answer root fs value =
    if Obstructed fs root (.dir entries) value then .status .serverError
    else if Barred fs root (.dir entries) value then .status .forbidden
    else fileAnswer (target? root (.dir entries) value) := by
  by_cases hleads : Leads root value
  · rw [answer_of_plain hleads.1, target?, if_pos hleads]
    cases hasks : fs.accepts (root.below (parts value)) with
    | false =>
      rw [FileSystem.read_of_not_accepts hasks, if_pos ⟨hleads, .inl hasks⟩]
      rfl
    | true =>
      rw [FileSystem.read_below htop hasks hleads.2 hleads.1]
      by_cases hblocked : FileTree.isBlocked fs.maxName (.dir entries) (parts value) ∨
          (fs.accepts (root.below (parts value ++ [index])) = false ∧
            ((FileTree.dir entries).get? (parts value)).any FileTree.isDir)
      · rw [if_pos hblocked, if_pos ⟨hleads, .inr hblocked⟩]
        rfl
      have hclear : ¬ Obstructed fs root (.dir entries) value := fun h =>
        h.2.elim (fun hrefused => by cases hasks.symm.trans hrefused) hblocked
      rw [if_neg hblocked, if_neg hclear]
      by_cases hbarred : FileTree.isBarred (.dir entries) (parts value) = true
      · rw [if_pos hbarred, if_pos ⟨hleads, hclear, hbarred⟩]
        rfl
      · rw [if_neg hbarred, if_neg fun h => hbarred h.2.2]
        rfl
  · rw [answer_of_stray hleads, if_neg fun h => hleads h.1, if_neg fun h => hleads h.1, target?, if_neg hleads]
    rfl

/-- Each answer tells which case it is. -/
theorem answer_iff (htop : fs.reach root = .ok (.dir entries)) (value : String) :
    (answer root fs value = fileAnswer (target? root (.dir entries) value) ↔
        ¬ Obstructed fs root (.dir entries) value ∧ ¬ Barred fs root (.dir entries) value) ∧
      (answer root fs value = .status .serverError ↔ Obstructed fs root (.dir entries) value) ∧
      (answer root fs value = .status .forbidden ↔ Barred fs root (.dir entries) value) := by
  obtain ⟨hserverError, hforbidden⟩ := fileAnswer_ne (target? root (.dir entries) value)
  have hdiffer : Responder.status .serverError ≠ .status .forbidden := by
    simp [Http.Status.serverError, Http.Status.forbidden]
  rw [answer_eq htop]
  by_cases hobstructed : Obstructed fs root (.dir entries) value
  · rw [if_pos hobstructed]
    exact ⟨iff_of_false hserverError.symm fun h => h.1 hobstructed, iff_of_true rfl hobstructed,
      iff_of_false hdiffer fun h => h.2.1 hobstructed⟩
  rw [if_neg hobstructed]
  by_cases hbarred : Barred fs root (.dir entries) value
  · rw [if_pos hbarred]
    exact ⟨iff_of_false hforbidden.symm fun h => h.2 hbarred, iff_of_false hdiffer.symm hobstructed,
      iff_of_true rfl hbarred⟩
  · rw [if_neg hbarred]
    exact ⟨iff_of_true rfl ⟨hobstructed, hbarred⟩, iff_of_false hserverError hobstructed,
      iff_of_false hforbidden hbarred⟩

end Assets

end Switchyard
