import Switchyard.Proofs.Pattern.Grammar
import Switchyard.Proofs.Server.Directory

/-!
# Paths of groups

A group is made below another any number of times (`Group.Reached`), each time with a path that is joined to the other's.

- Its path is tidy, whatever these paths look like (`Group.Reached.tidyPath`), and its tokens are theirs, in order
  (`Group.Reached.tokens`). So no token of a route that is registered on it comes, goes or changes (`paths_compose`).
- It makes no difference whether a group is made below another in one go, under the joined path, or in two
  (`joinPath_assoc`).
-/

namespace Switchyard

namespace Group

/-- A group made below the root by sub groups of these paths, the first in front, each on the server as it was then. -/
inductive Reached : Group → List String → Prop where
  | root (options : ServerOptions) (files : FileSystem) : Reached (Server.new options files).root []
  | sub {g : Group} {paths : List String} (h : Reached g paths) (s : Server) (name path : String) :
    Reached (s.subGroup g name path).1 (paths ++ [path])

variable {g : Group} {paths : List String}

theorem Reached.tidyPath (h : g.Reached paths) : TidyPath g.path := by
  induction h with
  | root options files => exact ⟨fun hne => absurd rfl hne, show ¬ ['/', '/'] <:+: "".toList by decide⟩
  | @sub g paths h s name path ih =>
    show TidyPath (joinPath g.path path)
    by_cases hpath : path = ""
    · subst hpath
      exact ih
    · exact tidyPath_joinPath g.path hpath

theorem Reached.tokens (h : g.Reached paths) : Pattern.tokens g.path = paths.flatMap Pattern.tokens := by
  induction h with
  | root options files => rfl
  | @sub g paths h s name path ih =>
    show Pattern.tokens (joinPath g.path path) = _
    rw [tokens_joinPath, ih, List.flatMap_append, List.flatMap_singleton]

theorem Reached.tokens_join (h : g.Reached paths) (path : String) :
    Pattern.tokens (g.join path) = paths.flatMap Pattern.tokens ++ Pattern.tokens path := by
  rw [join, tokens_joinPath, h.tokens]

end Group

/-- The route of a directory has one token more than the path it is registered under. -/
theorem Server.tokens_directoryPath (path : String) :
    Pattern.tokens (directoryPath path) = Pattern.tokens path ++ ["*fp".toList] := by
  have htrimmed : Pattern.tokens (.ofList (path.toList.reverse.dropWhile (· = '/')).reverse) = Pattern.tokens path := by
    rw [Pattern.tokens, String.toList_ofList, pieces_trimmed]
    rfl
  rw [directoryPath, tokens_joinPath, htrimmed]
  rfl

/-- The tokens of a pattern: the pieces of its stem, and its segments as they are written. -/
def Pattern.spelled (p : Pattern) : List (List Char) :=
  Text.pieces '/' p.stem.toList ++ p.segments.map (·.token.toList)

/-- **The paths of groups compose.** A joined path has the tokens of both. A group below the root, by whatever paths it
was made, has a tidy path; and a route that is registered on it, or a directory that is served below it, has a pattern
that spells the tokens of all these paths, followed by its own. -/
theorem paths_compose :
    (∀ base path, Pattern.tokens (joinPath base path) = Pattern.tokens base ++ Pattern.tokens path) ∧
    ∀ (g : Group) (paths : List String), g.Reached paths → TidyPath g.path ∧
      (∀ (s s' : Server) (method : Http.Method) (path : String) (handlers : List Program) (route : Route Chain),
        s.addRoute g method path handlers = .ok (route, s') → route.pattern.Spells (g.join path) ∧
          route.pattern.spelled = paths.flatMap Pattern.tokens ++ Pattern.tokens path) ∧
      (∀ (s s' : Server) (path dir : String) (route : Route Chain),
        s.addDirectory g path dir = .ok (route, s') → route.pattern.Spells (g.join (Server.directoryPath path)) ∧
          route.pattern.spelled = paths.flatMap Pattern.tokens ++ Pattern.tokens path ++ ["*fp".toList]) := by
  have hroute : ∀ {g paths} (_ : Group.Reached g paths) {s s' : Server} {method path handlers route},
      s.addRoute g method path handlers = .ok (route, s') → route.pattern.Spells (g.join path) ∧
        route.pattern.spelled = paths.flatMap Pattern.tokens ++ Pattern.tokens path := by
    intro g paths hg s s' method path handlers route h
    have hspells := Pattern.spells_of_compile (Server.addRoute_ok h).1
    exact ⟨hspells, hspells.pieces.trans (hg.tokens_join path)⟩
  refine ⟨tokens_joinPath, fun g paths hg => ⟨hg.tidyPath, fun s s' method path handlers route h => hroute hg h, ?_⟩⟩
  intro s s' path dir route h
  obtain ⟨hspells, htokens⟩ := hroute hg h
  rw [Server.tokens_directoryPath, ← List.append_assoc] at htokens
  exact ⟨hspells, htokens⟩

/-- A group below a group whose path has no slash in front and too many behind; the empty path between them adds
nothing. -/
def versioned : Group :=
  let s := Server.new {} .empty
  (s.subGroup (s.subGroup (s.subGroup s.root "api" "api//").1 "same" "").1 "v1" "//v1/").1

theorem versioned_reached : versioned.Reached ["api//", "", "//v1/"] :=
  .sub (.sub (.sub (.root {} .empty) (Server.new {} .empty) "api" "api//") _ "same" "") _ "v1" "//v1/"

theorem paths_compose_versioned : TidyPath "/api/v1/" ∧
    (∃ route s, (Server.new {} .empty).addRoute versioned (.standard .get) "users//:id/" [] = .ok (route, s) ∧
      route.pattern.raw = "/api/v1/users/:id/" ∧
      route.pattern.spelled = ["api", "v1", "users", ":id"].map String.toList) ∧
    ∃ route s, (Server.new {} .empty).addDirectory versioned "files///" "data" = .ok (route, s) ∧
      route.pattern.spelled = ["api", "v1", "files", "*fp"].map String.toList := by
  obtain ⟨htidy, hroute, hdirectory⟩ := paths_compose.2 versioned _ versioned_reached
  obtain ⟨hspells, hspelled⟩ := hroute (Server.new {} .empty) _ (.standard .get) "users//:id/" [] _ rfl
  obtain ⟨-, hfiles⟩ := hdirectory (Server.new {} .empty) _ "files///" "data" _ rfl
  exact ⟨htidy, ⟨_, _, rfl, hspells.raw, hspelled⟩, ⟨_, _, rfl, hfiles⟩⟩

/-- **Joining is associative**, whatever slashes there are. So a group made below a group has the path of one that is
made in one go, under the joined path. -/
theorem joinPath_assoc :
    (∀ a b c, joinPath (joinPath a b) c = joinPath a (joinPath b c)) ∧
    ∀ (s s' s'' : Server) (g : Group) (outer inner name a b : String),
      (s'.subGroup (s.subGroup g outer a).1 inner b).1.path = (s''.subGroup g name (joinPath a b)).1.path := by
  have hassoc : ∀ a b c, joinPath (joinPath a b) c = joinPath a (joinPath b c) := by
    intro a b c
    by_cases hc : c = ""
    · subst hc
      rfl
    · have hleft := collapseSlashes_joinPath [] a b (leadingSlash c.toList)
      have hright := collapseSlashes_joinPath (leadingSlash a.toList) b c []
      simp only [List.nil_append, List.append_nil, List.append_assoc] at hleft hright
      rw [← String.toList_inj, toList_joinPath _ hc, toList_joinPath _ (joinPath_ne_empty b hc), hleft, hright]
  exact ⟨hassoc, fun s s' s'' g outer inner name a b => hassoc g.path a b⟩

end Switchyard
