import Switchyard.Proofs.Router.Allowed

/-!
# HEAD served by GET

Where GET stands in for HEAD and no HEAD route is in its way (`Router.HeadFree`), a lookup for HEAD is the same as that
for GET: what it finds (`resolve_head`), the verbs gathered for a miss, of which each leaves its own out
(`allowed_head`), and the buffer (`lookupInto_head`, `lookup_head`).
-/

namespace Switchyard

open Http (Verb)

variable {α : Type}

namespace Router

/-- The winner of HEAD for a path is switched off, or there is none. -/
def HeadFree (r : Router α) (path : String) : Prop :=
  ∀ route k, r.select .head (Path.empty.load r.options.cleanPath path) = some (route, k) → r.isEnabled route = false

variable {r : Router α} {path : String}

theorem HeadFree.find_head (h : r.HeadFree path) (p : Path) :
    r.find .head (p.load r.options.cleanPath path) = none := by
  refine Option.filter_eq_none_iff.2 fun found hselect => ?_
  exact Bool.eq_false_iff.1 (h found.1 found.2 hselect)

variable {p : Path}

theorem resolve_head (hopt : r.options.headToGet = true) (hhead : r.find .head p = none) :
    r.resolve (.standard .head) p = r.resolve (.standard .get) p := by
  have hget : ¬ (r.options.headToGet = true ∧ Verb.get = .head) := fun h => nomatch h.2
  rw [resolve_standard, resolve_standard, hhead, if_pos ⟨hopt, rfl⟩, if_neg hget, Option.none_or, Option.or_none]

/-- The verbs gathered are the same: HEAD is not gathered for HEAD, and not added for GET, which finds nothing. -/
theorem allowed_head (hhead : r.find .head p = none) (hget : r.find .get p = none) :
    r.allowed (.standard .head) p = r.allowed (.standard .get) p := by
  have hreached : r.reached (.standard .head) p = r.reached (.standard .get) p := by
    refine List.filter_congr fun v _ => ?_
    cases v with
    | head => rw [hhead, Option.isSome_none, Bool.and_false, Bool.and_false]
    | get => rw [hget, Option.isSome_none, Bool.and_false, Bool.and_false]
    | _ => rfl
  have hnot : .get ∉ r.reached (.standard .get) p := by
    intro hmem
    have hne := (List.mem_filter.1 hmem).2
    simp [Http.Method.verb?] at hne
  rw [allowed_eq, allowed_eq, if_neg fun h => h.2.1 rfl, if_neg fun h => hnot h.2.2.1, hreached]

/-- **With any buffer, a lookup for HEAD is the same as that for GET.** -/
theorem lookupInto_head (hopt : r.options.headToGet = true) (h : r.HeadFree path) (params : Params) :
    r.lookupInto (.standard .head) path params = r.lookupInto (.standard .get) path params := by
  have hhead := h.find_head params.path
  have hresolves := resolve_head hopt hhead
  cases hget : r.resolve (.standard .get) (params.path.load r.options.cleanPath path) with
  | some found => rw [lookupInto_of_resolve params hget, lookupInto_of_resolve params (hresolves.trans hget)]
  | none =>
    have hallowed := allowed_head hhead ((resolve_eq_none hget).1 .get rfl)
    rw [lookupInto_of_none params hget, lookupInto_of_none params (hresolves.trans hget), hallowed]

/-- With a buffer of its own, too; the router is left the same. -/
theorem lookup_head (hopt : r.options.headToGet = true) (h : r.HeadFree path) :
    r.lookup (.standard .head) path = r.lookup (.standard .get) path := by
  have hinto : ∀ buffers params, { r with buffers }.lookupInto (.standard .head) path params =
      { r with buffers }.lookupInto (.standard .get) path params := fun _ params => lookupInto_head hopt h params
  unfold lookup
  dsimp only
  rw [hinto]

end Router

end Switchyard
