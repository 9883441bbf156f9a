import Switchyard.Proofs.Response.Payload

/-!
# What an envelope tells

The envelope of a response is written by the innermost responder, and the statuses around it are set afterwards.

- the last members of an object can be read off its text, from the end (`Json.objectText_last`), so that a response
  is the envelope of one code at most, and a success or not (`Draft.Envelops.unique`);
- the statuses around a responder leave the type and the body it has written as they are
  (`Responder.after_withStatus`), so whether there is an envelope, and of which code, is settled by the innermost one
  (`Responder.envelops_writeTo`);
- so an envelope tells the code of the innermost responder, which the client is answered under if the outermost status
  is the same (`envelope_tells_core`), and not otherwise (`envelope_overridden`).
-/

namespace Switchyard

open Http (Status Headers HeaderName HeaderValue MediaType)

/-! ## Reading an object from its end -/

/-- Where a separator comes last, what is in front of it and behind it is told by the whole. -/
theorem append_cons_inj_last {α : Type} {front front' back back' : List α} {a : α} (h : a ∉ back) (h' : a ∉ back')
    (heq : front ++ a :: back = front' ++ a :: back') : front = front' ∧ back = back' := by
  have hnil : ∀ {rest back back' : List α}, a ∉ back → a :: back = rest ++ a :: back' → rest = [] ∧ back = back' := by
    intro rest back back' h heq
    cases rest with
    | nil => exact ⟨rfl, (List.cons.inj heq).2⟩
    | cons b rest =>
      obtain rfl : back = rest ++ a :: back' := (List.cons.inj heq).2
      exact absurd (List.mem_append_right rest List.mem_cons_self) h
  rcases List.append_eq_append_iff.1 heq with ⟨rest, rfl, hback⟩ | ⟨rest, rfl, hback⟩
  · obtain ⟨rfl, rfl⟩ := hnil h hback
    exact ⟨(List.append_nil front).symm, rfl⟩
  · obtain ⟨rfl, rfl⟩ := hnil h' hback
    exact ⟨List.append_nil front', rfl⟩

namespace Json

theorem intercalate_last (pieces : List String) (x y : String) :
    ∃ front, ",".intercalate (pieces ++ [x, y]) = front ++ x ++ "," ++ y := by
  have hlast : ",".intercalate [x, y] = x ++ "," ++ y := by
    rw [String.intercalate_cons_cons, String.intercalate_singleton]
  cases pieces with
  | nil => exact ⟨"", by rw [List.nil_append, hlast, String.empty_append]⟩
  | cons piece pieces =>
    refine ⟨",".intercalate (piece :: pieces) ++ ",", ?_⟩
    rw [String.intercalate_append_of_ne_nil (List.cons_ne_nil _ _) (List.cons_ne_nil _ _), hlast]
    simp only [String.append_assoc]

/-- The last two members of an object, a number and a literal, stand at the end of its text. -/
theorem objectText_last (members : List (String × String)) (n : Nat) (b : Bool) :
    ∃ front, (objectText (members ++ [("code", toString n), ("success", if b then "true" else "false")])).toList =
      front ++ ':' :: ((toString n).toList ++ ",\"success\"".toList) ++
        ':' :: (if b then "true\x7d" else "false\x7d").toList := by
  have hcode : quoted "code" = "\"code\"" := by decide +kernel
  have hsuccess : quoted "success" = "\"success\"" := by decide +kernel
  unfold objectText
  rw [List.map_append]
  generalize members.map _ = pieces
  obtain ⟨front, hfront⟩ := intercalate_last pieces (quoted "code" ++ ":" ++ toString n)
    (quoted "success" ++ ":" ++ if b then "true" else "false")
  refine ⟨("\x7b" ++ front ++ "\"code\"").toList, ?_⟩
  show ("\x7b" ++ ",".intercalate (_ ++ [_, _]) ++ "\x7d").toList = _
  rw [hfront, hcode, hsuccess]
  cases b <;> simp [String.toList_append]

/-- **They are told by the text.** -/
theorem objectText_last_inj {members members' : List (String × String)} {n n' : Nat} {b b' : Bool}
    (h : objectText (members ++ [("code", toString n), ("success", if b then "true" else "false")]) =
      objectText (members' ++ [("code", toString n'), ("success", if b' then "true" else "false")])) :
    n = n' ∧ b = b' := by
  obtain ⟨front, hfront⟩ := objectText_last members n b
  obtain ⟨front', hfront'⟩ := objectText_last members' n' b'
  have hcolon : ∀ n : Nat, ':' ∉ (toString n).toList ++ ",\"success\"".toList := by
    intro n hmem
    rcases List.mem_append.1 hmem with hmem | hmem
    · rw [Nat.toString_eq_repr, Nat.toList_repr] at hmem
      exact absurd (Nat.isDigit_of_mem_toDigits (by decide) (by decide) hmem) (by decide)
    · exact absurd hmem (by decide)
  have htail : ∀ b : Bool, ':' ∉ (if b then "true\x7d" else "false\x7d").toList := by decide
  have hsplit := hfront.symm.trans ((congrArg String.toList h).trans hfront')
  obtain ⟨hsplit, hb⟩ := append_cons_inj_last (htail b) (htail b') hsplit
  obtain ⟨-, hn⟩ := append_cons_inj_last (hcolon n) (hcolon n') hsplit
  constructor
  · have hdigits : Nat.toDigits 10 n = Nat.toDigits 10 n' := by
      rw [← Nat.toList_repr, ← Nat.toList_repr]
      exact List.append_cancel_right hn
    calc n = Nat.ofDigitChars 10 (Nat.toDigits 10 n) 0 := (Nat.ofDigitChars_toDigits (by decide) (by decide)).symm
      _ = Nat.ofDigitChars 10 (Nat.toDigits 10 n') 0 := by rw [hdigits]
      _ = n' := Nat.ofDigitChars_toDigits (by decide) (by decide)
  · revert hb
    cases b <;> cases b' <;> decide

end Json

/-! ## Envelopes -/

/-- The response is an envelope: JSON by its type, an object whose last members tell this code and whether it is a
success. -/
structure Draft.Envelops (d : Draft) (code : Nat) (success : Bool) : Prop where
  type : ∃ value, HeaderValue.ofText? MediaType.json.text = some value ∧ d.headers.get? .contentType = some value
  body : ∃ members, d.body = Text.Utf8.encode (Json.objectText
    (members ++ [("code", toString code), ("success", if success then "true" else "false")])).toList

namespace Draft.Envelops

variable {d d' : Draft} {code code' : Nat} {success success' : Bool}

/-- Only the type and the body are of matter. -/
theorem congr (h : d.Envelops code success) (hheaders : d'.headers = d.headers) (hbody : d'.body = d.body) :
    d'.Envelops code success :=
  ⟨by rw [hheaders]; exact h.type, by rw [hbody]; exact h.body⟩

/-- An envelope tells one code, and a success or not. -/
theorem unique (h : d.Envelops code success) (h' : d.Envelops code' success') : code = code' ∧ success = success' := by
  obtain ⟨members, hbody⟩ := h.body
  obtain ⟨members', hbody'⟩ := h'.body
  have hread := congrArg Text.Utf8.decode? (hbody.symm.trans hbody')
  rw [Text.Utf8.decode?_encode, Text.Utf8.decode?_encode] at hread
  exact Json.objectText_last_inj (String.toList_injective (Option.some.inj hread))

/-- Without a type there is no envelope. -/
theorem ne_of_type (h : d.headers.get? .contentType = none) : ¬ d.Envelops code success := fun he => by
  obtain ⟨value, -, hvalue⟩ := he.type
  rw [h] at hvalue
  cases hvalue

end Draft.Envelops

theorem Http.Headers.get?_insert (h : Headers) (name : HeaderName) (value : HeaderValue) :
    (h.insert name value).get? name = some value := by
  have hnone : (h.erase name).entries.lookup name = none := by
    rw [List.lookup_eq_none_iff]
    intro p hp
    rw [bne_comm]
    exact (List.mem_filter.1 hp).2
  show ((h.erase name).entries ++ [(name, value)]).lookup name = some value
  rw [List.lookup_append, hnone, List.lookup_cons, beq_self_eq_true]
  rfl

theorem Http.Status.code_inj {s t : Status} : s.code = t.code ↔ s = t := by
  refine ⟨fun h => ?_, congrArg code⟩
  cases s
  cases t
  cases h
  rfl

namespace Drafting

theorem after_writeParts {type : MediaType} {value : HeaderValue} (h : HeaderValue.ofText? type.text = some value)
    (code : Status) (body : List UInt8) (d : Draft) :
    (writeParts code type body).after d = ((d.setHeader .contentType value).setStatus code).write body := by
  unfold after writeParts setContentType
  rw [h]
  rfl

/-- The text of an object with such members makes an envelope of a fresh draft when it is written as JSON. -/
theorem envelops_writeParts (s : Status) {code : Nat} {success : Bool} {body : String}
    (h : ∃ members, body = Json.objectText
      (members ++ [("code", toString code), ("success", if success then "true" else "false")])) :
    ((writeParts s .json (Text.Utf8.encode body.toList)).after {}).Envelops code success := by
  have hvalue : HeaderValue.ofText? MediaType.json.text = some ⟨Text.Utf8.encode "application/json".toList⟩ := rfl
  obtain ⟨members, rfl⟩ := h
  rw [after_writeParts hvalue]
  exact ⟨⟨_, hvalue, Headers.get?_insert _ _ _⟩, members, rfl⟩

end Drafting

/-- An envelope that is written has the members that tell its code. -/
theorem Envelope.text_members {e : Envelope} {body : String} (h : e.text = .ok body) :
    ∃ members, body = Json.objectText
      (members ++ [("code", toString e.code.code), ("success", if e.code.isSuccess then "true" else "false")]) := by
  obtain ⟨data, errors, code⟩ := e
  match data, h with
  | none, h => exact ⟨_, (Except.ok.inj h).symm⟩
  | some (.value v), h => exact ⟨_, (Except.ok.inj h).symm⟩

namespace Responder

/-- Whether a bare status or a JSON response is written as an envelope. -/
def WritesEnvelope : Responder → Prop
  | .status s => s.isError = true
  | .json e => e.code ≠ .noContent ∧ e.flaw? = none
  | _ => False

variable {code : Nat} {success : Bool}

theorem envelops_writeEnvelope (e : Envelope) :
    ((writeEnvelope e).after {}).Envelops code success ↔
      (e.code ≠ .noContent ∧ e.flaw? = none) ∧ code = e.code.code ∧ success = e.code.isSuccess := by
  by_cases hcode : e.code = .noContent
  · have hafter : (writeEnvelope e).after {} = ({} : Draft).setStatus e.code := by
      unfold writeEnvelope Drafting.after
      rw [if_pos hcode]
      rfl
    rw [hafter]
    exact ⟨fun h => absurd h (Draft.Envelops.ne_of_type rfl), fun h => absurd hcode h.1.1⟩
  · rcases Envelope.flaw?_cases hcode with ⟨failure, hflaw, htext⟩ | ⟨hflaw, body, htext⟩
    · rw [(renders_writeEnvelope e).after_flaw hflaw]
      refine ⟨fun h => absurd h (Draft.Envelops.ne_of_type rfl), fun h => ?_⟩
      rw [hflaw] at h
      cases h.1.2
    · have hafter : (writeEnvelope e).after {} =
          (Drafting.writeParts e.code .json (Text.Utf8.encode body.toList)).after {} := by
        unfold writeEnvelope Drafting.after
        rw [if_neg hcode, htext]
      have henvelops := Drafting.envelops_writeParts e.code (Envelope.text_members htext)
      rw [hafter]
      refine ⟨fun h => ⟨⟨hcode, hflaw⟩, h.unique henvelops⟩, ?_⟩
      rintro ⟨-, rfl, rfl⟩
      exact henvelops

theorem envelops_writeStatus (s : Status) :
    ((writeStatus s).after {}).Envelops code success ↔ s.isError = true ∧ code = s.code ∧ success = s.isSuccess := by
  by_cases herror : s.isError = true
  · have hcode : (Envelope.error s).code ≠ .noContent := by
      rintro rfl
      cases herror
    have hafter : (writeStatus s).after {} = (writeEnvelope (.error s)).after {} := by
      unfold writeStatus
      rw [if_pos herror]
    have hflaw : (Envelope.error s).flaw? = none := if_neg hcode
    rw [hafter, envelops_writeEnvelope]
    exact ⟨fun h => ⟨herror, h.2⟩, fun h => ⟨⟨hcode, hflaw⟩, h.2⟩⟩
  · refine ⟨fun h => ?_, fun h => absurd h.1 herror⟩
    by_cases hempty : (s = .noContent || s = .notModified) = true
    · have hafter : (writeStatus s).after {} = ({} : Draft).setStatus s := by
        unfold writeStatus Drafting.after
        rw [if_neg herror, if_pos hempty]
        rfl
      rw [hafter] at h
      exact absurd h (Draft.Envelops.ne_of_type rfl)
    · -- the reason phrase is written as plain text
      have hvalue : HeaderValue.ofText? MediaType.plainText.text =
          some ⟨Text.Utf8.encode "text/plain; charset=utf-8".toList⟩ := rfl
      have hafter : (writeStatus s).after {} =
          (Drafting.writeParts s .plainText (Text.Utf8.encode (s.reason?.getD "").toList)).after {} := by
        unfold writeStatus Drafting.after
        rw [if_neg herror, if_neg hempty]
      rw [hafter, Drafting.after_writeParts hvalue] at h
      obtain ⟨value, hjson, htype⟩ := h.type
      have heq := htype.symm.trans (Headers.get?_insert {} .contentType _)
      rw [← hjson] at heq
      exact absurd heq (by decide +kernel)

/-! ## Statuses around a responder -/

/-- Built from bare statuses and JSON responses, with any statuses around them. -/
inductive Coded : Responder → Prop where
  | status (s : Status) : Coded (.status s)
  | json (e : Envelope) : Coded (.json e)
  | withStatus (s : Status) {inner : Responder} (h : Coded inner) : Coded (.withStatus s inner)

/-- The responder inside all statuses. -/
def core : Responder → Responder
  | .withStatus _ inner => inner.core
  | r => r

/-- A status around a responder leaves the type and the body it writes as they are. -/
theorem after_withStatus (s : Status) (inner : Responder) (d : Draft) :
    ((withStatus s inner).writeTo.after d).headers = (inner.writeTo.after d).headers ∧
      ((withStatus s inner).writeTo.after d).body = (inner.writeTo.after d).body := by
  cases hflaw : inner.flaw? with
  | some failure =>
    rw [inner.renders_writeTo.after_flaw hflaw, (withStatus s inner).renders_writeTo.after_flaw hflaw]
    exact ⟨rfl, rfl⟩
  | none =>
    obtain ⟨d', hrun, -⟩ := inner.renders_writeTo.writes hflaw d
    have hset : (withStatus s inner).writeTo.run d = .ok () (d'.setStatus s) := by
      show EStateM.bind inner.writeTo _ d = _
      rw [EStateM.bind, show inner.writeTo d = _ from hrun]
      rfl
    rw [Drafting.after, Drafting.after, hset, hrun]
    exact ⟨rfl, rfl⟩

/-- **The innermost responder settles which envelope there is.** -/
theorem envelops_writeTo {r : Responder} (h : r.Coded) :
    (r.writeTo.after {}).Envelops code success ↔
      r.core.WritesEnvelope ∧ code = r.core.code.code ∧ success = r.core.code.isSuccess := by
  induction h with
  | status s => exact envelops_writeStatus s
  | json e => exact envelops_writeEnvelope e
  | @withStatus s inner _ ih =>
    obtain ⟨hheaders, hbody⟩ := after_withStatus s inner {}
    rw [core, ← ih]
    exact ⟨fun h => h.congr hheaders.symm hbody.symm, fun h => h.congr hheaders hbody⟩

/-- What was written as an envelope is answered under the responder's own status. -/
theorem status_of_envelops {r : Responder} (h : (r.writeTo.after {}).Envelops code success) :
    (r.writeTo.after {}).status = r.code := by
  cases hflaw : r.flaw? with
  | some failure =>
    rw [r.renders_writeTo.after_flaw hflaw] at h
    exact absurd h (Draft.Envelops.ne_of_type rfl)
  | none =>
    rw [Draft.status, (r.renders_writeTo.after_carries hflaw {}).written]
    rfl

end Responder

/-- **The envelope tells the code of the innermost responder**, and a success exactly where that is below 400. The
response is answered under the outermost status, so it is the code that the envelope tells exactly where these two are
the same. -/
theorem envelope_tells_core {r : Responder} (hr : r.Coded) {m : Machine} (hm : m.context.draft = {}) (code : Nat)
    (success : Bool) :
    let d := (m.render r).context.draft
    (d.Envelops code success ↔ r.core.WritesEnvelope ∧ code = r.core.code.code ∧ (success = true ↔ code < 400)) ∧
    (d.Envelops code success → d.status = r.code ∧ (code = d.status.code ↔ r.core.code = r.code)) := by
  intro d
  have hd : d = (r.writeTo.after {}).markDone := by rw [← hm]; exact m.draft_render r
  have hdone : d.Envelops code success ↔ (r.writeTo.after {}).Envelops code success := by
    rw [hd]
    exact ⟨fun h => h.congr rfl rfl, fun h => h.congr rfl rfl⟩
  have hsuccess : code = r.core.code.code → (success = r.core.code.isSuccess ↔ (success = true ↔ code < 400)) := by
    rintro rfl
    rw [Status.isSuccess, Bool.eq_iff_iff, decide_eq_true_iff]
  have hcore := hdone.trans (Responder.envelops_writeTo hr)
  refine ⟨?_, fun h => ?_⟩
  · rw [hcore]
    exact and_congr_right fun _ => and_congr_right hsuccess
  · obtain ⟨-, rfl, -⟩ := hcore.1 h
    have hstatus : d.status = r.code := by
      rw [hd]
      exact Responder.status_of_envelops (hdone.1 h)
    rw [hstatus]
    exact ⟨rfl, Status.code_inj⟩

/-- A server error under two other statuses: the envelope tells 500 where the response is answered under 404. -/
theorem envelope_tells_core_nested :
    let r : Responder := .withStatus .notFound (.withStatus .ok (.status .serverError))
    r.Coded ∧ ({} : Machine).context.draft = {} ∧
      (({} : Machine).render r).context.draft.Envelops 500 false ∧
      (({} : Machine).render r).context.draft.status = .notFound := by
  intro r
  have hr : r.Coded := .withStatus _ (.withStatus _ (.status _))
  obtain ⟨henvelops, hstatus⟩ := envelope_tells_core hr (m := {}) rfl 500 false
  have h := henvelops.2 ⟨rfl, rfl, by decide⟩
  exact ⟨hr, rfl, h, (hstatus h).1⟩

/-- Data under a status of its own. -/
def overridden : Responder :=
  .withStatus .notFound (.json (.ok (.value (.int 1))))

/-- A client is told of a success that is answered under the status 404. -/
theorem envelope_overridden :
    (overridden.Coded ∧ (({} : Machine).render overridden).context.draft.Envelops 200 true ∧
      (({} : Machine).render overridden).context.draft.status = .notFound) ∧
    ¬ ∀ r : Responder, r.Coded → ∀ code success, (({} : Machine).render r).context.draft.Envelops code success →
      code = (({} : Machine).render r).context.draft.status.code ∧
        (success = true ↔ (({} : Machine).render r).context.draft.status.code < 400) := by
  have hcoded : overridden.Coded := .withStatus _ (.json _)
  have henvelops : (({} : Machine).render overridden).context.draft.Envelops 200 true := by
    rw [Machine.draft_render]
    exact ((Responder.envelops_writeTo hcoded).2 ⟨⟨by decide, rfl⟩, rfl, rfl⟩).congr rfl rfl
  refine ⟨⟨hcoded, henvelops, rfl⟩, fun h => ?_⟩
  have hcode := (h overridden hcoded 200 true henvelops).1
  exact absurd hcode (by decide +kernel)

end Switchyard
