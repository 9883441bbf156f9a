import Switchyard.Machine

/-!
# What responders write

A responder is written as a whole, or not at all: what it would fail for is known from the responder alone
(`Responder.flaw?`), and it fails before it changes anything.

- One lemma for each way of writing (`Drafting.renders_writeParts` and its like), and by induction one for every
  responder, however deep the statuses are nested around it (`Responder.renders_writeTo`).
- So a context is answered under the responder's own status and with its bytes, or it is as it was and only the chain
  stops (`written_or_untouched`).
-/

namespace Switchyard

open Http (Status Headers HeaderName HeaderValue MediaType)

namespace Http.Headers

theorem erase_comm (h : Headers) (a b : HeaderName) : (h.erase a).erase b = (h.erase b).erase a := by
  simp [erase, List.filter_filter, Bool.and_comm]

theorem erase_insert (h : Headers) (name : HeaderName) (value : HeaderValue) :
    (h.insert name value).erase name = h.erase name := by
  simp [insert, append, erase, List.filter_filter]

end Http.Headers

/-- What a draft has come to when a response was written to it: the status is that of the response, its bytes are behind
those that were there, and no header field is touched but the content type and the location. -/
structure Draft.Carries (d : Draft) (code : Status) (bytes : List UInt8) (d' : Draft) : Prop where
  written : d'.written = some code
  body : d'.body = d.body ++ bytes
  bytesWritten : d'.bytesWritten = d.bytesWritten + bytes.length
  headers : (d'.headers.erase .contentType).erase .location = (d.headers.erase .contentType).erase .location
  done : d.done = true → d'.done = true

/-- Only the status is set. -/
theorem Draft.carries_setStatus (d : Draft) (code : Status) : d.Carries code [] (d.setStatus code) :=
  ⟨rfl, (List.append_nil _).symm, rfl, rfl, id⟩

theorem Draft.Carries.setStatus {d d' : Draft} {code : Status} {bytes : List UInt8} (h : d.Carries code bytes d')
    (outer : Status) : d.Carries outer bytes (d'.setStatus outer) :=
  ⟨rfl, h.body, h.bytesWritten, h.headers, h.done⟩

theorem Draft.Carries.markDone {d d' : Draft} {code : Status} {bytes : List UInt8} (h : d.Carries code bytes d') :
    d.Carries code bytes d'.markDone :=
  ⟨h.written, h.body, h.bytesWritten, h.headers, fun _ => rfl⟩

namespace Drafting

/-- Work that writes a response to any draft, or fails for this and leaves the draft as it is. -/
structure Renders (x : Drafting Unit) (flaw? : Option Failure) (code : Status) (bytes : List UInt8) : Prop where
  fails : ∀ failure, flaw? = some failure → ∀ d, x.run d = .error failure d
  writes : flaw? = none → ∀ d, ∃ d', x.run d = .ok () d' ∧ d.Carries code bytes d'

/-- Why a body of some type cannot be written. -/
def typeFlaw? (type : MediaType) : Option Failure :=
  if (HeaderValue.ofText? type.text).isNone then some .invalidHeader else none

theorem renders_setStatus (code : Status) : Renders (modify (·.setStatus code)) none code [] :=
  ⟨nofun, fun _ d => ⟨_, rfl, d.carries_setStatus code⟩⟩

theorem renders_throw (failure : Failure) (code : Status) (bytes : List UInt8) :
    Renders (throw failure) (some failure) code bytes := by
  refine ⟨fun failure' h d => ?_, nofun⟩
  obtain rfl := Option.some.inj h
  rfl

theorem renders_writeParts (code : Status) (type : MediaType) (body : List UInt8) :
    Renders (writeParts code type body) (typeFlaw? type) code body := by
  unfold typeFlaw? writeParts setContentType
  cases HeaderValue.ofText? type.text with
  | none => exact ⟨(renders_throw .invalidHeader code body).fails, nofun⟩
  | some value =>
    refine ⟨nofun, fun _ d => ⟨_, rfl, rfl, rfl, rfl, ?_, fun _ => rfl⟩⟩
    exact congrArg (·.erase .location) (d.headers.erase_insert .contentType value)

end Drafting

/-! ## Envelopes, statuses and redirects -/

namespace Envelope

/-- Why an envelope cannot be written: what it carries is no JSON. -/
def flaw? (e : Envelope) : Option Failure :=
  if e.code = .noContent then none
  else
    match e.data with
    | some (.unwritable cause) => some (.json cause)
    | _ => none

/-- The bytes of an envelope; one of status 204 has none. -/
def content (e : Envelope) : List UInt8 :=
  if e.code = .noContent then []
  else
    match e.text with
    | .ok body => Text.Utf8.encode body.toList
    | .error _ => []

/-- An envelope that is written has a text, or what stands against it is why it has none. -/
theorem flaw?_cases {e : Envelope} (h : e.code ≠ .noContent) :
    (∃ failure, e.flaw? = some failure ∧ e.text = .error failure) ∨ e.flaw? = none ∧ ∃ body, e.text = .ok body := by
  unfold flaw?
  rw [if_neg h]
  obtain ⟨data, errors, code⟩ := e
  match data with
  | none => exact .inr ⟨rfl, _, rfl⟩
  | some (.value v) => exact .inr ⟨rfl, _, rfl⟩
  | some (.unwritable cause) => exact .inl ⟨.json cause, rfl, rfl⟩

end Envelope

namespace Responder

open Drafting (Renders renders_setStatus renders_throw renders_writeParts typeFlaw?)

theorem renders_writeEnvelope (e : Envelope) : Renders (writeEnvelope e) e.flaw? e.code e.content := by
  unfold writeEnvelope Envelope.content
  by_cases hcode : e.code = .noContent
  · rw [if_pos hcode, if_pos hcode, Envelope.flaw?, if_pos hcode]
    exact renders_setStatus e.code
  · rw [if_neg hcode, if_neg hcode]
    rcases Envelope.flaw?_cases hcode with ⟨failure, hflaw, htext⟩ | ⟨hflaw, body, htext⟩
    · rw [hflaw, htext]
      exact renders_throw failure _ _
    · rw [hflaw, htext]
      exact renders_writeParts e.code .json _

/-- The bytes of a bare status: those of an envelope for an error, none for 204 and 304, its reason phrase otherwise. -/
def statusContent (s : Status) : List UInt8 :=
  if s.isError then (Envelope.error s).content
  else if s = .noContent || s = .notModified then []
  else Text.Utf8.encode (s.reason?.getD "").toList

theorem renders_writeStatus (s : Status) : Renders (writeStatus s) none s (statusContent s) := by
  unfold writeStatus statusContent
  split
  · have hflaw : (Envelope.error s).flaw? = none := by
      unfold Envelope.flaw?
      split <;> rfl
    exact hflaw ▸ renders_writeEnvelope (.error s)
  · split
    · exact renders_setStatus s
    · exact renders_writeParts s .plainText _

/-- Why a redirect cannot be written. -/
def redirectFlaw? (location : String) (s : Status) : Option Failure :=
  if location.isEmpty || !s.isRedirection then some (.invalidRedirect location s)
  else if (HeaderValue.ofText? location).isNone then some .invalidHeader
  else none

theorem renders_writeRedirect (location : String) (s : Status) :
    Renders (writeRedirect location s) (redirectFlaw? location s) s [] := by
  unfold writeRedirect redirectFlaw?
  by_cases hbad : (location.isEmpty || !s.isRedirection) = true
  · rw [if_pos hbad, if_pos hbad]
    exact ⟨(renders_throw (.invalidRedirect location s) s []).fails, nofun⟩
  · rw [if_neg hbad, if_neg hbad]
    cases HeaderValue.ofText? location with
    | none => exact ⟨(renders_throw .invalidHeader s []).fails, nofun⟩
    | some value =>
      refine ⟨nofun, fun _ d => ⟨_, rfl, rfl, (List.append_nil _).symm, rfl, ?_, fun _ => rfl⟩⟩
      show ((d.headers.insert .location value).erase .contentType).erase .location = _
      rw [Headers.erase_comm, Headers.erase_insert, Headers.erase_comm]

/-! ## Responders -/

/-- Why a responder cannot be written, if it cannot. -/
def flaw? : Responder → Option Failure
  | .text _ => none
  | .bytes _ => none
  | .status _ => none
  | .withStatus _ inner => inner.flaw?
  | .plain type _ _ => typeFlaw? type
  | .json e => e.flaw?
  | .redirect location s => redirectFlaw? location s

/-- The bytes that a responder adds to a body. -/
def content : Responder → List UInt8
  | .text s => Text.Utf8.encode s.toList
  | .bytes bs => bs
  | .status s => statusContent s
  | .withStatus _ inner => inner.content
  | .plain _ body _ => body
  | .json e => e.content
  | .redirect _ _ => []

/-- A status is set around what was written, and nothing if nothing was. -/
theorem renders_withStatus {inner : Responder} (h : Renders inner.writeTo inner.flaw? inner.code inner.content)
    (s : Status) : Renders (withStatus s inner).writeTo inner.flaw? s inner.content where
  fails failure hflaw d := by
    show EStateM.bind inner.writeTo _ d = _
    rw [EStateM.bind, show inner.writeTo d = _ from h.fails failure hflaw d]
  writes hflaw d := by
    obtain ⟨d', hrun, hcarries⟩ := h.writes hflaw d
    refine ⟨d'.setStatus s, ?_, hcarries.setStatus s⟩
    show EStateM.bind inner.writeTo _ d = _
    rw [EStateM.bind, show inner.writeTo d = _ from hrun]
    rfl

/-- **A responder is written as a whole, or fails and changes nothing.** -/
theorem renders_writeTo (r : Responder) : Renders r.writeTo r.flaw? r.code r.content := by
  induction r with
  | text s => exact renders_writeParts .ok .plainText _
  | bytes bs => exact renders_writeParts .ok .bytes bs
  | status s => exact renders_writeStatus s
  | withStatus s inner ih => exact renders_withStatus ih s
  | plain type body s => exact renders_writeParts s type body
  | json e => exact renders_writeEnvelope e
  | redirect location s => exact renders_writeRedirect location s

/-- Writes a responder to a context, of which only the draft is at hand. -/
def writeOn (r : Responder) : EStateM Failure Context Unit := fun c =>
  match r.writeTo.run c.draft with
  | .ok _ draft => .ok () { c with draft }
  | .error failure draft => .error failure { c with draft }

theorem writeOn_flaw {r : Responder} {failure : Failure} (h : r.flaw? = some failure) (c : Context) :
    r.writeOn.run c = .error failure c := by
  show r.writeOn c = _
  rw [writeOn, r.renders_writeTo.fails failure h]

theorem writeOn_sound {r : Responder} (h : r.flaw? = none) (c : Context) :
    ∃ d, r.writeOn.run c = .ok () { c with draft := d } ∧ c.draft.Carries r.code r.content d := by
  obtain ⟨d, hrun, hcarries⟩ := r.renders_writeTo.writes h c.draft
  refine ⟨d, ?_, hcarries⟩
  show r.writeOn c = _
  rw [writeOn, hrun]

end Responder

/-- **A responder is written under its own status and with all its bytes, or the context is as it was**: then for a
reason that the responder alone gives. Rendering one that cannot be written is logged, makes the response done and
closes both lanes, and that is all. -/
theorem written_or_untouched (r : Responder) :
    (∀ c : Context,
      match r.writeOn.run c with
      | .ok _ c' =>
        r.flaw? = none ∧ c.draft.Carries r.code r.content c'.draft ∧ c' = { c with draft := c'.draft }
      | .error failure c' => r.flaw? = some failure ∧ c' = c) ∧
    ∀ (m : Machine) (failure : Failure), r.flaw? = some failure →
      (m.render r).context = { m.context with draft := m.context.draft.markDone } ∧
      (∀ kind, (m.render r).lane kind = (m.lane kind).close) ∧ (m.render r).world = m.world ∧
      (m.render r).journal = m.journal ++
        [.logged (.renderFailed failure.message m.context.method.name m.context.path), .rendered r (some failure)] := by
  refine ⟨fun c => ?_, fun m failure h => ?_⟩
  · cases h : r.flaw? with
    | none =>
      obtain ⟨d, hrun, hcarries⟩ := Responder.writeOn_sound h c
      rw [hrun]
      exact ⟨rfl, hcarries, rfl⟩
    | some failure =>
      rw [Responder.writeOn_flaw h]
      exact ⟨rfl, rfl⟩
  · unfold Machine.render
    rw [r.renders_writeTo.fails failure h]
    exact ⟨rfl, fun kind => by cases kind <;> rfl, rfl, List.append_assoc m.journal [_] [_]⟩

/-- A redirect without a location, under two other statuses. -/
def aimless : Responder :=
  .withStatus .ok (.withStatus .movedPermanently (.redirect "" .found))

/-- A context in which a response was begun. -/
def begun : Context :=
  { draft := { written := some .ok, headers := ⟨[(.allow, ⟨[71]⟩)]⟩, body := [1], bytesWritten := 1 } }

/-- What was begun is left as it is by a responder that cannot be written, and added to by one that can. -/
theorem written_or_untouched_begun :
    (aimless.flaw? = some (.invalidRedirect "" .found) ∧
      (({ context := begun } : Machine).render aimless).context = { begun with draft := begun.draft.markDone }) ∧
    ∃ c, (Responder.withStatus .notFound (.json (.ok (.value (.int 7))))).writeOn.run begun = .ok () c ∧
      c.draft.written = some .notFound ∧
      c.draft.body = 1 :: Text.Utf8.encode "\x7b\"data\":7,\"code\":200,\"success\":true\x7d".toList ∧
      (c.draft.headers.erase .contentType).erase .location = ⟨[(.allow, ⟨[71]⟩)]⟩ := by
  obtain ⟨-, hrender⟩ := written_or_untouched aimless
  obtain ⟨hwritten, -⟩ := written_or_untouched (.withStatus .notFound (.json (.ok (.value (.int 7)))))
  obtain ⟨-, hcarries, -⟩ := hwritten begun
  exact ⟨⟨rfl, (hrender { context := begun } _ rfl).1⟩, _, rfl, hcarries.written, hcarries.body, hcarries.headers⟩

end Switchyard
