import IdentityService.Http.Sends

/-!
# Every response is framed once

`Framing` holds of the world between `observer.started` and
`observer.finished`: at most one start was passed on, it carries the request
id, and the response state knows its status and every failure. Each send
keeps it, so every application does, and so does the error response, which
goes through the same send.
-/

namespace IdentityService.Asgi

open Concurrent Http

/-! ## Every send keeps the frame -/

@[simp] theorem passedOn_append (log more : List HttpEvent) :
    passedOn (log ++ more) = passedOn log ++ passedOn more :=
  List.filterMap_append

@[simp] theorem startsPassed_append (log more : List HttpEvent) :
    startsPassed (log ++ more) = startsPassed log ++ startsPassed more := by
  simp [startsPassed]

@[simp] theorem lifecycle_append (log more : List HttpEvent) :
    lifecycle (log ++ more) = lifecycle log ++ lifecycle more :=
  List.filter_append log more

/-- What holds of the world from `observer.started` to `observer.finished`;
`fault` is a reason to report a failure. -/
structure Framing (m : RequestIdMiddleware) (request : HttpRequestMetadata) (raises : Nat → Bool)
    (fault : Prop) (w : HttpWorld) : Prop where
  carried : Carried w.heap
  server : w.raises = raises
  observed : lifecycle w.log = [.started request]
  unstarted : w.response.responseStarted = false →
    startsPassed w.log = [] ∧ w.response.statusCode = 500
  started : w.response.responseStarted = true → ∃ own out, .asked own ∈ w.log ∧
    startsPassed w.log = [out] ∧ out.status = some w.response.statusCode ∧ Stamped m request own out
  disconnected : w.response.clientDisconnected = true ↔
    ∃ n < (passedOn w.log).length, raises n = true
  lost : w.response.clientDisconnected = true → w.response.failed = true
  faulty : fault → w.response.failed = true
  erroneous : ∀ own status, .asked own ∈ w.log → own.isStart = true → own.status = some status →
    500 ≤ status → w.response.failed = true

namespace Framing

variable {m : RequestIdMiddleware} {request : HttpRequestMetadata} {raises : Nat → Bool}
  {fault : Prop} {w w' : HttpWorld}

/-- The response state and the log of a message that goes out, whether or not
the server takes it. -/
theorem outbound {own out : Contents} {grown : Heap} {response : HttpResponseState}
    (h : Framing m request raises fault w)
    (hout : Outbound m request { w with log := w.log ++ [.asked own] } own out grown response) :
    (response.responseStarted = false →
      startsPassed (w.log ++ [.asked own, .passed out]) = [] ∧ response.statusCode = 500) ∧
    (response.responseStarted = true → ∃ own' out', .asked own' ∈ w.log ++ [.asked own] ∧
      startsPassed (w.log ++ [.asked own, .passed out]) = [out'] ∧
      out'.status = some response.statusCode ∧ Stamped m request own' out') ∧
    response.clientDisconnected = w.response.clientDisconnected ∧
    (w.response.failed = true → response.failed = true) ∧
    ∀ status, own.isStart = true → own.status = some status → 500 ≤ status →
      response.failed = true := by
  cases hout with
  | plain hother =>
    have hsame : startsPassed (w.log ++ [.asked own, .passed own]) = startsPassed w.log := by
      simp [startsPassed, passedOn, hother]
    rw [hsame]
    refine ⟨h.unstarted, fun hstarted => ?_, rfl, id, fun status hstart => ?_⟩
    · obtain ⟨own', out', hmem, hrest⟩ := h.started hstarted
      exact ⟨own', out', List.mem_append_left _ hmem, hrest⟩
    · rw [hother] at hstart
      cases hstart
  | @start _ status _ hstart hstatus hstamped hfresh =>
    obtain ⟨list, written, hlist, hset, rfl⟩ := hstamped
    have hone : startsPassed (w.log ++ [.asked own, .passed { own with headers := some written }]) =
        [{ own with headers := some written }] := by
      have hstart' : ({ own with headers := some written } : Contents).isStart = true := hstart
      rw [startsPassed_append, (h.unstarted hfresh).1]
      simp [startsPassed, passedOn, hstart']
    refine ⟨nofun, fun _ => ?_, rfl, fun hfailed => ?_, fun status' _ hstatus' hlarge => ?_⟩
    · exact ⟨own, _, by simp, hone, hstatus, list, written, hlist, hset, rfl⟩
    · simp [hfailed]
    · obtain rfl := Option.some.inj (hstatus.symm.trans hstatus')
      simp [hlarge]

/-- Nothing goes out, and the response state only learns of a failure. -/
theorem quiet {more : List HttpEvent} {response : HttpResponseState}
    (h : Framing m request raises fault w)
    (hpassed : passedOn more = []) (hobserved : lifecycle more = [])
    (hstarted : response.responseStarted = w.response.responseStarted)
    (hcode : response.statusCode = w.response.statusCode)
    (hdisconnected : response.clientDisconnected = w.response.clientDisconnected)
    (hfailed : w.response.failed = true → response.failed = true)
    (hasked : ∀ own status, .asked own ∈ more → own.isStart = true → own.status = some status →
      500 ≤ status → response.failed = true) :
    Framing m request raises fault { w with response := response, log := w.log ++ more } := by
  have hstarts : startsPassed (w.log ++ more) = startsPassed w.log := by
    simp [startsPassed, hpassed]
  refine ⟨h.carried, h.server, by simp [h.observed, hobserved], fun hfresh => ?_, fun hon => ?_, ?_,
    fun hlost => ?_, fun hfault => hfailed (h.faulty hfault),
    fun own status hmem hstart hstatus hlarge => ?_⟩
  · rw [hstarts, hcode]
    exact h.unstarted (hstarted ▸ hfresh)
  · obtain ⟨own, out, hmem, hrest⟩ := h.started (hstarted ▸ hon)
    rw [hstarts, hcode]
    exact ⟨own, out, List.mem_append_left _ hmem, hrest⟩
  · simp only [hdisconnected, passedOn_append, hpassed, List.append_nil]
    exact h.disconnected
  · exact hfailed (h.lost (hdisconnected ▸ hlost))
  · rcases List.mem_append.mp hmem with hwas | hnew
    · exact hfailed (h.erroneous own status hwas hstart hstatus hlarge)
    · exact hasked own status hnew hstart hstatus hlarge

/-- A failure before the start leaves the status as it was. -/
theorem markFailure_statusCode (h : Framing m request raises fault w) :
    w.response.markFailure.statusCode = w.response.statusCode := by
  cases hstarted : w.response.responseStarted with
  | true => simp [HttpResponseState.markFailure, hstarted]
  | false => simp [HttpResponseState.markFailure, hstarted, (h.unstarted hstarted).2]

/-- `response.mark_failure()`, for whatever reason, and what is recorded
beside it. -/
theorem markFailure (h : Framing m request raises fault w) (reason : Prop) {more : List HttpEvent}
    (hpassed : passedOn more = []) (hobserved : lifecycle more = []) :
    Framing m request raises reason
      { w with response := w.response.markFailure, log := w.log ++ more } := by
  have hkept : Framing m request raises fault
      { w with response := w.response.markFailure, log := w.log ++ more } :=
    h.quiet hpassed hobserved rfl h.markFailure_statusCode rfl (fun _ => rfl)
      fun _ _ _ _ _ _ => rfl
  exact { hkept with faulty := fun _ => rfl }

/-- A message goes out, and the server's answer is noted. -/
theorem passing {own out : Contents} {grown : Heap} {response : HttpResponseState}
    (h : Framing m request raises fault w) (more : List HttpEvent) (after : HttpResponseState)
    (hout : Outbound m request { w with log := w.log ++ [.asked own] } own out grown response)
    (hcarried : Carried (w.heap ++ grown))
    (hpassed : passedOn more = []) (hobserved : lifecycle more = [])
    (hasked : ∀ own', .asked own' ∉ more)
    (hstarted : after.responseStarted = response.responseStarted)
    (hcode : after.statusCode = response.statusCode)
    (hdisconnected : after.clientDisconnected =
      (response.clientDisconnected || raises (passedOn w.log).length))
    (hfailed : response.failed = true → after.failed = true)
    (hlost : raises (passedOn w.log).length = true → after.failed = true) :
    Framing m request raises fault { w with
      heap := w.heap ++ grown
      response := after
      log := w.log ++ [.asked own, .passed out] ++ more } := by
  obtain ⟨hfresh, hon, hsame, hkept, hlarge⟩ := h.outbound hout
  have hstarts : startsPassed (w.log ++ [.asked own, .passed out] ++ more) =
      startsPassed (w.log ++ [.asked own, .passed out]) := by
    rw [startsPassed_append]
    simp [startsPassed, hpassed]
  have hpair : passedOn [.asked own, .passed out] = [out] := rfl
  have hcount : (passedOn (w.log ++ [.asked own, .passed out] ++ more)).length =
      (passedOn w.log).length + 1 := by
    simp only [passedOn_append, hpair, hpassed, List.length_append, List.length_singleton,
      List.length_nil, Nat.add_zero]
  have hsilent : lifecycle [.asked own, .passed out] = [] := rfl
  refine ⟨hcarried, h.server, ?_, fun hnot => ?_, fun hyes => ?_, ?_, fun hgone => ?_,
    fun hfault => hfailed (hkept (h.faulty hfault)), fun own' status hmem hstart hstatus hbig => ?_⟩
  · simp only [lifecycle_append, h.observed, hsilent, hobserved, List.append_nil]
  · rw [hstarts, hcode]
    exact hfresh (hstarted ▸ hnot)
  · rw [hstarts, hcode]
    obtain ⟨own', out', hmem, hrest⟩ := hon (hstarted ▸ hyes)
    refine ⟨own', out', List.mem_append_left _ ?_, hrest⟩
    rcases List.mem_append.mp hmem with hwas | hnew
    · exact List.mem_append_left _ hwas
    · exact List.mem_append_right _ (List.mem_cons.mpr (.inl (List.mem_singleton.mp hnew)))
  · simp only [hcount, hdisconnected, hsame, Bool.or_eq_true, h.disconnected]
    constructor
    · rintro (⟨n, hn, hraises⟩ | hraises)
      · exact ⟨n, Nat.lt_succ_of_lt hn, hraises⟩
      · exact ⟨_, Nat.lt_succ_self _, hraises⟩
    · rintro ⟨n, hn, hraises⟩
      rcases Nat.lt_succ_iff_lt_or_eq.mp hn with hlt | rfl
      · exact .inl ⟨n, hlt, hraises⟩
      · exact .inr hraises
  · simp only [hdisconnected, hsame, Bool.or_eq_true] at hgone
    rcases hgone with hwas | hraises
    · exact hfailed (hkept (h.lost hwas))
    · exact hlost hraises
  · simp only [List.mem_append, List.mem_cons, hasked own'] at hmem
    simp only [HttpEvent.asked.injEq, reduceCtorEq, List.not_mem_nil, or_false] at hmem
    rcases hmem with hwas | rfl
    · exact hfailed (hkept (h.erroneous own' status hwas hstart hstatus hbig))
    · exact hfailed (hlarge status hstart hstatus hbig)

/-- Whatever a send does, the frame is kept. -/
theorem sent {own : Contents} {r : Except HttpExn Unit} (h : Framing m request raises fault w)
    (hsent : Sent m request { w with log := w.log ++ [.asked own] } own r w') :
    Framing m request raises fault w' := by
  cases hsent with
  | unread hstart hstatus =>
    refine h.quiet rfl rfl rfl rfl rfl id fun own' status hmem hstart' hstatus' => ?_
    simp only [List.mem_singleton, HttpEvent.asked.injEq] at hmem
    subst hmem
    rw [hstatus] at hstatus'
    cases hstatus'
  | refused hstart hagain => exact h.markFailure fault rfl rfl
  | passed hout hcarried htaken =>
    have hnot : raises (passedOn w.log).length = false := by
      simpa [passedOn, h.server] using htaken
    have hkept := h.passing [] _ hout hcarried rfl rfl (by simp) rfl rfl (by simp [hnot]) id
      (by simp [hnot])
    simpa using hkept
  | @broken out grown response hout hcarried hlost =>
    have hraises : raises (passedOn w.log).length = true := by
      simpa [passedOn, h.server] using hlost
    have hkept := h.passing [.disconnected request response.markClientDisconnected]
      response.markClientDisconnected hout hcarried rfl rfl (by simp) rfl rfl
      (by simp [hraises, HttpResponseState.markClientDisconnected]) (fun _ => rfl) (fun _ => rfl)
    simpa using hkept

/-- A message is built. -/
theorem built {message : Contents}
    (hmessage : message.isStart = true → message.headers.isSome = true)
    (h : Framing m request raises fault w) :
    Framing m request raises fault { w with heap := w.heap ++ message.objects w.heap.length } :=
  ⟨h.carried.objects hmessage, h.server, h.observed, h.unstarted, h.started, h.disconnected, h.lost,
    h.faulty, h.erroneous⟩

open RequestIdMiddleware

/-- The application calls `send`. -/
theorem ask (hsafe : safeRequestId request.requestId = true) (message : Ref)
    (h : Framing m request raises fault w) :
    Framing m request raises fault
      (RequestIdMiddleware.ask (m.sendWithRequestId request) message w).2 := by
  unfold RequestIdMiddleware.ask
  cases hown : w.heap.contents message with
  | some own =>
    have hsent := sendWithRequestId_sent (w := { w with log := w.log ++ [.asked own] }) (m := m)
      h.carried hsafe hown
    exact h.sent hsent
  | none =>
    simp only [Option.map_none, Option.toList_none, List.append_nil]
    rw [sendWithRequestId_unsent h.carried hown]
    exact h

/-- **Whatever the application does, the frame is kept.** -/
theorem drive (hsafe : safeRequestId request.requestId = true) {app : AsgiRun}
    (happ : CarriesHeaders app) (h : Framing m request raises fault w) :
    Framing m request raises fault
      (RequestIdMiddleware.drive (m.sendWithRequestId request) app w).2 := by
  induction app generalizing w with
  | ret a => exact h
  | throw x => exact h
  | op e k ih =>
    cases e with
    | new message => exact ih _ (happ.2 _) (h.built happ.1)
    | send message => exact ih _ (happ _) (h.ask hsafe message)

end Framing

/-! ## The error response -/

namespace RequestIdMiddleware

variable {m : RequestIdMiddleware} {request : HttpRequestMetadata} {raises : Nat → Bool}
  {fault : Prop} {w : HttpWorld}

open AsgiCall

/-- A message the middleware does not refuse. -/
theorem ask_ready (hsafe : safeRequestId request.requestId = true) {message : Ref}
    (h : Framing m request raises fault w) {own : Contents}
    (hown : w.heap.contents message = some own)
    (hready : own.isStart = true → own.status.isSome = true ∧ w.response.responseStarted = false) :
    ∃ out, (own.isStart = false ∧ out = own ∨ own.isStart = true ∧ Stamped m request own out) ∧
      passedOn (ask (m.sendWithRequestId request) message w).2.log = passedOn w.log ++ [out] ∧
      (ask (m.sendWithRequestId request) message w).1 =
        if raises (passedOn w.log).length = true then .error .osError else .ok () := by
  have hask : ask (m.sendWithRequestId request) message w =
      m.sendWithRequestId request message { w with log := w.log ++ [.asked own] } := by
    simp [RequestIdMiddleware.ask, hown]
  have hcount : passedOn (w.log ++ [.asked own]) = passedOn w.log := by
    simp [passedOn]
  have hsent := sendWithRequestId_sent (w := { w with log := w.log ++ [.asked own] }) (m := m)
    h.carried hsafe hown
  rw [hask]
  revert hsent
  generalize m.sendWithRequestId request message { w with log := w.log ++ [.asked own] } = result
  obtain ⟨r, w'⟩ := result
  intro hsent
  cases hsent with
  | unread hstart hstatus =>
    have hsome := (hready hstart).1
    rw [hstatus] at hsome
    cases hsome
  | refused hstart hagain =>
    have hfresh := (hready hstart).2
    exact absurd (hfresh.symm.trans hagain) (by decide)
  | @passed out grown response hout _ htaken =>
    simp only [h.server, hcount] at htaken
    refine ⟨out, ?_, by simp [passedOn], by simp [htaken]⟩
    cases hout with
    | plain hother => exact .inl ⟨hother, rfl⟩
    | start hstart _ hstamped => exact .inr ⟨hstart, hstamped⟩
  | @broken out grown response hout _ hlost =>
    simp only [h.server, hcount] at hlost
    refine ⟨out, ?_, by simp [passedOn], by simp [hlost]⟩
    cases hout with
    | plain hother => exact .inl ⟨hother, rfl⟩
    | start hstart _ hstamped => exact .inr ⟨hstart, hstamped⟩

theorem drive_new (send : Ref → AsgiCall Unit) (message : Contents) (f : Ref → AsgiRun)
    (w : HttpWorld) :
    drive send ((newMessage message).bind f) w =
      drive send (f (w.heap.length + ((message.objects w.heap.length).length - 1)))
        { w with heap := w.heap ++ message.objects w.heap.length } := rfl

theorem drive_send_ok {send : Ref → AsgiCall Unit} {message : Ref}
    (h : (ask send message w).1 = .ok ()) (f : Unit → AsgiRun) :
    drive send ((sendMessage message).bind f) w = drive send (f ()) (ask send message w).2 := by
  show drive send ((Prog.ofExcept (ask send message w).1).bind f) (ask send message w).2 = _
  rw [h]
  rfl

theorem drive_send_last (send : Ref → AsgiCall Unit) (message : Ref) (w : HttpWorld) :
    drive send (sendMessage message) w = ask send message w := by
  show drive send (Prog.ofExcept (ask send message w).1) (ask send message w).2 = _
  cases h : (ask send message w).1 with
  | ok a => rw [← Prod.eta (ask send message w), h]; rfl
  | error x => rw [← Prod.eta (ask send message w), h]; rfl

theorem drive_send_error {send : Ref → AsgiCall Unit} {message : Ref} {x : HttpExn}
    (h : (ask send message w).1 = .error x) (f : Unit → AsgiRun) :
    drive send ((sendMessage message).bind f) w = (.error x, (ask send message w).2) := by
  show drive send ((Prog.ofExcept (ask send message w).1).bind f) (ask send message w).2 = _
  rw [h]
  rfl

/-- If no send fails, the whole response goes out. -/
theorem respond (hsafe : safeRequestId request.requestId = true)
    (h : Framing m request raises fault w) (hfresh : w.response.responseStarted = false)
    (response : HttpResponse)
    (htaken : ∀ n < (passedOn (drive (m.sendWithRequestId request) response.run w).2.log).length,
      raises n = false) :
    (drive (m.sendWithRequestId request) response.run w).1 = .ok () ∧
      ∃ out, Stamped m request response.startMessage out ∧
        passedOn (drive (m.sendWithRequestId request) response.run w).2.log =
          passedOn w.log ++ [out, response.bodyMessage] := by
  have hrun : response.run = (newMessage response.startMessage).bind fun start =>
      (sendMessage start).bind fun _ => (newMessage response.bodyMessage).bind sendMessage := rfl
  rw [hrun, drive_new] at htaken ⊢
  -- the start
  have hheaders : response.startMessage.isStart = true →
      response.startMessage.headers.isSome = true := fun _ => rfl
  have hbuilt := h.built hheaders
  obtain ⟨out, hout, hpassed, hanswer⟩ := ask_ready hsafe hbuilt
    (contents_objects w.heap response.startMessage) fun _ => ⟨rfl, hfresh⟩
  have hstamped : Stamped m request response.startMessage out := by
    rcases hout with ⟨hplain, -⟩ | ⟨-, hstamped⟩
    · cases hplain
    · exact hstamped
  cases hfirst : raises (passedOn w.log).length with
  | true =>
    simp only [hfirst, if_true] at hanswer
    rw [drive_send_error hanswer, hpassed] at htaken
    have hnot := htaken (passedOn w.log).length (by simp)
    exact absurd (hnot.symm.trans hfirst) (by decide)
  | false =>
    simp only [hfirst, Bool.false_eq_true, if_false] at hanswer
    have hstarted := hbuilt.ask hsafe
      (w.heap.length + ((response.startMessage.objects w.heap.length).length - 1))
    rw [drive_send_ok hanswer, drive_new, drive_send_last] at htaken ⊢
    revert hstarted hpassed htaken
    generalize (ask (m.sendWithRequestId request)
      (w.heap.length + ((response.startMessage.objects w.heap.length).length - 1)) _).2 = sent
    intro htaken hpassed hstarted
    -- the body
    have hbody : response.bodyMessage.isStart = true →
        response.bodyMessage.headers.isSome = true := nofun
    obtain ⟨out', hout', hpassed', hanswer'⟩ := ask_ready hsafe (hstarted.built hbody)
      (contents_objects sent.heap response.bodyMessage) (fun hstart => by cases hstart)
    obtain rfl : out' = response.bodyMessage := by
      rcases hout' with ⟨-, hsame⟩ | ⟨hstart, -⟩
      · exact hsame
      · cases hstart
    cases hsecond : raises (passedOn sent.log).length with
    | true =>
      rw [hpassed'] at htaken
      have hnot := htaken (passedOn sent.log).length (by simp)
      exact absurd (hnot.symm.trans hsecond) (by decide)
    | false =>
      simp only [hsecond, Bool.false_eq_true, if_false] at hanswer'
      refine ⟨hanswer', out, hstamped, ?_⟩
      rw [hpassed', hpassed]
      simp

/-! ## The whole call -/

/-- The world when `observer.started` has been called. -/
def begun (request : HttpRequestMetadata) (raises : Nat → Bool) : HttpWorld :=
  ⟨[], {}, [.bound request.requestId, .started request], raises⟩

theorem begun_framing (m : RequestIdMiddleware) (request : HttpRequestMetadata)
    (raises : Nat → Bool) : Framing m request raises False (begun request raises) := by
  refine ⟨.nil, rfl, rfl, fun _ => ⟨rfl, rfl⟩, nofun, ?_, nofun, nofun, fun own status hmem => ?_⟩
  · simp [begun, passedOn]
  · simp [begun] at hmem

/-- The response of the error factory went out after what `before` passed on. -/
def Answered (m : RequestIdMiddleware) (request : HttpRequestMetadata) (before : HttpWorld)
    (outcome : Except HttpExn Unit × HttpWorld) : Prop :=
  outcome.1 = .ok () ∧
  ∃ out, Stamped m request m.internalErrorResponseFactory.startMessage out ∧
    passedOn outcome.2.log = passedOn before.log ++
      [out, m.internalErrorResponseFactory.bodyMessage]

theorem carriesHeaders_run (response : HttpResponse) : CarriesHeaders response.run := by
  refine ⟨fun _ => rfl, fun start => ?_⟩
  cases start with
  | error x => trivial
  | ok start =>
    intro answer
    cases answer with
    | error x => trivial
    | ok _ =>
      refine ⟨nofun, fun body => ?_⟩
      cases body with
      | error x => trivial
      | ok body =>
        intro last
        cases last <;> trivial

/-- The `except` branches keep the frame, report the failure, and answer if
nothing was started and no send fails. -/
theorem handle_framing (hsafe : safeRequestId request.requestId = true) (x : HttpExn)
    (h : Framing m request raises fault w) :
    Framing m request raises True (m.handle request x w).2 ∧
    (x ≠ .cancelled → startsPassed w.log = [] →
      (∀ n < (passedOn (m.handle request x w).2.log).length, raises n = false) →
      Answered m request w (m.handle request x w)) := by
  have hmarked : Framing m request raises True { w with response := w.response.markFailure } := by
    simpa using h.markFailure True (rfl : passedOn [] = []) rfl
  rw [handle, bind_ok (setResponse_apply _ _), bind_ok (response_apply _)]
  by_cases hcancelled : x = .cancelled
  · rw [if_pos hcancelled]
    exact ⟨hmarked, fun hnot => absurd hcancelled hnot⟩
  rw [if_neg hcancelled]
  by_cases hgone : w.response.markFailure.clientDisconnected = true
  · rw [if_pos hgone]
    refine ⟨hmarked, fun _ _ htaken => ?_⟩
    obtain ⟨n, hn, hraises⟩ := h.disconnected.mp hgone
    exact absurd ((htaken n hn).symm.trans hraises) (by decide)
  rw [if_neg hgone, bind_ok (record_apply _ _)]
  have hnoted : Framing m request raises True { w with
      response := w.response.markFailure
      log := w.log ++ [.failed request w.response.markFailure x] } := h.markFailure True rfl rfl
  by_cases hstarted : w.response.markFailure.responseStarted = true
  · rw [if_pos hstarted]
    refine ⟨hnoted, fun _ hnone => ?_⟩
    obtain ⟨own, out, -, hone, -⟩ := h.started hstarted
    rw [hnone] at hone
    cases hone
  rw [if_neg hstarted]
  refine ⟨hnoted.drive hsafe (carriesHeaders_run _), fun _ _ htaken => ?_⟩
  obtain ⟨hok, out, hstamped, hpassed⟩ :=
    respond hsafe hnoted (by simpa using hstarted) m.internalErrorResponseFactory htaken
  refine ⟨hok, out, hstamped, ?_⟩
  rw [hpassed]
  simp [passedOn]

theorem serve_ok {app : AsgiRun} {w' : HttpWorld}
    (h : drive (m.sendWithRequestId request) app w = (.ok (), w')) :
    m.serve request app w =
      if w'.response.responseStarted = true then (.ok (), w')
      else (.error (.runtimeError "ASGI application returned without a response"), w') := by
  rw [serve, bind_ok h, bind_ok (response_apply _)]
  split <;> rfl

/-- The `try` statement: the frame, the failure of an application that raised,
and the answer in place of one that started nothing. -/
theorem tryServe_framing (hsafe : safeRequestId request.requestId = true) {app : AsgiRun}
    (happ : CarriesHeaders app) (h : Framing m request raises fault w)
    {ended : Except HttpExn Unit} {left : HttpWorld}
    (hdrive : drive (m.sendWithRequestId request) app w = (ended, left)) :
    Framing m request raises (∃ x, ended = .error x) (m.tryServe request app w).2 ∧
    (ended ≠ .error .cancelled → startsPassed left.log = [] →
      (∀ n < (passedOn (m.tryServe request app w).2.log).length, raises n = false) →
      Answered m request left (m.tryServe request app w)) := by
  have hleft : Framing m request raises fault left := by
    have hkept := h.drive hsafe happ
    rw [hdrive] at hkept
    exact hkept
  -- the exception that reaches the `except` branches
  have hexcept : ∀ x, m.serve request app w = (.error x, left) →
      (x = .cancelled → ended = .error .cancelled) →
      Framing m request raises (∃ x, ended = .error x) (m.tryServe request app w).2 ∧
      (ended ≠ .error .cancelled → startsPassed left.log = [] →
        (∀ n < (passedOn (m.tryServe request app w).2.log).length, raises n = false) →
        Answered m request left (m.tryServe request app w)) := by
    intro x hserve hcancelled
    have htry : m.tryServe request app w = m.handle request x left := by
      rw [tryServe, bind_ok (attempt_apply w), hserve]
    obtain ⟨hkept, hanswer⟩ := handle_framing hsafe x hleft
    rw [htry]
    exact ⟨{ hkept with faulty := fun _ => hkept.faulty trivial },
      fun hended => hanswer fun hx => hended (hcancelled hx)⟩
  cases ended with
  | error x => exact hexcept x (by rw [serve, bind_error hdrive]) fun hx => by rw [hx]
  | ok a =>
    cases hstarted : left.response.responseStarted with
    | false =>
      exact hexcept (.runtimeError "ASGI application returned without a response")
        (by rw [serve_ok hdrive, hstarted]; rfl) nofun
    | true =>
      have htry : m.tryServe request app w = (.ok (), left) := by
        rw [tryServe, bind_ok (attempt_apply w), serve_ok hdrive, if_pos hstarted]
        rfl
      rw [htry]
      refine ⟨{ hleft with faulty := nofun }, fun _ hnone => ?_⟩
      obtain ⟨own, out, -, hone, -⟩ := hleft.started hstarted
      rw [hnone] at hone
      cases hone

theorem finish_apply (request : HttpRequestMetadata) (w : HttpWorld) :
    finish request w = (.ok (), { w with
      response := reported w.response
      log := w.log ++ [.finished request (reported w.response), .cleared] }) := by
  rw [finish, bind_ok (setResponse_apply _ _), bind_ok (response_apply _),
    bind_ok (record_apply _ _), record_apply]
  simp

/-- The call once its request id is resolved. -/
theorem call_resolved {app : HttpScope → AsgiRun} {generated requestId : String}
    {scope : HttpScope} (hhttp : scope.type = "http")
    (hid : m.resolveRequestId generated scope = .ok requestId) (raises : Nat → Bool) :
    let request : HttpRequestMetadata := ⟨requestId, scope.method.getD "", scope.path.getD ""⟩
    let outcome := m.tryServe request (app (m.copyScope scope requestId)) (begun request raises)
    m.call app generated scope ⟨[], {}, [], raises⟩ =
      (outcome.1, (finish request outcome.2).2) := by
  intro request outcome
  rw [call, if_neg (by simp [hhttp]), hid, bind_ok (ofExcept_apply _ _),
    bind_ok (setResponse_apply _ _), bind_ok (record_apply _ _), bind_ok (record_apply _ _),
    bind_ok (attempt_apply _), bind_ok (finish_apply _ _), ofExcept_apply, finish_apply]
  rfl

/-- What the middleware promises of one request: `application` is how the
application ended and the world it left, `outcome` the same of the whole
call. -/
structure FramedOnce (m : RequestIdMiddleware) (request : HttpRequestMetadata)
    (raises : Nat → Bool) (application outcome : Except HttpExn Unit × HttpWorld) : Prop where
  safe : safeRequestId request.requestId = true ∧
    (request.requestId.length : Int) ≤ m.resolver.maxLength
  /-- At most one start is passed on. -/
  single : (startsPassed outcome.2.log).length ≤ 1
  /-- It is a start that was sent, but for its headers: they have the request
  id once under the configured name, and under no other spelling of it if
  those that were sent are in lower case. -/
  headed : ∀ out ∈ startsPassed outcome.2.log, ∃ own list written, .asked own ∈ outcome.2.log ∧
    own.headers = some list ∧ out = { own with headers := some written } ∧
    getlist m.headerName written = some [request.requestId] ∧
    ((∀ h ∈ list, IsLower h.1) →
      (sameName m.headerName written).map (fun h => decodeLatin1 h.2) = [request.requestId])
  /-- No send changes an object that was there before it. -/
  untouched : ∀ message w, w.heap <+: (m.sendWithRequestId request message w).2.heap
  /-- The observer sees one beginning and one end, with the status that was
  passed on and every failure. -/
  observed : ∃ response,
    lifecycle outcome.2.log = [.started request, .finished request response] ∧
    response.statusCode = ((startsPassed outcome.2.log).head?.bind Message.status).getD 500 ∧
    ((∃ x, application.1 = .error x) ∨
      (∃ n < (passedOn outcome.2.log).length, raises n = true) ∨
      (∃ own status, .asked own ∈ outcome.2.log ∧ own.isStart = true ∧ own.status = some status ∧
        500 ≤ status) → response.failed = true)
  /-- An application that ends without a start is answered by the error
  factory. -/
  answered : application.1 ≠ .error .cancelled → startsPassed application.2.log = [] →
    (∀ n < (passedOn outcome.2.log).length, raises n = false) →
    outcome.1 = .ok () ∧ ∃ out, startsPassed outcome.2.log = [out] ∧
      Stamped m request m.internalErrorResponseFactory.startMessage out ∧
      passedOn outcome.2.log = passedOn application.2.log ++
        [out, m.internalErrorResponseFactory.bodyMessage]

theorem resolveRequestId_safe {generated requestId : String} {scope : HttpScope}
    (h : m.resolveRequestId generated scope = .ok requestId) :
    safeRequestId requestId = true ∧ (requestId.length : Int) ≤ m.resolver.maxLength := by
  have hvalid : m.resolver.isValid requestId = true := by
    unfold resolveRequestId at h
    split at h
    · exact ValidatedRequestIdResolver.isValid_of_resolve h
    · exact ValidatedRequestIdResolver.isValid_of_resolve h
  simpa [ValidatedRequestIdResolver.isValid, and_comm] using hvalid

/-- What is left of the frame at the end. -/
theorem framedOnce_of_framing (hsafe : safeRequestId request.requestId = true ∧
      (request.requestId.length : Int) ≤ m.resolver.maxLength)
    {application outcome : Except HttpExn Unit × HttpWorld}
    (h : Framing m request raises (∃ x, application.1 = .error x) outcome.2)
    (hanswered : application.1 ≠ .error .cancelled → startsPassed application.2.log = [] →
      (∀ n < (passedOn outcome.2.log).length, raises n = false) →
      Answered m request application.2 outcome) :
    FramedOnce m request raises application (outcome.1, (finish request outcome.2).2) := by
  have hpassed : passedOn (finish request outcome.2).2.log = passedOn outcome.2.log := by
    rw [finish_apply]
    simp [passedOn]
  have hstarts : startsPassed (finish request outcome.2).2.log = startsPassed outcome.2.log := by
    rw [startsPassed, hpassed, startsPassed]
  have hasked : ∀ own, HttpEvent.asked own ∈ (finish request outcome.2).2.log ↔
      HttpEvent.asked own ∈ outcome.2.log := by
    intro own
    rw [finish_apply]
    simp
  refine ⟨hsafe, ?_, ?_, fun message w => sendWithRequestId_prefix message w, ?_, ?_⟩
  · simp only [hstarts]
    cases hstarted : outcome.2.response.responseStarted with
    | false => simp [(h.unstarted hstarted).1]
    | true =>
      obtain ⟨own, out, -, hone, -⟩ := h.started hstarted
      simp [hone]
  · intro out hout
    simp only [hstarts, hasked] at hout ⊢
    cases hstarted : outcome.2.response.responseStarted with
    | false => simp [(h.unstarted hstarted).1] at hout
    | true =>
      obtain ⟨own, out', hmem, hone, -, list, written, hlist, hset, hout'⟩ := h.started hstarted
      obtain rfl : out = out' := by simpa [hone] using hout
      exact ⟨own, list, written, hmem, hlist, hout', getlist_setItem hset,
        fun hlower => sameName_setItem m.headerName_ascii hlower hset⟩
  · refine ⟨reported outcome.2.response, ?_, ?_, ?_⟩
    · rw [finish_apply, lifecycle_append, h.observed]
      rfl
    · simp only [hstarts]
      cases hstarted : outcome.2.response.responseStarted with
      | false =>
        simp [reported, hstarted, h.markFailure_statusCode, (h.unstarted hstarted).1,
          (h.unstarted hstarted).2]
      | true =>
        obtain ⟨own, out, -, hone, hstatus, -⟩ := h.started hstarted
        simp [reported, hstarted, hone, hstatus]
    · simp only [hpassed, hasked]
      intro hreason
      have hfailed : outcome.2.response.failed = true := by
        rcases hreason with hraised | hlost | ⟨own, status, hmem, hstart, hstatus, hlarge⟩
        · exact h.faulty hraised
        · exact h.lost (h.disconnected.mpr hlost)
        · exact h.erroneous own status hmem hstart hstatus hlarge
      unfold reported
      split
      · exact hfailed
      · rfl
  · intro hended hnone htaken
    simp only [hpassed, hstarts] at htaken ⊢
    obtain ⟨hok, out, hstamped, hout⟩ := hanswered hended hnone htaken
    refine ⟨hok, out, ?_, hstamped, hout⟩
    obtain ⟨list, written, -, -, rfl⟩ := hstamped
    rw [startsPassed, hout, List.filter_append, ← startsPassed, hnone]
    rfl

/-- **Every request is framed once.** -/
theorem call_framedOnce (m : RequestIdMiddleware) (app : HttpScope → AsgiRun)
    (happ : ∀ scope, CarriesHeaders (app scope)) (generated : String) (scope : HttpScope)
    (hhttp : scope.type = "http") (raises : Nat → Bool) :
    (m.resolver.isValid generated = true →
      ∃ requestId, m.resolveRequestId generated scope = .ok requestId) ∧
    ∀ requestId, m.resolveRequestId generated scope = .ok requestId →
      let request : HttpRequestMetadata := ⟨requestId, scope.method.getD "", scope.path.getD ""⟩
      FramedOnce m request raises
        (drive (m.sendWithRequestId request) (app (m.copyScope scope requestId))
          (begun request raises))
        (m.call app generated scope ⟨[], {}, [], raises⟩) := by
  constructor
  · intro hvalid
    unfold resolveRequestId
    split
    · exact ValidatedRequestIdResolver.resolve_total hvalid _
    · exact ValidatedRequestIdResolver.resolve_total hvalid _
  · intro requestId hid request
    have hsafe := resolveRequestId_safe hid
    obtain ⟨hframing, hanswered⟩ := tryServe_framing hsafe.1 (happ (m.copyScope scope requestId))
      (begun_framing m request raises) (Prod.eta _).symm
    rw [call_resolved hhttp hid raises]
    exact framedOnce_of_framing hsafe hframing hanswered

end RequestIdMiddleware

/-- The middleware with its defaults. -/
def edgeMiddleware : RequestIdMiddleware :=
  ⟨.default, defaultInternalErrorResponse, "X-Request-Id", "request_id", by decide, by decide⟩

/-- A request that brings an id of its own. -/
def edgeScope : HttpScope :=
  ⟨"http", some "GET", some "/test", [(ascii "x-request-id", ascii "edge-request")], none⟩

/-- The start has the header twice already; the application sends it again,
swallows the refusal and fails. -/
def insistentApp : AsgiRun := do
  let start ← newMessage ⟨"http.response.start", some 200,
    some [(ascii "x-request-id", ascii "a"), (ascii "x-request-id", ascii "b")], []⟩
  sendMessage start
  let _ ← (sendMessage start).outcome
  .throw (.exception "LateFailure")

namespace RequestIdMiddleware

theorem call_framedOnce_insistent :
    CarriesHeaders insistentApp ∧
    ∃ response, lifecycle (edgeMiddleware.call (fun _ => insistentApp) (uuidText 7) edgeScope
        ⟨[], {}, [], fun _ => false⟩).2.log =
      [.started ⟨"edge-request", "GET", "/test"⟩,
        .finished ⟨"edge-request", "GET", "/test"⟩ response] ∧
      response.statusCode = 200 ∧ response.failed = true := by
  have happ : CarriesHeaders insistentApp := by
    refine ⟨fun _ => rfl, fun start => ?_⟩
    cases start with
    | error x => trivial
    | ok start =>
      intro answer
      cases answer with
      | error x => trivial
      | ok _ =>
        intro again
        cases again <;> trivial
  have hid : edgeMiddleware.resolveRequestId (uuidText 7) edgeScope = .ok "edge-request" := by
    rfl
  have hframed := (call_framedOnce edgeMiddleware (fun _ => insistentApp) (fun _ => happ)
    (uuidText 7) edgeScope rfl fun _ => false).2 "edge-request" hid
  obtain ⟨response, hobserved, hstatus, hfailed⟩ := hframed.observed
  refine ⟨happ, response, hobserved, ?_, ?_⟩
  · rw [hstatus]
    rfl
  · exact hfailed (.inl ⟨.exception "LateFailure", rfl⟩)

end RequestIdMiddleware

end IdentityService.Asgi
