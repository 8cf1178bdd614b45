import IdentityService.Http.Middleware

/-!
# One send

What `send_with_request_id` can do with one message, whatever the state it
finds: `Sent` lists it, `sendWithRequestId_sent` shows that there is nothing
else. A start is copied and the copy is written; the objects the application
holds are those before the send (`sendWithRequestId_prefix`).
-/

namespace IdentityService.Asgi

open Concurrent Http

/-! ## Running calls -/

namespace AsgiCall

variable {α β : Type} {c : AsgiCall α} {f : α → AsgiCall β} {w w' : HttpWorld}

@[simp] theorem pure_apply (a : α) (w : HttpWorld) : (pure a : AsgiCall α) w = (.ok a, w) := rfl

@[simp] theorem raise_apply (x : HttpExn) (w : HttpWorld) :
    (raise x : AsgiCall α) w = (.error x, w) := rfl

@[simp] theorem ofExcept_apply (r : Except HttpExn α) (w : HttpWorld) : ofExcept r w = (r, w) := rfl

@[simp] theorem response_apply (w : HttpWorld) : response w = (.ok w.response, w) := rfl

@[simp] theorem setResponse_apply (g : HttpResponseState → HttpResponseState) (w : HttpWorld) :
    setResponse g w = (.ok (), { w with response := g w.response }) := rfl

@[simp] theorem record_apply (event : HttpEvent) (w : HttpWorld) :
    record event w = (.ok (), { w with log := w.log ++ [event] }) := rfl

@[simp] theorem alloc_apply (object : PyObject) (w : HttpWorld) :
    alloc object w = (.ok w.heap.length, { w with heap := w.heap ++ [object] }) := rfl

@[simp] theorem store_apply (r : Ref) (object : PyObject) (w : HttpWorld) :
    store r object w = (.ok (), { w with heap := w.heap.set r object }) := rfl

theorem bind_ok {a : α} (h : c w = (.ok a, w')) : (c >>= f) w = f a w' := by
  show AsgiCall.bind c f w = f a w'
  rw [AsgiCall.bind, h]

theorem bind_error {x : HttpExn} (h : c w = (.error x, w')) : (c >>= f) w = (.error x, w') := by
  show AsgiCall.bind c f w = (.error x, w')
  rw [AsgiCall.bind, h]

theorem attempt_apply (w : HttpWorld) : attempt c w = (.ok (c w).1, (c w).2) := rfl

theorem dictAt_message {r : Ref} {fields : Message Ref} (h : w.heap[r]? = some (.message fields)) :
    dictAt r w = (.ok fields, w) := by
  simp [dictAt, h]

theorem listAt_headers {r : Ref} {list : List RawHeader}
    (h : w.heap[r]? = some (.headers list)) : listAt r w = (.ok list, w) := by
  simp [listAt, h]

/-- The write of a header goes to the copied list. -/
theorem setHeader_apply {message own : Ref} {fields : Message Ref} {list written : List RawHeader}
    {name value : String} (hmessage : w.heap[message]? = some (.message fields))
    (hheaders : fields.headers = some own) (hown : w.heap[own]? = some (.headers list))
    (hset : setItem name value list = some written) :
    setHeader message name value w =
      (.ok (), { w with
        heap := w.heap.set message (.message { fields with headers := some w.heap.length }) ++
          [.headers written] }) := by
  have hlt : message < w.heap.length := (List.getElem?_eq_some_iff.mp hmessage).1
  rw [setHeader, bind_ok (dictAt_message hmessage), hheaders, item, bind_ok (pure_apply own w),
    bind_ok (listAt_headers hown), bind_ok (alloc_apply _ w), bind_ok (store_apply _ _ _)]
  simp only [hset, store_apply]
  rw [List.set_append_left _ _ hlt, List.set_append_right _ _ (by simp)]
  simp

end AsgiCall

/-! ## Objects that are well formed -/

/-- The headers entry is a list, and a start is not without one. -/
def Message.Carries (heap : Heap) (fields : Message Ref) : Prop :=
  (fields.isStart = true → fields.headers.isSome = true) ∧
  ∀ h, fields.headers = some h → ∃ list, heap[h]? = some (PyObject.headers list)

/-- So for every message. -/
def Carried (heap : Heap) : Prop :=
  ∀ (r : Ref) (fields : Message Ref), heap[r]? = some (.message fields) → fields.Carries heap

theorem Carried.nil : Carried [] := by
  intro r fields h
  simp at h

theorem getElem?_grown {heap more : Heap} {r : Ref} {object : PyObject}
    (h : heap[r]? = some object) : (heap ++ more)[r]? = some object := by
  have hlt : r < heap.length := (List.getElem?_eq_some_iff.mp h).1
  rw [List.getElem?_append_left hlt]
  exact h

theorem Carried.append {heap more : Heap} (hheap : Carried heap)
    (hmore : ∀ (r : Ref) (fields : Message Ref), more[r]? = some (.message fields) →
      fields.Carries (heap ++ more)) : Carried (heap ++ more) := by
  intro r fields hr
  by_cases hlt : r < heap.length
  · rw [List.getElem?_append_left hlt] at hr
    obtain ⟨hstart, hlist⟩ := hheap r fields hr
    refine ⟨hstart, fun h hh => ?_⟩
    obtain ⟨list, hat⟩ := hlist h hh
    exact ⟨list, getElem?_grown hat⟩
  · rw [List.getElem?_append_right (Nat.le_of_not_lt hlt)] at hr
    exact hmore _ fields hr

theorem Carried.contents {heap : Heap} (hheap : Carried heap) {r : Ref} {fields : Message Ref}
    (h : heap[r]? = some (.message fields)) :
    ∃ headers, heap.contents r = some ⟨fields.type, fields.status, headers, fields.entries⟩ ∧
      (fields.headers = none ∧ headers = none ∨
        ∃ ref list, fields.headers = some ref ∧ heap[ref]? = some (.headers list) ∧
          headers = some list) := by
  cases hheaders : fields.headers with
  | none =>
    refine ⟨none, ?_, .inl ⟨rfl, rfl⟩⟩
    simp [Heap.contents, h, hheaders]
  | some ref =>
    obtain ⟨list, hlist⟩ := (hheap r fields h).2 ref hheaders
    refine ⟨some list, ?_, .inr ⟨ref, list, rfl, hlist, rfl⟩⟩
    simp [Heap.contents, h, hheaders, hlist]

/-- A message whose headers entry is a list, after that list. -/
theorem Carried.objects {heap : Heap} (hheap : Carried heap) {message : Contents}
    (hmessage : message.isStart = true → message.headers.isSome = true) :
    Carried (heap ++ message.objects heap.length) := by
  apply hheap.append
  intro r fields hr
  obtain ⟨type, status, headers, entries⟩ := message
  cases headers with
  | none =>
    match r with
    | 0 =>
      simp [Message.objects] at hr
      subst hr
      exact ⟨hmessage, nofun⟩
    | r + 1 => simp [Message.objects] at hr
  | some list =>
    match r with
    | 0 => simp [Message.objects] at hr
    | 1 =>
      simp [Message.objects] at hr
      subst hr
      refine ⟨fun _ => rfl, fun h hh => ?_⟩
      obtain rfl := Option.some.inj hh
      exact ⟨list, by simp [Message.objects]⟩
    | r + 2 => simp [Message.objects] at hr

/-- The new message reads as it was built. -/
theorem contents_objects (heap : Heap) (message : Contents) :
    Heap.contents (heap ++ message.objects heap.length)
      (heap.length + ((message.objects heap.length).length - 1)) = some message := by
  obtain ⟨type, status, headers, entries⟩ := message
  cases headers with
  | none => simp [Message.objects, Heap.contents]
  | some list => simp [Message.objects, Heap.contents]

/-! ## What one send does -/

/-- `own` with the request id written to its headers. -/
def Stamped (m : RequestIdMiddleware) (request : HttpRequestMetadata) (own outbound : Contents) :
    Prop :=
  ∃ list written, own.headers = some list ∧
    setItem m.headerName request.requestId list = some written ∧
    outbound = { own with headers := some written }

/-- What goes out for a message, the objects made for it and the response
state after it. -/
inductive Outbound (m : RequestIdMiddleware) (request : HttpRequestMetadata) (w : HttpWorld)
    (own : Contents) : Contents → Heap → HttpResponseState → Prop where
  | plain (other : own.isStart = false) : Outbound m request w own own [] w.response
  | start {outbound : Contents} {status : Int} {grown : Heap} (isStart : own.isStart = true)
      (hasStatus : own.status = some status) (stamped : Stamped m request own outbound)
      (fresh : w.response.responseStarted = false) :
      Outbound m request w own outbound grown { w.response with
        responseStarted := true
        statusCode := status
        failed := w.response.failed || decide (500 ≤ status) }

/-- Everything a send of `own` can do. -/
inductive Sent (m : RequestIdMiddleware) (request : HttpRequestMetadata) (w : HttpWorld)
    (own : Contents) : Except HttpExn Unit → HttpWorld → Prop where
  /-- A start without a status. -/
  | unread {x : HttpExn} (isStart : own.isStart = true) (noStatus : own.status = none) :
      Sent m request w own (.error x) w
  /-- A second start. -/
  | refused {x : HttpExn} (isStart : own.isStart = true)
      (again : w.response.responseStarted = true) :
      Sent m request w own (.error x) { w with response := w.response.markFailure }
  | passed {outbound : Contents} {grown : Heap} {response : HttpResponseState}
      (out : Outbound m request w own outbound grown response) (carried : Carried (w.heap ++ grown))
      (taken : w.raises (passedOn w.log).length = false) :
      Sent m request w own (.ok ()) { w with
        heap := w.heap ++ grown
        response := response
        log := w.log ++ [.passed outbound] }
  | broken {outbound : Contents} {grown : Heap} {response : HttpResponseState}
      (out : Outbound m request w own outbound grown response) (carried : Carried (w.heap ++ grown))
      (lost : w.raises (passedOn w.log).length = true) :
      Sent m request w own (.error .osError) { w with
        heap := w.heap ++ grown
        response := response.markClientDisconnected
        log := w.log ++ [.passed outbound, .disconnected request response.markClientDisconnected] }

namespace RequestIdMiddleware

variable {m : RequestIdMiddleware} {request : HttpRequestMetadata} {w : HttpWorld}

open AsgiCall

theorem headerName_ascii (m : RequestIdMiddleware) : ∀ c ∈ m.headerName.toList, c.toNat < 128 := by
  have hvalid := m.headerNameValid
  simp only [isFieldName, Bool.and_eq_true, List.all_eq_true] at hvalid
  intro c hc
  have hchar := hvalid.2 c hc
  simp only [isFieldNameChar, Bool.or_eq_true, decide_eq_true_eq] at hchar
  rcases hchar with hchar | hchar
  · exact isAlphanumeric_low hchar
  · have hall : "!#$%&'*+-.^_`|~".toList.all (fun d => decide (d.toNat < 128)) = true := by decide
    exact of_decide_eq_true (List.all_eq_true.mp hall c hchar)

/-- The id can be written under the configured name. -/
theorem setItem_some (m : RequestIdMiddleware) {requestId : String}
    (hsafe : safeRequestId requestId = true) (list : List RawHeader) :
    ∃ written, setItem m.headerName requestId list = some written := by
  obtain ⟨key, hkey, -⟩ := headerKey_ascii m.headerName_ascii
  have hlow : ∀ c ∈ requestId.toList, c.toNat < 256 := fun c hc =>
    Nat.lt_trans (safeRequestId_low hsafe c hc) (by decide)
  have hvalue := encodeLatin1_of_low hlow
  simp [setItem, hkey, hvalue]

/-- A message is passed on as it is found. -/
theorem passOn_apply {message : Ref} {contents : Contents}
    (h : w.heap.contents message = some contents) :
    passOn request message w =
      if w.raises (passedOn w.log).length = true then
        (.error .osError, { w with
          response := w.response.markClientDisconnected
          log := w.log ++ [.passed contents,
            .disconnected request w.response.markClientDisconnected] })
      else (.ok (), { w with log := w.log ++ [.passed contents] }) := by
  have hsend : serverSend message w =
      (if w.raises (passedOn w.log).length then .error .osError else .ok (),
        { w with log := w.log ++ [.passed contents] }) := by
    simp [serverSend, h]
  rw [passOn, bind_ok (attempt_apply w), hsend]
  by_cases hraises : w.raises (passedOn w.log).length = true
  · simp only [hraises, if_true]
    rw [bind_ok (setResponse_apply _ _), bind_ok (response_apply _), bind_ok (record_apply _ _)]
    simp
  · simp [hraises]

/-- A start that nothing preceded is copied, and the copy gets the header. -/
theorem outbound_start {message ref : Ref} {fields : Message Ref} {status : Int}
    {list written : List RawHeader} (hstart : fields.isStart = true)
    (hstatus : fields.status = some status) (hheaders : fields.headers = some ref)
    (hlist : w.heap[ref]? = some (.headers list))
    (hset : setItem m.headerName request.requestId list = some written)
    (hfresh : w.response.responseStarted = false) :
    m.outbound request message fields w = (.ok w.heap.length, { w with
      heap := w.heap ++ [.message { fields with headers := some (w.heap.length + 1) },
        .headers written]
      response := { w.response with
        responseStarted := true
        statusCode := status
        failed := w.response.failed || decide (500 ≤ status) } }) := by
  have hresponse : startResponse status w = (.ok (), { w with
      response := { w.response with
        responseStarted := true
        statusCode := status
        failed := w.response.failed || decide (500 ≤ status) } }) := by
    simp [startResponse, HttpResponseState.start, hfresh]
  have hcopy : (w.heap ++ [PyObject.message fields])[w.heap.length]? = some (.message fields) := by
    simp
  rw [outbound, if_pos hstart, hstatus, item, bind_ok (pure_apply status w), bind_ok hresponse,
    bind_ok (alloc_apply _ _), bind_ok (setHeader_apply hcopy hheaders (getElem?_grown hlist) hset)]
  simp [hstatus]

/-- A second start is refused. -/
theorem outbound_refused {message : Ref} {fields : Message Ref} {status : Int}
    (hstart : fields.isStart = true) (hstatus : fields.status = some status)
    (hagain : w.response.responseStarted = true) :
    m.outbound request message fields w =
      (.error (.runtimeError "ASGI application sent multiple response starts"),
        { w with response := w.response.markFailure }) := by
  have hresponse : startResponse status w =
      (.error (.runtimeError "ASGI application sent multiple response starts"),
        { w with response := w.response.markFailure }) := by
    simp [startResponse, HttpResponseState.start, hagain]
  rw [outbound, if_pos hstart, hstatus, item, bind_ok (pure_apply status w), bind_error hresponse]

/-- The copy and its list are well formed. -/
theorem carried_copy {heap : Heap} (hheap : Carried heap) (fields : Message Ref)
    (written : List RawHeader) :
    Carried (heap ++ [.message { fields with headers := some (heap.length + 1) },
      .headers written]) := by
  apply hheap.append
  intro r copy hr
  match r with
  | 0 =>
    simp only [List.getElem?_cons_zero, Option.some.injEq, PyObject.message.injEq] at hr
    subst hr
    refine ⟨fun _ => rfl, fun h hh => ?_⟩
    obtain rfl := Option.some.inj hh
    exact ⟨written, by simp⟩
  | 1 => simp at hr
  | r + 2 => simp at hr

/-- The server's answer to the message that goes out. -/
theorem sent_of_outbound {own out : Contents} {grown : Heap} {response : HttpResponseState}
    (hout : Outbound m request w own out grown response) (hcarried : Carried (w.heap ++ grown))
    {message : Ref} (hmessage : Heap.contents (w.heap ++ grown) message = some out) :
    let passing := passOn request message { w with heap := w.heap ++ grown, response := response }
    Sent m request w own passing.1 passing.2 := by
  intro passing
  have hpassing : passing =
      passOn request message { w with heap := w.heap ++ grown, response := response } := rfl
  rw [passOn_apply hmessage] at hpassing
  by_cases hraises : w.raises (passedOn w.log).length = true
  · rw [hpassing, if_pos hraises]
    exact .broken hout hcarried hraises
  · rw [hpassing, if_neg hraises]
    exact .passed hout hcarried (by simpa using hraises)

/-- **One send.** -/
theorem sendWithRequestId_sent (hheap : Carried w.heap)
    (hsafe : safeRequestId request.requestId = true) {message : Ref} {own : Contents}
    (hown : w.heap.contents message = some own) :
    Sent m request w own (m.sendWithRequestId request message w).1
      (m.sendWithRequestId request message w).2 := by
  obtain ⟨fields, hfields⟩ : ∃ fields, w.heap[message]? = some (.message fields) := by
    unfold Heap.contents at hown
    split at hown
    · exact ⟨_, by assumption⟩
    · cases hown
  obtain ⟨headers, hcontents, hheaders⟩ := hheap.contents hfields
  obtain rfl := Option.some.inj (hown.symm.trans hcontents)
  rw [sendWithRequestId, bind_ok (dictAt_message hfields)]
  cases hkind : fields.isStart with
  | false =>
    have hsame : m.outbound request message fields w = (.ok message, w) := by
      simp [outbound, hkind]
    rw [bind_ok hsame]
    have hplain : Outbound m request w ⟨fields.type, fields.status, headers, fields.entries⟩ _ []
        w.response := .plain hkind
    have hsent := sent_of_outbound hplain (by simpa using hheap) (by simpa using hown)
    simpa using hsent
  | true =>
    cases hfield : fields.status with
    | none =>
      have hmissing : m.outbound request message fields w = (.error (.keyError "status"), w) := by
        rw [outbound, if_pos hkind, hfield]
        rfl
      rw [bind_error hmissing]
      exact .unread hkind rfl
    | some status =>
      cases hresponse : w.response.responseStarted with
      | true =>
        rw [bind_error (outbound_refused hkind hfield hresponse)]
        exact .refused hkind hresponse
      | false =>
        have hcarries := (hheap message fields hfields).1 hkind
        rcases hheaders with ⟨hnone, -⟩ | ⟨ref, list, href, hlist, rfl⟩
        · rw [hnone] at hcarries
          cases hcarries
        obtain ⟨written, hset⟩ := m.setItem_some hsafe list
        rw [bind_ok (outbound_start hkind hfield href hlist hset hresponse)]
        refine sent_of_outbound (.start hkind rfl ⟨list, written, rfl, hset, rfl⟩ hresponse)
          (carried_copy hheap fields written) ?_
        simp [Heap.contents, hfield]

/-- What is no message cannot be sent. -/
theorem sendWithRequestId_unsent (hheap : Carried w.heap) {message : Ref}
    (hown : w.heap.contents message = none) :
    m.sendWithRequestId request message w = (.error .typeError, w) := by
  have hdict : dictAt message w = (.error .typeError, w) := by
    cases hobject : w.heap[message]? with
    | none => simp [dictAt, hobject]
    | some object =>
      cases object with
      | headers list => simp [dictAt, hobject]
      | message fields =>
        obtain ⟨headers, hcontents, -⟩ := hheap.contents hobject
        rw [hown] at hcontents
        cases hcontents
  rw [sendWithRequestId, bind_error hdict]

/-! ## Nothing the application holds is written -/

/-- The objects of `heap` are there after the call as before it. -/
def Keeps {α : Type} (heap : Heap) (c : AsgiCall α) : Prop :=
  ∀ w, heap <+: w.heap → heap <+: (c w).2.heap

variable {heap : Heap}

theorem Keeps.bind {α β : Type} {c : AsgiCall α} {f : α → AsgiCall β} (hc : Keeps heap c)
    (hf : ∀ a w, heap <+: w.heap → (c w).1 = .ok a → Keeps heap (f a)) : Keeps heap (c >>= f) := by
  intro w hw
  have hkept := hc w hw
  cases hout : (c w).1 with
  | ok a =>
    have hpair : c w = (.ok a, (c w).2) := by rw [← hout]
    rw [bind_ok hpair]
    exact hf a w hw hout _ hkept
  | error x =>
    have hpair : c w = (.error x, (c w).2) := by rw [← hout]
    rw [bind_error hpair]
    exact hkept

/-- A call that leaves the objects alone. -/
theorem Keeps.of_heap {α : Type} {c : AsgiCall α} (h : ∀ w, (c w).2.heap = w.heap) :
    Keeps heap c := by
  intro w hw
  rw [h w]
  exact hw

theorem Keeps.alloc (object : PyObject) : Keeps heap (alloc object) :=
  fun _ hw => hw.trans (List.prefix_append _ _)

/-- Only younger objects are written. -/
theorem Keeps.store {r : Ref} (hr : heap.length ≤ r) (object : PyObject) :
    Keeps heap (store r object) := by
  intro w hw
  obtain ⟨more, hmore⟩ := hw
  simp only [store_apply, ← hmore]
  rw [List.set_append_right _ _ hr]
  exact List.prefix_append _ _

theorem dictAt_heap (r : Ref) (w : HttpWorld) : (dictAt r w).2.heap = w.heap := by
  unfold dictAt
  split <;> rfl

theorem listAt_heap (r : Ref) (w : HttpWorld) : (listAt r w).2.heap = w.heap := by
  unfold listAt
  split <;> rfl

theorem item_heap {α : Type} (key : String) (entry : Option α) (w : HttpWorld) :
    (item key entry w).2.heap = w.heap := by
  cases entry <;> rfl

theorem Keeps.setHeader {message : Ref} (hmessage : heap.length ≤ message) (name value : String) :
    Keeps heap (setHeader message name value) := by
  refine .bind (.of_heap (dictAt_heap _)) fun fields _ _ _ => ?_
  refine .bind (.of_heap (item_heap _ _)) fun own _ _ _ => ?_
  refine .bind (.of_heap (listAt_heap _)) fun list _ _ _ => ?_
  refine .bind (.alloc _) fun copy w hw hcopy => ?_
  have hyoung : heap.length ≤ copy := by
    obtain rfl := Except.ok.inj hcopy
    exact hw.length_le
  refine .bind (.store hmessage _) fun _ _ _ _ => ?_
  split
  · exact .store hyoung _
  · exact .of_heap fun _ => rfl

theorem Keeps.outbound (message : Ref) (fields : Message Ref) :
    Keeps heap (m.outbound request message fields) := by
  unfold RequestIdMiddleware.outbound
  split
  · refine .bind (.of_heap (item_heap _ _)) fun status _ _ _ => ?_
    refine .bind (.of_heap fun _ => rfl) fun _ _ _ _ => ?_
    refine .bind (.alloc _) fun copy w hw hcopy => ?_
    have hyoung : heap.length ≤ copy := by
      obtain rfl := Except.ok.inj hcopy
      exact hw.length_le
    exact .bind (.setHeader hyoung _ _) fun _ _ _ _ => .of_heap fun _ => rfl
  · exact .of_heap fun _ => rfl

theorem serverSend_heap (message : Ref) (w : HttpWorld) :
    (serverSend message w).2.heap = w.heap := by
  unfold serverSend
  split <;> rfl

theorem Keeps.passOn (message : Ref) : Keeps heap (passOn request message) := by
  refine .bind (.of_heap fun w => serverSend_heap message w) fun answer _ _ _ => ?_
  split
  · exact .of_heap fun _ => rfl
  · exact .bind (.of_heap fun _ => rfl) fun _ _ _ _ => .of_heap fun _ => rfl
  · exact .of_heap fun _ => rfl

/-- **No object that existed before a send is changed by it.** -/
theorem sendWithRequestId_prefix (message : Ref) (w : HttpWorld) :
    w.heap <+: (m.sendWithRequestId request message w).2.heap := by
  have hkeeps : Keeps w.heap (m.sendWithRequestId request message) :=
    .bind (.of_heap (dictAt_heap _)) fun fields _ _ _ =>
      .bind (.outbound message fields) fun out _ _ _ => .passOn out
  exact hkeeps w List.prefix_rfl

end RequestIdMiddleware

end IdentityService.Asgi
