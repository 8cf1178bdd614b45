import IdentityService.Concurrent.Prog
import IdentityService.Http.RequestId

/-!
# The request id middleware

`RequestIdMiddleware.__call__` around an arbitrary ASGI application. The
application is a finite tree of what it asks for: it builds message objects
and sends them, sees what each send raised and goes on as it likes, and ends
by returning, by an exception or by a cancellation. Messages and their header
lists are objects with an identity, so that `dict(message)`, the list that
`MutableHeaders` copies and the write to it are three different steps.

Everything the outside sees is in one log: what the server's `send` was
given, what the observer was told and when the request context was bound.
-/

namespace IdentityService.Asgi

open Concurrent Http

/-! ## Objects -/

/-- Where an object is on the heap. -/
abbrev Ref := Nat

/-- A message; `η` is what stands in its `headers` entry. The entries no
function here reads are in `entries`. -/
structure Message (η : Type) where
  type : String
  status : Option Int
  headers : Option η
  entries : List (String × List UInt8)
deriving DecidableEq, Repr

/-- A message with its headers written out. -/
abbrev Contents := Message (List RawHeader)

/-- Whether the response begins with the message. -/
def Message.isStart {η : Type} (m : Message η) : Bool := m.type = "http.response.start"

/-- The objects messages are made of. -/
inductive PyObject where
  | message (m : Message Ref)
  | headers (list : List RawHeader)
deriving DecidableEq, Repr

/-- The objects that have been made, by their address. -/
abbrev Heap := List PyObject

/-- What a reader of the message at `r` sees. -/
def Heap.contents (heap : Heap) (r : Ref) : Option Contents :=
  match heap[r]? with
  | some (.message m) =>
    match m.headers with
    | none => some { m with headers := none }
    | some h =>
      match heap[h]? with
      | some (.headers list) => some { m with headers := some list }
      | _ => none
  | _ => none

/-- The objects a message is built of, from address `next` on: its header
list, if it has one, and the dict. -/
def Message.objects (message : Contents) (next : Ref) : Heap :=
  (message.headers.map PyObject.headers).toList ++
    [.message { message with headers := message.headers.map fun _ => next }]

/-! ## The application -/

/-- What an application asks of its caller. -/
inductive AsgiOp where
  /-- A message dict is built, with a header list of its own. -/
  | new (message : Contents)
  | send (message : Ref)

def AsgiOp.Resp : AsgiOp → Type
  | .new _ => Ref
  | .send _ => Unit

def asgiSig : Sig := ⟨AsgiOp, AsgiOp.Resp⟩

/-- An ASGI application on one request. -/
abbrev AsgiRun := Prog asgiSig HttpExn Unit

/-- A new message dict. -/
def newMessage (message : Contents) : Prog asgiSig HttpExn Ref :=
  Prog.perform (S := asgiSig) (AsgiOp.new message)

/-- `await send(message)`. -/
def sendMessage (message : Ref) : AsgiRun := Prog.perform (S := asgiSig) (AsgiOp.send message)

/-- Every start message the application builds carries a headers list. -/
def CarriesHeaders : AsgiRun → Prop
  | .ret _ => True
  | .throw _ => True
  | .op (.new message) k =>
    (message.isStart = true → message.headers.isSome = true) ∧ ∀ r, CarriesHeaders (k r)
  | .op (.send _) k => ∀ r, CarriesHeaders (k r)

/-! ## What is recorded -/

/-- `HttpRequestMetadata`. -/
structure HttpRequestMetadata where
  requestId : String
  method : String
  path : String
deriving DecidableEq, Repr

/-- `HttpResponseState`, with its defaults. -/
structure HttpResponseState where
  statusCode : Int := 500
  responseStarted : Bool := false
  failed : Bool := false
  clientDisconnected : Bool := false
deriving DecidableEq, Repr

namespace HttpResponseState

/-- `HttpResponseState.mark_failure`. -/
def markFailure (response : HttpResponseState) : HttpResponseState :=
  { response with
    failed := true
    statusCode := if response.responseStarted then response.statusCode else 500 }

/-- `HttpResponseState.mark_client_disconnected`. -/
def markClientDisconnected (response : HttpResponseState) : HttpResponseState :=
  { response with failed := true, clientDisconnected := true }

/-- `start`, and the state it leaves. -/
def start (response : HttpResponseState) (statusCode : Int) :
    Except HttpExn Unit × HttpResponseState :=
  if response.responseStarted then
    (.error (.runtimeError "ASGI application sent multiple response starts"), response.markFailure)
  else
    (.ok (), { response with
      responseStarted := true
      statusCode := statusCode
      failed := response.failed || decide (500 ≤ statusCode) })

end HttpResponseState

/-- What a call leaves in its log. -/
inductive HttpEvent where
  | bound (requestId : String)
  | started (request : HttpRequestMetadata)
  /-- The application called `send_with_request_id`. -/
  | asked (message : Contents)
  /-- The server's `send` was called. -/
  | passed (message : Contents)
  | failed (request : HttpRequestMetadata) (response : HttpResponseState) (error : HttpExn)
  | disconnected (request : HttpRequestMetadata) (response : HttpResponseState)
  | finished (request : HttpRequestMetadata) (response : HttpResponseState)
  | cleared
deriving DecidableEq, Repr

/-- The messages the server was given. -/
def passedOn (log : List HttpEvent) : List Contents :=
  log.filterMap fun
    | .passed message => some message
    | _ => none

/-- The starts among them. -/
def startsPassed (log : List HttpEvent) : List Contents :=
  (passedOn log).filter Message.isStart

/-- The calls of `observer.started` and `observer.finished`. -/
def lifecycle (log : List HttpEvent) : List HttpEvent :=
  log.filter fun
    | .started _ => true
    | .finished _ _ => true
    | _ => false

/-! ## Calls -/

/-- `raises n`: the `n`-th call of the server's `send` raises `OSError`. -/
structure HttpWorld where
  heap : Heap
  response : HttpResponseState
  log : List HttpEvent
  raises : Nat → Bool

/-- Code that may raise; what it did before is kept. -/
def AsgiCall (α : Type) : Type := HttpWorld → Except HttpExn α × HttpWorld

namespace AsgiCall

variable {α β : Type}

/-- One after the other, unless the first raises. -/
def bind (c : AsgiCall α) (f : α → AsgiCall β) : AsgiCall β := fun w =>
  match c w with
  | (.ok a, w') => f a w'
  | (.error x, w') => (.error x, w')

instance : Monad AsgiCall where
  pure a := fun w => (.ok a, w)
  bind := bind

def raise (x : HttpExn) : AsgiCall α := fun w => (.error x, w)

/-- The outcome as a value, for the branches of a `try`. -/
def attempt (c : AsgiCall α) : AsgiCall (Except HttpExn α) := fun w =>
  let (r, w') := c w
  (.ok r, w')

/-- What has been settled already. -/
def ofExcept (r : Except HttpExn α) : AsgiCall α := fun w => (r, w)

/-- `message[key]`. -/
def item (key : String) : Option α → AsgiCall α
  | some a => pure a
  | none => raise (.keyError key)

def response : AsgiCall HttpResponseState := fun w => (.ok w.response, w)

def setResponse (f : HttpResponseState → HttpResponseState) : AsgiCall Unit := fun w =>
  (.ok (), { w with response := f w.response })

def record (event : HttpEvent) : AsgiCall Unit := fun w =>
  (.ok (), { w with log := w.log ++ [event] })

def alloc (object : PyObject) : AsgiCall Ref := fun w =>
  (.ok w.heap.length, { w with heap := w.heap ++ [object] })

/-- An object is changed in place. -/
def store (r : Ref) (object : PyObject) : AsgiCall Unit := fun w =>
  (.ok (), { w with heap := w.heap.set r object })

/-- The dict at `r`; anything else has no string keys. -/
def dictAt (r : Ref) : AsgiCall (Message Ref) := fun w =>
  match w.heap[r]? with
  | some (.message m) => (.ok m, w)
  | _ => (.error .typeError, w)

/-- The header list at an address. -/
def listAt (r : Ref) : AsgiCall (List RawHeader) := fun w =>
  match w.heap[r]? with
  | some (.headers list) => (.ok list, w)
  | _ => (.error .typeError, w)

/-- `response.start(status)`. -/
def startResponse (status : Int) : AsgiCall Unit := fun w =>
  let (r, response) := w.response.start status
  (r, { w with response := response })

/-- The server's `send`. -/
def serverSend (message : Ref) : AsgiCall Unit := fun w =>
  match w.heap.contents message with
  | none => (.error .typeError, w)
  | some contents =>
    (if w.raises (passedOn w.log).length then .error .osError else .ok (),
      { w with log := w.log ++ [.passed contents] })

/-- `MutableHeaders(scope=message)[name] = value`: the list is copied into
the message, and the copy is written. -/
def setHeader (message : Ref) (name value : String) : AsgiCall Unit := do
  let fields ← dictAt message
  let own ← item "headers" fields.headers
  let list ← listAt own
  let copy ← alloc (.headers list)
  store message (.message { fields with headers := some copy })
  match setItem name value list with
  | some written => store copy (.headers written)
  | none => raise (.valueError "'latin-1' codec can't encode character")

end AsgiCall

/-! ## The middleware -/

/-- `Response(status_code, raw_headers, body)`. -/
structure HttpResponse where
  statusCode : Int
  rawHeaders : List RawHeader
  body : List UInt8
deriving DecidableEq, Repr

def HttpResponse.startMessage (response : HttpResponse) : Contents :=
  ⟨"http.response.start", some response.statusCode, some response.rawHeaders, []⟩

def HttpResponse.bodyMessage (response : HttpResponse) : Contents :=
  ⟨"http.response.body", none, none, [("body", response.body)]⟩

/-- `Response.__call__`. -/
def HttpResponse.run (response : HttpResponse) : AsgiRun := do
  let start ← newMessage response.startMessage
  sendMessage start
  let body ← newMessage response.bodyMessage
  sendMessage body

/-- The bytes of an ASCII text. -/
def ascii (s : String) : List UInt8 := s.toList.map fun c => UInt8.ofNat c.toNat

/-- `_default_internal_error_response`. -/
def defaultInternalErrorResponse : HttpResponse where
  statusCode := 500
  rawHeaders := [(ascii "cache-control", ascii "no-store"), (ascii "content-length", ascii "34"),
    (ascii "content-type", ascii "application/json")]
  body := ascii "\x7b\"detail\":\"internal server error\"\x7d"

/-- What `__call__` reads of an ASGI scope. -/
structure HttpScope where
  type : String
  method : Option String
  path : Option String
  headers : List RawHeader
  state : Option (List (String × String))
deriving DecidableEq, Repr

/-- `state[key] = value`. -/
def setState (key value : String) (state : List (String × String)) : List (String × String) :=
  if state.any (fun entry => entry.1 = key) then
    state.map fun entry => if entry.1 = key then (key, value) else entry
  else state ++ [(key, value)]

/-- One of the characters of an HTTP field name. -/
def isFieldNameChar (c : Char) : Bool :=
  isAlphanumeric c || c ∈ "!#$%&'*+-.^_`|~".toList

/-- `_HTTP_HEADER_NAME.fullmatch(name) is not None`. -/
def isFieldName (name : String) : Bool := name.toList ≠ [] && name.toList.all isFieldNameChar

/-- `RequestIdMiddleware`, with what its constructor checks. -/
structure RequestIdMiddleware where
  resolver : ValidatedRequestIdResolver
  internalErrorResponseFactory : HttpResponse
  headerName : String
  stateKey : String
  headerNameValid : isFieldName headerName = true
  stateKeyNonempty : stateKey ≠ ""

namespace RequestIdMiddleware

/-- `__init__`. -/
def init (resolver : ValidatedRequestIdResolver) (internalErrorResponseFactory : HttpResponse)
    (headerName stateKey : String) : Except HttpExn RequestIdMiddleware :=
  if hname : isFieldName headerName = true then
    if hkey : stateKey ≠ "" then
      .ok ⟨resolver, internalErrorResponseFactory, headerName, stateKey, hname, hkey⟩
    else .error (.valueError "state_key must not be empty")
  else .error (.valueError "header_name must be a valid HTTP field name")

open AsgiCall

/-- The message to pass on: a start is copied and gets the header. -/
def outbound (m : RequestIdMiddleware) (request : HttpRequestMetadata) (message : Ref)
    (fields : Message Ref) : AsgiCall Ref :=
  if fields.isStart = true then do
    let status ← item "status" fields.status
    startResponse status
    let copy ← alloc (.message fields)
    setHeader copy m.headerName request.requestId
    pure copy
  else pure message

/-- The `try` around the server's `send`. -/
def passOn (request : HttpRequestMetadata) (message : Ref) : AsgiCall Unit := do
  match ← attempt (serverSend message) with
  | .ok () => pure ()
  | .error .osError => do
    setResponse HttpResponseState.markClientDisconnected
    record (.disconnected request (← response))
    raise .osError
  | .error x => raise x

/-- `send_with_request_id`. -/
def sendWithRequestId (m : RequestIdMiddleware) (request : HttpRequestMetadata) (message : Ref) :
    AsgiCall Unit := do
  let fields ← dictAt message
  let message ← m.outbound request message fields
  passOn request message

/-- The application calls `send`, which is noted. -/
def ask (send : Ref → AsgiCall Unit) (message : Ref) : AsgiCall Unit := fun w =>
  send message
    { w with log := w.log ++ ((w.heap.contents message).map HttpEvent.asked).toList }

/-- The application's steps, with `send` for its sends. -/
def drive (send : Ref → AsgiCall Unit) : AsgiRun → AsgiCall Unit
  | .ret () => pure ()
  | .throw x => raise x
  | .op (.new message) k => fun w =>
    let objects := message.objects w.heap.length
    drive send (k (.ok (w.heap.length + (objects.length - 1)))) { w with heap := w.heap ++ objects }
  | .op (.send message) k => fun w =>
    let (r, w') := ask send message w
    drive send (k r) w'

/-- `_resolve_request_id`. -/
def resolveRequestId (m : RequestIdMiddleware) (generated : String) (scope : HttpScope) :
    Except HttpExn String :=
  match getlist m.headerName scope.headers with
  | some [candidate] => m.resolver.resolve generated (some candidate)
  | _ => m.resolver.resolve generated none

/-- `_copy_scope`. -/
def copyScope (m : RequestIdMiddleware) (scope : HttpScope) (requestId : String) : HttpScope :=
  { scope with state := some (setState m.stateKey requestId (scope.state.getD [])) }

/-- The `except` branches. -/
def handle (m : RequestIdMiddleware) (request : HttpRequestMetadata) (error : HttpExn) :
    AsgiCall Unit := do
  setResponse HttpResponseState.markFailure
  let state ← response
  if error = .cancelled then raise error
  else if state.clientDisconnected = true then raise error
  else do
    record (.failed request state error)
    if state.responseStarted = true then raise error
    else drive (m.sendWithRequestId request) m.internalErrorResponseFactory.run

/-- The body of the `try` statement. -/
def serve (m : RequestIdMiddleware) (request : HttpRequestMetadata) (app : AsgiRun) :
    AsgiCall Unit := do
  drive (m.sendWithRequestId request) app
  if (← response).responseStarted = true then pure ()
  else raise (.runtimeError "ASGI application returned without a response")

/-- A response that was not started is a failure. -/
def reported (response : HttpResponseState) : HttpResponseState :=
  if response.responseStarted = true then response else response.markFailure

/-- The `finally` branch and the end of the request context. -/
def finish (request : HttpRequestMetadata) : AsgiCall Unit := do
  setResponse reported
  record (.finished request (← response))
  record .cleared

/-- The `try` statement with its `except` branches. -/
def tryServe (m : RequestIdMiddleware) (request : HttpRequestMetadata) (app : AsgiRun) :
    AsgiCall Unit := do
  match ← attempt (m.serve request app) with
  | .ok () => pure ()
  | .error x => m.handle request x

/-- `__call__`; `generated` is what the id generator would return. -/
def call (m : RequestIdMiddleware) (app : HttpScope → AsgiRun) (generated : String)
    (scope : HttpScope) : AsgiCall Unit :=
  if scope.type ≠ "http" then drive serverSend (app scope)
  else do
    let requestId ← ofExcept (m.resolveRequestId generated scope)
    let request : HttpRequestMetadata :=
      ⟨requestId, scope.method.getD "", scope.path.getD ""⟩
    setResponse fun _ => {}
    record (.bound requestId)
    record (.started request)
    let outcome ← attempt (m.tryServe request (app (m.copyScope scope requestId)))
    finish request
    ofExcept outcome

end RequestIdMiddleware

end IdentityService.Asgi
