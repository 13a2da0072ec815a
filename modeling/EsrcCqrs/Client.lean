import EsrcCqrs.Dispatchers

/-! `CqrsClient`: envelopes out, replies back, and what a caller sees of them. -/

namespace EsrcCqrs
open Json Interaction RequestLoop

/-- `async_nats::Client::request`: the reply to a payload on a subject, or a failure text. -/
abbrev Transport := String → ByteArray → Except String ByteArray

namespace CqrsClient
variable [TextFormat]

/-- A JSON error on the caller's side. -/
def formatError (e : Json.Error) : Error := .format (TextFormat.display e)

/-- The exchange behind all `send_*` methods. -/
def exchange {P T : Type} [Serialize P] [Deserialize T] (request : Transport) (subject : String)
    (envelope : P) : Except Error T := do
  let payload ← (toVec envelope).mapError formatError
  let msg ← (request subject payload).mapError Error.internal
  (fromSlice T msg).mapError formatError

section Commands
variable [Uuid.Text] {C : Type} [Serialize C]

def sendCommand (request : Transport) (serviceName handlerName : String) (id : Uuid) (command : C) :
    Except Error CommandReply :=
  exchange request (commandSubject serviceName handlerName) (CommandEnvelope.mk id command)

def dispatchCommand (request : Transport) (serviceName handlerName : String) (id : Uuid)
    (command : C) : Except Error Uuid := do
  let reply ← sendCommand request serviceName handlerName id command
  if reply.success then
    return reply.id
  else
    throw (reply.error.getD (.internal "command failed but no error present"))

end Commands

section Queries
variable [Uuid.Text]

def sendQuery (request : Transport) (serviceName handlerName : String) (id : Uuid) :
    Except Error QueryReply :=
  exchange request (querySubject serviceName handlerName) (QueryEnvelope.mk id)

def dispatchQuery (T : Type) [Deserialize T] (request : Transport)
    (serviceName handlerName : String) (id : Uuid) : Except Error T := do
  let reply ← sendQuery request serviceName handlerName id
  if reply.success then
    match reply.data with
    | some data => (fromValue data).mapError formatError
    | none => throw (.internal "query succeeded but returned no data")
  else
    throw (reply.error.getD (.internal "query failed but no error present"))

end Queries

section ServiceCommands
variable {C : Type} [Serialize C]

def sendServiceCommand (R : Type) [Deserialize R] (request : Transport)
    (serviceName commandName : String) (command : C) : Except Error R :=
  exchange request (commandSubject serviceName commandName) command

def dispatchServiceCommand (R : Type) [Deserialize R] (request : Transport)
    (serviceName commandName : String) (command : C) : Except Error R := do
  let reply ← sendServiceCommand (ServiceCommandReply R) request serviceName commandName command
  if reply.success then
    match reply.data with
    | some data => return data
    | none => throw (.internal "command succeeded but returned no data")
  else
    throw (reply.error.getD (.internal "command failed but no error present"))

end ServiceCommands

/-- An exchange whose bytes arrive is decided by the reply. -/
theorem exchange_delivered {P T : Type} [Serialize P] [Deserialize T] {request : Transport}
    {subject : String} {envelope : P} {payload reply : ByteArray}
    (written : toVec envelope = .ok payload) (delivered : request subject payload = .ok reply) :
    exchange (T := T) request subject envelope = (fromSlice T reply).mapError formatError := by
  have sent : exchange (T := T) request subject envelope =
      ((request subject payload).mapError Error.internal >>= fun msg =>
        (fromSlice T msg).mapError formatError) := by
    rw [exchange, written]
    rfl
  rw [sent, delivered]
  rfl

end CqrsClient

/-- A request on the wire. -/
structure Message where
  subject : String
  payload : ByteArray

/-- The one request that `send` makes: it hears of nothing else, and of this. -/
structure Sends {T : Type} (send : Transport → Except Error T) (m : Message) : Prop where
  only : ∀ request request' : Transport,
    request m.subject m.payload = request' m.subject m.payload → send request = send request'
  fails : ∀ text, send (fun _ _ => .error text) = .error (.internal text)

theorem Sends.unique {T : Type} {send : Transport → Except Error T} {m m' : Message}
    (h : Sends send m) (h' : Sends send m') : m = m' := by
  by_contra other
  have elsewhere : ¬ (m'.subject = m.subject ∧ m'.payload = m.payload) := by
    rintro ⟨subject, payload⟩
    cases m
    cases m'
    exact other (congr (congrArg Message.mk subject.symm) payload.symm)
  -- a connection on which just the first of the two fails with another text
  let request : Transport := fun subject payload =>
    if subject = m.subject ∧ payload = m.payload then .error "one" else .error "other"
  have one : send request = .error (.internal "one") :=
    (h.only request (fun _ _ => .error "one") (if_pos ⟨rfl, rfl⟩)).trans (h.fails "one")
  have two : send request = .error (.internal "other") :=
    (h'.only request (fun _ _ => .error "other") (if_neg elsewhere)).trans (h'.fails "other")
  have same : "one" = "other" := Error.internal.inj (Except.error.inj (one.symm.trans two))
  exact absurd same (by decide)

section Sending
variable [TextFormat] {P T : Type} [Serialize P] [Deserialize T] {subject : String} {envelope : P}

theorem CqrsClient.exchange_sends {payload : ByteArray} (written : toVec envelope = .ok payload) :
    Sends (fun request => exchange (T := T) request subject envelope) ⟨subject, payload⟩ := by
  constructor
  · intro request request' same
    unfold exchange
    rw [written]
    change ((request subject payload).mapError _ >>= _) = ((request' subject payload).mapError _ >>= _)
    rw [same]
  · intro text
    unfold exchange
    rw [written]
    rfl

/-- Whatever is sent at all is sent to the subject of the exchange. -/
theorem CqrsClient.exchange_subject {m : Message}
    (sent : Sends (fun request => exchange (T := T) request subject envelope) m) :
    m.subject = subject := by
  cases written : toVec envelope with
  | ok payload => rw [sent.unique (exchange_sends written)]
  | error e =>
      have failed := sent.fails "failed"
      unfold exchange at failed
      rw [written] at failed
      cases failed

end Sending

/-- One request to a served endpoint: the bytes travel unchanged both ways, while the
handler works on `store` and its calls are answered by `answer`. -/
def AnsweredBy {F : Signature} {S R : Type} (request : Transport) (subject : String)
    (svc : Service F S R) (store : S) (answer : (op : F.Op) → F.Ret op) : Prop :=
  ∀ payload store' r, (svc.handle store payload).eval answer = .value (store', r) →
    request subject payload = .ok (svc.reply r)

/-- A reply made of a result to which the handler came, whatever its calls returned on the way. -/
structure RepliedWith {F : Signature} {S R : Type} (request : Transport) (subject : String)
    (svc : Service F S R) (payload : ByteArray) (r : R) : Prop where
  returned : ∃ store store', (svc.handle store payload).Returns (store', r)
  carried : request subject payload = .ok (svc.reply r)

theorem AnsweredBy.repliedWith {F : Signature} {S R : Type} {request : Transport} {subject : String}
    {svc : Service F S R} {store store' : S} {answer : (op : F.Op) → F.Ret op} {payload : ByteArray}
    {r : R} (h : AnsweredBy request subject svc store answer)
    (evaluated : (svc.handle store payload).eval answer = .value (store', r)) :
    RepliedWith request subject svc payload r :=
  ⟨⟨store, store', .of_eval evaluated⟩, h _ _ _ evaluated⟩

/-- In a run of a dispatcher every attempted reply is of this kind, if it is carried to its client. -/
theorem DispatcherState.Run.repliedWith {U : ErrorTypes} {n : Nat} {F : Signature} {S W : Type}
    {services : Fin n → Service F S (HandlerResult U)} {exec : Interp F W} {store : S} {w : W}
    {trace : List (DispatcherEvent n U)} {s : DispatcherState n U F S W}
    (run : DispatcherState.Run services exec store w trace s) {i : Fin n} {k : Nat}
    {payload body : ByteArray} (attempted : (k, body) ∈ (s.cluster.endpoint i).attempts)
    (there : (s.cluster.endpoint i).stream[k]? = some payload) {request : Transport} {subject : String}
    (carried : request subject payload = .ok body) :
    ∃ r, RepliedWith request subject (services i) payload r := by
  obtain ⟨labels, cluster⟩ := run.cluster
  obtain ⟨payload', store', left, r, there', returned, rfl⟩ := (Cluster.owned cluster i).replies attempted
  cases there.symm.trans there'
  exact ⟨r, ⟨store', left, returned⟩, carried⟩

/-- A connection on which every request reaches one served endpoint. -/
def loopback {F : Signature} {S R : Type} (svc : Service F S R) (store : S)
    (answer : (op : F.Op) → F.Ret op) : Transport :=
  fun _ payload =>
    match (svc.handle store payload).eval answer with
    | .value (_, r) => .ok (svc.reply r)
    | .panicked message => .error message

theorem answeredBy_loopback {F : Signature} {S R : Type} (subject : String) (svc : Service F S R)
    (store : S) (answer : (op : F.Op) → F.Ret op) :
    AnsweredBy (loopback svc store answer) subject svc store answer := by
  intro payload store' r returned
  simp only [loopback, returned]

end EsrcCqrs
