import EsrcCqrs.Contention
import EsrcCqrs.StreamSessions

/-! What a session comes to: the commands that were accepted, decided one after the other, and
queries that show exactly those accepted before them. -/

namespace EsrcCqrs
open Json Interaction KeyedLog RequestLoop

section Decisions
variable {U : ErrorTypes} {A : Aggregate U}

/-- The commands were accepted one after the other, each on the events of those before it. -/
inductive Decides {U : ErrorTypes} {A : Aggregate U} (first : List A.Event) :
    List A.Command → List A.Event → Prop
  | nil : Decides first [] first
  | snoc {commands : List A.Command} {events : List A.Event} {command : A.Command} {e : A.Event} :
      Decides first commands events → A.process (A.fold events) command = .ok e →
      Decides first (commands ++ [command]) (events ++ [e])

variable {S R : Type} {faults : Esrc.Error U → Prop} {id : Uuid} {command : A.Command}
  {unread : Esrc.Error U → R} {after : Except (Esrc.Error U) (Root A) → Outcome R}
  {events events' : List A.Event} {o : Outcome R}

/-- A command is stored as it was decided, or not at all. -/
theorem Wrote.stream (h : Wrote faults id command unread after events o events') :
    events' = events ∨ ∃ e, A.process (A.fold events) command = .ok e ∧ events' = events ++ [e] := by
  cases h with
  | stored processed _ => exact .inr ⟨_, processed, rfl⟩
  | rejected | failed | unread => exact .inl rfl

end Decisions

section Replies
variable {U : ErrorTypes} [TextFormat] [Uuid.Text] [ToString (Esrc.Error U)] {A : Aggregate U}

theorem CommandEndpoint.accepts_success (k : CommandEndpoint A) (id : Uuid) :
    accepting (U := U) (.ok (k.success id)) = true := by
  cases k with
  | aggregate name => exact accepting_command ⟨id, true, none⟩
  | service C decode through name => exact accepting_success id

variable [Serialize A.Error]

theorem CommandEndpoint.refuses_failure (k : CommandEndpoint A) {id : Uuid} {e : Esrc.Error U} {r : HandlerResult U}
    (failed : k.after id (.error e) = .value r) : accepting r = false := by
  cases k with
  | aggregate name =>
      simp only [CommandEndpoint.after, writeReply] at failed
      cases converted : convertEsrcError A e with
      | panicked message =>
          rw [converted] at failed
          cases failed
      | value err =>
          rw [converted] at failed
          cases failed
          exact accepting_command ⟨id, false, some err⟩
  | service C decode through name =>
      cases failed
      exact accepting_failure (through.convert e)

/-- The reply to a command reports a success exactly when an event was stored. -/
theorem Wrote.accepted {faults : Esrc.Error U → Prop} {k : CommandEndpoint A} {id : Uuid}
    {command : A.Command} {events events' : List A.Event} {r : HandlerResult U}
    (h : Wrote faults id command .error (k.after id) events (.value r) events') :
    (accepting r = true ∧ ∃ e, A.process (A.fold events) command = .ok e ∧ events' = events ++ [e]) ∨
      accepting r = false ∧ events' = events := by
  generalize came : Outcome.value r = o at h
  cases h with
  | @stored e root processed same =>
      rw [k.after_ok same] at came
      cases came
      exact .inl ⟨k.accepts_success id, e, processed, rfl⟩
  | rejected rejected => exact .inr ⟨k.refuses_failure came.symm, rfl⟩
  | failed fault => exact .inr ⟨k.refuses_failure came.symm, rfl⟩
  | unread fault =>
      cases came
      exact .inr ⟨not_accepting_error _, rfl⟩

end Replies

section Commands
variable {U : ErrorTypes} {A : Aggregate U} {ι S R : Type}

/-- What these replies accepted, in the order of a session. -/
def acceptedBy {C : Type} (accepts : ι → ByteArray → ByteArray → Option C) (exchanged : List (Exchanged ι)) :
    List C :=
  exchanged.filterMap fun x => accepts x.loop x.payload x.reply

theorem acceptedBy_snoc {C : Type} {accepts : ι → ByteArray → ByteArray → Option C}
    (done : List (Exchanged ι)) (x : Exchanged ι) : acceptedBy accepts (done ++ [x]) =
      acceptedBy accepts done ++ (accepts x.loop x.payload x.reply).toList := by
  rw [acceptedBy, List.filterMap_append, List.filterMap_cons, List.filterMap_nil]
  cases accepts x.loop x.payload x.reply <;> rfl

/-- Where each reply either accepts a command that is decided, or none, the events are those of the
commands accepted. -/
theorem Replays.decides {F : Signature} {svc : ι → Service F S R}
    {spec : ι → ByteArray → List A.Event → Outcome R → List A.Event → Prop}
    {accepts : ι → ByteArray → ByteArray → Option A.Command}
    (one : ∀ {i payload events r events'}, spec i payload events (.value r) events' →
      (∃ command e, accepts i payload ((svc i).reply r) = some command ∧
        A.process (A.fold events) command = .ok e ∧ events' = events ++ [e]) ∨
        accepts i payload ((svc i).reply r) = none ∧ events' = events)
    {first events : List A.Event} {exchanged : List (Exchanged ι)}
    (h : Replays svc spec first exchanged events) : Decides first (acceptedBy accepts exchanged) events := by
  induction h with
  | none => exact .nil
  | @snoc done events events' i payload r _ served ih =>
      rw [acceptedBy_snoc]
      rcases one served with ⟨command, e, answer, processed, rfl⟩ | ⟨answer, rfl⟩
      · rw [answer]
        exact ih.snoc processed
      · rw [answer, Option.toList_none, List.append_nil]
        exact ih

/-- Commands that are decided one after the other can be sent so, if each of them can be sent. -/
theorem Decides.replays {F : Signature} {svc : ι → Service F S R}
    {spec : ι → ByteArray → List A.Event → Outcome R → List A.Event → Prop}
    {accepts : ι → ByteArray → ByteArray → Option A.Command} {first events : List A.Event}
    {commands : List A.Command} (h : Decides first commands events)
    (one : ∀ command ∈ commands, ∃ i payload r, accepts i payload ((svc i).reply r) = some command ∧
      ∀ {events e}, A.process (A.fold events) command = .ok e → spec i payload events (.value r) (events ++ [e])) :
    ∃ exchanged, Replays svc spec first exchanged events ∧ acceptedBy accepts exchanged = commands := by
  induction h with
  | nil => exact ⟨[], .none, rfl⟩
  | @snoc commands events command e _ processed ih =>
      obtain ⟨exchanged, replays, same⟩ := ih fun c member => one c (List.mem_append_left _ member)
      obtain ⟨i, payload, r, answer, served⟩ := one command (List.mem_append_right _ (List.mem_singleton.mpr rfl))
      refine ⟨_, replays.snoc (served processed), ?_⟩
      rw [acceptedBy_snoc, same]
      simp only [answer]
      rfl

end Commands

section Accounts
variable {U : ErrorTypes} [TextFormat] [Uuid.Text] {A : Aggregate U} [Deserialize A.Command]
  {ι S : Type} {endpoints : ι → StreamEndpoint A}

/-- The command of a request that was answered with a success. -/
def StreamEndpoint.accepted (k : StreamEndpoint A) (payload reply : ByteArray) : Option A.Command :=
  match k with
  | .command k => if Accepts reply then (k.reads payload).map Prod.snd else none
  | .query _ => none

/-- The accepted commands of a session, in its order. -/
def accepted (endpoints : ι → StreamEndpoint A) (exchanged : List (Exchanged ι)) : List A.Command :=
  acceptedBy (fun i => (endpoints i).accepted) exchanged

variable [ToString (Esrc.Error U)] [Serialize A.Error] {faults : Esrc.Error U → Prop} {id : Uuid}

theorem StreamEndpoint.accepted_command {k : CommandEndpoint A} {payload : ByteArray} {command : A.Command}
    (read : k.reads payload = some (id, command)) (r : HandlerResult U) :
    (StreamEndpoint.command k).accepted payload (((StreamEndpoint.command k).serve S).reply r) =
      if accepting r then some command else none := by
  have replied : ((StreamEndpoint.command k).serve S).reply r = NatsCommandDispatcher.body r := by
    cases k <;> rfl
  simp only [StreamEndpoint.accepted, read, Option.map_some]
  rw [replied]
  rfl

theorem StreamEndpoint.accepted_success {k : CommandEndpoint A} {payload : ByteArray} {command : A.Command}
    (read : k.reads payload = some (id, command)) :
    (StreamEndpoint.command k).accepted payload (((StreamEndpoint.command k).serve S).reply
      (.ok (k.success id) : HandlerResult U)) = some command := by
  rw [StreamEndpoint.accepted_command read, if_pos (k.accepts_success id)]

/-- One exchange: a success is an event, and nothing else is. -/
theorem StreamServed.decides {k : StreamEndpoint A} {payload : ByteArray} {events events' : List A.Event}
    {r : HandlerResult U} (h : StreamServed faults id k payload events (.value r) events') :
    (∃ command e, k.accepted payload ((k.serve S).reply r) = some command ∧
      A.process (A.fold events) command = .ok e ∧ events' = events ++ [e]) ∨
      k.accepted payload ((k.serve S).reply r) = none ∧ events' = events := by
  cases h with
  | @command k _ command _ _ _ read wrote =>
      rw [StreamEndpoint.accepted_command read]
      rcases wrote.accepted with ⟨success, e, processed, rfl⟩ | ⟨failure, rfl⟩
      · exact .inl ⟨command, e, if_pos success, processed, rfl⟩
      · rw [failure]
        exact .inr ⟨rfl, rfl⟩
  | shown => exact .inr ⟨rfl, rfl⟩
  | unreplayed => exact .inr ⟨rfl, rfl⟩

theorem Replays.accepted {first events : List A.Event} {exchanged : List (Exchanged ι)}
    (h : Replays (fun i => (endpoints i).serve S) (fun i => StreamServed faults id (endpoints i)) first
      exchanged events) : Decides first (accepted endpoints exchanged) events := by
  refine Replays.decides ?_ h
  intro i payload events r events' served
  exact served.decides

variable {log : EventLog A}
  {s : Session ι ((StoreSig A).sum (ReplaySig U A.Event)) S (HandlerResult U) (EventLog A)}

/-- What a session did to its stream, and what it was shown of it. -/
structure SessionAccount (endpoints : ι → StreamEndpoint A) (id : Uuid) (log : EventLog A)
    (s : Session ι ((StoreSig A).sum (ReplaySig U A.Event)) S (HandlerResult U) (EventLog A)) : Prop where
  stored : s.awaited = none →
    Decides (entriesOf id log) (accepted endpoints s.exchanged) (entriesOf id s.cluster.world)
  awaited : ∀ m, s.awaited = some m → ∃ commands,
    Decides (entriesOf id log) (accepted endpoints s.exchanged ++ commands) (entriesOf id s.cluster.world) ∧
    (commands = [] ∨ ∃ k command, endpoints m.loop = .command k ∧
      k.reads m.payload = some (id, command) ∧ commands = [command])
  shown : ∀ before x rest q, s.exchanged = before ++ x :: rest → endpoints x.loop = .query q →
    Succeeds x.reply → ∃ events data, Decides (entriesOf id log) (accepted endpoints before) events ∧
      toValue (q.query.projection (q.V.fold events)) = .ok data ∧
      x.reply = TextFormat.print (QueryReply.encode ⟨true, some data, none⟩)

variable [DecidableEq ι] {store : ι → S} {trace : List (SessionEvent ι (HandlerResult U))}

/-- Each exchange is one on the stream that the commands accepted before it have left. -/
theorem session_exchanged (h : StreamSession endpoints faults id store log trace s)
    {before rest : List (Exchanged ι)} {x : Exchanged ι} (split : s.exchanged = before ++ x :: rest) :
    ∃ events events' r, Decides (entriesOf id log) (accepted endpoints before) events ∧
      StreamServed faults id (endpoints x.loop) x.payload events (.value r) events' ∧
      x.reply = ((endpoints x.loop).serve S).reply r := by
  obtain ⟨events, replays, -⟩ := Session.Run.replays (streams_separate endpoints id) h
  rw [split] at replays
  obtain ⟨events₁, events₂, r, replays, served, replied⟩ := replays.split
  exact ⟨events₁, events₂, r, Replays.accepted replays, served, replied⟩

theorem session_shown (h : StreamSession endpoints faults id store log trace s)
    {before rest : List (Exchanged ι)} {x : Exchanged ι} {q : LiveEndpoint A.Event}
    (split : s.exchanged = before ++ x :: rest) (asked : endpoints x.loop = .query q)
    (succeeds : Succeeds x.reply) :
    ∃ events data, Decides (entriesOf id log) (accepted endpoints before) events ∧
      toValue (q.query.projection (q.V.fold events)) = .ok data ∧
      x.reply = TextFormat.print (QueryReply.encode ⟨true, some data, none⟩) := by
  obtain ⟨events, events', r, decides, served, replied⟩ := session_exchanged h split
  rw [asked] at served
  have body : x.reply = NatsQueryDispatcher.body r := by
    rw [replied, asked]
    rfl
  rw [body] at succeeds
  generalize came : Outcome.value r = o at served
  cases served with
  | shown =>
      cases came
      cases written : toValue (q.query.projection (q.V.fold events)) with
      | ok data =>
          refine ⟨events, data, decides, written, ?_⟩
          rw [body, encodeReply_ok written]
          rfl
      | error e =>
          rw [encodeReply_error written] at succeeds
          exact absurd succeeds (not_succeeds_error _)
  | unreplayed =>
      cases came
      exact absurd succeeds (not_succeeds_error _)

/-- In every session the stream grows by its accepted commands and by nothing else, and a query shows
exactly those accepted before it. -/
theorem session_accounts (h : StreamSession endpoints faults id store log trace s) :
    SessionAccount endpoints id log s := by
  obtain ⟨events, replays, idle, between⟩ := Session.Run.replays (streams_separate endpoints id) h
  refine ⟨?_, ?_, ?_⟩
  · intro free
    rw [idle free]
    exact Replays.accepted replays
  · intro m some
    have decides := Replays.accepted replays
    rcases between m some with same | ⟨o, served⟩
    · refine ⟨[], ?_, .inl rfl⟩
      rw [same, List.append_nil]
      exact decides
    · generalize endpoint : endpoints m.loop = kind at served
      generalize stream : entriesOf id s.cluster.world = now at served
      cases served with
      | @command k _ command _ _ _ read wrote =>
          rcases wrote.stream with rfl | ⟨e, processed, rfl⟩
          · refine ⟨[], ?_, .inl rfl⟩
            rw [List.append_nil]
            exact decides
          · exact ⟨[command], decides.snoc processed, .inr ⟨k, command, rfl, read, rfl⟩⟩
      | shown | unreplayed =>
          refine ⟨[], ?_, .inl rfl⟩
          rw [List.append_nil]
          exact decides
  · exact fun before x rest q => session_shown h

/-- Whatever can be decided, a client can have accepted, and then be shown. -/
theorem Decides.session {events : List A.Event} {commands : List A.Command}
    (h : Decides (entriesOf id log) commands events) (requests : ∀ command ∈ commands, ∃ i k payload,
      endpoints i = .command k ∧ k.reads payload = some (id, command))
    {i : ι} {q : LiveEndpoint A.Event} (query : endpoints i = .query q) :
    ∃ trace s before x, StreamSession endpoints (fun _ => False) id store log trace s ∧ s.awaited = none ∧
      s.exchanged = before ++ [x] ∧ accepted endpoints before = commands ∧ endpoints x.loop = .query q ∧
      toVec (QueryEnvelope.mk id) = .ok x.payload := by
  obtain ⟨question, written, asked⟩ := QueryEnvelope.readsBack ⟨id⟩
  obtain ⟨before, replays, same⟩ : ∃ before, Replays (fun i => (endpoints i).serve S)
      (fun i => StreamServed (fun _ => False) id (endpoints i)) (entriesOf id log) before events ∧
      accepted endpoints before = commands := by
    refine Decides.replays h fun command member => ?_
    obtain ⟨j, k, payload, endpoint, read⟩ := requests command member
    refine ⟨j, payload, .ok (k.success id), ?_, fun processed => ?_⟩
    · rw [endpoint]
      exact StreamEndpoint.accepted_success read
    · rw [endpoint]
      exact .stored read processed
  have shown : StreamServed (fun _ => False) id (endpoints i) question events
      (.value (encodeReply U (q.query.projection (q.V.fold events)))) events := by
    rw [query]
    exact .shown asked
  obtain ⟨trace, s, run, free, exchanged, -⟩ := session_reached store (replays.snoc shown)
  exact ⟨trace, s, before, _, run, free, exchanged, same, query, written⟩

end Accounts

namespace Counter

/-- The read model of the tests. -/
structure CounterState where
  value : Int

instance : Serialize CounterState where
  toValue s := do return .object [("value", ← toValue s.value)]

def getState : LiveEndpoint CounterEvent :=
  ⟨view, CounterState, inferInstance, ⟨"Counter.GetState", CounterState.mk⟩⟩

section Tests

/-- The endpoints of the tests. -/
inductive TestEndpoint where
  | counter
  | counterService
  | getState
  deriving DecidableEq

def testEndpoints : TestEndpoint → StreamEndpoint aggregate
  | .counter => .command (.aggregate "Counter")
  | .counterService =>
      .command (.service CounterServiceCommand inferInstance CounterServiceHandler.through "CounterService")
  | .getState => .query getState

/-- Two increments and a query. -/
theorem session_of_three : ∃ trace s before x,
    StreamSession testEndpoints (fun _ => False) Uuid.nil (fun _ => ()) [] trace s ∧ s.awaited = none ∧
      s.exchanged = before ++ [x] ∧ accepted testEndpoints before = [.increment 2, .increment 3] ∧
      testEndpoints x.loop = .query getState ∧ toVec (QueryEnvelope.mk Uuid.nil) = .ok x.payload := by
  have first : Decides (A := aggregate) (entriesOf Uuid.nil []) ([] ++ [.increment 2]) ([] ++ [.incremented 2]) :=
    .snoc .nil rfl
  have both : Decides (A := aggregate) (entriesOf Uuid.nil []) ([] ++ [.increment 2] ++ [.increment 3])
    ([] ++ [.incremented 2] ++ [.incremented 3]) := .snoc first rfl
  refine Decides.session both ?_ (i := .getState) rfl
  intro command _
  obtain ⟨payload, -, decoded⟩ := envelope_readsBack Uuid.nil command
  refine ⟨.counter, _, payload, rfl, ?_⟩
  simp only [CommandEndpoint.reads, decoded]
  rfl

theorem sessions_are_sequential_counter : ∃ trace s events, StreamSession testEndpoints (fun _ => False)
    Uuid.nil (fun _ => ()) [] trace s ∧ s.exchanged ≠ [] ∧
    Replays (fun i => (testEndpoints i).serve Unit)
      (fun i => StreamServed (fun _ => False) Uuid.nil (testEndpoints i)) [] s.exchanged events ∧
    entriesOf Uuid.nil s.cluster.world = events := by
  obtain ⟨trace, s, before, x, run, free, exchanged, -⟩ := session_of_three
  obtain ⟨events, replays, idle, -⟩ := sessions_are_sequential run
  refine ⟨trace, s, events, run, ?_, replays, idle free⟩
  rw [exchanged]
  exact List.append_ne_nil_of_right_ne_nil _ (List.cons_ne_nil _ _)

theorem session_accounts_counter : ∃ trace s, StreamSession testEndpoints (fun _ => False)
    Uuid.nil (fun _ => ()) [] trace s ∧
    Decides (A := aggregate) [] [.increment 2, .increment 3] (entriesOf Uuid.nil s.cluster.world) := by
  obtain ⟨trace, s, before, x, run, free, exchanged, commands, asked, -⟩ := session_of_three
  refine ⟨trace, s, run, ?_⟩
  have stored := (session_accounts run).stored free
  have query : (testEndpoints x.loop).accepted x.payload x.reply = none := by
    rw [asked]
    rfl
  have split : accepted testEndpoints (before ++ [x]) = accepted testEndpoints before ++
      ((testEndpoints x.loop).accepted x.payload x.reply).toList := acceptedBy_snoc before x
  rw [exchanged, split, query, Option.toList_none, List.append_nil, commands] at stored
  exact stored

end Tests
end Counter
end EsrcCqrs
