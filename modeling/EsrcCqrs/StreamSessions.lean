import EsrcCqrs.LiveQueries
import EsrcCqrs.ServiceCommands
import EsrcCqrs.Sessions

/-! Sessions on one stream of an aggregate, over its own endpoints, those of services and live
queries, while others work on other streams. -/

namespace EsrcCqrs
open Json Interaction Interaction.Prog KeyedLog RequestLoop

section Stores
variable {U : ErrorTypes} (A : Aggregate U) (faults : Esrc.Error U → Prop)

/-- The store, when its calls may fail with some errors only. -/
inductive StoreFails : Interp (StoreSig A) (EventLog A)
  | works {op : StoreOp A} {log log' : EventLog A} {r : Except (Esrc.Error U) (Root A)} :
      StoreStep A op log r log' → StoreFails op log r log'
  | fails (op : StoreOp A) {e : Esrc.Error U} (log : EventLog A) : faults e → StoreFails op log (.error e) log

/-- Replays, when they and their streams may fail with these errors. -/
inductive ReplayFails : Interp (ReplaySig U A.Event) (EventLog A)
  | works (id : Uuid) (start : Nat) (log : EventLog A) :
      ReplayFails (.replayOne id start) log
        (.ok ((entriesOf id (log.drop start)).map fun e => .ok (.ok e))) log
  | breaks (id : Uuid) (start n : Nat) {e : Esrc.Error U} (log : EventLog A) : faults e →
      ReplayFails (.replayOne id start) log
        (.ok (((entriesOf id (log.drop start)).take n).map (fun e => .ok (.ok e)) ++ [.error e])) log
  | fails (op : ReplayOp) {e : Esrc.Error U} (log : EventLog A) : faults e →
      ReplayFails op log (.error e) log

abbrev failing : Interp ((StoreSig A).sum (ReplaySig U A.Event)) (EventLog A) :=
  (StoreFails A faults).sum (ReplayFails A faults)

variable {A} {faults}

/-- Nothing of the stream `id` was appended. -/
structure SameStream (id : Uuid) (log log' : EventLog A) : Prop where
  entries : entriesOf id log' = entriesOf id log
  last : lastSequence id log' = lastSequence id log

theorem SameStream.refl (id : Uuid) (log : EventLog A) : SameStream id log log := ⟨rfl, rfl⟩

theorem SameStream.trans {id : Uuid} {log log' log'' : EventLog A} (h : SameStream id log log')
    (h' : SameStream id log' log'') : SameStream id log log'' :=
  ⟨h'.entries.trans h.entries, h'.last.trans h.last⟩

theorem SameStream.snoc {id id' : Uuid} (other : id' ≠ id) (log : EventLog A) (e : A.Event) :
    SameStream id log (log ++ [(id', e)]) := by
  refine ⟨entriesOf_snoc_ne other log e, ?_⟩
  rw [lastSequence_snoc, if_neg other]

theorem ReplayFails.log_eq {op : ReplayOp} {log log' : EventLog A} {r : (ReplaySig U A.Event).Ret op}
    (h : ReplayFails A faults op log r log') : log' = log := by
  cases h with
  | works | breaks | fails => rfl

end Stores

section Writes
variable {U : ErrorTypes} {A : Aggregate U} {S R : Type}

/-- What the handlers of both kinds do with a command, once they have it. -/
def readWrite (store : S) (id : Uuid) (command : A.Command) (unread : Esrc.Error U → R)
    (after : Except (Esrc.Error U) (Root A) → Outcome R) : Prog (StoreSig A) (S × R) :=
  .call (.read id) fun
    | .error e => .ret (store, unread e)
    | .ok root => .call (.tryWrite root command) fun r => .ofOutcome ((after r).map fun a => (store, a))

variable {faults : Esrc.Error U → Prop} {store : S} {id : Uuid} {command : A.Command}
  {unread : Esrc.Error U → R} {after : Except (Esrc.Error U) (Root A) → Outcome R}

/-- On another stream it changes nothing of this one. -/
theorem readWrite_keeps {id' : Uuid} (other : id' ≠ id) :
    (readWrite store id' command unread after).Keeps (StoreFails A faults) (SameStream id) := by
  intro log r log' read
  cases read with
  | fails => exact ⟨.refl id log, trivial⟩
  | works read =>
      cases read
      refine ⟨.refl id log, ?_⟩
      intro log r log' written
      refine ⟨?_, .ofOutcome _⟩
      cases written with
      | fails => exact .refl id log
      | works written =>
          cases written with
          | append => exact .snoc other log _
          | conflict | reject => exact .refl id log

/-- What comes of a command that is put to the stream with these events. -/
inductive Wrote (faults : Esrc.Error U → Prop) (id : Uuid) (command : A.Command)
    (unread : Esrc.Error U → R) (after : Except (Esrc.Error U) (Root A) → Outcome R)
    (events : List A.Event) : Outcome R → List A.Event → Prop
  | stored {e : A.Event} {root : Root A} : A.process (A.fold events) command = .ok e → root.id = id →
      Wrote faults id command unread after events (after (.ok root)) (events ++ [e])
  | rejected {x : A.Error} : A.process (A.fold events) command = .error x →
      Wrote faults id command unread after events (after (.error (.external (.typed A.errorId x)))) events
  | failed {e : Esrc.Error U} : faults e →
      Wrote faults id command unread after events (after (.error e)) events
  | unread {e : Esrc.Error U} : faults e →
      Wrote faults id command unread after events (.value (unread e)) events

theorem Outcome.map_snd (o : Outcome R) (store : S) :
    (o.map fun a => (store, a)).map Prod.snd = o := by
  cases o <;> rfl

/-- On this stream, while the others keep away from it: never a conflict, unless the store makes one up. -/
theorem readWrite_serves (log : EventLog A) :
    ServedAs (StoreFails A faults) (SameStream id) (entriesOf id)
      (Wrote faults id command unread after) (entriesOf id log) (readWrite store id command unread after) log := by
  intro log₁ same₁
  refine ⟨.inl same₁.entries, fun r log₂ read => ?_⟩
  cases read with
  | @fails _ e _ fault =>
      intro log₃ same₃
      have kept := same₃.entries.trans same₁.entries
      have result : Wrote faults id command unread after (entriesOf id log) (.value (unread e))
          (entriesOf id log₃) := by
        rw [kept]
        exact .unread fault
      exact ⟨.inl kept, result⟩
  | works read =>
      cases read
      intro log₂ same₂
      have kept₂ := same₂.entries.trans same₁.entries
      refine ⟨.inl kept₂, fun r log₃ written => ?_⟩
      refine Assures.ofOutcome fun log₄ same₄ => ?_
      rw [Outcome.map_snd]
      have result : Wrote faults id command unread after (entriesOf id log) (after r) (entriesOf id log₄) := by
        rw [same₄.entries]
        cases written with
        | fails _ _ fault =>
            rw [kept₂]
            exact .failed fault
        | works written =>
            cases written with
            | @append _ _ e _ processed =>
                rw [Root.ofLog_aggregate, same₁.entries] at processed
                rw [Root.ofLog_id, entriesOf_snoc_self, kept₂]
                exact .stored processed rfl
            | conflict _ stale =>
                exact absurd same₂.last stale
            | reject rejected =>
                rw [Root.ofLog_aggregate, same₁.entries] at rejected
                rw [kept₂]
                exact .rejected rejected
      exact ⟨.inr ⟨_, result⟩, result⟩

end Writes

section Endpoints
variable {U : ErrorTypes} [TextFormat] [Uuid.Text] {A : Aggregate U} [Deserialize A.Command]
  [Serialize A.Error]

namespace CommandEndpoint

/-- The stream and the command that a payload is read as. -/
def reads : CommandEndpoint A → ByteArray → Option (Uuid × A.Command)
  | .aggregate _, payload => (fromSlice (CommandEnvelope A.Command) payload).toOption.map fun envelope =>
      (envelope.id, envelope.command)
  | .service C _ through _, payload => (fromSlice C payload).toOption.map through.route

/-- What comes of a write. -/
def after (k : CommandEndpoint A) (id : Uuid) (result : Except (Esrc.Error U) (Root A)) :
    Outcome (HandlerResult U) :=
  match k with
  | .aggregate _ => (writeReply id result).map fun reply => (toVec reply).mapError fun e => .format (.json e)
  | .service _ _ through _ => .value ((toVec (through.reply result)).mapError fun e => .format (.json e))

variable [ToString (Esrc.Error U)]

theorem handle_read {k : CommandEndpoint A} {S : Type} (store : S) {payload : ByteArray} {id : Uuid}
    {command : A.Command} (read : k.reads payload = some (id, command)) :
    (k.serve S).handle store payload = readWrite store id command .error (k.after id) := by
  cases k with
  | aggregate name =>
      cases decoded : fromSlice (CommandEnvelope A.Command) payload with
      | error e =>
          simp only [reads, decoded, Except.toOption, Option.map_none] at read
          cases read
      | ok envelope =>
          simp only [reads, decoded, Except.toOption, Option.map_some] at read
          cases read
          refine (AggregateCommandHandler.handle_decoded store decoded).trans ?_
          unfold readWrite
          congr 1
          funext r
          cases r with
          | error e => rfl
          | ok root =>
              simp only [AggregateCommandHandler.afterRead]
              congr 1
              funext r
              simp only [AggregateCommandHandler.afterWrite, after]
              cases writeReply envelope.id r <;> rfl
  | service C decode through name =>
      cases decoded : fromSlice C payload with
      | error e =>
          simp only [reads, decoded, Except.toOption, Option.map_none] at read
          cases read
      | ok c =>
          simp only [reads, decoded, Except.toOption, Option.map_some, Option.some.injEq] at read
          refine (ServiceCommandHandler.handle_decoded (.new through.handle name) store decoded).trans ?_
          change Prog.call (F := StoreSig A) (.read (through.route c).1) (through.afterRead store (through.route c).2) = _
          rw [read]
          unfold readWrite
          congr 1
          funext r
          cases r with
          | error e => rfl
          | ok root => rfl

/-- Other payloads are not taken to the store. -/
theorem handle_unread {k : CommandEndpoint A} {S : Type} (store : S) {payload : ByteArray}
    (unread : k.reads payload = none) :
    ∃ e, (k.serve S).handle store payload = .ret (store, .error (.format (.json e))) := by
  cases k with
  | aggregate name =>
      cases decoded : fromSlice (CommandEnvelope A.Command) payload with
      | error e => exact ⟨e, AggregateCommandHandler.handle_malformed store decoded⟩
      | ok envelope =>
          simp only [reads, decoded, Except.toOption, Option.map_some] at unread
          cases unread
  | service C decode through name =>
      cases decoded : fromSlice C payload with
      | error e =>
          refine ⟨e, ?_⟩
          change (ServiceCommandHandler.new through.handle name).handle store payload = _
          simp only [ServiceCommandHandler.handle, decoded]
      | ok c =>
          simp only [reads, decoded, Except.toOption, Option.map_some] at unread
          cases unread

end CommandEndpoint

/-- An endpoint for commands, or for queries over the events of the aggregate. -/
inductive StreamEndpoint {U : ErrorTypes} (A : Aggregate U) where
  | command (k : CommandEndpoint A)
  | query (q : LiveEndpoint A.Event)

/-- The requests for the stream `id`. -/
def StreamEndpoint.Addresses (id : Uuid) : StreamEndpoint A → ByteArray → Prop
  | .command k, payload => ∃ command, k.reads payload = some (id, command)
  | .query _, payload => fromSlice QueryEnvelope payload = .ok ⟨id⟩

/-- The requests that do not write to the stream `id`. -/
def StreamEndpoint.Spares (id : Uuid) : StreamEndpoint A → ByteArray → Prop
  | .command k, payload => ∀ command, k.reads payload ≠ some (id, command)
  | .query _, _ => True

/-- How a request for `id` is served by someone who has the events of `id` for himself. -/
inductive StreamServed (faults : Esrc.Error U → Prop) (id : Uuid) :
    StreamEndpoint A → ByteArray → List A.Event → Outcome (HandlerResult U) → List A.Event → Prop
  | command {k : CommandEndpoint A} {payload : ByteArray} {command : A.Command} {events events' : List A.Event}
      {o : Outcome (HandlerResult U)} :
      k.reads payload = some (id, command) → Wrote faults id command .error (k.after id) events o events' →
      StreamServed faults id (.command k) payload events o events'
  | shown {q : LiveEndpoint A.Event} {payload : ByteArray} {events : List A.Event} :
      fromSlice QueryEnvelope payload = .ok ⟨id⟩ →
      StreamServed faults id (.query q) payload events
        (.value (encodeReply U (q.query.projection (q.V.fold events)))) events
  | unreplayed {q : LiveEndpoint A.Event} {payload : ByteArray} {events : List A.Event} {e : Esrc.Error U} :
      fromSlice QueryEnvelope payload = .ok ⟨id⟩ → faults e →
      StreamServed faults id (.query q) payload events (.value (.error e)) events

/-- What a query replies after each of the ways in which a replay comes out. -/
theorem LiveEndpoint.afterReplay_served {faults : Esrc.Error U → Prop} {id : Uuid}
    (q : LiveEndpoint A.Event) {payload : ByteArray}
    (decoded : fromSlice QueryEnvelope payload = .ok ⟨id⟩) {log log' : EventLog A}
    {r : (ReplaySig U A.Event).Ret (.replayOne id 0)}
    (replayed : ReplayFails A faults (.replayOne id 0) log r log') :
    ∃ result, q.query.afterReplay r = .ret result ∧
      StreamServed (A := A) faults id (.query q) payload (entriesOf id log) (.value result) (entriesOf id log) := by
  cases replayed with
  | works =>
      refine ⟨_, ?_, .shown decoded⟩
      rw [List.drop_zero]
      exact LiveViewQuery.afterReplay_events q.query (entriesOf id log)
  | breaks _ _ n _ fault =>
      refine ⟨_, ?_, .unreplayed decoded fault⟩
      simp only [LiveViewQuery.afterReplay, LiveViewQuery.replay_append]
      rfl
  | fails _ _ fault => exact ⟨_, rfl, .unreplayed decoded fault⟩

variable [ToString (Esrc.Error U)] {ι : Type}

def StreamEndpoint.serve (S : Type) :
    StreamEndpoint A → Service ((StoreSig A).sum (ReplaySig U A.Event)) S (HandlerResult U)
  | .command k => (k.serve S).inl
  | .query q => (q.service U S).inr

variable {faults : Esrc.Error U → Prop} {id : Uuid} {S : Type}

theorem StreamEndpoint.keeps (k : StreamEndpoint A) {payload : ByteArray} (spares : k.Spares id payload)
    (store : S) : ((k.serve S).handle store payload).Keeps (failing A faults) (SameStream id) := by
  cases k with
  | command k =>
      change (((k.serve S).handle store payload).inl).Keeps _ _
      refine Keeps.inl ?_
      cases read : k.reads payload with
      | none =>
          obtain ⟨e, handled⟩ := k.handle_unread store read
          rw [handled]
          trivial
      | some request =>
          obtain ⟨id', command⟩ := request
          rw [k.handle_read store read]
          refine readWrite_keeps ?_
          rintro rfl
          exact spares command read
  | query q =>
      change (((q.service U S).handle store payload).inr).Keeps _ _
      refine Keeps.inr ?_
      cases decoded : fromSlice QueryEnvelope payload with
      | error e =>
          rw [q.handle_malformed store decoded]
          trivial
      | ok envelope =>
          rw [q.handle_decoded store decoded]
          intro log r log' replayed
          cases replayed.log_eq
          refine ⟨.refl id log, ?_⟩
          cases r with
          | error e => trivial
          | ok items =>
              simp only [LiveViewQuery.afterReplay, map_ofOutcome]
              exact .ofOutcome _

theorem StreamEndpoint.serves (k : StreamEndpoint A) {payload : ByteArray} (own : k.Addresses id payload)
    (store : S) (log : EventLog A) : ServedAs (failing A faults) (SameStream id) (entriesOf id)
      (StreamServed faults id k payload) (entriesOf id log) ((k.serve S).handle store payload) log := by
  cases k with
  | command k =>
      obtain ⟨command, read⟩ := own
      change Assures _ _ _ _ (((k.serve S).handle store payload).inl) log
      rw [k.handle_read store read]
      refine Assures.inl ?_
      exact ServedAs.imp (fun o events' wrote => StreamServed.command read wrote) (readWrite_serves log)
  | query q =>
      change Assures _ _ _ _ (((q.service U S).handle store payload).inr) log
      rw [q.handle_decoded store own]
      refine Assures.inr ?_
      intro log₁ same₁
      refine ⟨.inl same₁.entries, fun r log₂ replayed => ?_⟩
      cases replayed.log_eq
      obtain ⟨result, replied, served⟩ := q.afterReplay_served own replayed
      simp only [replied]
      intro log₃ same₃
      have kept := same₃.entries.trans same₁.entries
      refine ⟨.inl kept, ?_⟩
      change StreamServed faults id (.query q) payload (entriesOf id log) (.value result) (entriesOf id log₃)
      rw [same₃.entries, ← same₁.entries]
      exact served

theorem streams_separate (endpoints : ι → StreamEndpoint A) (id : Uuid) :
    Separates (fun i => (endpoints i).serve S) (failing A faults) (SameStream id) (entriesOf id)
      (fun i => StreamServed faults id (endpoints i)) (fun i => (endpoints i).Addresses id)
      (fun i => (endpoints i).Spares id) where
  refl := .refl id
  trans h h' := h.trans h'
  kept h := h.entries
  foreign spares store := StreamEndpoint.keeps _ spares store
  own addresses store log := StreamEndpoint.serves _ addresses store log

end Endpoints

section Sessions
variable {U : ErrorTypes} [TextFormat] [Uuid.Text] [ToString (Esrc.Error U)] {A : Aggregate U}
  [Deserialize A.Command] [Serialize A.Error] {ι S : Type} [DecidableEq ι]

/-- A client at work on the stream `id`, over any of the endpoints, while nobody else writes to it. -/
abbrev StreamSession (endpoints : ι → StreamEndpoint A) (faults : Esrc.Error U → Prop) (id : Uuid)
    (store : ι → S) (log : EventLog A) :=
  Session.Run (fun i => (endpoints i).serve S) (failing A faults) (fun i => (endpoints i).Addresses id)
    (fun i => (endpoints i).Spares id) store log

variable {endpoints : ι → StreamEndpoint A} {faults : Esrc.Error U → Prop} {id : Uuid} {store : ι → S}
  {log : EventLog A} {trace : List (SessionEvent ι (HandlerResult U))}
  {s : Session ι ((StoreSig A).sum (ReplaySig U A.Event)) S (HandlerResult U) (EventLog A)}

/-- Whatever goes on elsewhere, the replies are those of one who has the stream for himself, and the
stream is as they left it, or as the request left it that is not answered yet. -/
theorem sessions_are_sequential (h : StreamSession endpoints faults id store log trace s) :
    ∃ events, Replays (fun i => (endpoints i).serve S) (fun i => StreamServed faults id (endpoints i))
        (entriesOf id log) s.exchanged events ∧
      (s.awaited = none → entriesOf id s.cluster.world = events) ∧
      ∀ m, s.awaited = some m → entriesOf id s.cluster.world = events ∨
        ∃ o, StreamServed faults id (endpoints m.loop) m.payload events o (entriesOf id s.cluster.world) :=
  Session.Run.replays (streams_separate endpoints id) h

end Sessions

section Answers
variable {F G : Signature} {α L : Type}

/-- Answers to the calls of either component. -/
def answerSum (left : (op : F.Op) → L → F.Ret op × L) (right : (op : G.Op) → L → G.Ret op × L) :
    (op : (F.sum G).Op) → L → (F.sum G).Ret op × L
  | .inl op => left op
  | .inr op => right op

theorem runOn_inl {left : (op : F.Op) → L → F.Ret op × L} {right : (op : G.Op) → L → G.Ret op × L}
    (p : Prog F α) (l : L) : (p.inl (G := G)).runOn (answerSum left right) l = p.runOn left l := by
  induction p generalizing l with
  | ret a => rfl
  | panic message => rfl
  | call op next ih => exact ih (left op l).1 (left op l).2

theorem runOn_inr {left : (op : F.Op) → L → F.Ret op × L} {right : (op : G.Op) → L → G.Ret op × L}
    (p : Prog G α) (l : L) : (p.inr (F := F)).runOn (answerSum left right) l = p.runOn right l := by
  induction p generalizing l with
  | ret a => rfl
  | panic message => rfl
  | call op next ih => exact ih (right op l).1 (right op l).2

variable {U : ErrorTypes} {A : Aggregate U}

/-- What a replay returns, when nothing fails. -/
def ReplayOp.answer : ReplayOp → EventLog A → Except (Esrc.Error U) (List (Except (Esrc.Error U)
    (StoredEnvelope A.Event))) × EventLog A
  | .replayOne id start, log => (.ok ((entriesOf id (log.drop start)).map fun e => .ok (.ok e)), log)

theorem failing_answer (faults : Esrc.Error U → Prop) (op : ((StoreSig A).sum (ReplaySig U A.Event)).Op)
    (log : EventLog A) : failing A faults op log (answerSum StoreOp.answer ReplayOp.answer op log).1
      (answerSum StoreOp.answer ReplayOp.answer op log).2 := by
  cases op with
  | inl op => exact .works (storeStep_iff.mpr rfl)
  | inr op =>
      cases op with
      | replayOne id start => exact .works id start log

/-- Without faults a request comes to what the machine says. -/
theorem readWrite_runOn {S R : Type} (store : S) {id : Uuid} {command : A.Command}
    {unread : Esrc.Error U → R} {after : Except (Esrc.Error U) (Root A) → Outcome R}
    (roots : ∀ {root root' : Root A}, root.id = id → root'.id = id → after (.ok root) = after (.ok root'))
    {log : EventLog A} {events' : List A.Event} {o : Outcome R}
    (wrote : Wrote (fun _ => False) id command unread after (entriesOf id log) o events') :
    ∃ log', (readWrite store id command unread after).runOn StoreOp.answer log =
      (o.map fun a => (store, a), log') ∧ entriesOf id log' = events' := by
  have ended : ∀ (r : Except (Esrc.Error U) (Root A)) log', (StoreOp.tryWrite (Root.ofLog log id) command).answer
      log = (r, log') → (readWrite store id command unread after).runOn StoreOp.answer log =
        ((after r).map fun a => (store, a), log') := by
    intro r log' answered
    simp only [readWrite, runOn, StoreOp.answer] at answered ⊢
    rw [answered]
    cases after r <;> rfl
  cases wrote with
  | @stored e root processed same =>
      refine ⟨log ++ [(id, e)], ?_, entriesOf_snoc_self id log e⟩
      have alike : after (.ok root) = after (.ok ((Root.ofLog log id).written log e)) := roots same rfl
      rw [alike]
      refine ended _ _ ?_
      rw [answer_tryWrite_ofLog, processed]
  | rejected rejected =>
      refine ⟨log, ended _ _ ?_, rfl⟩
      rw [answer_tryWrite_ofLog, rejected]
  | failed fault => exact fault.elim
  | unread fault => exact fault.elim

end Answers

section Completeness
variable {U : ErrorTypes} [TextFormat] [Uuid.Text] {A : Aggregate U} [Serialize A.Error]

/-- The bytes of a reply of success. -/
def CommandEndpoint.success (k : CommandEndpoint A) (id : Uuid) : ByteArray :=
  match k with
  | .aggregate _ => TextFormat.print (CommandReply.encode ⟨id, true, none⟩)
  | .service _ _ _ _ => WriteThrough.success id

theorem CommandEndpoint.after_ok (k : CommandEndpoint A) {id : Uuid} {root : Root A} (same : root.id = id) :
    k.after id (.ok root) = .value (.ok (k.success id)) := by
  subst same
  cases k with
  | aggregate name => rfl
  | service C decode through name => rfl

variable [Deserialize A.Command]

theorem StreamServed.stored {faults : Esrc.Error U → Prop} {id : Uuid} {k : CommandEndpoint A}
    {payload : ByteArray} {command : A.Command} {events : List A.Event} {e : A.Event}
    (read : k.reads payload = some (id, command)) (processed : A.process (A.fold events) command = .ok e) :
    StreamServed faults id (.command k) payload events (.value (.ok (k.success id))) (events ++ [e]) := by
  let root : Root A := ⟨id, 0, A.default⟩
  have replies : k.after id (.ok root) = .value (.ok (k.success id)) := k.after_ok rfl
  refine .command read ?_
  rw [← replies]
  exact .stored processed rfl

theorem StreamServed.addresses {faults : Esrc.Error U → Prop} {id : Uuid} {k : StreamEndpoint A}
    {payload : ByteArray} {events events' : List A.Event} {o : Outcome (HandlerResult U)}
    (h : StreamServed faults id k payload events o events') : k.Addresses id payload := by
  cases h with
  | command read => exact ⟨_, read⟩
  | shown decoded => exact decoded
  | unreplayed decoded => exact decoded

variable [ToString (Esrc.Error U)]

theorem StreamEndpoint.runs (k : StreamEndpoint A) {S : Type} (store : S) {id : Uuid} {payload : ByteArray}
    {log : EventLog A} {events' : List A.Event} {r : HandlerResult U}
    (served : StreamServed (fun _ => False) id k payload (entriesOf id log) (.value r) events') :
    ∃ log', ((k.serve S).handle store payload).runOn (answerSum StoreOp.answer ReplayOp.answer) log =
      (.value (store, r), log') ∧ entriesOf id log' = events' := by
  cases served with
  | @command k _ command _ _ _ read wrote =>
      obtain ⟨log', ran, entries⟩ := readWrite_runOn store (fun same same' =>
        (k.after_ok same).trans (k.after_ok same').symm) wrote
      refine ⟨log', ?_, entries⟩
      change (((k.serve S).handle store payload).inl).runOn _ log = _
      rw [runOn_inl, k.handle_read store read]
      exact ran
  | @shown q _ _ decoded =>
      refine ⟨log, ?_, rfl⟩
      change (((q.service U S).handle store payload).inr).runOn _ log = _
      rw [runOn_inr, q.handle_decoded store decoded]
      simp only [runOn, ReplayOp.answer, List.drop_zero]
      have replied := LiveViewQuery.afterReplay_events (U := U) q.query (entriesOf id log)
      simp only [replied]
      rfl
  | unreplayed _ fault => exact fault.elim

variable {ι S : Type} [DecidableEq ι]

variable {endpoints : ι → StreamEndpoint A} {id : Uuid} {log : EventLog A}

/-- All that one who has the stream for himself is answered, a client can be answered. -/
theorem session_reached (store : ι → S) {exchanged : List (Exchanged ι)} {events : List A.Event}
    (h : Replays (fun i => (endpoints i).serve S) (fun i => StreamServed (fun _ => False) id (endpoints i))
      (entriesOf id log) exchanged events) :
    ∃ trace s, StreamSession endpoints (fun _ => False) id store log trace s ∧ s.awaited = none ∧
      s.exchanged = exchanged ∧ entriesOf id s.cluster.world = events ∧
      ∀ i, (s.cluster.endpoint i).Idle := by
  refine Session.reached ?_ ?_ store log h
  · exact fun served => served.addresses
  · intro i payload log r events' served own
    exact ⟨_, failing_answer _, (endpoints i).runs own served⟩

/-- What a client can be answered, if the store does not fail, is exactly what one who has the
stream for himself is answered. -/
theorem session_exchanges_iff (endpoints : ι → StreamEndpoint A) (id : Uuid) (store : ι → S)
    (log : EventLog A) (exchanged : List (Exchanged ι)) :
    (∃ trace s, StreamSession endpoints (fun _ => False) id store log trace s ∧ s.exchanged = exchanged) ↔
      ∃ events, Replays (fun i => (endpoints i).serve S) (fun i => StreamServed (fun _ => False) id (endpoints i))
        (entriesOf id log) exchanged events := by
  constructor
  · rintro ⟨trace, s, run, rfl⟩
    obtain ⟨events, replays, -⟩ := Session.Run.replays (streams_separate endpoints id) run
    exact ⟨events, replays⟩
  · rintro ⟨events, replays⟩
    obtain ⟨trace, s, run, -, exchanged', -⟩ := session_reached store replays
    exact ⟨trace, s, run, exchanged'⟩

end Completeness
end EsrcCqrs
