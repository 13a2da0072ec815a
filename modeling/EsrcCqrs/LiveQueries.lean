import EsrcCqrs.AggregateHistory
import EsrcCqrs.Isolation
import EsrcCqrs.CounterDomain

/-! Live queries next to the commands of one aggregate, in any interleaving. A query shows the
log as it is at its one replay, and so everything that was acknowledged before it was taken. -/

namespace EsrcCqrs
open Json Interaction KeyedLog RequestLoop

section Endpoints
variable {U : ErrorTypes} {E : Type}

/-- A live query handler, with its view and the encoding of its responses. -/
structure LiveEndpoint (E : Type) where
  V : View E
  R : Type
  encode : Serialize R
  query : LiveViewQuery V.toPartial R

attribute [instance] LiveEndpoint.encode

variable [TextFormat]

/-- The text of a query reply that reports success. -/
def Succeeds (body : ByteArray) : Prop :=
  ∃ reply : QueryReply, body = TextFormat.print reply.encode ∧ reply.success = true

/-- The reply shows the projected view of `id` over a log. -/
def LiveEndpoint.Shows (q : LiveEndpoint E) (id : Uuid) (log : List (Uuid × E)) (body : ByteArray) :
    Prop :=
  ∃ data, toValue (q.query.projection (q.V.fold (entriesOf id log))) = .ok data ∧
    body = TextFormat.print (QueryReply.encode ⟨true, some data, none⟩)

theorem not_succeeds_error [ToString (Esrc.Error U)] (e : Esrc.Error U) :
    ¬ Succeeds (NatsQueryDispatcher.body (.error e)) := by
  rintro ⟨reply, same, success⟩
  rw [NatsQueryDispatcher.body_error] at same
  have encoded := print_injective same
  simp only [QueryReply.encode, Value.object.injEq, List.cons.injEq, Prod.mk.injEq, Value.bool.injEq] at encoded
  exact Bool.false_ne_true (encoded.1.2.trans success)

/-- What a query makes of its replay: if it is a success at all, it shows the log of the call. -/
theorem LiveEndpoint.answers [ToString (Esrc.Error U)] (q : LiveEndpoint E) {id : Uuid}
    {log log' : List (Uuid × E)} {r : (ReplaySig U E).Ret (.replayOne id 0)}
    (returned : ReplayStep U E (.replayOne id 0) log r log') :
    ∃ result, q.query.afterReplay r = .ret result ∧
      (Succeeds (NatsQueryDispatcher.body result) →
        q.Shows id log (NatsQueryDispatcher.body result)) := by
  cases returned with
  | works =>
      rw [List.drop_zero, LiveViewQuery.afterReplay_events]
      refine ⟨_, rfl, ?_⟩
      cases written : toValue (q.query.projection (q.V.fold (entriesOf id log))) with
      | ok data =>
          rw [encodeReply_ok written]
          exact fun _ => ⟨data, written, rfl⟩
      | error e =>
          rw [encodeReply_error written]
          exact fun succeeds => absurd succeeds (not_succeeds_error _)
  | breaks _ _ n e =>
      refine ⟨.error e, ?_, fun succeeds => absurd succeeds (not_succeeds_error _)⟩
      simp only [LiveViewQuery.afterReplay, LiveViewQuery.replay_append]
      rfl
  | fails _ e => exact ⟨.error e, rfl, fun succeeds => absurd succeeds (not_succeeds_error _)⟩

variable [Uuid.Text] [ToString (Esrc.Error U)] {S : Type}

def LiveEndpoint.service (U : ErrorTypes) [ToString (Esrc.Error U)] (q : LiveEndpoint E) (S : Type) :
    Service (ReplaySig U E) S (HandlerResult U) :=
  NatsQueryDispatcher.service (q.query.toHandler S)

/-- A malformed query makes no call. -/
theorem LiveEndpoint.handle_malformed (q : LiveEndpoint E) (store : S) {payload : ByteArray}
    {e : Json.Error} (failed : fromSlice QueryEnvelope payload = .error e) :
    (q.service U S).handle store payload = .ret (store, .error (.format (.json e))) := by
  change (q.query.handle store payload).map _ = _
  simp only [LiveViewQuery.handle, failed]
  rfl

theorem LiveEndpoint.handle_decoded (q : LiveEndpoint E) (store : S) {payload : ByteArray} {id : Uuid}
    (decoded : fromSlice QueryEnvelope payload = .ok ⟨id⟩) :
    (q.service U S).handle store payload =
      .call (.replayOne id 0) fun r => (q.query.afterReplay r).map fun result => (store, result) := by
  change (q.query.handle store payload).map _ = _
  rw [q.query.handle_decoded store decoded]
  rfl

end Endpoints

section Stores
variable {U : ErrorTypes} {A : Aggregate U}

/-- The store behind commands and queries. -/
abbrev storeAndReplay (A : Aggregate U) : Interp ((StoreSig A).sum (ReplaySig U A.Event)) (EventLog A) :=
  (FaultyStep A).sum (ReplayStep U A.Event)

/-- No call takes anything from the log. -/
theorem storeAndReplay_extends {op : ((StoreSig A).sum (ReplaySig U A.Event)).Op} {log log' : EventLog A}
    {r : ((StoreSig A).sum (ReplaySig U A.Event)).Ret op} (h : storeAndReplay A op log r log') :
    log <+: log' := by
  cases op with
  | inl op => exact FaultyStep.log_extends h
  | inr op => exact (ReplayStep.log_eq h).symm ▸ List.prefix_refl log

end Stores

section Runs
variable {U : ErrorTypes} [TextFormat] [Uuid.Text] [ToString (Esrc.Error U)] {A : Aggregate U}
  [Deserialize A.Command] [Serialize A.Error] {ι κ S : Type} [DecidableEq ι] [DecidableEq κ]

/-- Command endpoints of one aggregate, and live queries over its events. -/
def commandsAndQueries (S : Type) (names : ι → String) (queries : κ → LiveEndpoint A.Event) :
    ι ⊕ κ → Service ((StoreSig A).sum (ReplaySig U A.Event)) S (HandlerResult U)
  | .inl i => (aggregateService A S (names i)).inl
  | .inr j => ((queries j).service U S).inr

variable {names : ι → String} {queries : κ → LiveEndpoint A.Event} {store : ι ⊕ κ → S}
  {log₀ : EventLog A} {n : Nat}

/-- A run of all of them, over a log that may have events from before. -/
abbrev LiveRun (names : ι → String) (queries : κ → LiveEndpoint A.Event) (store : ι ⊕ κ → S)
    (log₀ : EventLog A) (n : Nat) :=
  Cluster.Timed (commandsAndQueries S names queries) (storeAndReplay A) store log₀ n

variable (run : LiveRun names queries store log₀ n)

theorem LiveRun.log_extends {t u : Nat} (h : t ≤ u) (bound : u ≤ n) :
    (run.state t).world <+: (run.state u).world :=
  run.grows (P := fun s s' => s.world <+: s'.world) (fun _ => List.prefix_refl _)
    (fun h h' => h.trans h')
    (fun moved => moved.world (fun _ => List.prefix_refl _) storeAndReplay_extends) h bound

/-- At time `v` the store appended the event of request `k` of a command endpoint, decided on the
log of that time. -/
def Stored (i : ι) (k : Nat) (id : Uuid) (event : A.Event) (v : Nat) : Prop :=
  (∃ payload p command, ((run.state v).endpoint (.inl i)).phase = .handling k payload p ∧
    fromSlice (CommandEnvelope A.Command) payload = .ok ⟨id, command⟩ ∧
    A.process (A.fold (entriesOf id (run.state v).world)) command = .ok event) ∧
  (run.state (v + 1)).world = (run.state v).world ++ [(id, event)]

/-- A command endpoint at time `t`: success is replied for stored events only. -/
structure CommandTrace (i : ι) (t : Nat)
    (e : Endpoint ((StoreSig A).sum (ReplaySig U A.Event)) S (HandlerResult U)) : Prop where
  inHand : ∀ k payload p, e.phase = .handling k payload p →
    ∃ (q : Prog (StoreSig A) (S × HandlerResult U)) (stored : Bool), p = q.inl ∧
      Stage (run.state t).world payload stored q ∧
      (stored = true → ∀ envelope, fromSlice (CommandEnvelope A.Command) payload = .ok envelope →
        ∃ v < t, ∃ event, Stored run i k envelope.id event v)
  replies : ∀ k body, (k, body) ∈ e.attempts →
    Refusal body ∨ ∃ id, body = TextFormat.print (CommandReply.encode ⟨id, true, none⟩) ∧
      ∃ v < t, ∃ event, Stored run i k id event v

variable {run}

theorem CommandTrace.later {i : ι} {t : Nat}
    {e : Endpoint ((StoreSig A).sum (ReplaySig U A.Event)) S (HandlerResult U)} (bound : t < n)
    (h : CommandTrace run i t e) : CommandTrace run i (t + 1) e := by
  constructor
  · intro k payload p phase
    obtain ⟨q, stored, left, stage, before⟩ := h.inHand k payload p phase
    refine ⟨q, stored, left, stage.mono (run.log_extends (Nat.le_succ t) bound), ?_⟩
    intro is_stored envelope decoded
    obtain ⟨v, earlier, at_v⟩ := before is_stored envelope decoded
    exact ⟨v, Nat.lt_succ_of_lt earlier, at_v⟩
  · intro k body member
    rcases h.replies k body member with refusal | ⟨id, written, v, earlier, at_v⟩
    · exact .inl refusal
    · exact .inr ⟨id, written, v, Nat.lt_succ_of_lt earlier, at_v⟩

/-- One step of a command endpoint. -/
theorem CommandTrace.step {i : ι} {t : Nat} {a : Act (HandlerResult U)}
    {e : Endpoint ((StoreSig A).sum (ReplaySig U A.Event)) S (HandlerResult U)} (bound : t < n)
    (moved : RequestLoop.Step (commandsAndQueries S names queries (.inl i)) (storeAndReplay A)
      ((run.state t).endpoint (.inl i)) (run.state t).world a e (run.state (t + 1)).world)
    (h : CommandTrace run i t ((run.state t).endpoint (.inl i))) : CommandTrace run i (t + 1) e := by
  have kept := h.later bound
  generalize at_next : (run.state (t + 1)).world = log at moved
  cases moved with
  | arrive | close => exact ⟨kept.inHand, kept.replies⟩
  | take =>
      refine ⟨?_, kept.replies⟩
      intro k payload p handling
      cases handling
      exact ⟨_, false, rfl, stage_handle _ _ _, nofun⟩
  | call phase returned =>
      refine ⟨?_, kept.replies⟩
      intro k payload p handling
      cases handling
      obtain ⟨q, stored, left, stage, -⟩ := h.inHand _ _ _ phase
      cases q with
      | ret a => cases left
      | panic message => cases left
      | call op next =>
          cases left
          obtain ⟨-, ⟨-, stage'⟩ | ⟨envelope, event, decoded, processed, appended, stage'⟩⟩ :=
            stage.call returned
          · refine ⟨_, false, rfl, ?_, nofun⟩
            exact stage'.mono (run.log_extends (Nat.le_succ t) bound)
          · refine ⟨_, true, rfl, at_next ▸ stage', ?_⟩
            intro _ envelope' decoded'
            cases decoded.symm.trans decoded'
            exact ⟨t, Nat.lt_succ_self t, event, ⟨_, _, _, phase, decoded, processed⟩,
              at_next.trans appended⟩
  | finish phase =>
      refine ⟨nofun, ?_⟩
      intro k body member
      rcases List.mem_append.mp member with earlier | last
      · exact kept.replies k body earlier
      · rw [List.mem_singleton] at last
        cases last
        obtain ⟨q, stored, left, stage, before⟩ := kept.inHand _ _ _ phase
        cases q with
        | ret a =>
            cases left
            cases stage with
            | accepted _ decoded body => exact .inr ⟨_, body, before rfl _ decoded⟩
            | refused _ refusal => exact .inl refusal
        | panic message => cases left
        | call op next => cases left
  | unwind | responded | leave => exact ⟨nofun, kept.replies⟩

theorem command_trace (i : ι) {t : Nat} (h : t ≤ n) :
    CommandTrace run i t ((run.state t).endpoint (.inl i)) := by
  refine run.endpoint (.inl i) (T := CommandTrace run i) ⟨nofun, nofun⟩ ?_ ?_ ?_ h
  · exact fun t e bound holds => holds.later bound
  · intro t e holds
    exact ⟨fun k payload p phase => absurd phase (e.stop_phase_ne k payload p), holds.replies⟩
  · exact fun t a e bound _ moved holds => holds.step bound moved

variable (run) in
/-- A reply of query endpoint `j` to `payload` is one out of the log at time `u`. -/
def Told (j : κ) (u : Nat) (payload body : ByteArray) : Prop :=
  ∀ id, fromSlice QueryEnvelope payload = .ok ⟨id⟩ → Succeeds body →
    (queries j).Shows id (run.state u).world body

variable (run) in
/-- A query endpoint at time `t`: its replies are told out of the log at a time at which their
request was in hand. -/
structure QueryTrace (j : κ) (t : Nat)
    (e : Endpoint ((StoreSig A).sum (ReplaySig U A.Event)) S (HandlerResult U)) : Prop where
  inHand : ∀ k payload p, e.phase = .handling k payload p →
    (∃ store, p = (((queries j).service U S).handle store payload).inr) ∨
    ∃ store result, p = .ret (store, result) ∧ ∃ u < t, ∃ q,
      ((run.state u).endpoint (.inr j)).phase = .handling k payload q ∧
      Told run j u payload (NatsQueryDispatcher.body result)
  replies : ∀ k body, (k, body) ∈ e.attempts → ∃ u < t, ∃ payload q,
    ((run.state u).endpoint (.inr j)).phase = .handling k payload q ∧ Told run j u payload body

theorem QueryTrace.later {j : κ} {t : Nat}
    {e : Endpoint ((StoreSig A).sum (ReplaySig U A.Event)) S (HandlerResult U)}
    (h : QueryTrace run j t e) : QueryTrace run j (t + 1) e := by
  constructor
  · intro k payload p phase
    rcases h.inHand k payload p phase with fresh | ⟨store, result, same, u, earlier, told⟩
    · exact .inl fresh
    · exact .inr ⟨store, result, same, u, Nat.lt_succ_of_lt earlier, told⟩
  · intro k body member
    obtain ⟨u, earlier, told⟩ := h.replies k body member
    exact ⟨u, Nat.lt_succ_of_lt earlier, told⟩

/-- One step of a query endpoint. -/
theorem QueryTrace.step {j : κ} {t : Nat} {a : Act (HandlerResult U)}
    {e : Endpoint ((StoreSig A).sum (ReplaySig U A.Event)) S (HandlerResult U)}
    (moved : RequestLoop.Step (commandsAndQueries S names queries (.inr j)) (storeAndReplay A)
      ((run.state t).endpoint (.inr j)) (run.state t).world a e (run.state (t + 1)).world)
    (h : QueryTrace run j t ((run.state t).endpoint (.inr j))) : QueryTrace run j (t + 1) e := by
  have kept := h.later
  generalize (run.state (t + 1)).world = log at moved
  cases moved with
  | arrive | close => exact ⟨kept.inHand, kept.replies⟩
  | take =>
      refine ⟨?_, kept.replies⟩
      intro k payload p handling
      cases handling
      exact .inl ⟨_, rfl⟩
  | @call _ k payload op next r phase returned =>
      refine ⟨?_, kept.replies⟩
      intro k' payload' p handling
      cases handling
      rcases h.inHand _ _ _ phase with ⟨store, fresh⟩ | ⟨store, result, same, -⟩
      · cases decoded : fromSlice QueryEnvelope payload with
        | error e =>
            rw [LiveEndpoint.handle_malformed _ store decoded] at fresh
            cases fresh
        | ok envelope =>
            rw [LiveEndpoint.handle_decoded _ store decoded] at fresh
            cases fresh
            obtain ⟨result, replied, shows⟩ := (queries j).answers returned
            refine .inr ⟨store, result, ?_, t, Nat.lt_succ_self t, _, phase, ?_⟩
            · simp only [replied]
              rfl
            · intro id decoded' succeeds
              cases decoded.symm.trans decoded'
              exact shows succeeds
      · cases same
  | @finish k payload store r phase =>
      refine ⟨nofun, ?_⟩
      intro k' body member
      rcases List.mem_append.mp member with earlier | last
      · exact kept.replies k' body earlier
      · rw [List.mem_singleton] at last
        cases last
        rcases h.inHand _ _ _ phase with ⟨store', fresh⟩ | ⟨store', result, same, u, earlier, q, at_u, told⟩
        · refine ⟨t, Nat.lt_succ_self t, payload, _, phase, ?_⟩
          intro id decoded
          -- a decoded query is not over before its replay
          rw [LiveEndpoint.handle_decoded _ store' decoded] at fresh
          cases fresh
        · cases same
          exact ⟨u, Nat.lt_succ_of_lt earlier, payload, q, at_u, told⟩
  | unwind | responded | leave => exact ⟨nofun, kept.replies⟩

theorem query_trace (j : κ) {t : Nat} (h : t ≤ n) :
    QueryTrace run j t ((run.state t).endpoint (.inr j)) := by
  refine run.endpoint (.inr j) (T := QueryTrace run j) ⟨nofun, nofun⟩ ?_ ?_ ?_ h
  · exact fun t e _ holds => holds.later
  · intro t e holds
    exact ⟨fun k payload p phase => absurd phase (e.stop_phase_ne k payload p), holds.replies⟩
  · exact fun t a e _ _ moved holds => holds.step moved

variable (run) in
/-- What the live queries of a run show: `seen j k` is the part of the log behind reply `k` of
query endpoint `j`. -/
structure SeesAcknowledged (seen : κ → Nat → EventLog A) : Prop where
  shows : ∀ j k body payload id, (k, body) ∈ ((run.state n).endpoint (.inr j)).attempts →
    ((run.state n).endpoint (.inr j)).stream[k]? = some payload →
    fromSlice QueryEnvelope payload = .ok ⟨id⟩ → Succeeds body → (queries j).Shows id (seen j k) body
  within : ∀ j k id, k < ((run.state n).endpoint (.inr j)).attempts.length →
    entriesOf id (seen j k) <+: entriesOf id (run.state n).world
  acknowledged : ∀ t ≤ n, ∀ i k (reply : CommandReply),
    (k, TextFormat.print reply.encode) ∈ ((run.state t).endpoint (.inl i)).attempts →
    reply.success = true →
    ∃ v < t, ∃ event, Stored run i k reply.id event v ∧
      ∀ j k', ((run.state t).endpoint (.inr j)).taken ≤ k' →
        k' < ((run.state n).endpoint (.inr j)).attempts.length →
        entriesOf reply.id (run.state v).world ++ [event] <+: entriesOf reply.id (seen j k')
  successive : ∀ t ≤ n, ∀ j k j' k' id, k < ((run.state t).endpoint (.inr j)).attempts.length →
    ((run.state t).endpoint (.inr j')).taken ≤ k' →
    k' < ((run.state n).endpoint (.inr j')).attempts.length →
    entriesOf id (seen j k) <+: entriesOf id (seen j' k')
  readOnly : ∀ t < n, ∀ j a, run.label t = .act (.inr j) a →
    (run.state (t + 1)).world = (run.state t).world

/-- The step of a query endpoint leaves the log as it is. -/
theorem query_step_keeps_log {t : Nat} (bound : t < n) {j : κ} {a : Act (HandlerResult U)}
    (own : run.label t = .act (.inr j) a) : (run.state (t + 1)).world = (run.state t).world := by
  have moved := run.moves t bound
  have trace : QueryTrace run j t ((run.state t).endpoint (.inr j)) :=
    query_trace j (Nat.le_of_lt bound)
  rw [own] at moved
  generalize run.state (t + 1) = s' at moved
  cases moved with
  | act moved =>
      cases moved with
      | @call _ k payload op next r phase returned =>
          rcases trace.inHand _ _ _ phase with ⟨store, fresh⟩ | ⟨store, result, same, -⟩
          · cases decoded : fromSlice QueryEnvelope payload with
            | error e =>
                rw [LiveEndpoint.handle_malformed _ store decoded] at fresh
                cases fresh
            | ok envelope =>
                rw [LiveEndpoint.handle_decoded _ store decoded] at fresh
                cases fresh
                exact ReplayStep.log_eq returned
          · cases same
      | _ => rfl

/-- In every run some parts of the log account for all that the live queries reply. -/
theorem live_queries_see_acknowledged (run : LiveRun names queries store log₀ n) :
    ∃ seen, SeesAcknowledged run seen := by
  -- an answered query was in hand at the one time at which it replayed the log
  have replayed : ∀ j k, ∃ log, k < ((run.state n).endpoint (.inr j)).attempts.length →
      ∃ u ≤ n, log = (run.state u).world ∧ ∃ payload q,
        ((run.state u).endpoint (.inr j)).phase = .handling k payload q ∧
        ∀ body, (k, body) ∈ ((run.state n).endpoint (.inr j)).attempts → Told run j u payload body := by
    intro j k
    by_cases answered : k < ((run.state n).endpoint (.inr j)).attempts.length
    · have ordered := run.ordered (Nat.le_refl n) (.inr j)
      obtain ⟨body, member⟩ := ordered.attempt_at answered
      obtain ⟨u, earlier, payload, q, at_u, told⟩ := (query_trace j (Nat.le_refl n)).replies k body member
      refine ⟨_, fun _ => ⟨u, Nat.le_of_lt earlier, rfl, payload, q, at_u, ?_⟩⟩
      intro body' member'
      rw [ordered.attempt_unique member' member]
      exact told
    · exact ⟨log₀, fun h => absurd h answered⟩
  choose seen replayed using replayed
  refine ⟨seen, ?_, ?_, ?_, ?_, ?_⟩
  · intro j k body payload id member there decoded succeeds
    have answered := (run.ordered (Nat.le_refl n) (.inr j)).attempt_lt member
    obtain ⟨u, inside, log, payload', q, at_u, told⟩ := replayed j k answered
    cases there.symm.trans (run.payload_at inside at_u)
    rw [log]
    exact told body member id decoded succeeds
  · intro j k id answered
    obtain ⟨u, inside, log, -⟩ := replayed j k answered
    rw [log]
    exact entriesOf_prefix id (run.log_extends inside (Nat.le_refl n))
  · intro t bound i k reply member success
    rcases (command_trace i bound).replies k _ member with
      refusal | ⟨id, written, v, earlier, event, stored⟩
    · obtain ⟨reply', written, failure⟩ := refusal
      cases CommandReply.print_encode_injective written
      exact absurd (failure.symm.trans success) nofun
    · cases CommandReply.print_encode_injective written
      refine ⟨v, earlier, event, stored, ?_⟩
      intro j k' untaken answered
      obtain ⟨u, inside, log, payload, q, at_u, -⟩ := replayed j k' answered
      have later := run.taken_before bound at_u untaken inside
      rw [log, ← entriesOf_snoc_self, ← stored.2]
      exact entriesOf_prefix id (run.log_extends (Nat.le_trans earlier later) inside)
  · intro t bound j k j' k' id answered untaken answered'
    have grown := (run.extends bound (Nat.le_refl n) (.inr j)).attempts.length_le
    obtain ⟨u, inside, log, payload, q, at_u, -⟩ := replayed j k (Nat.lt_of_lt_of_le answered grown)
    obtain ⟨u', inside', log', payload', q', at_u', -⟩ := replayed j' k' answered'
    have before := run.answered_after inside at_u answered
    have after := run.taken_before bound at_u' untaken inside'
    rw [log, log']
    exact entriesOf_prefix id (run.log_extends (Nat.le_trans before after) inside')
  · exact fun t bound j a own => query_step_keeps_log bound own

end Runs

section Counters
open Counter

/-- The counter's state, as it is. -/
def counterState : Unit → LiveEndpoint CounterEvent := fun _ =>
  ⟨view, Int, inferInstance, ⟨"Counter.GetState", id⟩⟩

/-- An increment is acknowledged, and a query taken after it. -/
theorem live_queries_see_acknowledged_counter :
    ∃ (n : Nat) (run : LiveRun (A := aggregate) (fun _ : Unit => "Counter") counterState (fun _ => ()) [] n)
      (seen : Unit → Nat → EventLog aggregate), SeesAcknowledged run seen ∧
      ((run.state n).endpoint (.inl ())).attempts =
        [(0, TextFormat.print (CommandReply.encode ⟨Uuid.nil, true, none⟩))] ∧
      ((run.state n).endpoint (.inr ())).attempts =
        [(0, TextFormat.print (QueryReply.encode ⟨true, some (.number ⟨1, 0⟩), none⟩))] := by
  obtain ⟨question, -, decoded'⟩ := QueryEnvelope.readsBack ⟨Uuid.nil⟩
  have decoded : fromSlice (CommandEnvelope aggregate.Command) (payload Uuid.nil (.increment 1)) =
      .ok ⟨Uuid.nil, .increment 1⟩ := fromSlice_payload Uuid.nil (.increment 1)
  generalize payload Uuid.nil (.increment 1) = request at decoded
  let services := commandsAndQueries (A := aggregate) Unit (fun _ : Unit => "Counter") counterState
  have handles : (services (.inl ())).handle () request = .call (.inl (.read Uuid.nil)) fun r =>
      (AggregateCommandHandler.afterRead (A := aggregate) () ⟨Uuid.nil, .increment 1⟩ r).inl :=
    congrArg Prog.inl (AggregateCommandHandler.handle_decoded (A := aggregate) () decoded)
  have asks : (services (.inr ())).handle () question = .call (.inr (.replayOne Uuid.nil 0)) fun r =>
      (((counterState ()).query.afterReplay r).map fun result => ((), result)).inr :=
    congrArg Prog.inr ((counterState ()).handle_decoded (U := errors) () decoded')
  have reads : storeAndReplay aggregate (.inl (.read Uuid.nil)) [] (.ok (Root.ofLog [] Uuid.nil)) [] :=
    FaultyStep.works (.read Uuid.nil [])
  have writes : storeAndReplay aggregate
      (.inl (.tryWrite (Root.ofLog [] Uuid.nil) (.increment 1))) []
      (.ok ((Root.ofLog [] Uuid.nil).written [] (.incremented 1))) [(Uuid.nil, .incremented 1)] :=
    FaultyStep.works (.append rfl rfl)
  have replays : storeAndReplay aggregate (.inr (.replayOne Uuid.nil 0)) [(Uuid.nil, .incremented 1)]
      (.ok [.ok (.ok (.incremented 1))]) [(Uuid.nil, .incremented 1)] := ReplayStep.works Uuid.nil 0 _
  have start : Cluster.Run services (storeAndReplay aggregate) (fun _ => ()) [] [] _ := .start rfl
  have taken := (start.snoc
    (Cluster.Step.act (i := Sum.inl ()) (.arrive request rfl))).snoc
    (Cluster.Step.act (i := Sum.inl ()) (.take rfl rfl))
  have read := taken.snoc (Cluster.Step.act (i := Sum.inl ()) (w := [])
    (.call (congrArg (Phase.handling 0 request) handles) reads))
  have written := (read.snoc (Cluster.Step.act (i := Sum.inl ()) (w := [(Uuid.nil, .incremented 1)])
    (.call rfl writes))).snoc (Cluster.Step.act (i := Sum.inl ()) (.finish rfl))
  have asked := (written.snoc
    (Cluster.Step.act (i := Sum.inr ()) (.arrive question rfl))).snoc
    (Cluster.Step.act (i := Sum.inr ()) (.take rfl rfl))
  have answered := (asked.snoc (Cluster.Step.act (i := Sum.inr ()) (w := [(Uuid.nil, .incremented 1)])
    (.call (congrArg (Phase.handling 0 question) asks) replays))).snoc
    (Cluster.Step.act (i := Sum.inr ()) (.finish rfl))
  have : Inhabited (Label (Unit ⊕ Unit) (HandlerResult errors)) := ⟨.stop fun _ => false⟩
  obtain ⟨run, last⟩ := answered.timeline
  obtain ⟨seen, sees⟩ := live_queries_see_acknowledged run
  refine ⟨_, run, seen, sees, ?_, ?_⟩
  · rw [last]
    rfl
  · rw [last]
    rfl

end Counters
end EsrcCqrs
