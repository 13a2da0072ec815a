import EsrcCqrs.Dispatchers
import EsrcCqrs.CounterDomain

/-! Any number of aggregate endpoints on one event log, in any interleaving: every event
was decided on the state after the earlier events of its id, for one accepted request. -/

namespace EsrcCqrs
open Json Interaction KeyedLog RequestLoop

section Histories
variable {U : ErrorTypes} {A : Aggregate U} {ι : Type}

/-- A request that was accepted, with the event appended for it. -/
structure Accepted (ι : Type) {U : ErrorTypes} (A : Aggregate U) where
  endpoint : ι
  index : Nat
  id : Uuid
  command : A.Command
  event : A.Event

namespace Accepted

def request (a : Accepted ι A) : ι × Nat := (a.endpoint, a.index)

def entry (a : Accepted ι A) : Uuid × A.Event := (a.id, a.event)

end Accepted

/-- The event log that a history stands for. -/
def logOf (history : List (Accepted ι A)) : EventLog A := history.map Accepted.entry

def requestsOf (history : List (Accepted ι A)) : List (ι × Nat) := history.map Accepted.request

theorem mem_requestsOf {history : List (Accepted ι A)} {request : ι × Nat} :
    request ∈ requestsOf history ↔ ∃ a ∈ history, a.request = request := by
  unfold requestsOf
  exact List.mem_map

/-- Distinct requests stand at distinct positions. -/
theorem position_unique {history : List (Accepted ι A)} (distinct : (requestsOf history).Nodup)
    {n m : Nat} {a b : Accepted ι A} (ha : history[n]? = some a) (hb : history[m]? = some b)
    (same : a.request = b.request) : n = m := by
  have here : (requestsOf history)[n]? = some a.request := by
    rw [requestsOf, List.getElem?_map, ha]
    rfl
  have there : (requestsOf history)[m]? = some b.request := by
    rw [requestsOf, List.getElem?_map, hb]
    rfl
  have bound := (List.getElem?_eq_some_iff.mp here).1
  exact (List.getElem?_inj bound distinct).mp (here.trans (same ▸ there.symm))

/-- Each event is the decision of its command on the earlier events of its id. -/
inductive Decided : List (Accepted ι A) → Prop
  | nil : Decided []
  | snoc {history : List (Accepted ι A)} {a : Accepted ι A} :
      Decided history → A.process (A.fold (entriesOf a.id (logOf history))) a.command = .ok a.event →
      Decided (history ++ [a])

theorem logOf_snoc (history : List (Accepted ι A)) (a : Accepted ι A) :
    logOf (history ++ [a]) = logOf history ++ [(a.id, a.event)] := by
  simp only [logOf, List.map_append, List.map_cons, List.map_nil, Accepted.entry]

theorem requestsOf_snoc (history : List (Accepted ι A)) (a : Accepted ι A) :
    requestsOf (history ++ [a]) = requestsOf history ++ [a.request] := by
  simp only [requestsOf, List.map_append, List.map_cons, List.map_nil]

theorem entriesOf_logOf (id : Uuid) (history : List (Accepted ι A)) :
    entriesOf id (logOf history) = (history.filter (·.id = id)).map Accepted.event := by
  induction history with
  | nil => rfl
  | cons a history ih =>
      have rest : entriesOf id (logOf (a :: history)) =
          (if a.id = id then [a.event] else []) ++ entriesOf id (logOf history) := by
        by_cases same : a.id = id <;> simp [entriesOf, logOf, Accepted.entry, same]
      rw [rest, ih]
      by_cases same : a.id = id <;> simp [same]

/-- The decisions, read stream by stream. -/
theorem Decided.decided {history : List (Accepted ι A)} (h : Decided history) {id : Uuid} {k : Nat}
    {a : Accepted ι A} (there : (history.filter (·.id = id))[k]? = some a) :
    A.process (A.fold ((entriesOf id (logOf history)).take k)) a.command = .ok a.event := by
  induction h with
  | nil => cases there
  | @snoc history b _ decided ih =>
      rw [entriesOf_logOf]
      rw [List.filter_append] at there ⊢
      by_cases early : k < (history.filter (·.id = id)).length
      · rw [List.getElem?_append_left early] at there
        rw [List.map_append, List.take_append_of_le_length (by rw [List.length_map]; omega)]
        have before := ih there
        rw [entriesOf_logOf] at before
        exact before
      · rw [List.getElem?_append_right (Nat.le_of_not_lt early)] at there
        by_cases same : b.id = id
        · subst same
          have last : k = (history.filter (·.id = b.id)).length := by
            have bound := (List.getElem?_eq_some_iff.mp there).1
            simp only [decide_true, List.filter_cons_of_pos, List.filter_nil,
              List.length_singleton] at bound
            omega
          subst last
          simp only [Nat.sub_self, decide_true, List.filter_cons_of_pos, List.filter_nil,
            List.getElem?_cons_zero, Option.some.injEq] at there
          subst there
          rw [entriesOf_logOf] at decided
          rw [List.map_append, List.take_append_of_le_length (by rw [List.length_map]),
            List.take_of_length_le (by rw [List.length_map])]
          exact decided
        · simp [same] at there

variable [TextFormat] [Uuid.Text]

/-- A reply of `request` tells the truth about the history. -/
def Truthful (history : List (Accepted ι A)) (request : ι × Nat) (body : ByteArray) : Prop :=
  ∃ reply : CommandReply, body = TextFormat.print reply.encode ∧
    (reply.success = true → ∃ a ∈ history, a.request = request ∧ a.id = reply.id) ∧
    (reply.success = false → request ∉ requestsOf history)

/-- The acceptance of another request changes nothing for a reply. -/
theorem Truthful.grow {history : List (Accepted ι A)} {request : ι × Nat} {body : ByteArray}
    (h : Truthful history request body) {a : Accepted ι A} (other : request ≠ a.request) :
    Truthful (history ++ [a]) request body := by
  obtain ⟨reply, written, success, failure⟩ := h
  refine ⟨reply, written, ?_, ?_⟩
  · intro good
    obtain ⟨b, earlier, rest⟩ := success good
    exact ⟨b, List.mem_append_left _ earlier, rest⟩
  · intro bad stored
    rw [requestsOf_snoc, List.mem_append, List.mem_singleton] at stored
    exact stored.elim (failure bad) other

end Histories

section Stages
variable {U : ErrorTypes} [TextFormat] [Uuid.Text] [ToString (Esrc.Error U)] {A : Aggregate U}
  [Deserialize A.Command] [Serialize A.Error] {S : Type}

/-- A reply with `success = false`. -/
def Refusal (body : ByteArray) : Prop :=
  ∃ reply : CommandReply, body = TextFormat.print reply.encode ∧ reply.success = false

/-- Where the program of a request stands over a log, and whether its event is stored. A root
in hand is that of some earlier state of the log. -/
inductive Stage (log : EventLog A) (payload : ByteArray) :
    Bool → Prog (StoreSig A) (S × HandlerResult U) → Prop
  | reading {envelope : CommandEnvelope A.Command} (store : S) :
      fromSlice (CommandEnvelope A.Command) payload = .ok envelope →
      Stage log payload false
        (.call (.read envelope.id) (AggregateCommandHandler.afterRead store envelope))
  | writing {envelope : CommandEnvelope A.Command} {earlier : EventLog A} (store : S) :
      fromSlice (CommandEnvelope A.Command) payload = .ok envelope → earlier <+: log →
      Stage log payload false
        (.call (.tryWrite (Root.ofLog earlier envelope.id) envelope.command)
          (AggregateCommandHandler.afterWrite store envelope.id))
  | accepted {envelope : CommandEnvelope A.Command} {r : HandlerResult U} (store : S) :
      fromSlice (CommandEnvelope A.Command) payload = .ok envelope →
      NatsCommandDispatcher.body r =
        TextFormat.print (CommandReply.encode ⟨envelope.id, true, none⟩) →
      Stage log payload true (.ret (store, r))
  | refused {r : HandlerResult U} (store : S) :
      Refusal (NatsCommandDispatcher.body r) → Stage log payload false (.ret (store, r))
  | panicked (message : String) : Stage log payload false (.panic message)

theorem refusal_error (e : Esrc.Error U) : Refusal (NatsCommandDispatcher.body (.error e)) :=
  ⟨NatsCommandDispatcher.failure e, NatsCommandDispatcher.body_error e, rfl⟩

theorem Stage.mono {log log' : EventLog A} {payload : ByteArray} {stored : Bool}
    {p : Prog (StoreSig A) (S × HandlerResult U)} (h : Stage log payload stored p)
    (longer : log <+: log') : Stage log' payload stored p := by
  cases h with
  | reading store decoded => exact .reading store decoded
  | writing store decoded earlier => exact .writing store decoded (earlier.trans longer)
  | accepted store decoded body => exact .accepted store decoded body
  | refused store refusal => exact .refused store refusal
  | panicked message => exact .panicked message

theorem stage_handle (log : EventLog A) (store : S) (payload : ByteArray) :
    Stage log payload false (AggregateCommandHandler.handle (A := A) store payload) := by
  cases decoded : fromSlice (CommandEnvelope A.Command) payload with
  | error e =>
      rw [AggregateCommandHandler.handle_malformed store decoded]
      exact .refused store (refusal_error _)
  | ok envelope =>
      rw [AggregateCommandHandler.handle_decoded store decoded]
      exact .reading store decoded

/-- A write that returns an error leads to a refusal, or unwinds. -/
theorem stage_afterWrite_error (log : EventLog A) (payload : ByteArray) (store : S) (aggId : Uuid)
    (e : Esrc.Error U) :
    Stage log payload false
      (AggregateCommandHandler.afterWrite (A := A) store aggId (.error e)) := by
  rw [AggregateCommandHandler.afterWrite_error]
  cases convertEsrcError A e with
  | value err => exact .refused store ⟨⟨aggId, false, some err⟩, rfl, rfl⟩
  | panicked message => exact .panicked message

/-- What one call of the store does to a request in progress: either nothing is appended
and the request stays unaccepted, or its event is, decided on the log as it is now. -/
theorem Stage.call {log log' : EventLog A} {payload : ByteArray} {stored : Bool} {op : StoreOp A}
    {next : Except (Esrc.Error U) (Root A) → Prog (StoreSig A) (S × HandlerResult U)}
    {r : Except (Esrc.Error U) (Root A)} (h : Stage log payload stored (.call op next))
    (returned : FaultyStep A op log r log') :
    stored = false ∧ ((log' = log ∧ Stage log payload false (next r)) ∨
      ∃ envelope e, fromSlice (CommandEnvelope A.Command) payload = .ok envelope ∧
        A.process (A.fold (entriesOf envelope.id log)) envelope.command = .ok e ∧
        log' = log ++ [(envelope.id, e)] ∧ Stage log' payload true (next r)) := by
  cases h with
  | reading store decoded =>
      refine ⟨rfl, .inl ?_⟩
      cases returned with
      | fails => exact ⟨rfl, .refused store (refusal_error _)⟩
      | works returned =>
          cases returned
          exact ⟨rfl, .writing store decoded (List.prefix_refl log)⟩
  | @writing envelope earlier store decoded before =>
      refine ⟨rfl, ?_⟩
      cases returned with
      | fails => exact .inl ⟨rfl, stage_afterWrite_error log payload store _ _⟩
      | works returned =>
          cases returned with
          | append processed current =>
              obtain ⟨more, rfl⟩ := before
              -- an unchanged last number: the root is that of the log as it is now
              have fresh : entriesOf envelope.id (earlier ++ more) = entriesOf envelope.id earlier :=
                entriesOf_of_lastSequence current
              refine .inr ⟨envelope, _, decoded, ?_, rfl, ?_⟩
              · rw [fresh]
                exact processed
              · exact .accepted store decoded rfl
          | conflict => exact .inl ⟨rfl, stage_afterWrite_error log payload store _ _⟩
          | reject => exact .inl ⟨rfl, stage_afterWrite_error log payload store _ _⟩

end Stages

section Invariants
variable {U : ErrorTypes} [TextFormat] [Uuid.Text] [ToString (Esrc.Error U)] {A : Aggregate U}
  [Deserialize A.Command] [Serialize A.Error] {ι S : Type}

/-- The log, the requests in progress and the replies attempted so far, tied to one history. -/
structure Explained (s : Cluster ι (StoreSig A) S (HandlerResult U) (EventLog A))
    (history : List (Accepted ι A)) : Prop where
  log : s.world = logOf history
  distinct : (requestsOf history).Nodup
  decided : Decided history
  source : ∀ a ∈ history, ∃ payload, (s.endpoint a.endpoint).stream[a.index]? = some payload ∧
    fromSlice (CommandEnvelope A.Command) payload = .ok ⟨a.id, a.command⟩
  taken : ∀ a ∈ history, a.index < (s.endpoint a.endpoint).taken
  handling : ∀ i k payload p, (s.endpoint i).phase = .handling k payload p →
    ∃ stored, Stage s.world payload stored p ∧ (stored = true ↔ (i, k) ∈ requestsOf history)
  replies : ∀ i k body, (k, body) ∈ (s.endpoint i).attempts → Truthful history (i, k) body

/-- A history that accounts for a state: the log of every id is decided event by event for
distinct accepted requests, and no reply says anything else. -/
structure Linearized (s : Cluster ι (StoreSig A) S (HandlerResult U) (EventLog A))
    (history : List (Accepted ι A)) : Prop where
  log : s.world = logOf history
  distinct : (requestsOf history).Nodup
  source : ∀ a ∈ history, ∃ payload, (s.endpoint a.endpoint).stream[a.index]? = some payload ∧
    fromSlice (CommandEnvelope A.Command) payload = .ok ⟨a.id, a.command⟩
  streams : ∀ id k e, (entriesOf id s.world)[k]? = some e →
    ∃ a, (history.filter (·.id = id))[k]? = some a ∧ a.event = e ∧
      A.process (A.fold ((entriesOf id s.world).take k)) a.command = .ok e
  single : ∀ i, ((s.endpoint i).attempts.map Prod.fst).Nodup
  replies : ∀ i k body, (k, body) ∈ (s.endpoint i).attempts →
    ∃ reply : CommandReply, body = TextFormat.print reply.encode ∧
      (reply.success = true →
        ∃! n : Nat, ∃ a : Accepted ι A, history[n]? = some a ∧ a.request = (i, k) ∧ a.id = reply.id) ∧
      (reply.success = false → (i, k) ∉ requestsOf history)

theorem Explained.linearized {s : Cluster ι (StoreSig A) S (HandlerResult U) (EventLog A)}
    {history : List (Accepted ι A)} (h : Explained s history)
    (ordered : ∀ i, (s.endpoint i).Ordered) : Linearized s history := by
  refine ⟨h.log, h.distinct, h.source, ?_, ?_, ?_⟩
  · intro id k e there
    rw [h.log, entriesOf_logOf, List.getElem?_map] at there
    obtain ⟨a, found, event⟩ := Option.map_eq_some_iff.mp there
    refine ⟨a, found, event, ?_⟩
    rw [h.log, ← event]
    exact h.decided.decided found
  · intro i
    rw [(ordered i).indices]
    exact List.nodup_range
  · intro i k body member
    obtain ⟨reply, written, success, failure⟩ := h.replies i k body member
    refine ⟨reply, written, fun good => ?_, failure⟩
    obtain ⟨a, stored, request, id⟩ := success good
    obtain ⟨n, there⟩ := List.mem_iff_getElem?.mp stored
    refine ⟨n, ⟨a, there, request, id⟩, ?_⟩
    rintro m ⟨b, found, other, -⟩
    exact position_unique h.distinct found there (other.trans request.symm)

/-- The reply of a program that has returned. -/
theorem Explained.finished {s : Cluster ι (StoreSig A) S (HandlerResult U) (EventLog A)}
    {history : List (Accepted ι A)} (h : Explained s history)
    (ordered : ∀ i, (s.endpoint i).Ordered) {i : ι} {k : Nat} {payload : ByteArray} {store : S}
    {r : HandlerResult U} (phase : (s.endpoint i).phase = .handling k payload (.ret (store, r))) :
    Truthful history (i, k) (NatsCommandDispatcher.body r) := by
  have position := (ordered i).position
  unfold Endpoint.Position at position
  rw [phase] at position
  obtain ⟨-, -, there⟩ := position
  obtain ⟨stored, stage, iff⟩ := h.handling i k payload _ phase
  cases stage with
  | @accepted envelope _ _ decoded body =>
      refine ⟨⟨envelope.id, true, none⟩, body, ?_, nofun⟩
      intro _
      obtain ⟨a, member, same⟩ := mem_requestsOf.mp (iff.mp rfl)
      refine ⟨a, member, same, ?_⟩
      obtain ⟨payload', there', decoded'⟩ := h.source a member
      simp only [Accepted.request, Prod.mk.injEq] at same
      obtain ⟨rfl, rfl⟩ := same
      cases there.symm.trans there'
      rw [decoded] at decoded'
      cases decoded'
      rfl
  | refused _ refusal =>
      obtain ⟨reply, body, failed⟩ := refusal
      refine ⟨reply, body, ?_, fun _ stored => Bool.false_ne_true (iff.mpr stored)⟩
      intro good
      exact absurd (failed.symm.trans good) Bool.false_ne_true

variable [DecidableEq ι]

/-- A step of one endpoint that leaves the log as it is. -/
theorem Explained.frame {s : Cluster ι (StoreSig A) S (HandlerResult U) (EventLog A)}
    {history : List (Accepted ι A)} (h : Explained s history) {i : ι}
    {e : Endpoint (StoreSig A) S (HandlerResult U)}
    (stream : (s.endpoint i).stream <+: e.stream) (taken : (s.endpoint i).taken ≤ e.taken)
    (handling : ∀ k payload p, e.phase = .handling k payload p →
      ∃ stored, Stage s.world payload stored p ∧ (stored = true ↔ (i, k) ∈ requestsOf history))
    (replies : ∀ k body, (k, body) ∈ e.attempts → Truthful history (i, k) body) :
    Explained ⟨Function.update s.endpoint i e, s.world⟩ history := by
  have streams : ∀ j, (s.endpoint j).stream <+: (Function.update s.endpoint i e j).stream :=
    (Function.forall_update_iff s.endpoint fun j e => (s.endpoint j).stream <+: e.stream).mpr
      ⟨stream, fun j _ => List.prefix_refl _⟩
  have takens : ∀ j, (s.endpoint j).taken ≤ (Function.update s.endpoint i e j).taken :=
    (Function.forall_update_iff s.endpoint fun j e => (s.endpoint j).taken ≤ e.taken).mpr
      ⟨taken, fun j _ => Nat.le_refl _⟩
  refine ⟨h.log, h.distinct, h.decided, ?_, ?_, ?_, ?_⟩
  · intro a member
    obtain ⟨payload, there, decoded⟩ := h.source a member
    exact ⟨payload, getElem?_of_prefix (streams a.endpoint) there, decoded⟩
  · intro a member
    exact Nat.lt_of_lt_of_le (h.taken a member) (takens a.endpoint)
  · exact (Function.forall_update_iff s.endpoint fun j e => ∀ k payload p,
      e.phase = .handling k payload p →
        ∃ stored, Stage s.world payload stored p ∧ (stored = true ↔ (j, k) ∈ requestsOf history)).mpr
      ⟨handling, fun j _ => h.handling j⟩
  · exact (Function.forall_update_iff s.endpoint fun j e => ∀ k body,
      (k, body) ∈ e.attempts → Truthful history (j, k) body).mpr ⟨replies, fun j _ => h.replies j⟩

/-- The step that appends: the history grows by the request in progress. -/
theorem Explained.append {s : Cluster ι (StoreSig A) S (HandlerResult U) (EventLog A)}
    {history : List (Accepted ι A)} (h : Explained s history)
    (ordered : ∀ i, (s.endpoint i).Ordered) {i : ι} {k : Nat} {payload : ByteArray}
    {p p' : Prog (StoreSig A) (S × HandlerResult U)} {envelope : CommandEnvelope A.Command}
    {event : A.Event} (phase : (s.endpoint i).phase = .handling k payload p)
    (unstored : (i, k) ∉ requestsOf history)
    (decoded : fromSlice (CommandEnvelope A.Command) payload = .ok envelope)
    (processed : A.process (A.fold (entriesOf envelope.id s.world)) envelope.command = .ok event)
    (stage : Stage (s.world ++ [(envelope.id, event)]) payload true p') :
    Explained ⟨Function.update s.endpoint i { s.endpoint i with phase := .handling k payload p' },
        s.world ++ [(envelope.id, event)]⟩
      (history ++ [⟨i, k, envelope.id, envelope.command, event⟩]) := by
  have position := (ordered i).position
  unfold Endpoint.Position at position
  rw [phase] at position
  obtain ⟨here, taken, there⟩ := position
  -- only the phase of the endpoint moves
  have streams := update_unchanged Endpoint.stream s.endpoint i
    { s.endpoint i with phase := .handling k payload p' } rfl
  have takens := update_unchanged Endpoint.taken s.endpoint i
    { s.endpoint i with phase := .handling k payload p' } rfl
  have attempts := update_unchanged Endpoint.attempts s.endpoint i
    { s.endpoint i with phase := .handling k payload p' } rfl
  refine ⟨?_, ?_, ?_, ?_, ?_, ?_, ?_⟩
  · rw [logOf_snoc, ← h.log]
  · rw [requestsOf_snoc]
    refine List.nodup_append.mpr ⟨h.distinct, List.pairwise_singleton _ _, ?_⟩
    intro request earlier last new same
    rw [List.mem_singleton] at new
    subst new
    subst same
    exact unstored earlier
  · refine .snoc h.decided ?_
    rw [← h.log]
    exact processed
  · intro a member
    simp only [streams]
    rcases List.mem_append.mp member with earlier | last
    · exact h.source a earlier
    · rw [List.mem_singleton] at last
      subst last
      exact ⟨payload, there, decoded⟩
  · intro a member
    simp only [takens]
    rcases List.mem_append.mp member with earlier | last
    · exact h.taken a earlier
    · rw [List.mem_singleton] at last
      subst last
      simp only [taken]
      omega
  · intro j k' payload' q handling
    by_cases same : j = i
    · subst same
      simp only [Function.update_self, Phase.handling.injEq] at handling
      obtain ⟨rfl, rfl, rfl⟩ := handling
      refine ⟨true, stage, ?_⟩
      rw [requestsOf_snoc]
      simp only [List.mem_append, List.mem_singleton, Accepted.request, or_true]
    · simp only [Function.update_of_ne same] at handling
      obtain ⟨stored, stage', iff⟩ := h.handling j k' payload' q handling
      refine ⟨stored, stage'.mono (List.prefix_append _ _), ?_⟩
      rw [iff, requestsOf_snoc]
      simp only [List.mem_append, List.mem_singleton, Accepted.request, Prod.mk.injEq, same,
        false_and, or_false]
  · intro j k' body member
    simp only [attempts] at member
    refine (h.replies j k' body member).grow fun same => ?_
    simp only [Accepted.request, Prod.mk.injEq] at same
    obtain ⟨rfl, rfl⟩ := same
    have early := (ordered j).attempt_lt member
    omega

/-- One step of one endpoint. -/
theorem Explained.act {s : Cluster ι (StoreSig A) S (HandlerResult U) (EventLog A)}
    {history : List (Accepted ι A)} (h : Explained s history)
    (ordered : ∀ i, (s.endpoint i).Ordered) {i : ι} {name : String} {a : Act (HandlerResult U)}
    {e : Endpoint (StoreSig A) S (HandlerResult U)} {w : EventLog A}
    (moved : RequestLoop.Step (aggregateService A S name) (FaultyStep A) (s.endpoint i) s.world a e w) :
    ∃ history', Explained ⟨Function.update s.endpoint i e, w⟩ history' := by
  have position := (ordered i).position
  unfold Endpoint.Position at position
  cases moved with
  | arrive payload =>
      exact ⟨history, h.frame (List.prefix_append _ _) (Nat.le_refl _)
        (fun k payload p phase => h.handling i k payload p phase) (fun k body => h.replies i k body)⟩
  | close =>
      exact ⟨history, h.frame (List.prefix_refl _) (Nat.le_refl _)
        (fun k payload p phase => h.handling i k payload p phase) (fun k body => h.replies i k body)⟩
  | take phase there =>
      refine ⟨history, h.frame (List.prefix_refl _) (Nat.le_succ _) ?_
        (fun k body => h.replies i k body)⟩
      intro k payload p handling
      simp only [Phase.handling.injEq] at handling
      obtain ⟨rfl, rfl, rfl⟩ := handling
      refine ⟨false, stage_handle s.world _ _, ?_⟩
      -- a request that is only taken now has nothing in the log
      refine iff_of_false Bool.false_ne_true fun stored => ?_
      obtain ⟨a, member, same⟩ := mem_requestsOf.mp stored
      simp only [Accepted.request, Prod.mk.injEq] at same
      obtain ⟨rfl, index⟩ := same
      have before := h.taken a member
      omega
  | @call _ k payload op next r phase returned =>
      obtain ⟨stored, stage, iff⟩ := h.handling i k payload _ phase
      obtain ⟨rfl, unchanged | ⟨envelope, event, decoded, processed, appended, stage'⟩⟩ :=
        stage.call returned
      · obtain ⟨rfl, stage'⟩ := unchanged
        refine ⟨history, h.frame (List.prefix_refl _) (Nat.le_refl _) ?_
          (fun k body => h.replies i k body)⟩
        intro k' payload' p handling
        simp only [Phase.handling.injEq] at handling
        obtain ⟨rfl, rfl, rfl⟩ := handling
        exact ⟨false, stage', iff⟩
      · subst appended
        exact ⟨_, h.append ordered phase (fun member => Bool.false_ne_true (iff.mpr member))
          decoded processed stage'⟩
  | finish phase =>
      refine ⟨history, h.frame (List.prefix_refl _) (Nat.le_refl _) (fun _ _ _ other => nomatch other) ?_⟩
      intro k' body member
      rcases List.mem_append.mp member with earlier | last
      · exact h.replies i k' body earlier
      · simp only [List.mem_singleton, Prod.mk.injEq] at last
        obtain ⟨rfl, rfl⟩ := last
        exact h.finished ordered phase
  | unwind phase =>
      exact ⟨history, h.frame (List.prefix_refl _) (Nat.le_refl _) (fun _ _ _ other => nomatch other)
        (fun k body => h.replies i k body)⟩
  | responded sent phase =>
      exact ⟨history, h.frame (List.prefix_refl _) (Nat.le_refl _) (fun _ _ _ other => nomatch other)
        (fun k body => h.replies i k body)⟩
  | leave phase _ _ =>
      exact ⟨history, h.frame (List.prefix_refl _) (Nat.le_refl _) (fun _ _ _ other => nomatch other)
        (fun k body => h.replies i k body)⟩

/-- The run lemma: some history explains every state that is reached. -/
theorem explained {names : ι → String} {store : ι → S}
    {trace : List (Label ι (HandlerResult U))}
    {s : Cluster ι (StoreSig A) S (HandlerResult U) (EventLog A)}
    (h : Cluster.Run (fun i => aggregateService A S (names i)) (FaultyStep A) store [] trace s) :
    ∃ history, Explained s history := by
  have kept : (∀ i, (s.endpoint i).Ordered) ∧ ∃ history, Explained s history := by
    refine h.invariant (I := fun _ s => (∀ i, (s.endpoint i).Ordered) ∧
      ∃ history, Explained s history) ?_ ?_
    · intro s start
      subst start
      refine ⟨fun i => Endpoint.ordered_fresh _, [], rfl, .nil, .nil, nofun, nofun, ?_, ?_⟩
      · intro i k payload p phase
        cases phase
      · intro i k body member
        cases member
    · intro _ s label s' ⟨ordered, history, holds⟩ moved
      refine ⟨moved.ordered ordered, ?_⟩
      cases moved with
      | act moved => exact holds.act ordered moved
      | stop which =>
          have same : ∀ {γ : Type} (f : Endpoint (StoreSig A) S (HandlerResult U) → γ),
              (∀ e, f e.stop = f e) → ∀ i,
              f (if which i then (s.endpoint i).stop else s.endpoint i) = f (s.endpoint i) := by
            intro γ f stopped i
            split
            · exact stopped _
            · rfl
          refine ⟨history, holds.log, holds.distinct, holds.decided, ?_, ?_, ?_, ?_⟩
          · intro a member
            obtain ⟨payload, there, decoded⟩ := holds.source a member
            exact ⟨payload, (congrArg (·[a.index]?) (same Endpoint.stream (fun _ => rfl) _)).trans there,
              decoded⟩
          · intro a member
            exact (same Endpoint.taken (fun _ => rfl) _).symm ▸ holds.taken a member
          · intro i k payload p phase
            simp only [] at phase
            split at phase
            · exact absurd phase (Endpoint.stop_phase_ne _ _ _ _)
            · exact holds.handling i k payload p phase
          · intro i k body member
            have there := same Endpoint.attempts (fun _ => rfl) i
            exact holds.replies i k body (there ▸ member)
  exact kept.2

/-- Whatever the interleaving of the endpoints, and whichever calls of the store fail. -/
theorem aggregate_runs_linearize {names : ι → String} {store : ι → S}
    {trace : List (Label ι (HandlerResult U))}
    {s : Cluster ι (StoreSig A) S (HandlerResult U) (EventLog A)}
    (h : Cluster.Run (fun i => aggregateService A S (names i)) (FaultyStep A) store [] trace s) :
    ∃ history, Linearized s history := by
  obtain ⟨history, holds⟩ := explained h
  exact ⟨history, holds.linearized (Cluster.ordered h)⟩

end Invariants

section Races
variable {U : ErrorTypes} [TextFormat] [Uuid.Text] [ToString (Esrc.Error U)] {A : Aggregate U}
  [Deserialize A.Command] [Serialize A.Error] {S : Type}

/-- Two endpoints read the same empty stream; the one that writes last is refused. -/
theorem race (names : Bool → String) (store : Bool → S) {payload₁ payload₂ : ByteArray} {id : Uuid}
    {c₁ c₂ : A.Command} {e₁ e₂ : A.Event}
    (h₁ : fromSlice (CommandEnvelope A.Command) payload₁ = .ok ⟨id, c₁⟩)
    (h₂ : fromSlice (CommandEnvelope A.Command) payload₂ = .ok ⟨id, c₂⟩)
    (p₁ : A.process A.default c₁ = .ok e₁) (p₂ : A.process A.default c₂ = .ok e₂) :
    ∃ trace s, Cluster.Run (fun i => aggregateService A S (names i)) (FaultyStep A) store [] trace s ∧
      s.world = [(id, e₁)] ∧
      (s.endpoint false).attempts = [(0, TextFormat.print (CommandReply.encode ⟨id, true, none⟩))] ∧
      (s.endpoint true).attempts =
        [(0, TextFormat.print (CommandReply.encode ⟨id, false, some .conflict⟩))] := by
  have stale : lastSequence id [(id, e₁)] ≠ 0 := by
    simp [lastSequence]
  have start : Cluster.Run (fun i => aggregateService A S (names i)) (FaultyStep A) store [] [] _ :=
    .start rfl
  have taken := (((start.snoc
    (Cluster.Step.act (i := false) (.arrive payload₁ rfl))).snoc
    (Cluster.Step.act (i := true) (.arrive payload₂ rfl))).snoc
    (Cluster.Step.act (i := false) (.take rfl rfl))).snoc
    (Cluster.Step.act (i := true) (.take rfl rfl))
  have read := (taken.snoc
    (Cluster.Step.act (i := false) (.call (congrArg (Phase.handling 0 payload₁)
      (AggregateCommandHandler.handle_decoded (store false) h₁)) (.works (.read id []))))).snoc
    (Cluster.Step.act (i := true) (.call (congrArg (Phase.handling 0 payload₂)
      (AggregateCommandHandler.handle_decoded (store true) h₂)) (.works (.read id []))))
  have written := (read.snoc
    (Cluster.Step.act (i := false) (.call rfl (.works (.append p₁ rfl))))).snoc
    (Cluster.Step.act (i := true) (.call rfl (.works (.conflict p₂ stale))))
  exact ⟨_, _, (written.snoc (Cluster.Step.act (i := false) (.finish rfl))).snoc
    (Cluster.Step.act (i := true) (.finish rfl)), rfl, rfl, rfl⟩

end Races

open Counter in
/-- Two instances race for one counter: one event, one success, one conflict. -/
theorem aggregate_runs_linearize_race :
    ∃ (s : Cluster Bool (StoreSig aggregate) Unit (HandlerResult errors) (EventLog aggregate))
      (history : List (Accepted Bool aggregate)),
      s.world = [(Uuid.nil, .incremented 1)] ∧ Linearized s history ∧
      (s.endpoint true).attempts.length = 1 := by
  obtain ⟨trace, s, run, world, -, lost⟩ := race (A := aggregate) (fun _ => "Counter") (fun _ => ())
    (fromSlice_payload Uuid.nil (.increment 1)) (fromSlice_payload Uuid.nil (.increment 2)) rfl rfl
  obtain ⟨history, holds⟩ := aggregate_runs_linearize run
  refine ⟨s, history, world, holds, ?_⟩
  rw [lost]
  rfl

end EsrcCqrs
