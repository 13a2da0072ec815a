import EsrcCqrs.ServiceCommands
import Mathlib.Algebra.BigOperators.Ring.Finset

/-! Replies counted against events, for the command endpoints of one aggregate on one store: an
acknowledged success for each event and an event for each success, and a bound on the conflicts that
any endpoint can run into. -/

namespace EsrcCqrs
open Json Interaction KeyedLog RequestLoop

section Replies
variable {U : ErrorTypes} [TextFormat]

/-- What a reply says to a caller of either kind of command: success, and the error. -/
def readReply (body : ByteArray) : Option (Bool × Option Error) :=
  (TextFormat.parse body >>= fromValue (α := ServiceCommandReply Value)).toOption.map fun reply =>
    (reply.success, reply.error)

theorem readReply_print {v : Value} (reply : ServiceCommandReply Value)
    (decoded : fromValue v = .ok reply) :
    readReply (TextFormat.print v) = some (reply.success, reply.error) := by
  rw [readReply, TextFormat.parse_print]
  change (fromValue v : Except Json.Error (ServiceCommandReply Value)).toOption.map _ = _
  rw [decoded]
  rfl

def Accepts (body : ByteArray) : Bool := (readReply body).any Prod.fst

def Conflicts (body : ByteArray) : Bool :=
  (readReply body).any fun reply => !reply.1 && reply.2.any fun e => e.kind == .conflict

/-- A reply that a stored event accounts for. -/
def Settled (body : ByteArray) : Bool := Accepts body || Conflicts body

/-- No reply is both. -/
theorem countP_settled (bodies : List (Nat × ByteArray)) :
    bodies.countP (fun attempt => Settled attempt.2) =
      bodies.countP (fun attempt => Accepts attempt.2) +
        bodies.countP fun attempt => Conflicts attempt.2 := by
  induction bodies with
  | nil => rfl
  | cons attempt bodies ih =>
      have apart : Accepts attempt.2 = true → Conflicts attempt.2 = false := by
        unfold Accepts Conflicts
        cases readReply attempt.2 with
        | none => exact fun _ => rfl
        | some reply =>
            intro success
            simp only [Option.any_some] at success ⊢
            rw [success]
            rfl
      have either : Settled attempt.2 = (Accepts attempt.2 || Conflicts attempt.2) := rfl
      simp only [List.countP_cons, ih, either]
      cases accepted : Accepts attempt.2 with
      | true =>
          rw [apart accepted]
          simp only [Bool.or_false, if_true, Bool.false_eq_true, if_false]
          omega
      | false =>
          simp only [Bool.false_or, Bool.false_eq_true, if_false]
          omega

theorem readReply_failure (e : Error) : readReply (WriteThrough.failure e) = some (false, some e) := by
  refine readReply_print (.err e) ?_
  change (fromValue (encodeError (some e)) >>= fun error =>
    Except.ok (ServiceCommandReply.mk false none error)) = _
  rw [fromValue_encodeError]
  rfl

variable [Uuid.Text]

theorem readReply_command (reply : CommandReply) :
    readReply (TextFormat.print reply.encode) = some (reply.success, reply.error) :=
  readReply_print _ (CommandReply.fromValue_as_service reply)

variable [ToString (Esrc.Error U)]

theorem readReply_error (e : Esrc.Error U) :
    readReply (NatsCommandDispatcher.body (.error e)) = some (false, some (.internal (toString e))) := by
  rw [NatsCommandDispatcher.body_error]
  exact readReply_command (NatsCommandDispatcher.failure e)

theorem readReply_success (id : Uuid) : readReply (WriteThrough.success id) = some (true, none) :=
  readReply_print (.okWith (.string (Uuid.Text.write id))) rfl

theorem not_accepts_error (e : Esrc.Error U) :
    Accepts (NatsCommandDispatcher.body (.error e)) = false := by
  rw [Accepts, readReply_error]
  rfl

theorem not_conflicts_error (e : Esrc.Error U) :
    Conflicts (NatsCommandDispatcher.body (.error e)) = false := by
  rw [Conflicts, readReply_error]
  rfl

end Replies

section Programs
variable {U : ErrorTypes} {A : Aggregate U} {S R : Type} {accepts : R → Bool}

/-- The calls that store an event. -/
def StoreOp.stores : StoreOp A → Except (Esrc.Error U) (Root A) → Bool
  | .tryWrite _ _, .ok _ => true
  | _, _ => false

theorem FaultyStep.length_eq {op : StoreOp A} {log log' : EventLog A}
    {r : Except (Esrc.Error U) (Root A)} (h : FaultyStep A op log r log') :
    log'.length = log.length + (op.stores r).toNat := by
  cases h with
  | fails => cases op <;> rfl
  | works h =>
      cases h with
      | append => exact List.length_append
      | _ => rfl

/-- The program has come to an accepted result. -/
def IsAccepted (accepts : R → Bool) : Prog (StoreSig A) (S × R) → Bool
  | .ret (_, r) => accepts r
  | _ => false

/-- A program that comes to an accepted result exactly by a call that stores an event. -/
inductive Settles (accepts : R → Bool) : Prog (StoreSig A) (S × R) → Prop
  | ret (a : S × R) : Settles accepts (.ret a)
  | panic (message : String) : Settles accepts (.panic message)
  | call {op : StoreOp A} {next : Except (Esrc.Error U) (Root A) → Prog (StoreSig A) (S × R)} :
      (∀ r, IsAccepted accepts (next r) = op.stores r) → (∀ r, Settles accepts (next r)) →
      Settles accepts (.call op next)

theorem Settles.ofOutcome (o : Outcome (S × R)) :
    Settles (A := A) accepts (Prog.ofOutcome o) := by
  cases o with
  | value a => exact .ret a
  | panicked message => exact .panic message

end Programs

section Handlers
variable {U : ErrorTypes} [TextFormat] [Uuid.Text] [ToString (Esrc.Error U)] {A : Aggregate U} {S : Type}

/-- A result that the dispatcher's reply reports as a success. -/
def accepting (r : HandlerResult U) : Bool := Accepts (NatsCommandDispatcher.body r)

/-- A handler that reports a success for each event that it stores, and no other. -/
def SettlesAll (handler : CommandHandler (StoreSig A) S (Esrc.Error U)) : Prop :=
  ∀ store payload, Settles accepting (handler.handle store payload) ∧
    IsAccepted accepting (handler.handle store payload) = false

theorem not_accepting_error (e : Esrc.Error U) : accepting (.error e) = false := not_accepts_error e

theorem accepting_command (reply : CommandReply) :
    accepting (U := U) (.ok (TextFormat.print reply.encode)) = reply.success := by
  change Accepts (TextFormat.print reply.encode) = _
  rw [Accepts, readReply_command]
  rfl

theorem accepting_success (id : Uuid) : accepting (U := U) (.ok (WriteThrough.success id)) = true := by
  change Accepts (WriteThrough.success id) = _
  rw [Accepts, readReply_success]
  rfl

theorem accepting_failure (e : Error) : accepting (U := U) (.ok (WriteThrough.failure e)) = false := by
  change Accepts (WriteThrough.failure e) = _
  rw [Accepts, readReply_failure]
  rfl

theorem aggregateHandler_settles [Deserialize A.Command] [Serialize A.Error] (handlerName : String) :
    SettlesAll ((AggregateCommandHandler.new handlerName : AggregateCommandHandler A).toHandler S) := by
  intro store payload
  change Settles accepting (AggregateCommandHandler.handle (A := A) store payload) ∧
    IsAccepted accepting (AggregateCommandHandler.handle (A := A) store payload) = false
  cases decoded : fromSlice (CommandEnvelope A.Command) payload with
  | error e =>
      rw [AggregateCommandHandler.handle_malformed store decoded]
      exact ⟨.ret _, not_accepting_error _⟩
  | ok envelope =>
      rw [AggregateCommandHandler.handle_decoded store decoded]
      refine ⟨.call ?_ ?_, rfl⟩
      · intro r
        cases r with
        | error e => exact not_accepting_error e
        | ok root => rfl
      · intro r
        cases r with
        | error e => exact .ret _
        | ok root =>
            refine .call ?_ fun r => .ofOutcome _
            intro r
            cases r with
            | ok written =>
                rw [AggregateCommandHandler.afterWrite_ok]
                exact accepting_command ⟨written.id, true, none⟩
            | error e =>
                rw [AggregateCommandHandler.afterWrite_error]
                cases convertEsrcError A e with
                | value err => exact accepting_command ⟨envelope.id, false, some err⟩
                | panicked message => rfl

theorem WriteThrough.settles {C : Type} (t : WriteThrough A C) (store : S) (command : C) :
    Settles accepting (t.handle store command) := by
  refine .call ?_ ?_
  · intro r
    cases r with
    | error e => exact not_accepting_error e
    | ok root => rfl
  · intro r
    cases r with
    | error e => exact .ret _
    | ok root =>
        refine .call (fun r => ?_) fun r => .ret _
        cases r with
        | ok written => exact accepting_success written.id
        | error e => exact accepting_failure (t.convert e)

theorem serviceHandler_settles {C : Type} [Deserialize C] (t : WriteThrough A C) (name : String) :
    SettlesAll (ServiceCommandHandler.new (S := S) t.handle name).toHandler := by
  intro store payload
  change Settles accepting ((ServiceCommandHandler.new t.handle name).handle store payload) ∧
    IsAccepted accepting ((ServiceCommandHandler.new t.handle name).handle store payload) = false
  unfold ServiceCommandHandler.handle
  split
  · exact ⟨.ret _, not_accepting_error _⟩
  · exact ⟨t.settles store _, rfl⟩

theorem CommandEndpoint.settles [Deserialize A.Command] [Serialize A.Error] (k : CommandEndpoint A) :
    SettlesAll (k.toHandler S) := by
  cases k with
  | aggregate name => exact aggregateHandler_settles name
  | service C decode through name => exact serviceHandler_settles through name

end Handlers

section Runs
variable {U : ErrorTypes} [TextFormat] [Uuid.Text] [ToString (Esrc.Error U)] {A : Aggregate U} {S : Type}

/-- The successes among the replies of an endpoint. -/
def successes (e : Endpoint (StoreSig A) S (HandlerResult U)) : Nat :=
  e.attempts.countP fun attempt => Accepts attempt.2

/-- A success that is not replied yet. -/
def unreplied (e : Endpoint (StoreSig A) S (HandlerResult U)) : Nat :=
  match e.phase with
  | .handling _ _ p => (IsAccepted accepting p).toNat
  | _ => 0

/-- Whether the endpoint was dropped, maybe with such a success. -/
def dropped (e : Endpoint (StoreSig A) S (HandlerResult U)) : Nat :=
  match e.phase with
  | .aborted => 1
  | _ => 0

/-- The program in hand, if any, settles its request. -/
def Settling (e : Endpoint (StoreSig A) S (HandlerResult U)) : Prop :=
  ∀ index payload p, e.phase = .handling index payload p → Settles accepting p

theorem Settling.stop {e : Endpoint (StoreSig A) S (HandlerResult U)} (_ : Settling e) : Settling e.stop :=
  fun index payload p phase => absurd phase (e.stop_phase_ne index payload p)

theorem stop_counts (e : Endpoint (StoreSig A) S (HandlerResult U)) :
    successes e.stop = successes e ∧ unreplied e.stop = 0 ∧
      unreplied e + dropped e ≤ dropped e.stop := by
  unfold unreplied dropped Endpoint.stop Phase.stop
  refine ⟨rfl, ?_⟩
  cases e.phase with
  | handling index payload p => exact ⟨rfl, Bool.toNat_le _⟩
  | aborted => exact ⟨rfl, Nat.le_refl 1⟩
  | _ => exact ⟨rfl, Nat.zero_le _⟩

variable {handler : CommandHandler (StoreSig A) S (Esrc.Error U)}
  {e e' : Endpoint (StoreSig A) S (HandlerResult U)} {w w' : EventLog A} {a : Act (HandlerResult U)}

theorem Settling.step (settles : SettlesAll handler) (h : Settling e)
    (moved : RequestLoop.Step (NatsCommandDispatcher.service handler) (FaultyStep A) e w a e' w') :
    Settling e' := by
  intro index payload p phase
  cases moved with
  | arrive | close => exact h index payload p phase
  | take =>
      cases phase
      exact (settles _ _).1
  | call before =>
      cases phase
      cases h _ _ _ before with
      | call _ further => exact further _
  | finish | unwind | responded | leave => cases phase

/-- Each step moves one of the counts with the log: the event when it is stored, its success when
it is replied. -/
theorem Settling.counts (settles : SettlesAll handler) (h : Settling e)
    (moved : RequestLoop.Step (NatsCommandDispatcher.service handler) (FaultyStep A) e w a e' w') :
    successes e' + unreplied e' + w.length = successes e + unreplied e + w'.length ∧
      dropped e' = dropped e := by
  unfold successes unreplied dropped
  cases moved with
  | arrive | close => exact ⟨rfl, rfl⟩
  | @take payload phase =>
      have fresh : IsAccepted accepting ((NatsCommandDispatcher.service handler).handle e.store payload) = false :=
        (settles e.store payload).2
      rw [phase]
      refine ⟨?_, rfl⟩
      simp only [fresh]
      rfl
  | @call _ index payload op next r phase returned =>
      have grown := returned.length_eq
      have settled := h _ _ _ phase
      have before : IsAccepted accepting (Prog.call op next) = false := rfl
      rw [phase]
      cases settled with
      | call accepted _ =>
          refine ⟨?_, rfl⟩
          simp only [accepted r, before, Bool.toNat_false]
          omega
  | @finish index payload store r phase =>
      rw [phase]
      refine ⟨?_, rfl⟩
      simp only [IsAccepted, List.countP_append, List.countP_singleton, accepting]
      change _ + (if Accepts (NatsCommandDispatcher.body r) = true then 1 else 0) + 0 + _ = _
      cases Accepts (NatsCommandDispatcher.body r) <;> rfl
  | unwind phase =>
      rw [phase]
      exact ⟨rfl, rfl⟩
  | responded _ phase =>
      rw [phase]
      exact ⟨rfl, rfl⟩
  | leave phase =>
      rw [phase]
      exact ⟨rfl, rfl⟩

end Runs

section Totals
variable {U : ErrorTypes} [TextFormat] [Uuid.Text] [ToString (Esrc.Error U)] {A : Aggregate U}
  {ι S : Type} [DecidableEq ι] {handlers : ι → CommandHandler (StoreSig A) S (Esrc.Error U)}
  {store : ι → S} {log : EventLog A} {trace : List (Label ι (HandlerResult U))}
  {s : Cluster ι (StoreSig A) S (HandlerResult U) (EventLog A)}

theorem run_settling (settles : ∀ i, SettlesAll (handlers i))
    (h : Cluster.Run (fun i => NatsCommandDispatcher.service (handlers i)) (FaultyStep A) store log trace s)
    (i : ι) : Settling (s.endpoint i) :=
  h.endpoints (I := fun _ e => Settling e) (fun _ _ _ _ phase => nomatch phase) Settling.stop
    (fun _ holds moved => holds.step (settles _) moved) i

variable [Fintype ι]

theorem Settling.accounts (settles : ∀ i, SettlesAll (handlers i))
    (h : Cluster.Run (fun i => NatsCommandDispatcher.service (handlers i)) (FaultyStep A) store log trace s) :
    log.length + ∑ i, (successes (s.endpoint i) + unreplied (s.endpoint i)) ≤ s.world.length ∧
      s.world.length ≤ log.length +
        ∑ i, (successes (s.endpoint i) + unreplied (s.endpoint i) + dropped (s.endpoint i)) := by
  have settling : ∀ {trace s}, Cluster.Run (fun i => NatsCommandDispatcher.service (handlers i))
      (FaultyStep A) store log trace s → ∀ i, Settling (s.endpoint i) := run_settling settles
  constructor
  · have least := h.sum_le (ν := fun w => (w.length : ℤ)) (I := Settling)
      (μ := fun e => ((successes e + unreplied e : ℕ) : ℤ)) settling (fun _ => le_refl 0)
      (fun e => by have counts := stop_counts e; omega)
      (fun holds moved => by have counts := holds.counts (settles _) moved; omega)
    rw [← Nat.cast_sum] at least
    omega
  · have most := h.sum_le (ν := fun w => -(w.length : ℤ)) (I := Settling)
      (μ := fun e => -((successes e + unreplied e + dropped e : ℕ) : ℤ)) settling (fun _ => le_refl 0)
      (fun e => by have counts := stop_counts e; omega)
      (fun holds moved => by have counts := holds.counts (settles _) moved; omega)
    rw [Finset.sum_neg_distrib, ← Nat.cast_sum] at most
    omega

variable [Deserialize A.Command] [Serialize A.Error]

/-- Every success that was replied has an event of its own, and every event is that of a success
that was replied, or of the request that an endpoint has in hand or was dropped with. -/
theorem events_account_for_successes {endpoints : ι → CommandEndpoint A}
    (h : Cluster.Run (fun i => (endpoints i).serve S) (FaultyStep A) store log trace s) :
    log.length + ∑ i, (successes (s.endpoint i) + unreplied (s.endpoint i)) ≤ s.world.length ∧
      s.world.length ≤ log.length +
        ∑ i, (successes (s.endpoint i) + unreplied (s.endpoint i) + dropped (s.endpoint i)) := by
  simp only [CommandEndpoint.serve_eq] at h
  exact Settling.accounts (fun i => (endpoints i).settles) h

end Totals

section Conflicts
variable {U : ErrorTypes} {A : Aggregate U} {S R : Type} {settled : R → Bool}

/-- What follows a write: no further call, and nothing settled by a rejection. -/
structure Concludes (settled : R → Bool)
    (after : Except (Esrc.Error U) (Root A) → Prog (StoreSig A) (S × R)) : Prop where
  ends : ∀ r, ∃ o, after r = .ofOutcome o
  rejected : ∀ x store r, after (.error (.external (.typed A.errorId x))) = .ret (store, r) →
    settled r = false

/-- A program of one read and one write on it, when `c` events have been spent before: it spends
one more only after the log has grown since the read. -/
inductive Spends (settled : R → Bool) (log : EventLog A) (c : Nat) : Prog (StoreSig A) (S × R) → Prop
  | reading {id : Uuid} {next : Except (Esrc.Error U) (Root A) → Prog (StoreSig A) (S × R)} :
      c ≤ log.length →
      (∀ root, ∃ command after, next (.ok root) = .call (.tryWrite root command) after ∧
        Concludes settled after) →
      Spends settled log c (.call (.read id) next)
  | writing {earlier : EventLog A} {id : Uuid} {command : A.Command}
      {after : Except (Esrc.Error U) (Root A) → Prog (StoreSig A) (S × R)} :
      earlier <+: log → c ≤ earlier.length → Concludes settled after →
      Spends settled log c (.call (.tryWrite (Root.ofLog earlier id) command) after)
  | returned {store : S} {r : R} :
      c + (settled r).toNat ≤ log.length → Spends settled log c (.ret (store, r))
  | panicked (message : String) : c ≤ log.length → Spends settled log c (.panic message)

theorem Spends.mono {log log' : EventLog A} {c : Nat} {p : Prog (StoreSig A) (S × R)}
    (h : Spends settled log c p) (longer : log <+: log') : Spends settled log' c p := by
  have more := longer.length_le
  cases h with
  | reading bound writes => exact .reading (bound.trans more) writes
  | writing before bound concludes => exact .writing (before.trans longer) bound concludes
  | returned bound => exact .returned (bound.trans more)
  | panicked message bound => exact .panicked message (bound.trans more)

/-- A program that makes no further call, with one event left to spend. -/
theorem Spends.ofOutcome {log : EventLog A} {c : Nat} (bound : c + 1 ≤ log.length) (o : Outcome (S × R)) :
    Spends settled log c (Prog.ofOutcome o) := by
  cases o with
  | value a =>
      obtain ⟨store, r⟩ := a
      have most := Bool.toNat_le (settled r)
      exact .returned (by omega)
  | panicked message => exact .panicked message (by omega)

theorem Spends.returned_le {log : EventLog A} {c : Nat} {store : S} {r : R}
    (h : Spends settled log c (.ret (store, r))) : c + (settled r).toNat ≤ log.length := by
  cases h with
  | returned bound => exact bound

theorem Spends.call {log log' : EventLog A} {c : Nat} {op : StoreOp A}
    {next : Except (Esrc.Error U) (Root A) → Prog (StoreSig A) (S × R)}
    {r : Except (Esrc.Error U) (Root A)} (h : Spends settled log c (.call op next))
    (returned : StoreStep A op log r log') : Spends settled log' c (next r) := by
  cases h with
  | reading bound writes =>
      cases returned
      obtain ⟨command, after, same, concludes⟩ := writes (Root.ofLog log _)
      rw [same]
      exact .writing (List.prefix_refl log) bound concludes
  | @writing earlier id command after before bound concludes =>
      obtain ⟨o, same⟩ := concludes.ends r
      have more := before.length_le
      cases returned with
      | append =>
          rw [same]
          apply Spends.ofOutcome
          rw [List.length_append, List.length_singleton]
          omega
      | conflict _ stale =>
          -- a stale root: something was appended since it was read
          have grown : earlier.length ≠ log.length := by
            intro equal
            exact stale (congrArg (lastSequence id) (before.eq_of_length equal).symm)
          rw [same]
          exact .ofOutcome (by omega) o
      | reject =>
          rw [same]
          cases o with
          | value a =>
              obtain ⟨store, r⟩ := a
              have none := concludes.rejected _ store r same
              refine .returned ?_
              rw [none, Bool.toNat_false]
              omega
          | panicked message => exact .panicked message (by omega)

end Conflicts

section Bounds
variable {U : ErrorTypes} [TextFormat] [Uuid.Text] [ToString (Esrc.Error U)] {A : Aggregate U} {S : Type}

/-- The conflicts among the replies of an endpoint. -/
def conflicts (e : Endpoint (StoreSig A) S (HandlerResult U)) : Nat :=
  e.attempts.countP fun attempt => Conflicts attempt.2

def settling (r : HandlerResult U) : Bool := Settled (NatsCommandDispatcher.body r)

/-- A handler that reads once and writes once, on what it read. -/
def WritesOnce (handler : CommandHandler (StoreSig A) S (Esrc.Error U)) : Prop :=
  ∀ (log : EventLog A) c store payload, c ≤ log.length →
    Spends settling log c (handler.handle store payload)

/-- The only settled refusal is a conflict. -/
theorem settling_command (reply : CommandReply) :
    settling (U := U) (.ok (TextFormat.print reply.encode)) =
      (reply.success || (!reply.success && reply.error.any fun e => e.kind == .conflict)) := by
  change Settled (TextFormat.print reply.encode) = _
  rw [Settled, Accepts, Conflicts, readReply_command]
  rfl

theorem settling_failure (e : Error) :
    settling (U := U) (.ok (WriteThrough.failure e)) = (e.kind == .conflict) := by
  change Settled (WriteThrough.failure e) = _
  rw [Settled, Accepts, Conflicts, readReply_failure]
  rfl

theorem not_settling_error (e : Esrc.Error U) : settling (.error e) = false := by
  rw [settling, Settled, not_accepts_error, not_conflicts_error]
  rfl

/-- A result that nothing in the log has to account for. -/
theorem Spends.unsettled {log : EventLog A} {c : Nat} (bound : c ≤ log.length) (store : S)
    {r : HandlerResult U} (unsettled : settling r = false) : Spends settling log c (.ret (store, r)) := by
  refine .returned ?_
  rw [unsettled]
  exact bound

theorem aggregateHandler_writesOnce [Deserialize A.Command] [Serialize A.Error] (handlerName : String) :
    WritesOnce ((AggregateCommandHandler.new handlerName : AggregateCommandHandler A).toHandler S) := by
  intro log c store payload bound
  change Spends settling log c (AggregateCommandHandler.handle (A := A) store payload)
  cases decoded : fromSlice (CommandEnvelope A.Command) payload with
  | error e =>
      rw [AggregateCommandHandler.handle_malformed store decoded]
      exact .unsettled bound store (not_settling_error _)
  | ok envelope =>
      rw [AggregateCommandHandler.handle_decoded store decoded]
      refine .reading bound fun root => ⟨envelope.command, _, rfl, fun r => ⟨_, rfl⟩, ?_⟩
      intro x store' r ended
      rw [AggregateCommandHandler.afterWrite_error] at ended
      cases converted : convertEsrcError A (.external (.typed A.errorId x)) with
      | panicked message =>
          rw [converted] at ended
          cases ended
      | value err =>
          have kind : err.kind = .external := convertEsrcError_kind converted
          rw [converted] at ended
          cases ended
          rw [settling_command]
          simp only [Option.any_some, kind]
          rfl

theorem serviceHandler_writesOnce {C : Type} [Deserialize C] (t : WriteThrough A C) (name : String)
    (honest : ∀ x : A.Error, (t.convert (.external (.typed A.errorId x))).kind ≠ .conflict) :
    WritesOnce (ServiceCommandHandler.new (S := S) t.handle name).toHandler := by
  intro log c store payload bound
  change Spends settling log c ((ServiceCommandHandler.new t.handle name).handle store payload)
  unfold ServiceCommandHandler.handle
  split
  · exact .unsettled bound store (not_settling_error _)
  · next command _ =>
      refine .reading bound fun root => ⟨(t.route command).2, _, rfl, fun r => ⟨.value _, rfl⟩, ?_⟩
      intro x store' r ended
      rw [WriteThrough.afterWrite_error] at ended
      cases ended
      rw [settling_failure, beq_eq_false_iff_ne]
      exact honest x

/-- No rejection by the aggregate is told as a conflict. -/
def CommandEndpoint.TellsRejections : CommandEndpoint A → Prop
  | .aggregate _ => True
  | .service _ _ through _ => ∀ x : A.Error, (through.convert (.external (.typed A.errorId x))).kind ≠ .conflict

theorem CommandEndpoint.writesOnce [Deserialize A.Command] [Serialize A.Error] {k : CommandEndpoint A}
    (honest : k.TellsRejections) : WritesOnce (k.toHandler S) := by
  cases k with
  | aggregate name => exact aggregateHandler_writesOnce name
  | service C decode through name => exact serviceHandler_writesOnce through name honest

/-- What an endpoint has spent of the events of a log that was `base` long at first. -/
structure Spent (base : Nat) (log : EventLog A) (e : Endpoint (StoreSig A) S (HandlerResult U)) :
    Prop where
  replied : base + e.attempts.countP (fun attempt => Settled attempt.2) ≤ log.length
  inHand : ∀ index payload p, e.phase = .handling index payload p →
    Spends settling log (base + e.attempts.countP fun attempt => Settled attempt.2) p

theorem Spent.mono {base : Nat} {log log' : EventLog A} {e : Endpoint (StoreSig A) S (HandlerResult U)}
    (h : Spent base log e) (longer : log <+: log') : Spent base log' e :=
  ⟨h.replied.trans longer.length_le, fun index payload p phase => (h.inHand index payload p phase).mono longer⟩

theorem Spent.stop {base : Nat} {log : EventLog A} {e : Endpoint (StoreSig A) S (HandlerResult U)}
    (h : Spent base log e) : Spent base log e.stop :=
  ⟨h.replied, fun index payload p phase => absurd phase (e.stop_phase_ne index payload p)⟩

theorem Spent.step {base : Nat} {log log' : EventLog A} {e e' : Endpoint (StoreSig A) S (HandlerResult U)}
    {handler : CommandHandler (StoreSig A) S (Esrc.Error U)} {a : Act (HandlerResult U)}
    (writes : WritesOnce handler) (h : Spent base log e)
    (moved : RequestLoop.Step (NatsCommandDispatcher.service handler) (StoreStep A) e log a e' log') :
    Spent base log' e' := by
  cases moved with
  | arrive | close => exact ⟨h.replied, h.inHand⟩
  | take =>
      refine ⟨h.replied, fun _ _ _ phase => ?_⟩
      cases phase
      exact writes log _ _ _ h.replied
  | call phase returned =>
      have longer := (FaultyStep.works returned).log_extends
      refine ⟨h.replied.trans longer.length_le, fun _ _ _ later => ?_⟩
      cases later
      exact (h.inHand _ _ _ phase).call returned
  | @finish _ _ _ r phase =>
      have bound := (h.inHand _ _ _ phase).returned_le
      have settled : Settled ((NatsCommandDispatcher.service handler).reply r) = settling r := rfl
      refine ⟨?_, fun _ _ _ later => nomatch later⟩
      simp only [List.countP_append, List.countP_singleton, settled]
      cases settles : settling r with
      | true =>
          rw [settles, Bool.toNat_true] at bound
          simp only [if_true]
          omega
      | false =>
          rw [settles, Bool.toNat_false] at bound
          simp only [Bool.false_eq_true, if_false]
          omega
  | unwind | responded | leave => exact ⟨h.replied, fun _ _ _ later => nomatch later⟩

variable {ι : Type} [DecidableEq ι] {handlers : ι → CommandHandler (StoreSig A) S (Esrc.Error U)}
  {store : ι → S} {log : EventLog A} {trace : List (Label ι (HandlerResult U))}
  {s : Cluster ι (StoreSig A) S (HandlerResult U) (EventLog A)}

theorem Spent.bounds (writes : ∀ i, WritesOnce (handlers i))
    (h : Cluster.Run (fun i => NatsCommandDispatcher.service (handlers i)) (StoreStep A) store log trace s)
    (i : ι) : conflicts (s.endpoint i) + successes (s.endpoint i) ≤ s.world.length - log.length := by
  have spent := h.rely (J := fun _ => True) (G := (· <+: ·)) (I := fun _ w e => Spent log.length w e) trivial
    (fun _ => ⟨Nat.le_refl _, fun _ _ _ phase => nomatch phase⟩) Spent.stop
    (fun _ _ holds moved => ⟨trivial, moved.world List.prefix_refl fun returned =>
      (FaultyStep.works returned).log_extends, holds.step (writes _) moved⟩)
    fun longer holds => holds.mono longer
  have replied := (spent.2 i).replied
  rw [countP_settled] at replied
  unfold conflicts successes
  omega

variable [Deserialize A.Command] [Serialize A.Error]

/-- Without faults of the store, an endpoint replies no more conflicts than events were stored
besides the successes that it replied itself. -/
theorem conflicts_bounded {endpoints : ι → CommandEndpoint A} (honest : ∀ i, (endpoints i).TellsRejections)
    (h : Cluster.Run (fun i => (endpoints i).serve S) (StoreStep A) store log trace s) (i : ι) :
    conflicts (s.endpoint i) + successes (s.endpoint i) ≤ s.world.length - log.length := by
  simp only [CommandEndpoint.serve_eq] at h
  exact Spent.bounds (fun i => CommandEndpoint.writesOnce (honest i)) h i

end Bounds

namespace Cafe

section Race

/-- The command endpoints of the example. -/
def commandEndpoints : Bool → CommandEndpoint order
  | false => .aggregate "Order"
  | true => .service CafeCommands inferInstance through "CafeService"

theorem commandEndpoints_serve : (fun i => (commandEndpoints i).serve Unit) = services := by
  funext i
  cases i with
  | false => rfl
  | true =>
      change NatsCommandDispatcher.service (ServiceCommandHandler.new through.handle "CafeService").toHandler = _
      rw [← handle_eq_through]
      rfl

theorem commandEndpoints_tellRejections (i : Bool) : (commandEndpoints i).TellsRejections := by
  cases i with
  | false => exact trivial
  | true => exact fun x => nofun

/-- The aggregate's endpoint and the service's read the same empty order; the service writes first. -/
theorem cafe_race : ∃ trace s,
    Cluster.Run services (StoreStep order) (fun _ => ()) [] trace s ∧
    s.world = [(Uuid.nil, .orderPlaced "Latte" 1)] ∧
    (s.endpoint false).attempts =
      [(0, TextFormat.print (CommandReply.encode ⟨Uuid.nil, false, some .conflict⟩))] := by
  obtain ⟨payload₁, -, decoded₁⟩ := orderEnvelope_readsBack Uuid.nil (.placeOrder "Espresso" 2)
  obtain ⟨payload₂, -, decoded₂⟩ := command_readsBack (.placeOrder Uuid.nil "Latte" 1)
  have read₁ := AggregateCommandHandler.handle_decoded (A := order) () decoded₁
  have read₂ := (ServiceCommandHandler.new (S := Unit) CafeServiceHandler.handle
    "CafeService").handle_decoded () decoded₂
  have stale : lastSequence Uuid.nil [(Uuid.nil, OrderEvent.orderPlaced "Latte" 1)] ≠ 0 := by
    simp [lastSequence]
  have start : Cluster.Run services (StoreStep order) (fun _ => ()) [] [] _ := .start rfl
  have taken := (((start.snoc
    (Cluster.Step.act (i := false) (.arrive payload₁ rfl))).snoc
    (Cluster.Step.act (i := true) (.arrive payload₂ rfl))).snoc
    (Cluster.Step.act (i := false) (.take rfl rfl))).snoc
    (Cluster.Step.act (i := true) (.take rfl rfl))
  have read := (taken.snoc
    (Cluster.Step.act (i := false) (.call (congrArg (Phase.handling 0 payload₁) read₁) (.read Uuid.nil [])))).snoc
    (Cluster.Step.act (i := true) (.call (congrArg (Phase.handling 0 payload₂) read₂) (.read Uuid.nil [])))
  have written := (read.snoc
    (Cluster.Step.act (i := true) (.call rfl (.append rfl rfl)))).snoc
    (Cluster.Step.act (i := false) (.call rfl (.conflict rfl stale)))
  exact ⟨_, _, (written.snoc (Cluster.Step.act (i := true) (.finish rfl))).snoc
    (Cluster.Step.act (i := false) (.finish rfl)), rfl, rfl⟩

theorem conflicts_bounded_cafe :
    ∃ s : Cluster Bool (StoreSig order) Unit (HandlerResult errors) (EventLog order),
      conflicts (s.endpoint false) = 1 ∧ s.world.length = 1 ∧
      conflicts (s.endpoint false) + successes (s.endpoint false) ≤ s.world.length - 0 := by
  obtain ⟨trace, s, run, world, lost⟩ := cafe_race
  rw [← commandEndpoints_serve] at run
  refine ⟨s, ?_, congrArg List.length world, conflicts_bounded commandEndpoints_tellRejections run false⟩
  unfold conflicts
  rw [lost, List.countP_singleton, Conflicts, readReply_command]
  rfl

theorem events_account_for_successes_cafe :
    ∃ s : Cluster Bool (StoreSig order) Unit (HandlerResult errors) (EventLog order),
      s.world = espresso.map (fun e => (Uuid.nil, e)) ∧
      ∑ i, (successes (s.endpoint i) + unreplied (s.endpoint i)) ≤ 2 ∧
      2 ≤ ∑ i, (successes (s.endpoint i) + unreplied (s.endpoint i) + dropped (s.endpoint i)) := by
  obtain ⟨trace, s, run, world⟩ := espresso_reached
  rw [← commandEndpoints_serve] at run
  have counts := events_account_for_successes run
  rw [world] at counts
  refine ⟨s, world, ?_, ?_⟩
  · have least := counts.1
    simp only [List.length_nil, Nat.zero_add] at least
    exact least
  · have most := counts.2
    simp only [List.length_nil, Nat.zero_add] at most
    exact most

end Race
end Cafe
end EsrcCqrs
