import EsrcCqrs.Dispatchers
import EsrcCqrs.Isolation
import EsrcCqrs.CounterDomain

/-! One dispatcher in which one endpoint writes the streams of an aggregate. It refines
the sequential reference, whatever the other endpoints do in between. -/

namespace EsrcCqrs
open Json Interaction Interaction.Prog KeyedLog RequestLoop

section Reference
variable {U : ErrorTypes} [TextFormat] [Uuid.Text] {A : Aggregate U}

/-- What the reference says to one request. -/
inductive Answer (A : Aggregate U) where
  | malformed (e : Json.Error)
  | accepted (id : Uuid)
  | rejected (id : Uuid) (x : A.Error)

section Bodies
variable [ToString (Esrc.Error U)] [Serialize A.Error]

/-- What the handler makes of an answer. A domain error without an encoding has no reply. -/
def Answer.result : Answer A → Outcome (HandlerResult U)
  | .malformed e => .value (.error (.format (.json e)))
  | .accepted id => .value (.ok (TextFormat.print (CommandReply.encode ⟨id, true, none⟩)))
  | .rejected id x => (convertEsrcError A (.external (.typed A.errorId x))).map fun err =>
      .ok (TextFormat.print (CommandReply.encode ⟨id, false, some err⟩))

/-- The reply that the dispatcher sends for an answer. -/
def Answer.body (a : Answer A) : Outcome ByteArray := a.result.map NatsCommandDispatcher.body

end Bodies
section Sequential
variable [Deserialize A.Command]

/-- Fold the events of the id, process the command, append or reject. -/
def referenceStep (log : EventLog A) (payload : ByteArray) : EventLog A × Answer A :=
  match fromSlice (CommandEnvelope A.Command) payload with
  | .error e => (log, .malformed e)
  | .ok envelope =>
      match A.process (A.fold (entriesOf envelope.id log)) envelope.command with
      | .ok e => (log ++ [(envelope.id, e)], .accepted envelope.id)
      | .error x => (log, .rejected envelope.id x)

end Sequential
end Reference

section Handlers
variable {U : ErrorTypes} [TextFormat] [Uuid.Text] {A : Aggregate U} [Deserialize A.Command]
  [Serialize A.Error] {S : Type}

/-- A handler that has the log for itself does what the reference does. -/
theorem runOn_handle (store : S) (payload : ByteArray) (log : EventLog A) :
    (AggregateCommandHandler.handle (A := A) store payload).runOn StoreOp.answer log =
      ((referenceStep log payload).2.result.map fun r => (store, r), (referenceStep log payload).1) := by
  cases decoded : fromSlice (CommandEnvelope A.Command) payload with
  | error e =>
      rw [AggregateCommandHandler.handle_malformed store decoded]
      simp only [runOn, referenceStep, decoded, Answer.result, Outcome.map_value]
  | ok envelope =>
      rw [AggregateCommandHandler.handle_decoded store decoded]
      simp only [runOn, StoreOp.answer, AggregateCommandHandler.afterRead, referenceStep, decoded]
      simp only [Root.ofLog_aggregate, Root.ofLog_id, Root.ofLog_lastSequence, if_true]
      cases processed : A.process (A.fold (entriesOf envelope.id log)) envelope.command with
      | ok e => rfl
      | error x =>
          simp only [AggregateCommandHandler.afterWrite_error, Answer.result]
          cases convertEsrcError A (.external (.typed A.errorId x)) with
          | value err => rfl
          | panicked message => rfl

end Handlers

section Refinement
variable {U : ErrorTypes} [TextFormat] [Uuid.Text] [ToString (Esrc.Error U)] {A : Aggregate U}
  [Deserialize A.Command] [Serialize A.Error] {S : Type} {X : Signature} {V : Type}

/-- A handler that calls nothing but the store of `A`. -/
def CommandHandler.inl {F : Signature} {E : Type} (h : CommandHandler F S E) :
    CommandHandler (F.sum X) S E :=
  ⟨h.name, fun store payload => (h.handle store payload).inl⟩

/-- A handler that never calls the store of `A` for writing. -/
def CommandHandler.inr {F : Signature} {E : Type} (h : CommandHandler X S E) :
    CommandHandler (F.sum X) S E :=
  ⟨h.name, fun store payload => (h.handle store payload).inr⟩

/-- A loop that is between two requests, or over. -/
def Idle {F : Signature} {R : Type} (e : Endpoint F S R) : Prop :=
  e.phase = .waiting ∨ e.phase = .responding ∨ e.phase = .ended

end Refinement

section Counters
open Counter

end Counters
end EsrcCqrs
