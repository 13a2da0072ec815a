import EsrcCqrs.EventStore
import EsrcCqrs.Envelopes

/-! The two command handlers of the crate, as programs over the store's calls. -/

namespace EsrcCqrs
open Json Interaction

/-- `CommandHandler<S>`: a name and a program that may change its own store handle. -/
structure CommandHandler (F : Signature) (S E : Type) where
  name : String
  handle : S → ByteArray → Prog F (S × Except E ByteArray)

section Aggregates
variable {U : ErrorTypes} [TextFormat] (A : Aggregate U)

def serializableMessage : String :=
  "aggregate Error must be serializable when used with esrc-cqrs"

/-- `convert_esrc_error::<A>`: a domain error crosses as its own encoding, which has to exist. -/
def convertEsrcError [Serialize A.Error] : Esrc.Error U → Outcome Error
  | .internal e => .value (.internal e.toText)
  | .external e =>
      match e.downcast A.errorId with
      | some x =>
          match toValue x with
          | .ok v => .value (.external v)
          | .error _ => .panicked serializableMessage
      | none => .value (.external (.string e.toText))
  | .format e => .value (.format e.toText)
  | .invalid => .value .invalid
  | .conflict => .value .conflict

variable {A}

theorem convertEsrcError_typed [Serialize A.Error] {x : A.Error} {v : Value}
    (h : toValue x = .ok v) :
    convertEsrcError A (.external (.typed A.errorId x)) = .value (.external v) := by
  simp only [convertEsrcError, BoxError.downcast_typed, h]

theorem convertEsrcError_foreign [Serialize A.Error] {b : BoxError U} (h : b.downcast A.errorId = none) :
    convertEsrcError A (.external b) = .value (.external (.string b.toText)) := by
  simp only [convertEsrcError, h]

/-- The conversion unwinds on nothing but a domain error without an encoding. -/
theorem convertEsrcError_panicked [Serialize A.Error] {e : Esrc.Error U} {message : String}
    (h : convertEsrcError A e = .panicked message) :
    ∃ x : A.Error, ∃ je, e = .external (.typed A.errorId x) ∧ toValue x = .error je := by
  cases e with
  | external b =>
      simp only [convertEsrcError] at h
      split at h
      · next x cast =>
          split at h
          · cases h
          · next je failed => exact ⟨x, je, congrArg _ (BoxError.eq_typed_of_downcast cast), failed⟩
      · cases h
  | internal b => cases h
  | format b => cases h
  | invalid => cases h
  | conflict => cases h

theorem convertEsrcError_kind [Serialize A.Error] {e : Esrc.Error U} {err : Error}
    (h : convertEsrcError A e = .value err) : err.kind = e.kind := by
  cases e with
  | external b =>
      simp only [convertEsrcError] at h
      split at h
      · split at h <;> cases h
        rfl
      · cases h
        rfl
  | internal b =>
      cases h
      rfl
  | format b =>
      cases h
      rfl
  | invalid =>
      cases h
      rfl
  | conflict =>
      cases h
      rfl

/-- The reply to the outcome of `try_write`. -/
def writeReply [Serialize A.Error] (aggId : Uuid) :
    Except (Esrc.Error U) (Root A) → Outcome CommandReply
  | .ok written => .value ⟨written.id, true, none⟩
  | .error e => (convertEsrcError A e).map fun err => ⟨aggId, false, some err⟩

variable [Uuid.Text]

/-- If the error is one of the domain, then the reader gets through the reply that carries it. -/
def LegibleError (A : Aggregate U) [Serialize A.Error] (aggId : Uuid) (e : Esrc.Error U) : Prop :=
  ∀ (x : A.Error) (v : Value), e = .external (.typed A.errorId x) → toValue x = .ok v →
    TextFormat.tooDeep CommandReply (CommandReply.encode ⟨aggId, false, some (.external v)⟩) = false

theorem LegibleError.reply [Serialize A.Error] {aggId : Uuid} {e : Esrc.Error U} {err : Error}
    (h : LegibleError A aggId e) (converted : convertEsrcError A e = .value err) :
    TextFormat.tooDeep CommandReply (CommandReply.encode ⟨aggId, false, some err⟩) = false := by
  cases e with
  | external b =>
      cases cast : b.downcast A.errorId with
      | none =>
          rw [convertEsrcError_foreign cast] at converted
          cases converted
          exact CommandReply.legible (by decide : 1 < 127)
      | some x =>
          cases BoxError.eq_typed_of_downcast cast
          cases encoded : toValue x with
          | ok v =>
              rw [convertEsrcError_typed encoded] at converted
              cases converted
              exact h x v rfl encoded
          | error je =>
              simp only [convertEsrcError, BoxError.downcast_typed, encoded] at converted
              cases converted
  | internal | format | invalid | conflict =>
      cases converted
      exact CommandReply.legible (by decide : 1 < 127)

/-- `AggregateCommandHandler<A>`. -/
structure AggregateCommandHandler {U : ErrorTypes} (A : Aggregate U) where
  handlerName : String

namespace AggregateCommandHandler

def new (handlerName : String) : AggregateCommandHandler A := ⟨handlerName⟩

section Handle
variable [Serialize A.Error] {S : Type}

/-- What follows `try_write`: no further call is awaited. -/
def afterWrite (store : S) (aggId : Uuid) (result : Except (Esrc.Error U) (Root A)) :
    Prog (StoreSig A) (S × Except (Esrc.Error U) ByteArray) :=
  .ofOutcome <| (writeReply aggId result).map fun reply =>
    (store, (toVec reply).mapError fun e => .format (.json e))

/-- What follows `read`. -/
def afterRead (store : S) (envelope : CommandEnvelope A.Command) :
    Except (Esrc.Error U) (Root A) → Prog (StoreSig A) (S × Except (Esrc.Error U) ByteArray)
  | .error e => .ret (store, .error e)
  | .ok root => .call (.tryWrite root envelope.command) (afterWrite store envelope.id)

theorem afterWrite_ok (store : S) (aggId : Uuid) (written : Root A) :
    afterWrite store aggId (.ok written) =
      .ret (store, .ok (TextFormat.print (CommandReply.encode ⟨written.id, true, none⟩))) := rfl

theorem afterWrite_error (store : S) (aggId : Uuid) (e : Esrc.Error U) :
    afterWrite (A := A) store aggId (.error e) =
      .ofOutcome ((convertEsrcError A e).map fun err =>
        (store, .ok (TextFormat.print (CommandReply.encode ⟨aggId, false, some err⟩)))) := by
  simp only [afterWrite, writeReply]
  cases convertEsrcError A e with
  | value err => rfl
  | panicked message => rfl

variable [Deserialize A.Command]

def handle (store : S) (payload : ByteArray) :
    Prog (StoreSig A) (S × Except (Esrc.Error U) ByteArray) :=
  match fromSlice (CommandEnvelope A.Command) payload with
  | .error e => .ret (store, .error (.format (.json e)))
  | .ok envelope => .call (.read envelope.id) (afterRead store envelope)

def toHandler (S : Type) (h : AggregateCommandHandler A) :
    CommandHandler (StoreSig A) S (Esrc.Error U) :=
  ⟨h.handlerName, handle⟩

theorem handle_malformed (store : S) {payload : ByteArray} {e : Json.Error}
    (h : fromSlice (CommandEnvelope A.Command) payload = .error e) :
    handle (A := A) store payload = .ret (store, .error (.format (.json e))) := by
  simp only [handle, h]

theorem handle_decoded (store : S) {payload : ByteArray} {envelope : CommandEnvelope A.Command}
    (h : fromSlice (CommandEnvelope A.Command) payload = .ok envelope) :
    handle (A := A) store payload = .call (.read envelope.id) (afterRead store envelope) := by
  simp only [handle, h]

end Handle
end AggregateCommandHandler
end Aggregates

section Services
variable [TextFormat] {U : ErrorTypes} {F : Signature} {S C : Type}

/-- `EsrcCommandHandler<S, C>`: the application's part of a service command. -/
abbrev EsrcCommandHandler (U : ErrorTypes) (F : Signature) (S C : Type) :=
  S → C → Prog F (S × Except (Esrc.Error U) ByteArray)

/-- `ServiceCommandHandler<H, C>`. -/
structure ServiceCommandHandler (U : ErrorTypes) (F : Signature) (S C : Type) where
  handler : EsrcCommandHandler U F S C
  name : String

namespace ServiceCommandHandler

def new (handler : EsrcCommandHandler U F S C) (name : String) :
    ServiceCommandHandler U F S C := ⟨handler, name⟩

def handle [Deserialize C] (h : ServiceCommandHandler U F S C) (store : S) (payload : ByteArray) :
    Prog F (S × Except (Esrc.Error U) ByteArray) :=
  match fromSlice C payload with
  | .error e => .ret (store, .error (.format (.json e)))
  | .ok command => h.handler store command

def toHandler [Deserialize C] (h : ServiceCommandHandler U F S C) :
    CommandHandler F S (Esrc.Error U) :=
  ⟨h.name, h.handle⟩

theorem handle_malformed [Deserialize C] (h : ServiceCommandHandler U F S C) (store : S)
    {payload : ByteArray} {e : Json.Error} (malformed : fromSlice C payload = .error e) :
    h.handle store payload = .ret (store, .error (.format (.json e))) := by
  simp only [handle, malformed]

theorem handle_decoded [Deserialize C] (h : ServiceCommandHandler U F S C) (store : S)
    {payload : ByteArray} {command : C} (decoded : fromSlice C payload = .ok command) :
    h.handle store payload = h.handler store command := by
  simp only [handle, decoded]

end ServiceCommandHandler
end Services
end EsrcCqrs
