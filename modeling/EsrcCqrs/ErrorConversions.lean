import EsrcCqrs.CafeDomain
import EsrcCqrs.ServiceFailures

/-! The two conversions of store errors: the one of the aggregate handler, which encodes a domain
error, and the public one, which keeps no more of it than its text. -/

namespace EsrcCqrs
open Json Interaction RequestLoop CqrsClient

section Conversions
variable {U : ErrorTypes} [TextFormat] {A : Aggregate U} [Serialize A.Error]

/-- If the error is one of the domain, then its encoding is its text, as a string. -/
def ShownAsEncoded (A : Aggregate U) [Serialize A.Error] (e : Esrc.Error U) : Prop :=
  ∀ x : A.Error, e = .external (.typed A.errorId x) → toValue x = .ok (.string (U.text A.errorId x))

/-- The conversions differ on nothing but domain errors. -/
theorem convertEsrcError_eq_iff (e : Esrc.Error U) :
    convertEsrcError A e = .value (fromEsrcError e) ↔ ShownAsEncoded A e := by
  constructor
  · rintro same x rfl
    cases encoded : toValue x with
    | ok v =>
        rw [convertEsrcError_typed encoded, Outcome.value.injEq] at same
        exact congrArg _ (Error.external.inj same)
    | error je =>
        simp only [convertEsrcError, BoxError.downcast_typed, encoded] at same
        cases same
  · intro shown
    cases e with
    | external b =>
        cases cast : b.downcast A.errorId with
        | none => exact convertEsrcError_foreign cast
        | some x =>
            cases BoxError.eq_typed_of_downcast cast
            exact convertEsrcError_typed (shown x rfl)
    | internal | format | invalid | conflict => rfl

variable [Deserialize A.Error] [Uuid.Text] [ToString (Esrc.Error U)]

/-- The conversions agree; and a service handler that replies with the public one lets its caller
recover the error of the domain. -/
structure ConversionsAgree (A : Aggregate U) [Serialize A.Error] [Deserialize A.Error]
    (e : Esrc.Error U) : Prop where
  same : convertEsrcError A e = .value (fromEsrcError e)
  recovered : ∀ x : A.Error, e = .external (.typed A.errorId x) →
    ∀ {F : Signature} {S C D R R' : Type} [Deserialize C] [Serialize D] [Serialize R'] [Deserialize R]
      (h : ServiceCommandHandler U F S C) (request : Transport) (serviceName : String) (command : D)
      (payload bytes : ByteArray), toVec command = .ok payload →
      toVec (ServiceCommandReply.err (fromEsrcError e) : ServiceCommandReply R') = .ok bytes →
      RepliedWith request (commandSubject serviceName h.name)
        (NatsCommandDispatcher.service h.toHandler) payload (.ok bytes) →
      ∃ err, dispatchServiceCommand R request serviceName h.name command = .error err ∧
        err.downcastExternal A.Error = .value (some x)

/-- They do so exactly on the errors that have their text as their encoding. -/
theorem conversions_agree_iff (errors : ∀ x : A.Error, RoundTrips x) (e : Esrc.Error U) :
    ConversionsAgree A e ↔ ShownAsEncoded A e := by
  constructor
  · exact fun agree => (convertEsrcError_eq_iff e).mp agree.same
  · intro shown
    refine ⟨(convertEsrcError_eq_iff e).mpr shown, ?_⟩
    rintro x rfl F S C D R R' _ _ _ _ h request serviceName command payload bytes written encoded replied
    obtain ⟨v, shape, back⟩ := errors x
    cases shape.symm.trans (shown x rfl)
    exact ⟨_, dispatchServiceCommand_err written replied.carried (ServiceCommandReply.fromSlice_err encoded
      (ServiceCommandReply.legible_err (by decide : 1 < 127))), Error.downcastExternal_external back⟩

end Conversions

section Cafes
open Cafe

/-- The error for an order that has not been placed. -/
abbrev notPlaced : Esrc.Error Cafe.errors := .external (.typed () OrderError.notPlaced)

theorem not_shownAsEncoded_notPlaced : ¬ ShownAsEncoded order notPlaced := by
  intro shown
  have same : Except.ok (.string "NotPlaced") =
      (.ok (.string "order has not been placed yet") : Except Json.Error Value) := shown .notPlaced rfl
  exact absurd (Value.string.inj (Except.ok.inj same)) (by decide)

/-- An order that has not been placed is to be completed: what the cafe replies makes its caller
unwind. -/
theorem cafe_error_not_recovered :
    ¬ ConversionsAgree order notPlaced ∧
    ∃ (request : Transport) (err : Error),
      AnsweredBy request (commandSubject "cafe" "Cafe") (NatsCommandDispatcher.service
        (ServiceCommandHandler.new CafeServiceHandler.handle "Cafe").toHandler) ()
        (fun op => (StoreOp.answer op []).1) ∧
      dispatchServiceCommand Uuid request "cafe" "Cafe" (CafeCommands.completeOrder Uuid.nil) =
        .error err ∧
      err.downcastExternal OrderError = .panicked Error.downcastMessage := by
  constructor
  · exact fun agree =>
      not_shownAsEncoded_notPlaced ((convertEsrcError_eq_iff (A := order) _).mp agree.same)
  · obtain ⟨payload, written, decoded⟩ := command_readsBack (.completeOrder Uuid.nil)
    let h : ServiceCommandHandler Cafe.errors (StoreSig order) Unit CafeCommands :=
      .new CafeServiceHandler.handle "Cafe"
    have encoded : toVec (CafeServiceHandler.reply (.error notPlaced)) = .ok (TextFormat.print
        (.object [("success", .bool false), ("data", .null),
          ("error", (fromEsrcError notPlaced).encode)])) := rfl
    have handled : (h.handle () payload).eval (fun op => (StoreOp.answer op []).1) =
        .value ((), .ok (TextFormat.print (.object [("success", .bool false), ("data", .null),
          ("error", (fromEsrcError notPlaced).encode)]))) := by
      rw [h.handle_decoded () decoded]
      rfl
    have delivers := answeredBy_loopback (commandSubject "cafe" "Cafe")
      (NatsCommandDispatcher.service h.toHandler) () (fun op => (StoreOp.answer op []).1)
    exact ⟨_, _, delivers, dispatchServiceCommand_err written (delivers _ _ _ handled)
      (ServiceCommandReply.fromSlice_err encoded (ServiceCommandReply.legible_err (by decide : 1 < 127))),
      rfl⟩

/-- A conflict is converted alike by both, and this error is not. -/
theorem conversions_agree_iff_cafe :
    ConversionsAgree order .conflict ∧ ¬ ConversionsAgree order notPlaced :=
  ⟨(conversions_agree_iff (A := order) error_roundTrips .conflict).mpr nofun, fun agree =>
    not_shownAsEncoded_notPlaced ((conversions_agree_iff (A := order) error_roundTrips _).mp agree)⟩

end Cafes
end EsrcCqrs
