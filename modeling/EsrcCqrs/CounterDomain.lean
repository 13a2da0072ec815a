import EsrcCqrs.CommandHandlers
import EsrcCqrs.JsonText

/-! The counter of the integration tests: a concrete aggregate and view with their codecs.
Its values stay far from the bounds of a machine integer. -/

namespace EsrcCqrs.Counter
open Json

inductive CounterCommand where
  | increment (amount : Int)
  | decrement (amount : Int)
  | alwaysFail
  deriving DecidableEq

inductive CounterEvent where
  | incremented (amount : Int)
  | decremented (amount : Int)
  deriving DecidableEq

inductive CounterError where
  | forcedFailure
  deriving DecidableEq

/-- An enumeration tagged by its variant; a bare variant is its name. -/
instance : Serialize CounterCommand where
  toValue
    | .increment n => .ok (.object [("Increment", .object [("by", .number ⟨n, 0⟩)])])
    | .decrement n => .ok (.object [("Decrement", .object [("by", .number ⟨n, 0⟩)])])
    | .alwaysFail => .ok (.string "AlwaysFail")

instance : Deserialize CounterCommand where
  fromValue
    | .string "AlwaysFail" => .ok .alwaysFail
    | .object [("AlwaysFail", .null)] => .ok .alwaysFail
    | .object [("Increment", v)] => (required Int ["by"] "by" v).map .increment
    | .object [("Decrement", v)] => (required Int ["by"] "by" v).map .decrement
    | .string other => .error (.unknownVariant other)
    | .object [(other, _)] => .error (.unknownVariant other)
    | _ => .error .invalidType

instance : Serialize CounterError := ⟨fun _ => .ok (.string "ForcedFailure")⟩

instance : Deserialize CounterError where
  fromValue v := do
    match ← fromValue (α := String) v with
    | "ForcedFailure" => return .forcedFailure
    | other => throw (.unknownVariant other)

theorem command_roundTrips (c : CounterCommand) : RoundTrips c := by
  cases c with
  | increment n => exact ⟨_, rfl, rfl⟩
  | decrement n => exact ⟨_, rfl, rfl⟩
  | alwaysFail => exact ⟨_, rfl, rfl⟩

theorem command_legible [TextFormat] {β : Type} [Deserialize β] (c : CounterCommand) : Legible β c := by
  cases c with
  | increment n => exact legible_of_depth rfl (by decide : 2 < 128)
  | decrement n => exact legible_of_depth rfl (by decide : 2 < 128)
  | alwaysFail => exact legible_of_depth rfl (by decide : 0 < 128)

theorem envelope_readsBack [TextFormat] [Uuid.Text] (id : Uuid) (c : CounterCommand) :
    ReadsBack (CommandEnvelope.mk id c) := by
  cases c with
  | increment n => exact CommandEnvelope.readsBack id rfl rfl (by decide : 2 < 127)
  | decrement n => exact CommandEnvelope.readsBack id rfl rfl (by decide : 2 < 127)
  | alwaysFail => exact CommandEnvelope.readsBack id rfl rfl (by decide : 0 < 127)

theorem error_roundTrips (e : CounterError) : RoundTrips e := ⟨_, rfl, rfl⟩

/-- The error types of the tests: this one. -/
abbrev errors : ErrorTypes :=
  ⟨Unit, inferInstance, fun _ => CounterError, fun _ _ => "forced failure for testing"⟩

def process (_ : Int) : CounterCommand → Except CounterError CounterEvent
  | .increment n => .ok (.incremented n)
  | .decrement n => .ok (.decremented n)
  | .alwaysFail => .error .forcedFailure

def apply (value : Int) : CounterEvent → Int
  | .incremented n => value + n
  | .decremented n => value - n

abbrev aggregate : Aggregate errors where
  State := Int
  Command := CounterCommand
  Event := CounterEvent
  errorId := ()
  default := 0
  process := process
  apply := apply

abbrev view : View CounterEvent := ⟨Int, 0, apply⟩

/-- The parts that lie outside of the crate, fixed for concrete runs. -/
scoped instance : TextFormat := Compact.format
scoped instance : Uuid.Text := Uuid.Hyphenated.text
scoped instance : ToString (Esrc.Error errors) := ⟨Esrc.Error.toText⟩

instance : Deserialize aggregate.Command := inferInstanceAs (Deserialize CounterCommand)
instance : Serialize aggregate.Command := inferInstanceAs (Serialize CounterCommand)
instance : Serialize aggregate.Error := inferInstanceAs (Serialize CounterError)
instance : Deserialize aggregate.Error := inferInstanceAs (Deserialize CounterError)

/-- The bytes of a command envelope. -/
def payload (id : Uuid) (command : CounterCommand) : ByteArray :=
  (toVec (CommandEnvelope.mk id command)).toOption.getD ByteArray.empty

theorem fromSlice_payload (id : Uuid) (command : CounterCommand) :
    fromSlice (CommandEnvelope CounterCommand) (payload id command) = .ok ⟨id, command⟩ := by
  obtain ⟨bytes, written, read⟩ := envelope_readsBack id command
  rw [payload, written]
  exact read

end EsrcCqrs.Counter
