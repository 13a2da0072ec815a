import EsrcCqrs.CommandHandlers
import EsrcCqrs.JsonText

/-! The cafe of the examples: an order aggregate, and a service handler that works on it through
the store and converts the errors of the store by itself. -/

namespace EsrcCqrs.Cafe
open Json Interaction

inductive OrderStatus where
  | pending
  | completed
  deriving DecidableEq

structure Order where
  status : OrderStatus
  item : Option String
  quantity : UInt32

inductive OrderCommand where
  | placeOrder (item : String) (quantity : UInt32)
  | completeOrder

inductive OrderEvent where
  | orderPlaced (item : String) (quantity : UInt32)
  | orderCompleted

inductive OrderError where
  | alreadyCompleted
  | notPlaced
  deriving DecidableEq

/-- `Display` of an order's error. -/
def OrderError.text : OrderError → String
  | .alreadyCompleted => "order is already completed"
  | .notPlaced => "order has not been placed yet"

instance : Serialize OrderError where
  toValue
    | .alreadyCompleted => .ok (.string "AlreadyCompleted")
    | .notPlaced => .ok (.string "NotPlaced")

instance : Deserialize OrderError where
  fromValue
    | .string "AlreadyCompleted" => .ok .alreadyCompleted
    | .object [("AlreadyCompleted", .null)] => .ok .alreadyCompleted
    | .string "NotPlaced" => .ok .notPlaced
    | .object [("NotPlaced", .null)] => .ok .notPlaced
    | .string other => .error (.unknownVariant other)
    | .object [(other, _)] => .error (.unknownVariant other)
    | _ => .error .invalidType

theorem error_roundTrips (e : OrderError) : RoundTrips e := by
  cases e with
  | alreadyCompleted => exact ⟨_, rfl, rfl⟩
  | notPlaced => exact ⟨_, rfl, rfl⟩

/-- The error types of the cafe: this one. -/
abbrev errors : ErrorTypes := ⟨Unit, inferInstance, fun _ => OrderError, fun _ => OrderError.text⟩

def process (order : Order) : OrderCommand → Except OrderError OrderEvent
  | .placeOrder item quantity => .ok (.orderPlaced item quantity)
  | .completeOrder =>
      if order.status = .completed then .error .alreadyCompleted
      else if order.item.isNone then .error .notPlaced
      else .ok .orderCompleted

def apply (order : Order) : OrderEvent → Order
  | .orderPlaced item quantity => ⟨.pending, some item, quantity⟩
  | .orderCompleted => { order with status := .completed }

abbrev order : Aggregate errors where
  State := Order
  Command := OrderCommand
  Event := OrderEvent
  errorId := ()
  default := ⟨.pending, none, 0⟩
  process := process
  apply := apply

instance : Serialize order.Error := inferInstanceAs (Serialize OrderError)
instance : Deserialize order.Error := inferInstanceAs (Deserialize OrderError)

instance : Serialize UInt32 := ⟨fun n => .ok (.number ⟨n.toNat, 0⟩)⟩

def toU32 (n : Int) : Except Json.Error UInt32 :=
  if 0 ≤ n ∧ n < 4294967296 then .ok (.ofNat n.toNat) else .error (.custom "integer out of range")

instance : Deserialize UInt32 where
  fromValue v := fromValue v >>= toU32

theorem toU32_toNat (n : UInt32) : toU32 n.toNat = .ok n := by
  have bound := n.toNat_lt
  have fits : (0 : Int) ≤ n.toNat ∧ (n.toNat : Int) < 4294967296 := by omega
  rw [toU32, if_pos fits, Int.toNat_natCast, UInt32.ofNat_toNat]

theorem fromValue_u32 (n : UInt32) : fromValue (.number ⟨n.toNat, 0⟩) = .ok n := by
  have read : fromValue (α := Int) (.number ⟨n.toNat, 0⟩) = .ok (n.toNat : Int) := rfl
  have decoded : fromValue (α := UInt32) (.number ⟨n.toNat, 0⟩) =
      (fromValue (α := Int) (.number ⟨n.toNat, 0⟩)).bind toU32 := rfl
  rw [decoded, read, Except.bind, toU32_toNat]

section Commands
variable [Uuid.Text]

inductive CafeCommands where
  | placeOrder (id : Uuid) (item : String) (quantity : UInt32)
  | completeOrder (id : Uuid)

instance : Serialize CafeCommands where
  toValue
    | .placeOrder id item quantity => do
        return .object [("PlaceOrder", .object [("id", ← toValue id), ("item", ← toValue item),
          ("quantity", ← toValue quantity)])]
    | .completeOrder id => do return .object [("CompleteOrder", .object [("id", ← toValue id)])]

instance : Deserialize CafeCommands where
  fromValue
    | .object [("PlaceOrder", v)] => do
        let id ← required Uuid ["id", "item", "quantity"] "id" v
        let item ← required String ["id", "item", "quantity"] "item" v
        let quantity ← required UInt32 ["id", "item", "quantity"] "quantity" v
        return .placeOrder id item quantity
    | .object [("CompleteOrder", v)] => do return .completeOrder (← required Uuid ["id"] "id" v)
    | .string other => .error (.unknownVariant other)
    | .object [(other, _)] => .error (.unknownVariant other)
    | _ => .error .invalidType

theorem command_roundTrips (c : CafeCommands) : RoundTrips c := by
  cases c with
  | placeOrder id item quantity =>
      let fields : Value := .object [("id", .string (Uuid.Text.write id)), ("item", .string item),
        ("quantity", .number ⟨quantity.toNat, 0⟩)]
      have decoded : fromValue (α := CafeCommands) (.object [("PlaceOrder", fields)]) =
          (required Uuid ["id", "item", "quantity"] "id" fields >>= fun id =>
            required String ["id", "item", "quantity"] "item" fields >>= fun item =>
            required UInt32 ["id", "item", "quantity"] "quantity" fields >>= fun quantity =>
            .ok (.placeOrder id item quantity)) := rfl
      have first : required Uuid ["id", "item", "quantity"] "id" fields = .ok id :=
        (required_of_field rfl).trans (Uuid.fromValue_uuid id)
      have second : required String ["id", "item", "quantity"] "item" fields = .ok item := rfl
      have third : required UInt32 ["id", "item", "quantity"] "quantity" fields = .ok quantity :=
        (required_of_field rfl).trans (fromValue_u32 quantity)
      refine ⟨.object [("PlaceOrder", fields)], rfl, ?_⟩
      rw [decoded, first, second, third]
      rfl
  | completeOrder id =>
      refine ⟨.object [("CompleteOrder", .object [("id", .string (Uuid.Text.write id))])], rfl, ?_⟩
      change (fromValue (.string (Uuid.Text.write id)) >>= fun i =>
        Except.ok (CafeCommands.completeOrder i)) = _
      rw [Uuid.fromValue_uuid]
      rfl

theorem command_readsBack [TextFormat] (c : CafeCommands) : ReadsBack c := by
  refine (command_roundTrips c).readsBack ?_
  cases c with
  | placeOrder id item quantity => exact legible_of_depth rfl (by decide : 2 < 128)
  | completeOrder id => exact legible_of_depth rfl (by decide : 2 < 128)

end Commands

namespace CafeServiceHandler
variable [TextFormat] [Uuid.Text] {S : Type}

/-- What either arm of `handle` makes of the outcome of its write. -/
def reply : Except (Esrc.Error errors) (Root order) → ServiceCommandReply Uuid
  | .ok written => .okWith written.id
  | .error e => .err (fromEsrcError e)

/-- Either arm of `handle`: a read, which may end it, and a write. -/
def write (store : S) (id : Uuid) (command : OrderCommand) :
    Prog (StoreSig order) (S × Except (Esrc.Error errors) ByteArray) :=
  .call (.read id) fun
    | .error e => .ret (store, .error e)
    | .ok root => .call (.tryWrite root command) fun result =>
        .ret (store, (toVec (reply result)).mapError fun e => .format (.json e))

def handle : EsrcCommandHandler errors (StoreSig order) S CafeCommands
  | store, .placeOrder id item quantity => write store id (.placeOrder item quantity)
  | store, .completeOrder id => write store id .completeOrder

end CafeServiceHandler

/-- The parts that lie outside of the crate, fixed for concrete runs. -/
scoped instance : TextFormat := Compact.format
scoped instance : Uuid.Text := Uuid.Hyphenated.text
scoped instance : ToString (Esrc.Error errors) := ⟨Esrc.Error.toText⟩

end EsrcCqrs.Cafe
