import Mathlib.Logic.Basic

/- JSON values and typed encodings over them, in the manner of a derived codec. -/

namespace Json

/-- A decimal literal `mantissa * 10 ^ exponent`, kept as it was written. -/
structure Number where
  mantissa : Int
  exponent : Int
  deriving DecidableEq, Repr

inductive Value where
  | null
  | bool (b : Bool)
  | number (n : Number)
  | string (s : String)
  | array (items : List Value)
  | object (members : List (String × Value))
  deriving Repr

mutual
/-- How many arrays and objects are inside one another. -/
def Value.depth : Value → Nat
  | .array items => itemsDepth items + 1
  | .object members => membersDepth members + 1
  | .null | .bool _ | .number _ | .string _ => 0
def itemsDepth : List Value → Nat
  | [] => 0
  | v :: rest => max v.depth (itemsDepth rest)
def membersDepth : List (String × Value) → Nat
  | [] => 0
  | (_, v) :: rest => max v.depth (membersDepth rest)
end

instance : (v : Value) → Decidable (v = .null)
  | .null => .isTrue rfl
  | .bool _ | .number _ | .string _ | .array _ | .object _ => .isFalse nofun

inductive Error where
  | syntaxError
  | missingField (name : String)
  | duplicateField (name : String)
  | unknownVariant (name : String)
  | invalidLength (length : Nat)
  | invalidType
  | recursionLimit
  | custom (message : String)
  /-- One that a text was refused with, at a line and column of it. -/
  | located (e : Error) (place : Nat × Nat)
  deriving DecidableEq, Repr

/-- `toValue` may fail: an encoder written by hand is free to reject a value. -/
class Serialize (α : Type) where
  toValue : α → Except Error Value

/-- `missing` is what an absent field reads as, where it reads as anything. -/
class Deserialize (α : Type) where
  fromValue : Value → Except Error α
  missing : Option α := none

export Serialize (toValue)
export Deserialize (fromValue)

/-- The encoding of `a` exists and decodes back to `a`. -/
def RoundTrips {α : Type} [Serialize α] [Deserialize α] (a : α) : Prop :=
  ∃ v, toValue a = .ok v ∧ fromValue v = .ok a

theorem RoundTrips.written {α : Type} [Serialize α] [Deserialize α] {a : α} (h : RoundTrips a) :
    ∃ v, toValue a = .ok v :=
  h.imp fun _ shape => shape.1

instance : Serialize Value := ⟨.ok⟩
instance : Deserialize Value where
  fromValue := .ok

instance : Serialize Unit := ⟨fun _ => .ok .null⟩
instance : Deserialize Unit where
  fromValue
    | .null => .ok ()
    | _ => .error .invalidType

instance : Serialize Bool := ⟨fun b => .ok (.bool b)⟩
instance : Deserialize Bool where
  fromValue
    | .bool b => .ok b
    | _ => .error .invalidType

instance : Serialize String := ⟨fun s => .ok (.string s)⟩
instance : Deserialize String where
  fromValue
    | .string s => .ok s
    | _ => .error .invalidType

instance : Serialize Int := ⟨fun n => .ok (.number ⟨n, 0⟩)⟩
instance : Deserialize Int where
  fromValue
    | .number ⟨n, 0⟩ => .ok n
    | _ => .error .invalidType

section Options
variable {α : Type}

/-- `Some a` has no wrapper of its own on the wire: it is encoded as `a`. -/
instance [Serialize α] : Serialize (Option α) where
  toValue
    | none => .ok .null
    | some a => toValue a

instance [Deserialize α] : Deserialize (Option α) where
  fromValue
    | .null => .ok none
    | v => (fromValue v).map some
  missing := some none

@[simp] theorem fromValue_option_null [Deserialize α] :
    fromValue (α := Option α) .null = .ok none := rfl

theorem fromValue_option [Deserialize α] {v : Value} (h : v ≠ .null) :
    fromValue (α := Option α) v = (fromValue v).map some := by
  cases v with
  | null => exact False.elim (h rfl)
  | _ => rfl

/-- The one collision of the optional encoding: a present value that is written as null. -/
theorem fromValue_option_ok [Deserialize α] {v : Value} {a : α} (ha : fromValue v = .ok a) :
    fromValue (α := Option α) v = .ok (some a) ↔ v ≠ .null := by
  constructor
  · intro h hv
    subst hv
    rw [fromValue_option_null] at h
    cases h
  · intro h
    rw [fromValue_option h, ha]
    rfl

end Options

@[simp] theorem fromValue_value (v : Value) : fromValue v = .ok v := rfl

/-- The only occurrence of a key; a second one is an error, as in a derived struct decoder. -/
def member (name : String) : List (String × Value) → Except Error (Option Value)
  | [] => .ok none
  | (key, v) :: rest =>
      if key = name then
        match member name rest with
        | .ok none => .ok (some v)
        | .ok (some _) => .error (.duplicateField name)
        | .error e => .error e
      else member name rest

/-- A struct is read from an object, whose unknown keys are ignored, or from an
array that holds exactly its fields in order. -/
def field (names : List String) (name : String) : Value → Except Error (Option Value)
  | .object members => member name members
  | .array items =>
      if items.length = names.length then .ok items[names.idxOf name]?
      else .error (.invalidLength items.length)
  | _ => .error .invalidType

/-- An absent field is an error, unless its type has a value for it. -/
def required (α : Type) [Deserialize α] (names : List String) (name : String) (v : Value) :
    Except Error α := do
  match ← field names name v with
  | some x => fromValue x
  | none =>
      match (Deserialize.missing : Option α) with
      | some a => .ok a
      | none => .error (.missingField name)

theorem required_of_field {α : Type} [Deserialize α] {names : List String} {name : String}
    {v x : Value} (h : field names name v = .ok (some x)) : required α names name v = fromValue x := by
  rw [required, h]
  rfl

theorem required_of_absent {α : Type} [Deserialize α] {names : List String} {name : String}
    {v : Value} (h : field names name v = .ok none) :
    required α names name v = match (Deserialize.missing : Option α) with
      | some a => .ok a
      | none => .error (.missingField name) := by
  rw [required, h]
  rfl

/-- An absent optional field reads as `none`. -/
abbrev optional (α : Type) [Deserialize α] (names : List String) (name : String) (v : Value) :
    Except Error (Option α) :=
  required (Option α) names name v

/-- A text format: a printer of values, a parser of their grammar, and readers of typed data, which
refuse a text that is nested too deep. Any reader gets through a text of less than 128 levels. -/
class TextFormat where
  print : Value → ByteArray
  parse : ByteArray → Except Error Value
  tooDeep : (α : Type) → [Deserialize α] → Value → Bool
  place : (α : Type) → [Deserialize α] → ByteArray → Nat × Nat
  display : Error → String
  parse_print : ∀ v, parse (print v) = .ok v
  shallow : ∀ (α : Type) [Deserialize α] (v : Value), v.depth < 128 → tooDeep α v = false

section Text
variable [TextFormat] {α β : Type}

def toVec [Serialize α] (a : α) : Except Error ByteArray :=
  (toValue a).map TextFormat.print

/-- `from_slice`: its errors tell where in the text it stopped. -/
def fromSlice (α : Type) [Deserialize α] (bytes : ByteArray) : Except Error α :=
  (do
    let v ← TextFormat.parse bytes
    if TextFormat.tooDeep α v then .error .recursionLimit else fromValue v).mapError fun e =>
      .located e (TextFormat.place α bytes)

/-- A reader of `β` gets through the text of `a`. -/
def Legible (β : Type) [Deserialize β] [Serialize α] (a : α) : Prop :=
  ∀ v, toValue a = .ok v → TextFormat.tooDeep β v = false

theorem legible_of_depth [Deserialize β] [Serialize α] {a : α} {v : Value} (written : toValue a = .ok v)
    (few : v.depth < 128) : Legible β a := by
  intro w written'
  cases written.symm.trans written'
  exact TextFormat.shallow β v few

theorem print_injective {v w : Value} (h : TextFormat.print v = TextFormat.print w) : v = w := by
  have parsed := congrArg TextFormat.parse h
  rw [TextFormat.parse_print, TextFormat.parse_print] at parsed
  exact Except.ok.inj parsed

/-- A printed value is read, at any type, as what it decodes to. -/
theorem fromSlice_print [Deserialize α] {v : Value} (legible : TextFormat.tooDeep α v = false) :
    fromSlice α (TextFormat.print v) =
      (fromValue v).mapError fun e => .located e (TextFormat.place α (TextFormat.print v)) := by
  rw [fromSlice, TextFormat.parse_print]
  change (if TextFormat.tooDeep α v = true then _ else _ : Except Error α).mapError _ = _
  rw [legible, if_neg Bool.false_ne_true]

theorem fromSlice_print_ok [Deserialize α] {v : Value} {a : α} (legible : TextFormat.tooDeep α v = false)
    (decoded : fromValue v = .ok a) : fromSlice α (TextFormat.print v) = .ok a := by
  rw [fromSlice_print legible, decoded]
  rfl

theorem fromSlice_print_tooDeep [Deserialize α] {v : Value} (deep : TextFormat.tooDeep α v = true) :
    fromSlice α (TextFormat.print v) =
      .error (.located .recursionLimit (TextFormat.place α (TextFormat.print v))) := by
  rw [fromSlice, TextFormat.parse_print]
  change (if TextFormat.tooDeep α v = true then _ else _ : Except Error α).mapError _ = _
  rw [deep, if_pos rfl]
  rfl

theorem toVec_of_toValue [Serialize α] {a : α} {v : Value} (h : toValue a = .ok v) :
    toVec a = .ok (TextFormat.print v) := by
  rw [toVec, h]
  rfl

theorem toValue_of_toVec [Serialize α] {a : α} {bytes : ByteArray} (h : toVec a = .ok bytes) :
    ∃ v, toValue a = .ok v ∧ bytes = TextFormat.print v := by
  cases written : toValue a with
  | error e =>
      rw [toVec, written] at h
      cases h
  | ok v =>
      rw [toVec_of_toValue written] at h
      cases h
      exact ⟨v, rfl, rfl⟩

/-- A text that its reader does not get through is not read at all. -/
theorem fromSlice_of_not_legible [Deserialize β] [Serialize α] {a : α} {bytes : ByteArray}
    (printed : toVec a = .ok bytes) (deep : ¬ Legible β a) :
    fromSlice β bytes = .error (.located .recursionLimit (TextFormat.place β bytes)) := by
  obtain ⟨v, written, rfl⟩ := toValue_of_toVec printed
  refine fromSlice_print_tooDeep (eq_true_of_ne_false fun few => deep fun w written' => ?_)
  cases written.symm.trans written'
  exact few

/-- The text of `a` exists and is read back as `a`. -/
def ReadsBack [Serialize α] [Deserialize α] (a : α) : Prop :=
  ∃ bytes, toVec a = .ok bytes ∧ fromSlice α bytes = .ok a

theorem RoundTrips.readsBack [Serialize α] [Deserialize α] {a : α} (h : RoundTrips a)
    (legible : Legible α a) : ReadsBack a := by
  obtain ⟨v, written, back⟩ := h
  exact ⟨TextFormat.print v, toVec_of_toValue written, fromSlice_print_ok (legible v written) back⟩

end Text
end Json
