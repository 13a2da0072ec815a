import EsrcCqrs.UuidText
import EsrcCqrs.Interaction

/-! The two error types: `esrc`'s, which boxes arbitrary error values, and the
serializable one that crosses the wire. -/

namespace EsrcCqrs
open Json Interaction

/-- The concrete error types of an application, by type id, with their `Display`. -/
structure ErrorTypes where
  Id : Type
  decEq : DecidableEq Id
  El : Id → Type
  text : (t : Id) → El t → String

attribute [instance] ErrorTypes.decEq

/-- `Box<dyn Error>`: a JSON error, a string turned into an error, or an application
error, which remembers its own type. -/
inductive BoxError (U : ErrorTypes) where
  | json (e : Json.Error)
  | message (s : String)
  | typed (t : U.Id) (e : U.El t)

namespace BoxError
variable {U : ErrorTypes}

def toText [TextFormat] : BoxError U → String
  | .json e => TextFormat.display e
  | .message s => s
  | .typed t e => U.text t e

/-- Succeeds exactly on a box of the requested type. -/
def downcast (t : U.Id) : BoxError U → Option (U.El t)
  | .typed t' e => if h : t' = t then some (h ▸ e) else none
  | _ => none

@[simp] theorem downcast_typed (t : U.Id) (e : U.El t) :
    downcast t (.typed t e) = some e := by
  simp only [downcast, dite_true]

theorem eq_typed_of_downcast {t : U.Id} {e : U.El t} {b : BoxError U} (h : b.downcast t = some e) :
    b = .typed t e := by
  cases b with
  | typed t' e' =>
      simp only [downcast] at h
      split at h
      · next same =>
          subst same
          cases h
          rfl
      · cases h
  | json | message => cases h

end BoxError

/-- `esrc::error::Error`. -/
inductive Esrc.Error (U : ErrorTypes) where
  | internal (e : BoxError U)
  | external (e : BoxError U)
  | format (e : BoxError U)
  | invalid
  | conflict

/-- The variant names that the two error types share. -/
inductive ErrorKind where
  | internal
  | external
  | format
  | invalid
  | conflict
  deriving DecidableEq, Repr

def Esrc.Error.kind {U : ErrorTypes} : Esrc.Error U → ErrorKind
  | .internal _ => .internal
  | .external _ => .external
  | .format _ => .format
  | .invalid => .invalid
  | .conflict => .conflict

/-- A stand-in for `Display` of `esrc::error::Error`, whose texts are that crate's own. -/
def Esrc.Error.toText {U : ErrorTypes} [TextFormat] : Esrc.Error U → String
  | .internal e => "internal error: " ++ e.toText
  | .external e => "external error: " ++ e.toText
  | .format e => "bad envelope format: " ++ e.toText
  | .invalid => "consumed invalid event in stream"
  | .conflict => "event transaction failed"

/-- `crate::Error`, tagged by `kind` with its content under `detail`. -/
inductive Error where
  | internal (message : String)
  | external (value : Value)
  | format (message : String)
  | invalid
  | conflict

namespace Error

def kind : Error → ErrorKind
  | .internal _ => .internal
  | .external _ => .external
  | .format _ => .format
  | .invalid => .invalid
  | .conflict => .conflict

def encode : Error → Value
  | .internal message => .object [("kind", .string "Internal"), ("detail", .string message)]
  | .external value => .object [("kind", .string "External"), ("detail", value)]
  | .format message => .object [("kind", .string "Format"), ("detail", .string message)]
  | .invalid => .object [("kind", .string "Invalid")]
  | .conflict => .object [("kind", .string "Conflict")]

/-- Content of a variant without content: absent or null. -/
def unitDetail (v : Value) : Except Json.Error Unit := do
  match ← field ["kind", "detail"] "detail" v with
  | none => pure ()
  | some .null => pure ()
  | some _ => throw .invalidType

def decode (v : Value) : Except Json.Error Error := do
  match ← required String ["kind", "detail"] "kind" v with
  | "Internal" => return .internal (← required String ["kind", "detail"] "detail" v)
  | "External" => return .external (← required Value ["kind", "detail"] "detail" v)
  | "Format" => return .format (← required String ["kind", "detail"] "detail" v)
  | "Invalid" => unitDetail v; return .invalid
  | "Conflict" => unitDetail v; return .conflict
  | other => throw (.unknownVariant other)

instance : Serialize Error := ⟨fun e => .ok e.encode⟩
instance : Deserialize Error where
  fromValue := decode

theorem encode_ne_null (e : Error) : e.encode ≠ .null := by
  cases e <;> exact nofun

theorem fromValue_encode (e : Error) : fromValue e.encode = .ok e := by
  cases e <;> rfl

/-- An optional error always keeps its presence on the wire. -/
theorem fromValue_encode_some (e : Error) : fromValue e.encode = .ok (some e) :=
  (fromValue_option_ok (fromValue_encode e)).mpr e.encode_ne_null

def downcastMessage : String :=
  "External error payload could not be deserialized into the requested type; " ++
    "ensure the aggregate Error type matches and implements Deserialize"

/-- `Error::downcast_external`; decoding failure is a panic. -/
def downcastExternal (E : Type) [Deserialize E] : Error → Outcome (Option E)
  | .external value =>
      match fromValue value with
      | .ok e => .value (some e)
      | .error _ => .panicked downcastMessage
  | _ => .value none

theorem downcastExternal_external {E : Type} [Deserialize E] {value : Value} {e : E}
    (h : fromValue value = .ok e) :
    downcastExternal E (.external value) = .value (some e) := by
  simp only [downcastExternal, h]

theorem downcastExternal_other (E : Type) [Deserialize E] {e : Error} (h : e.kind ≠ .external) :
    downcastExternal E e = .value none := by
  cases e with
  | external value => exact False.elim (h rfl)
  | _ => rfl

end Error

section Conversion
variable {U : ErrorTypes} [TextFormat]

/-- `from_esrc_error`: a boxed domain error survives as its `Display` text only. -/
def fromEsrcError : Esrc.Error U → Error
  | .internal e => .internal e.toText
  | .external e => .external (.string e.toText)
  | .format e => .format e.toText
  | .invalid => .invalid
  | .conflict => .conflict

end Conversion
end EsrcCqrs
