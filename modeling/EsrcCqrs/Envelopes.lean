import EsrcCqrs.ErrorModel

/-! Requests and replies as they stand on the wire, with their derived codecs. -/

namespace EsrcCqrs
open Json

section Requests
variable [Uuid.Text] {C : Type}

structure CommandEnvelope (C : Type) where
  id : Uuid
  command : C

instance [Serialize C] : Serialize (CommandEnvelope C) where
  toValue e := do
    let id ← toValue e.id
    let command ← toValue e.command
    return .object [("id", id), ("command", command)]

instance [Deserialize C] : Deserialize (CommandEnvelope C) where
  fromValue v := do
    let id ← required Uuid ["id", "command"] "id" v
    let command ← required C ["id", "command"] "command" v
    return ⟨id, command⟩

theorem CommandEnvelope.toValue_mk [Serialize C] (id : Uuid) {command : C} {v : Value}
    (written : toValue command = .ok v) : toValue (CommandEnvelope.mk id command) =
      .ok (.object [("id", .string (Uuid.Text.write id)), ("command", v)]) := by
  change (toValue command >>= fun c => Except.ok _) = _
  rw [written]
  rfl

theorem CommandEnvelope.roundTrips [Serialize C] [Deserialize C] (id : Uuid) {command : C}
    (h : RoundTrips command) : RoundTrips (CommandEnvelope.mk id command) := by
  obtain ⟨v, written, back⟩ := h
  refine ⟨_, toValue_mk id written, ?_⟩
  change (fromValue (.string (Uuid.Text.write id)) >>= fun i =>
    fromValue v >>= fun c => Except.ok (CommandEnvelope.mk i c)) = _
  rw [Uuid.fromValue_uuid, back]
  rfl

section Texts
variable [Serialize C] [TextFormat] (id : Uuid) {command : C} {v : Value}

theorem CommandEnvelope.legible {β : Type} [Deserialize β] (written : toValue command = .ok v)
    (few : v.depth < 127) : Legible β (CommandEnvelope.mk id command) := by
  refine legible_of_depth (toValue_mk id written) ?_
  simp only [Value.depth, membersDepth]
  omega

/-- A command that is not nested too deep is read back out of its envelope. -/
theorem CommandEnvelope.readsBack [Deserialize C] (written : toValue command = .ok v)
    (back : fromValue v = .ok command) (few : v.depth < 127) :
    ReadsBack (CommandEnvelope.mk id command) :=
  (roundTrips id ⟨v, written, back⟩).readsBack (legible id written few)

/-- A command of the wrong shape is what makes its envelope unreadable. -/
theorem CommandEnvelope.fromSlice_mismatch {D : Type} [Deserialize D] {e : Json.Error}
    (written : toValue command = .ok v) (failed : fromValue (α := D) v = .error e)
    (few : v.depth < 127) :
    ∃ payload, toVec (CommandEnvelope.mk id command) = .ok payload ∧
      fromSlice (CommandEnvelope D) payload =
        .error (.located e (TextFormat.place (CommandEnvelope D) payload)) := by
  refine ⟨_, toVec_of_toValue (toValue_mk id written), ?_⟩
  rw [fromSlice_print (legible id written few _ (toValue_mk id written))]
  change (fromValue (.string (Uuid.Text.write id)) >>= fun i =>
    fromValue v >>= fun c => Except.ok (CommandEnvelope.mk (C := D) i c)).mapError _ = _
  rw [Uuid.fromValue_uuid, failed]
  rfl

end Texts

structure QueryEnvelope where
  id : Uuid

instance : Serialize QueryEnvelope where
  toValue e := do return .object [("id", ← toValue e.id)]

instance : Deserialize QueryEnvelope where
  fromValue v := do return ⟨← required Uuid ["id"] "id" v⟩

theorem QueryEnvelope.roundTrips (e : QueryEnvelope) : RoundTrips e := by
  refine ⟨.object [("id", .string (Uuid.Text.write e.id))], rfl, ?_⟩
  change (fromValue (.string (Uuid.Text.write e.id)) >>= fun i => Except.ok (QueryEnvelope.mk i)) = _
  rw [Uuid.fromValue_uuid]
  rfl

/-- Any reader gets through the text of a query. -/
theorem QueryEnvelope.legible {β : Type} [Deserialize β] [TextFormat] (e : QueryEnvelope) :
    Legible β e :=
  legible_of_depth (v := .object [("id", .string (Uuid.Text.write e.id))]) rfl (by decide : 1 < 128)

theorem QueryEnvelope.readsBack [TextFormat] (e : QueryEnvelope) : ReadsBack e :=
  e.roundTrips.readsBack e.legible

end Requests

/-- An optional field whose presence is kept by the encoding of its content. -/
def encodeError : Option Error → Value
  | none => .null
  | some e => e.encode

theorem fromValue_encodeError (e : Option Error) : fromValue (encodeError e) = .ok e := by
  cases e with
  | none => rfl
  | some e => exact Error.fromValue_encode_some e

section CommandReplies
variable [Uuid.Text]

structure CommandReply where
  id : Uuid
  success : Bool
  error : Option Error

def CommandReply.encode (r : CommandReply) : Value :=
  .object [("id", .string (Uuid.Text.write r.id)), ("success", .bool r.success),
    ("error", encodeError r.error)]

instance : Serialize CommandReply := ⟨fun r => .ok r.encode⟩

instance : Deserialize CommandReply where
  fromValue v := do
    let id ← required Uuid ["id", "success", "error"] "id" v
    let success ← required Bool ["id", "success", "error"] "success" v
    let error ← optional Error ["id", "success", "error"] "error" v
    return ⟨id, success, error⟩

theorem CommandReply.fromValue_encode (r : CommandReply) : fromValue r.encode = .ok r := by
  change (fromValue (.string (Uuid.Text.write r.id)) >>= fun i =>
    fromValue (encodeError r.error) >>= fun e => Except.ok (CommandReply.mk i r.success e)) = _
  rw [Uuid.fromValue_uuid, fromValue_encodeError]
  rfl

theorem CommandReply.depth_encode (r : CommandReply) :
    r.encode.depth = (encodeError r.error).depth + 1 := by
  simp only [encode, Value.depth, membersDepth]
  omega

section Texts
variable [TextFormat] {r : CommandReply} {β : Type} [Deserialize β]

theorem CommandReply.legible (few : (encodeError r.error).depth < 127) :
    TextFormat.tooDeep β r.encode = false :=
  TextFormat.shallow β _ (by rw [depth_encode]; omega)

theorem CommandReply.fromSlice_encode (legible : TextFormat.tooDeep CommandReply r.encode = false) :
    fromSlice CommandReply (TextFormat.print r.encode) = .ok r :=
  fromSlice_print_ok legible (fromValue_encode r)

/-- The text of a reply tells it apart from all others. -/
theorem CommandReply.print_encode_injective {r' : CommandReply}
    (same : TextFormat.print r.encode = TextFormat.print r'.encode) : r = r' := by
  have encoded := congrArg (fromValue (α := CommandReply)) (print_injective same)
  rw [fromValue_encode, fromValue_encode] at encoded
  exact Except.ok.inj encoded

end Texts

end CommandReplies

structure QueryReply where
  success : Bool
  data : Option Value
  error : Option Error

def QueryReply.encode (r : QueryReply) : Value :=
  .object [("success", .bool r.success), ("data", r.data.getD .null),
    ("error", encodeError r.error)]

instance : Serialize QueryReply := ⟨fun r => .ok r.encode⟩

instance : Deserialize QueryReply where
  fromValue v := do
    let success ← required Bool ["success", "data", "error"] "success" v
    let data ← optional Value ["success", "data", "error"] "data" v
    let error ← optional Error ["success", "data", "error"] "error" v
    return ⟨success, data, error⟩

/-- `data` is read through the optional decoder, which takes null for an absent value. -/
theorem QueryReply.fromValue_encode (r : QueryReply) :
    fromValue r.encode = (fromValue (α := Option Value) (r.data.getD .null)).map fun data =>
      ({ r with data } : QueryReply) := by
  change (fromValue (α := Option Value) (r.data.getD .null) >>= fun d =>
    fromValue (encodeError r.error) >>= fun e => Except.ok (QueryReply.mk r.success d e)) = _
  rw [fromValue_encodeError]
  cases fromValue (α := Option Value) (r.data.getD .null) <;> rfl

section ServiceReplies
variable {R : Type}

structure ServiceCommandReply (R : Type) where
  success : Bool
  data : Option R
  error : Option Error

namespace ServiceCommandReply

def okWith (data : R) : ServiceCommandReply R := ⟨true, some data, none⟩

def ok : ServiceCommandReply Unit := ⟨true, some (), none⟩

def err (e : Error) : ServiceCommandReply R := ⟨false, none, some e⟩

instance [Serialize R] : Serialize (ServiceCommandReply R) where
  toValue r := do
    let data ← toValue r.data
    return .object [("success", .bool r.success), ("data", data), ("error", encodeError r.error)]

instance [Deserialize R] : Deserialize (ServiceCommandReply R) where
  fromValue v := do
    let success ← required Bool ["success", "data", "error"] "success" v
    let data ← optional R ["success", "data", "error"] "data" v
    let error ← optional Error ["success", "data", "error"] "error" v
    return ⟨success, data, error⟩

/-- What a reply carrying `data` is read as: presence of the data depends on its encoding. -/
theorem fromValue_okWith [Serialize R] [Deserialize R] {data : R} {v w : Value}
    (h : toValue data = .ok v) (hw : toValue (okWith data) = .ok w) :
    fromValue (α := ServiceCommandReply R) w =
      (fromValue (α := Option R) v).map fun d => ⟨true, d, none⟩ := by
  have shape : toValue (okWith data) =
      .ok (.object [("success", .bool true), ("data", v), ("error", .null)]) := by
    change (toValue data >>= fun x => Except.ok _) = _
    rw [h]
    rfl
  rw [shape] at hw
  cases hw
  change (fromValue (α := Option R) v >>= fun d =>
    Except.ok (ServiceCommandReply.mk true d none)) = _
  cases fromValue (α := Option R) v <;> rfl

/-- The text of a reply with data is nested one level deeper than the data. -/
theorem legible_okWith [TextFormat] [Serialize R] {β : Type} [Deserialize β] {data : R} {v : Value}
    (written : toValue data = .ok v) (few : v.depth < 127) : Legible β (okWith data) := by
  refine legible_of_depth (v := .object [("success", .bool true), ("data", v), ("error", .null)]) ?_ ?_
  · change (toValue data >>= fun x => Except.ok _) = _
    rw [written]
    rfl
  · simp only [Value.depth, membersDepth]
    omega

/-- A failure has no data to encode: it is read back whatever the reader expects. -/
theorem fromSlice_err {R' : Type} [TextFormat] [Serialize R'] [Deserialize R] {e : Error}
    {bytes : ByteArray} (h : toVec (err e : ServiceCommandReply R') = .ok bytes)
    (legible : Legible (ServiceCommandReply R) (err e : ServiceCommandReply R')) :
    fromSlice (ServiceCommandReply R) bytes = .ok (err e) := by
  have shape : toValue (err e : ServiceCommandReply R') =
      .ok (.object [("success", .bool false), ("data", .null), ("error", e.encode)]) := rfl
  cases (toVec_of_toValue shape).symm.trans h
  refine fromSlice_print_ok (legible _ shape) ?_
  change (fromValue (encodeError (some e)) >>= fun e =>
    Except.ok (ServiceCommandReply.mk false none e)) = _
  rw [fromValue_encodeError]
  rfl

theorem legible_err {R' : Type} [TextFormat] [Serialize R'] {β : Type} [Deserialize β] {e : Error}
    (few : e.encode.depth < 127) : Legible β (err e : ServiceCommandReply R') := by
  refine legible_of_depth
    (v := .object [("success", .bool false), ("data", .null), ("error", e.encode)]) rfl ?_
  simp only [Value.depth, membersDepth]
  omega

end ServiceCommandReply

/-- The command dispatcher's reply read at the service type: the extra id is
ignored and the missing data is absent, whatever `R` is. -/
theorem CommandReply.fromValue_as_service [Uuid.Text] [Deserialize R] (r : CommandReply) :
    fromValue (α := ServiceCommandReply R) r.encode = .ok ⟨r.success, none, r.error⟩ := by
  change (fromValue (encodeError r.error) >>= fun e =>
    Except.ok (ServiceCommandReply.mk r.success none e)) = _
  rw [fromValue_encodeError]
  rfl

end ServiceReplies
end EsrcCqrs
