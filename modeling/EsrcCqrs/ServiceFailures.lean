import EsrcCqrs.CallerErrors

/-! Failures of service commands. The dispatcher tells of some in its own reply type and the
handler of others in the service type; the caller reads both as the latter. -/

namespace EsrcCqrs
open Json Interaction RequestLoop CqrsClient

section Failures
variable {U : ErrorTypes} [TextFormat] {F : Signature} {S C : Type} [Deserialize C]
  {payload : ByteArray}

variable [ToString (Esrc.Error U)]

end Failures

section Pings
open Counter

end Pings
end EsrcCqrs
