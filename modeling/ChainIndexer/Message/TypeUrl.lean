import ChainIndexer.Message.Kind
import ChainIndexer.Error

/-
  Type URLs.

  `/cosmos.bank.v1beta1.MsgSend` names the message `MsgSend` of the module `bank`, and
  `/ibc.core.client.v1.MsgCreateClient` the message `MsgCreateClient` of the module `client`. No
  other shape is a type URL.
-/

namespace ChainIndexer.TypeUrl

/-- The parts of a type URL between its points. -/
def segments (url : String) : List String :=
  (url.toList.splitOn '.').map String.ofList

/-- The route that a type URL names. -/
def route? (url : String) : Option Route :=
  match segments url with
  | ["/cosmos", moduleName, _, message] => some ⟨moduleName, message⟩
  | ["/ibc", _, moduleName, _, message] => some ⟨moduleName, message⟩
  | _ => none

/-- The route that a type URL names, or the error that carries it. -/
def route (url : String) : Except Error Route :=
  match route? url with
  | some r => .ok r
  | none => .error (.typeUrl url)

end ChainIndexer.TypeUrl
