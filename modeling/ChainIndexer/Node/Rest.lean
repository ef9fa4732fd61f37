import ChainIndexer.Error
import ChainIndexer.Holdings
import ChainIndexer.Json.Fields
import ChainIndexer.Retry
import ChainIndexer.Url.Parser

/-
  The REST side of a node, which knows the balances of accounts.

  The address of an account is that of the endpoint, made a directory, with the account at its end.
  An answer outside of the 200s is an error whose text is the message of its body, or the body.
-/

namespace ChainIndexer.Node

/-- The address of an endpoint. -/
def endpoint (host : String) : Except Error Url :=
  (Url.parse host).mapError .url |>.map Url.asDirectory

/-- The address of the balances of an account. -/
def balancesUrl (host : Url) (account : String) : Except Error Url :=
  (host.join ("cosmos/bank/v1beta1/balances/" ++ account)).mapError .url

/-! ## Answers -/

/-- An answer of the endpoint. -/
structure RestReply where
  status : Nat
  body : String

/-- The message of the body of an error. -/
def readMessage : Json → Except Json.Fault String :=
  Json.readRecord "LcdErrorBody" 1 fun r => r.defaulted 0 "message" "" Json.readText

/-- The text of an error. -/
def errorText (body : String) : String :=
  match (Json.read? body).map readMessage with
  | some (.ok message) => if message = "" then body else message
  | _ => body

/-- The body of an answer, or the error that it is. -/
def checked (r : RestReply) : Except Error String :=
  if 200 ≤ r.status ∧ r.status < 300 then .ok r.body
  else .error (.refused r.status (errorText r.body))

/-- A coin of a body. -/
def readCoin : Json → Except Json.Fault (String × String) :=
  let record := Json.recordOf "LcdCoin" 2
  Json.readRecord "LcdCoin" 2 fun r => Prod.mk
    <$> r.required record 0 "denom" Json.readText
    <*> r.required record 1 "amount" Json.readText

/-- The coins of a body, each a denomination and a value. -/
def readCoins (body : String) : Except Error (List (String × String)) :=
  match (Json.read? body).map (Json.readRecord "BalancesBody" 1 fun r =>
      r.defaulted 0 "balances" [] (Json.readList readCoin)) with
  | some (.ok coins) => .ok coins
  | _ => .error .json

/-! ## Asking -/

/-- A request to the endpoint. -/
structure RestAsked where
  target : String
  atHeight : Option Nat
  authorization : Option String

/-- An endpoint, with what it has been asked. Without replies it cannot be reached. -/
structure RestState where
  replies : Option (List RestReply)
  asked : List RestAsked

/-- Asks once. -/
def askRest (request : RestAsked) (s : RestState) :
    Except Error (List (String × String)) × RestState :=
  match s.replies with
  | none => (.error (.request false), s)
  | some [] => (.error (.request false), { s with asked := s.asked ++ [request] })
  | some (r :: rest) => ((checked r).bind readCoins, ⟨some rest, s.asked ++ [request]⟩)

/-- Asks for the balances of an account. -/
def restBalances (host : Url) (apiKey : String) (q : AccountQuery) (s : RestState) :
    Except Error Balances × RestState :=
  match balancesUrl host q.account with
  | .error e => (.error e, s)
  | .ok url =>
    let request : RestAsked := ⟨url.target, if 0 < q.height then some q.height else none,
      if apiKey = "" then none else some apiKey⟩
    let a := Attempts.run (askRest request) s
    let amounts := a.result.bind fun coins =>
      coins.mapM fun (denom, value) => (Amount.ofCoin value denom).mapError Error.ofAmount
    (amounts.map fun amounts => ⟨q.height, amounts⟩, a.state)

/-- A request in writing. -/
def RestAsked.toJson (a : RestAsked) : Json :=
  .object [("request", .text ("GET " ++ a.target)),
    ("height_header", Json.orNull (a.atHeight.map fun h => .text h.repr)),
    ("authorization", Json.orNull (a.authorization.map .text))]

end ChainIndexer.Node
