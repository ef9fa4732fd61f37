import ChainIndexer.Event
import ChainIndexer.Log

/-
  Which amounts the chain moved, and to whom.

  In a transfer event each amount belongs to the recipient named last before it in the same event.
  `attributed` lists these pairs in the order of emission; amounts without a recipient and those of
  excluded recipients are left out. `reconcile` reads the amounts, drops what is zero, and puts
  together what belongs to one account, in the order in which the accounts first receive something.
-/

namespace ChainIndexer.Settlement

/-- The kind of the events that move amounts. -/
def transferKind : String := "transfer"

/-- The attribute that names a recipient. -/
def recipientKey : String := "recipient"

/-- The attribute that holds an amount. -/
def amountKey : String := "amount"

/-! ## Attribution -/

/-- The amounts of attributes with their recipients, after `latest` was named. -/
def attributedFrom : Option String → List LogAttribute → List (String × String)
  | _, [] => []
  | latest, a :: rest =>
    if a.key = recipientKey then attributedFrom (some a.value) rest
    else if a.key = amountKey then
      match latest with
      | some recipient => (recipient, a.value) :: attributedFrom latest rest
      | none => attributedFrom latest rest
    else attributedFrom latest rest

/-- The amounts of one event with their recipients. -/
def attributedIn (e : LogEvent) : List (String × String) :=
  attributedFrom none e.attributes

/-- The amounts of a log with their recipients, except those of excluded recipients. -/
def attributed (log : MessageLog) (excluded : List String) : List (String × String) :=
  ((log.eventsOf transferKind).flatMap attributedIn).filter fun p => !excluded.contains p.1

/-! ## Reconciliation -/

/-- Adds amounts to the transfer of an account, or a new transfer behind the others. -/
def addAmounts (recipient : String) (amounts : List Amount) : List Transfer → List Transfer
  | [] => [.plain recipient amounts]
  | t :: rest =>
    if t.account.id = recipient then { t with amounts := t.amounts ++ amounts } :: rest
    else t :: addAmounts recipient amounts rest

/-- Reads an attributed amount and adds what is not zero. -/
def settle (transfers : List Transfer) (p : String × String) :
    Except Amount.Fault (List Transfer) := do
  let coins ← Amount.readCoins p.2
  let moved := coins.filter fun a => !a.isZero
  return if moved = [] then transfers else addAmounts p.1 moved transfers

/-- What each account received. -/
def reconcile (log : MessageLog) (excluded : List String) : Except Amount.Fault (List Transfer) :=
  (attributed log excluded).foldlM settle []

end ChainIndexer.Settlement
