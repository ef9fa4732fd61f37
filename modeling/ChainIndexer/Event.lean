import ChainIndexer.Amount.Basic
import ChainIndexer.Keyed

/-
  What a transaction did, message by message.

  An event says which accounts sent, received or took part in another role, which amounts a message
  declares, and which amounts the chain moved because of it. The event of a message that could not
  be read carries the reason.
-/

namespace ChainIndexer

/-- What is known about the owner of an account. -/
structure AccountDetails where
  name : String
  description : String
  contact : String
  website : String
  deriving DecidableEq

/-- An account. -/
structure Account where
  id : String
  details : Option AccountDetails
  deriving DecidableEq

/-- An account of which only the address is known. -/
def Account.plain (id : String) : Account :=
  ⟨id, none⟩

/-- An account with the amounts that it sent or received. -/
structure Transfer where
  account : Account
  amounts : List Amount
  deriving DecidableEq

/-- A transfer of an account of which only the address is known. -/
def Transfer.plain (id : String) (amounts : List Amount) : Transfer :=
  ⟨.plain id, amounts⟩

/-- What one message did. -/
structure Event where
  kinds : List String
  moduleName : String
  senders : List Transfer
  recipients : List Transfer
  nodes : Keyed (List Account)
  amounts : Keyed Amount
  transfers : Keyed (List Transfer)
  additional : Keyed (List String)
  failure : Option String
  deriving DecidableEq

namespace Event

/-- An event of a kind that says nothing more. -/
def plain (kind moduleName : String) : Event :=
  ⟨[kind], moduleName, [], [], .empty, .empty, .empty, .empty, none⟩

/-- The event of a message that could not be read. -/
def failed (kind moduleName reason : String) : Event :=
  { plain kind moduleName with failure := some reason }

/-- The first kind, or nothing. -/
def primaryKind (e : Event) : String :=
  e.kinds.headD ""

/-- Adds an account in a role. -/
def withAccount (e : Event) (role : String) (account : Account) : Event :=
  { e with nodes := e.nodes.append role account }

/-- Adds an account of which only the address is known. -/
def withNode (e : Event) (role id : String) : Event :=
  e.withAccount role (.plain id)

/-- Adds a further detail. -/
def withDetail (e : Event) (key value : String) : Event :=
  { e with additional := e.additional.append key value }

/-- Sets a declared amount. -/
def withAmount (e : Event) (label : String) (amount : Amount) : Event :=
  { e with amounts := e.amounts.put label amount }

/-- Adds a sender. -/
def withSender (e : Event) (id : String) (amounts : List Amount) : Event :=
  { e with senders := e.senders ++ [.plain id amounts] }

/-- Adds a recipient. -/
def withRecipient (e : Event) (id : String) (amounts : List Amount) : Event :=
  { e with recipients := e.recipients ++ [.plain id amounts] }

/-- Sets the moved amounts of a category. An empty list is left out. -/
def withTransfers (e : Event) (category : String) (moved : List Transfer) : Event :=
  if moved = [] then e else { e with transfers := e.transfers.put category moved }

end Event

/-- An event of a transaction, with its place and its kind. -/
structure TransactionEvent where
  id : String
  kind : String
  sub : List Event
  deriving DecidableEq

end ChainIndexer
