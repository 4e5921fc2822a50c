import ModuleLink.Formatters

/-! # Messages that a module knows

A message has a name, an id by which the router knows it, and a class. It may be delivered
directly to handlers on connections of their own. -/
namespace ModuleLink

inductive MessageClass
  | unknown | query | goal | command | inform | exception | kill | reply | success | failure
  | fireDemon | broadcast | multiQuery
  /-- A response that carries another message's name. -/
  | relabelled
  deriving DecidableEq, Repr

namespace MessageClass

def id : MessageClass → UInt16
  | unknown => 0
  | query => 1
  | goal => 2
  | command => 3
  | inform => 4
  | exception => 5
  | kill => 6
  | reply => 7
  | success => 8
  | failure => 9
  | fireDemon => 10
  | broadcast => 11
  | multiQuery => 12
  | relabelled => 13

def label : MessageClass → String
  | unknown => "Unknown"
  | query => "Query"
  | goal => "Goal"
  | command => "Command"
  | inform => "Inform"
  | exception => "Exception"
  | kill => "Kill"
  | reply => "Reply"
  | success => "Success"
  | failure => "Failure"
  | fireDemon => "FireDemon"
  | broadcast => "Broadcast"
  | multiQuery => "MultiQuery"
  | relabelled => "ExecHnd"

def all : List MessageClass :=
  [unknown, query, goal, command, inform, exception, kill, reply, success, failure, fireDemon,
    broadcast, multiQuery, relabelled]

def ofId (n : UInt16) : MessageClass := (all.find? (·.id = n)).getD .unknown

end MessageClass

/-- Connections are numbered in the order in which they were opened. -/
abbrev ConnectionId := Nat

/-- A recipient that a message reaches without the router, until it is detached. -/
structure Handler where
  connection : Option ConnectionId
  intent : Int32
  deriving DecidableEq, Repr

def Handler.detach (id : ConnectionId) (h : Handler) : Handler :=
  if h.connection = some id then { h with connection := none } else h

structure Message where
  name : String
  id : Int32
  messageClass : MessageClass
  messageFormat : Option Formatter := none
  responseFormat : Option Formatter := none
  /-- Replies travel directly rather than through the router. -/
  direct : Bool := false
  /-- In the order of registration. -/
  handlers : List Handler := []

namespace Message

def deliversDirectly (m : Message) : Bool := m.direct ∧ m.handlers ≠ []

def addHandler (m : Message) (h : Handler) : Message := { m with handlers := m.handlers ++ [h] }

/-- Detaches the handlers on a connection. When the last one goes the whole list goes with it, so
that the message travels through the router again. -/
def detachAll (m : Message) (id : ConnectionId) : Message :=
  if m.handlers.any (·.connection = some id) then
    let handlers := m.handlers.map (Handler.detach id)
    { m with handlers := if handlers.all (·.connection = none) then [] else handlers }
  else m

end Message

/-- The messages by name, each name once. -/
abbrev MessageRegistry := List Message

namespace MessageRegistry

def find? (r : MessageRegistry) (name : String) : Option Message :=
  List.find? (·.name = name) r

/-- Puts a message in, in the place of an earlier one of its name. -/
def register (r : MessageRegistry) (m : Message) : MessageRegistry :=
  r.filter (·.name ≠ m.name) ++ [m]

def update (r : MessageRegistry) (name : String) (edit : Message → Message) : MessageRegistry :=
  r.map fun m => if m.name = name then edit m else m

end MessageRegistry

end ModuleLink
