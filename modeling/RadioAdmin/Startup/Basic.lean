import RadioAdmin.Settings.Basic

/-!
# Registration of connections at startup

Startup is lenient: a definition without an identifier, with an unknown transport or
without a link is passed over, and an unknown role counts as client.
-/
namespace RadioAdmin

/-- The link of a defined connection: one that exists already or one to create. -/
inductive LinkChoice where
  | existing (id : LinkId)
  | created (link : Link)
  deriving DecidableEq, Repr

/-- The choice of a link for a definition and its transport; none passes it over. -/
abbrev LinkFactory := ConnectionDefinition → Transport → Option LinkChoice

namespace Startup

/-- The connection of a definition over a link. -/
def connectionOver (definition : ConnectionDefinition) (transport : Transport) (link : LinkId) :
    Connection where
  id := definition.id
  transport := transport
  role := definition.role
  link := link
  description := definition.description
  autoConnect := definition.autoConnect

/-- The transport and link of a definition, if it is usable. -/
def usable? (factory : LinkFactory) (definition : ConnectionDefinition) :
    Option (Transport × LinkChoice) :=
  if definition.id.isEmpty then none
  else match definition.transport with
    | .error _ => none
    | .ok transport => (factory definition transport).map fun choice => (transport, choice)

/-- The roster with the chosen link in its table, and the place of the link. -/
def provide (roster : Roster) : LinkChoice → Roster × LinkId
  | .existing id => (roster, id)
  | .created link => roster.createLink link

/-- Build the connection of a definition without registering it. -/
def connectionOf (factory : LinkFactory) (roster : Roster) (definition : ConnectionDefinition) :
    Roster × Option Connection :=
  match usable? factory definition with
  | none => (roster, none)
  | some (transport, choice) =>
    let (next, link) := provide roster choice
    (next, some (connectionOver definition transport link))

/-- Register every usable definition in order and count them. -/
def registerAll (factory : LinkFactory) : Roster → List ConnectionDefinition → Roster × Nat
  | roster, [] => (roster, 0)
  | roster, definition :: rest =>
    match connectionOf factory roster definition with
    | (next, none) => registerAll factory next rest
    | (next, some connection) =>
      let (last, count) := registerAll factory (next.add connection) rest
      (last, count + 1)

end Startup

end RadioAdmin
