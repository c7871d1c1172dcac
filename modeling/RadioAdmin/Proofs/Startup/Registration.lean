import Mathlib.Data.List.Forall2
import RadioAdmin.Proofs.Connection.Order
import RadioAdmin.Startup.Basic

/-!
# What startup registers

Every usable definition is built into a connection, and the connections are added one after the
other. So the roster becomes the table of these connections: an identifier has the place of its
first usable definition and the connection of its last one. Definitions that are not usable are as
if they had not been there.
-/
namespace RadioAdmin

/-- The link that a choice adds to the table. -/
def LinkChoice.newLinks : LinkChoice → List Link
  | .existing _ => []
  | .created link => [link]

/-- The place of a chosen link when the table has so many links before. -/
def LinkChoice.place (size : Nat) : LinkChoice → LinkId
  | .existing id => id
  | .created _ => ⟨size⟩

namespace Startup

/-- A definition has an identifier and a known transport, and the factory gives a link for it. -/
def Usable (factory : LinkFactory) (definition : ConnectionDefinition) : Prop :=
  definition.id ≠ "" ∧ ∃ transport choice,
    Transport.parse definition.transportName = .ok transport ∧
    factory definition transport = some choice

/-- The links that are created for definitions, in order. -/
def createdLinks (factory : LinkFactory) (definitions : List ConnectionDefinition) : List Link :=
  definitions.flatMap fun definition => match usable? factory definition with
    | some (_, choice) => choice.newLinks
    | none => []

/-- The connections that definitions are built into, over a table with so many links before. -/
def built (factory : LinkFactory) : Nat → List ConnectionDefinition → List Connection
  | _, [] => []
  | size, definition :: rest => match usable? factory definition with
    | none => built factory size rest
    | some (transport, choice) =>
      connectionOver definition transport (choice.place size) ::
        built factory (size + choice.newLinks.length) rest

variable {factory : LinkFactory} {definition : ConnectionDefinition}
  {transport : Transport} {choice : LinkChoice}

theorem usable?_eq_some_iff :
    usable? factory definition = some (transport, choice) ↔
      definition.id ≠ "" ∧ Transport.parse definition.transportName = .ok transport ∧
        factory definition transport = some choice := by
  rw [usable?, ConnectionDefinition.transport]
  split
  · rename_i hid
    rw [String.isEmpty_iff] at hid
    exact iff_of_false nofun fun h => h.1 hid
  · rename_i hid
    rw [String.isEmpty_iff] at hid
    rw [and_iff_right hid]
    split
    · rename_i herror
      exact iff_of_false nofun fun h => by rw [herror] at h; cases h.1
    · rename_i other hparsed
      rw [hparsed, Except.ok.injEq, Option.map_eq_some_iff]
      constructor
      · rintro ⟨given, hgiven, heq⟩
        obtain ⟨rfl, rfl⟩ := Prod.mk.inj heq
        exact ⟨rfl, hgiven⟩
      · rintro ⟨rfl, hgiven⟩
        exact ⟨choice, hgiven, rfl⟩

theorem usable_iff : Usable factory definition ↔ (usable? factory definition).isSome = true := by
  rw [Option.isSome_iff_exists, Prod.exists]
  simp only [usable?_eq_some_iff, exists_and_left, Usable]

instance : Decidable (Usable factory definition) := decidable_of_iff' _ usable_iff

theorem usable_of_usable? (h : usable? factory definition = some (transport, choice)) :
    Usable factory definition := usable_iff.mpr (by rw [h]; rfl)

theorem not_usable_of_usable? (h : usable? factory definition = none) :
    ¬ Usable factory definition := by
  rw [usable_iff, h]
  exact Bool.false_ne_true

variable {size : Nat} {roster : Roster} {rest : List ConnectionDefinition}

theorem filter_usable_cons_of_none (h : usable? factory definition = none) :
    (definition :: rest).filter (fun definition => Usable factory definition) =
      rest.filter fun definition => Usable factory definition :=
  List.filter_cons_of_neg (by simpa using not_usable_of_usable? h)

theorem filter_usable_cons_of_some (h : usable? factory definition = some (transport, choice)) :
    (definition :: rest).filter (fun definition => Usable factory definition) =
      definition :: rest.filter fun definition => Usable factory definition :=
  List.filter_cons_of_pos (by simpa using usable_of_usable? h)

theorem built_cons_of_none (h : usable? factory definition = none) :
    built factory size (definition :: rest) = built factory size rest := by
  rw [built, h]

theorem built_cons_of_some (h : usable? factory definition = some (transport, choice)) :
    built factory size (definition :: rest) =
      connectionOver definition transport (choice.place size) ::
        built factory (size + choice.newLinks.length) rest := by
  rw [built, h]

theorem createdLinks_cons_of_none (h : usable? factory definition = none) :
    createdLinks factory (definition :: rest) = createdLinks factory rest := by
  rw [createdLinks, List.flatMap_cons, h]
  rfl

theorem createdLinks_cons_of_some (h : usable? factory definition = some (transport, choice)) :
    createdLinks factory (definition :: rest) =
      choice.newLinks ++ createdLinks factory rest := by
  rw [createdLinks, List.flatMap_cons, h]
  rfl

theorem provide_eq (roster : Roster) (choice : LinkChoice) :
    provide roster choice =
      ({ roster with links := roster.links ++ choice.newLinks },
        choice.place roster.links.length) := by
  cases choice with
  | existing id => rw [provide, LinkChoice.newLinks, List.append_nil, LinkChoice.place]
  | created link => rfl

/-- The roster with one more connection over a link that is added to the table, if it is new. -/
def registerOne (roster : Roster) (definition : ConnectionDefinition) (transport : Transport)
    (choice : LinkChoice) : Roster :=
  Roster.add { roster with links := roster.links ++ choice.newLinks }
    (connectionOver definition transport (choice.place roster.links.length))

theorem registerAll_cons_of_none (h : usable? factory definition = none) :
    registerAll factory roster (definition :: rest) = registerAll factory roster rest := by
  rw [registerAll, connectionOf, h]

theorem registerAll_cons_of_some (h : usable? factory definition = some (transport, choice)) :
    registerAll factory roster (definition :: rest) =
      ((registerAll factory (registerOne roster definition transport choice) rest).1,
        (registerAll factory (registerOne roster definition transport choice) rest).2 + 1) := by
  rw [registerAll, connectionOf, h]
  simp only [provide_eq]
  rfl

theorem entries_registerOne :
    (registerOne roster definition transport choice).entries =
      Fields.insert roster.entries definition.id
        (connectionOver definition transport (choice.place roster.links.length)) := by
  rw [registerOne, Roster.entries_add]
  rfl

theorem length_links_registerOne :
    (registerOne roster definition transport choice).links.length =
      roster.links.length + choice.newLinks.length := by
  rw [registerOne, Roster.add_eq, Links.length_release, List.length_append]

theorem entries_registerAll (definitions : List ConnectionDefinition) :
    (registerAll factory roster definitions).1.entries =
      (built factory roster.links.length definitions).foldl
        (fun entries connection => Fields.insert entries connection.id connection)
        roster.entries := by
  induction definitions generalizing roster with
  | nil => rfl
  | cons definition rest ih =>
    cases husable : usable? factory definition with
    | none => rw [registerAll_cons_of_none husable, built_cons_of_none husable, ih]
    | some usable =>
      rw [registerAll_cons_of_some husable, built_cons_of_some husable, ih,
        length_links_registerOne, entries_registerOne]
      rfl

/-- From no connections the roster becomes the table of those that are built. -/
theorem entries_registerAll_empty (links : Links) (definitions : List ConnectionDefinition) :
    (registerAll factory ⟨[], links⟩ definitions).1.entries =
      Fields.ofPairs ((built factory links.length definitions).map fun connection =>
        (connection.id, connection)) := by
  rw [entries_registerAll, Fields.ofPairs, List.foldl_map]

theorem count_registerAll (definitions : List ConnectionDefinition) :
    (registerAll factory roster definitions).2 =
      (definitions.filter fun definition => Usable factory definition).length := by
  induction definitions generalizing roster with
  | nil => rfl
  | cons definition rest ih =>
    cases husable : usable? factory definition with
    | none => rw [registerAll_cons_of_none husable, ih, filter_usable_cons_of_none husable]
    | some usable =>
      rw [registerAll_cons_of_some husable, ih, filter_usable_cons_of_some husable,
        List.length_cons]

/-- Definitions that are not usable are as if they were not there. -/
theorem registerAll_filter (definitions : List ConnectionDefinition) :
    registerAll factory roster definitions =
      registerAll factory roster
        (definitions.filter fun definition => Usable factory definition) := by
  induction definitions generalizing roster with
  | nil => rfl
  | cons definition rest ih =>
    cases husable : usable? factory definition with
    | none => rw [registerAll_cons_of_none husable, ih, filter_usable_cons_of_none husable]
    | some usable =>
      rw [filter_usable_cons_of_some husable, registerAll_cons_of_some husable,
        registerAll_cons_of_some husable, ih]

/-- Each usable definition is built into a connection. -/
theorem forall₂_built (factory : LinkFactory) (size : Nat)
    (definitions : List ConnectionDefinition) :
    List.Forall₂ (fun definition connection => ∃ transport choice link,
        usable? factory definition = some (transport, choice) ∧
        connection = connectionOver definition transport link)
      (definitions.filter fun definition => Usable factory definition)
      (built factory size definitions) := by
  induction definitions generalizing size with
  | nil => exact .nil
  | cons definition rest ih =>
    cases husable : usable? factory definition with
    | none =>
      rw [built_cons_of_none husable, filter_usable_cons_of_none husable]
      exact ih size
    | some usable =>
      rw [built_cons_of_some husable, filter_usable_cons_of_some husable]
      exact .cons ⟨_, _, _, husable, rfl⟩ (ih _)

theorem map_id_built (factory : LinkFactory) (size : Nat)
    (definitions : List ConnectionDefinition) :
    (built factory size definitions).map Connection.id =
      (definitions.filter fun definition => Usable factory definition).map
        ConnectionDefinition.id := by
  rw [eq_comm, ← List.forall₂_eq_eq_eq, List.forall₂_map_left_iff, List.forall₂_map_right_iff]
  refine (forall₂_built factory size definitions).imp ?_
  rintro definition connection ⟨transport, choice, link, -, rfl⟩
  rfl

/-- Every connection is built from a definition, over a link that comes behind those that are
created for the definitions before it. -/
theorem exists_definition_of_built {definitions : List ConnectionDefinition}
    {front back : List Connection} {connection : Connection}
    (h : built factory size definitions = front ++ connection :: back) :
    ∃ before definition after transport choice,
      definitions = before ++ definition :: after ∧
      usable? factory definition = some (transport, choice) ∧
      connection = connectionOver definition transport
        (choice.place (size + (createdLinks factory before).length)) ∧
      back.map Connection.id = (after.filter fun definition => Usable factory definition).map
        ConnectionDefinition.id := by
  induction definitions generalizing size front with
  | nil => exact absurd h (by simp [built])
  | cons definition rest ih =>
    cases husable : usable? factory definition with
    | none =>
      rw [built_cons_of_none husable] at h
      obtain ⟨before, found, after, transport, choice, rfl, hfound, hconnection, hback⟩ := ih h
      refine ⟨definition :: before, found, after, transport, choice, rfl, hfound, ?_, hback⟩
      rw [createdLinks_cons_of_none husable]
      exact hconnection
    | some usable =>
      rw [built_cons_of_some husable] at h
      rcases List.cons_eq_append_iff.mp h with ⟨rfl, hfirst⟩ | ⟨front, rfl, hrest⟩
      · obtain ⟨rfl, rfl⟩ := List.cons_eq_cons.mp hfirst
        exact ⟨[], definition, rest, usable.1, usable.2, rfl, husable, rfl, map_id_built ..⟩
      · obtain ⟨before, found, after, transport, choice, rfl, hfound, hconnection, hback⟩ :=
          ih hrest
        refine ⟨definition :: before, found, after, transport, choice, rfl, hfound, ?_, hback⟩
        rw [createdLinks_cons_of_some husable, List.length_append, ← Nat.add_assoc]
        exact hconnection

/-- A link is what it was, except that it may have been up and been disconnected. -/
def CutAtMost (former now : Link) : Prop :=
  now = former ∨ former.isUp = true ∧ now = former.disconnect

theorem cutAtMost_modify {former links : Links} (h : List.Forall₂ CutAtMost former links)
    (index : Nat) (hup : ∀ link, links[index]? = some link → link.isUp = true) :
    List.Forall₂ CutAtMost former (links.modify index Link.disconnect) := by
  induction h generalizing index with
  | nil => rw [List.modify_nil]; exact .nil
  | @cons first now former links hfirst hrest ih =>
    cases index with
    | zero =>
      rw [List.modify_zero_cons]
      refine .cons ?_ hrest
      have hnow := hup now rfl
      rcases hfirst with rfl | ⟨-, rfl⟩
      · exact .inr ⟨hnow, rfl⟩
      · cases hnow
    | succ index =>
      rw [List.modify_succ_cons]
      exact .cons hfirst (ih index hup)

theorem cutAtMost_release {former links : Links} (h : List.Forall₂ CutAtMost former links)
    (released? : Option LinkId) :
    List.Forall₂ CutAtMost former (Links.release links released?) := by
  cases released? with
  | none => exact h
  | some id =>
    rw [Links.release]
    split
    · rename_i hup
      refine cutAtMost_modify h id.index fun link hlink => ?_
      rwa [Links.isUp, Links.get_eq, hlink, Option.getD_some] at hup
    · exact h

/-- The links that are created come behind those that there were. No link is ever connected, but one
that is up may be disconnected when the connection over it is replaced. -/
theorem links_registerAll {former : Links} (definitions : List ConnectionDefinition)
    (h : List.Forall₂ CutAtMost former roster.links) :
    List.Forall₂ CutAtMost (former ++ createdLinks factory definitions)
      (registerAll factory roster definitions).1.links := by
  induction definitions generalizing roster former with
  | nil => simpa [createdLinks, registerAll] using h
  | cons definition rest ih =>
    cases husable : usable? factory definition with
    | none =>
      rw [registerAll_cons_of_none husable, createdLinks_cons_of_none husable]
      exact ih h
    | some usable =>
      rw [registerAll_cons_of_some husable, createdLinks_cons_of_some husable, ← List.append_assoc]
      refine ih ?_
      rw [registerOne, Roster.add_eq]
      refine cutAtMost_release (List.rel_append h ?_) _
      exact List.forall₂_same.mpr fun link _ => .inl rfl

/-- When no identifier comes up twice, the roster lists what is built. -/
theorem all_registerAll_of_distinct {links : Links} {definitions : List ConnectionDefinition}
    (h : ((built factory links.length definitions).map Connection.id).Nodup) :
    (registerAll factory ⟨[], links⟩ definitions).1.all =
      built factory links.length definitions := by
  rw [Roster.all, entries_registerAll_empty, Fields.ofPairs_of_nodup (by rwa [List.map_map]),
    Fields.contents, List.map_map]
  exact List.map_id _

theorem exists_last_built {links : Links} {definitions : List ConnectionDefinition} {id : String}
    {connection : Connection}
    (h : (id, connection) ∈ (registerAll factory ⟨[], links⟩ definitions).1.entries) :
    connection.id = id ∧ ∃ front back, built factory links.length definitions =
      front ++ connection :: back ∧ id ∉ back.map Connection.id := by
  rw [entries_registerAll_empty] at h
  obtain ⟨front, back, hsplit, hlast⟩ := Fields.exists_last_of_get?_ofPairs
    (Fields.get?_of_mem (Fields.distinct_ofPairs _) h)
  obtain ⟨front, rest, hbuilt, rfl, hrest⟩ := List.map_eq_append_iff.mp hsplit
  obtain ⟨found, back, rfl, hfound, rfl⟩ := List.map_eq_cons_iff.mp hrest
  obtain ⟨rfl, rfl⟩ := Prod.mk.inj hfound
  rw [List.map_map] at hlast
  exact ⟨rfl, front, back, hbuilt, hlast⟩

theorem role_eq (definition : ConnectionDefinition) :
    definition.role = (Role.parse definition.roleName).toOption.getD .client := by
  rw [ConnectionDefinition.role]
  cases Role.parse definition.roleName <;> rfl

/-- From a roster without connections, startup counts the usable definitions and registers one
connection for each of their identifiers, in the order in which these come up first. Each connection
is that of the last usable definition under its identifier; it is over the link that the factory
gave for this definition. Definitions that are not usable change nothing, and the count is the
number of connections exactly if no usable identifier comes up twice. -/
theorem registerAll_last_usable (factory : LinkFactory) (links : Links)
    (definitions : List ConnectionDefinition) :
    let usable := definitions.filter fun definition => Usable factory definition
    let roster := (registerAll factory ⟨[], links⟩ definitions).1
    let count := (registerAll factory ⟨[], links⟩ definitions).2
    count = usable.length ∧
    roster.all.map Connection.id = (usable.map ConnectionDefinition.id).eraseDups ∧
    roster.entries = roster.all.map (fun connection => (connection.id, connection)) ∧
    (∀ connection ∈ roster.all, ∃ before definition after transport choice,
      definitions = before ++ definition :: after ∧
      definition.id ≠ "" ∧ Transport.parse definition.transportName = .ok transport ∧
      factory definition transport = some choice ∧
      (∀ later ∈ after, Usable factory later → later.id ≠ definition.id) ∧
      connection.id = definition.id ∧
      connection.transport = transport ∧
      connection.role = (Role.parse definition.roleName).toOption.getD .client ∧
      connection.description = definition.description ∧
      connection.autoConnect = definition.autoConnect ∧
      connection.link = choice.place (links.length + (createdLinks factory before).length)) ∧
    List.Forall₂ CutAtMost (links ++ createdLinks factory definitions) roster.links ∧
    (∀ other : Roster, registerAll factory other definitions = registerAll factory other usable) ∧
    (count = roster.count ↔ (usable.map ConnectionDefinition.id).Nodup) := by
  intro usable roster count
  have hids : (built factory links.length definitions).map Connection.id =
      usable.map ConnectionDefinition.id := map_id_built ..
  have hcount : count = usable.length := count_registerAll definitions
  have htable : roster.entries = Fields.ofPairs ((built factory links.length definitions).map
      fun connection => (connection.id, connection)) := entries_registerAll_empty ..
  have hentries : roster.entries =
      roster.all.map (fun connection => (connection.id, connection)) :=
    Roster.entries_eq_map_all fun entry hentry => (exists_last_built hentry).1
  refine ⟨hcount, ?_, hentries, fun connection hconnection => ?_, ?_,
    fun other => registerAll_filter definitions, ?_⟩
  · rw [← Roster.names_entries_of_eq hentries, htable, Fields.names_ofPairs, List.map_map, ← hids]
    rfl
  · have hmem : (connection.id, connection) ∈ roster.entries := by
      rw [hentries]
      exact List.mem_map_of_mem hconnection
    obtain ⟨-, front, back, hbuilt, hlast⟩ := exists_last_built hmem
    obtain ⟨before, definition, after, transport, choice, hsplit, husable, rfl, hback⟩ :=
      exists_definition_of_built hbuilt
    obtain ⟨hnamed, hparsed, hgiven⟩ := usable?_eq_some_iff.mp husable
    refine ⟨before, definition, after, transport, choice, hsplit, hnamed, hparsed, hgiven, ?_,
      rfl, rfl, role_eq definition, rfl, rfl, rfl⟩
    intro later hlater hlater' heq
    rw [hback] at hlast
    exact hlast (List.mem_map.mpr ⟨later, List.mem_filter.mpr ⟨hlater, by simpa⟩, heq⟩)
  · exact links_registerAll definitions (List.forall₂_same.mpr fun link _ => .inl rfl)
  · have hlength : usable.length = (built factory links.length definitions).length := by
      rw [← List.length_map ConnectionDefinition.id, ← hids, List.length_map]
    rw [hcount, Roster.count, htable, hlength, eq_comm,
      ← List.length_map (fun connection : Connection => (connection.id, connection)),
      Fields.length_ofPairs_eq_iff, List.map_map, ← hids]
    rfl

/-- The second definition has no known transport. The third comes back to the first identifier, over
a link behind the one that was created for it. -/
example :
    let definition (id transport role : String) : ConnectionDefinition :=
      { ConnectionDefinition.empty with id := id, transportName := transport, roleName := role }
    let factory : LinkFactory := fun _ _ => some (.created Link.plain)
    let definitions := [definition "a" "tcp" "root", definition "a" "radio" "admin",
      definition "b" "Serial" "client", definition "a" "MQTT" "Admin"]
    (registerAll factory Roster.empty definitions).1.all =
      [⟨"a", .mqtt, .admin, ⟨2⟩, "", true⟩, ⟨"b", .serial, .client, ⟨1⟩, "", true⟩] ∧
    (registerAll factory Roster.empty definitions).2 = 3 := by
  decide +kernel

end Startup

end RadioAdmin
