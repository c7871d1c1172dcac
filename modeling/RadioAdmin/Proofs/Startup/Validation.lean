import RadioAdmin.Proofs.Startup.Registration

/-!
# What the strict check promises of startup

Startup passes over the definitions that it cannot use and reads an unknown role as client. The
check of the settings is strict: it stops at the first definition that is at fault. Both read the
same names, so settings that pass the check are registered to the letter, one connection for each
definition in the role that it names.
-/
namespace RadioAdmin

section Names

variable {α : Type} {all : List α} {name : α → String} {text : String}

theorem find?_name_eq_none_iff (hall : ∀ x, x ∈ all) :
    (all.find? fun x => name x == text) = none ↔ ∀ x, name x ≠ text := by
  rw [List.find?_eq_none]
  exact ⟨fun h x hx => h x (hall x) (beq_iff_eq.mpr hx), fun h x _ hx => h x (beq_iff_eq.mp hx)⟩

/-- When all things have names of their own, a name is found exactly if it is that of a thing. -/
theorem find?_name_eq_some_iff (hall : ∀ x, x ∈ all) (hname : ∀ x y, name x = name y → x = y)
    {x : α} : (all.find? fun x => name x == text) = some x ↔ name x = text := by
  cases hfind : all.find? fun x => name x == text with
  | none =>
    rw [find?_name_eq_none_iff hall] at hfind
    exact iff_of_false nofun (hfind x)
  | some found =>
    have hfound : name found = text := by simpa using List.find?_some hfind
    rw [Option.some_inj, ← hfound]
    exact ⟨fun h => h ▸ rfl, fun h => (hname x found h).symm⟩

end Names

variable {text : String}

theorem Role.mem_all (role : Role) : role ∈ Role.all := by
  cases role <;> decide

theorem Role.parse_eq_ok_iff {role : Role} :
    Role.parse text = .ok role ↔ role.name = text.toLower := by
  have hfind : (all.find? fun role => role.name == text.toLower) = some role ↔
      role.name = text.toLower :=
    find?_name_eq_some_iff mem_all (by intro x y; cases x <;> cases y <;> decide)
  rw [← hfind, parse]
  cases all.find? fun role => role.name == text.toLower <;> simp

theorem Role.parse_eq_error_iff {error : NameError} :
    Role.parse text = .error error ↔
      error = .unknownRole text ∧ ∀ role : Role, role.name ≠ text.toLower := by
  have hfind : (all.find? fun role => role.name == text.toLower) = none ↔
      ∀ role : Role, role.name ≠ text.toLower := find?_name_eq_none_iff mem_all
  rw [← hfind, parse]
  cases all.find? fun role => role.name == text.toLower <;> simp [eq_comm]

theorem Transport.mem_all (transport : Transport) : transport ∈ Transport.all := by
  cases transport <;> decide

theorem Transport.parse_eq_ok_iff {transport : Transport} :
    Transport.parse text = .ok transport ↔ transport.name = text.toLower := by
  have hfind : (all.find? fun transport => transport.name == text.toLower) = some transport ↔
      transport.name = text.toLower :=
    find?_name_eq_some_iff mem_all (by intro x y; cases x <;> cases y <;> decide)
  rw [← hfind, parse]
  cases all.find? fun transport => transport.name == text.toLower <;> simp

theorem Transport.parse_eq_error_iff {error : NameError} :
    Transport.parse text = .error error ↔
      error = .unknownTransport text ∧ ∀ transport : Transport, transport.name ≠ text.toLower := by
  have hfind : (all.find? fun transport => transport.name == text.toLower) = none ↔
      ∀ transport : Transport, transport.name ≠ text.toLower := find?_name_eq_none_iff mem_all
  rw [← hfind, parse]
  cases all.find? fun transport => transport.name == text.toLower <;> simp [eq_comm]

namespace Settings

/-- What is wrong with a definition that comes after others. -/
def Faulty (earlier : List ConnectionDefinition) (definition : ConnectionDefinition) :
    DefinitionFault → Prop
  | .missingId => definition.id = ""
  | .duplicateId => definition.id ∈ earlier.map ConnectionDefinition.id
  | .badName (.unknownTransport text) =>
    text = definition.transportName ∧ ∀ transport : Transport, transport.name ≠ text.toLower
  | .badName (.unknownRole text) =>
    text = definition.roleName ∧ ∀ role : Role, role.name ≠ text.toLower

/-- A definition has an identifier and names a transport and a role. -/
def Complete (definition : ConnectionDefinition) : Prop :=
  definition.id ≠ "" ∧
  (∃ transport : Transport, transport.name = definition.transportName.toLower) ∧
  ∃ role : Role, role.name = definition.roleName.toLower

/-- The identifiers that the check has seen after some definitions. -/
def idsSeen (earlier : List ConnectionDefinition) : List String :=
  (earlier.map ConnectionDefinition.id).reverse

variable {earlier definitions : List ConnectionDefinition} {definition : ConnectionDefinition}

theorem mem_idsSeen {id : String} :
    id ∈ idsSeen earlier ↔ id ∈ earlier.map ConnectionDefinition.id := List.mem_reverse

theorem idsSeen_concat (earlier : List ConnectionDefinition) (definition : ConnectionDefinition) :
    idsSeen (earlier ++ [definition]) = definition.id :: idsSeen earlier := by
  rw [idsSeen, List.map_append, List.map_singleton, List.reverse_append, List.reverse_singleton]
  rfl

theorem not_faulty_iff :
    (∀ fault, ¬ Faulty earlier definition fault) ↔
      Complete definition ∧ definition.id ∉ earlier.map ConnectionDefinition.id := by
  constructor
  · intro h
    refine ⟨⟨h .missingId, ?_, ?_⟩, h .duplicateId⟩
    · have htransport := h (.badName (.unknownTransport definition.transportName))
      simpa [Faulty] using htransport
    · have hrole := h (.badName (.unknownRole definition.roleName))
      simpa [Faulty] using hrole
  · rintro ⟨⟨hid, ⟨transport, htransport⟩, role, hrole⟩, hnew⟩ (_ | _ | (_ | _)) hfaulty
    · exact hid hfaulty
    · exact hnew hfaulty
    · exact hfaulty.2 role (hfaulty.1 ▸ hrole)
    · exact hfaulty.2 transport (hfaulty.1 ▸ htransport)

theorem faulty_of_faultAfter {fault : DefinitionFault}
    (h : faultAfter (idsSeen earlier) definition = some fault) :
    Faulty earlier definition fault := by
  rw [faultAfter] at h
  split at h
  · rename_i hid
    obtain rfl := Option.some.inj h
    exact String.isEmpty_iff.mp hid
  · split at h
    · rename_i hold
      obtain rfl := Option.some.inj h
      exact mem_idsSeen.mp (List.contains_iff_mem.mp hold)
    · split at h
      · rename_i error herror
        obtain ⟨rfl, hunknown⟩ := Transport.parse_eq_error_iff.mp herror
        obtain rfl := Option.some.inj h
        exact ⟨rfl, hunknown⟩
      · split at h
        · rename_i error herror
          obtain ⟨rfl, hunknown⟩ := Role.parse_eq_error_iff.mp herror
          obtain rfl := Option.some.inj h
          exact ⟨rfl, hunknown⟩
        · cases h

theorem complete_of_faultAfter (h : faultAfter (idsSeen earlier) definition = none) :
    Complete definition ∧ definition.id ∉ earlier.map ConnectionDefinition.id := by
  rw [faultAfter] at h
  split at h
  · cases h
  · rename_i hid
    split at h
    · cases h
    · rename_i hnew
      split at h
      · cases h
      · rename_i transport htransport
        split at h
        · cases h
        · rename_i role hrole
          exact ⟨⟨fun he => hid (String.isEmpty_iff.mpr he),
            ⟨transport, Transport.parse_eq_ok_iff.mp htransport⟩,
            role, Role.parse_eq_ok_iff.mp hrole⟩,
            fun hmem => hnew (List.contains_iff_mem.mpr (mem_idsSeen.mpr hmem))⟩

theorem faultAfter_eq_none_iff :
    faultAfter (idsSeen earlier) definition = none ↔
      Complete definition ∧ definition.id ∉ earlier.map ConnectionDefinition.id := by
  refine ⟨complete_of_faultAfter, fun h => ?_⟩
  rw [Option.eq_none_iff_forall_ne_some]
  exact fun fault hfault => not_faulty_iff.mpr h fault (faulty_of_faultAfter hfault)

theorem validateAfter_eq_ok_iff (hdistinct : (earlier.map ConnectionDefinition.id).Nodup) :
    validateAfter (idsSeen earlier) definitions = .ok () ↔
      (∀ definition ∈ definitions, Complete definition) ∧
      ((earlier ++ definitions).map ConnectionDefinition.id).Nodup := by
  -- the definition that has been checked goes over to the earlier ones
  induction definitions generalizing earlier with
  | nil =>
    rw [List.append_nil]
    exact iff_of_true rfl ⟨nofun, hdistinct⟩
  | cons definition rest ih =>
    have hnew : ((earlier ++ [definition]).map ConnectionDefinition.id).Nodup ↔
        definition.id ∉ earlier.map ConnectionDefinition.id := by
      rw [List.map_append, List.map_singleton, List.nodup_append_comm, List.singleton_append,
        List.nodup_cons, and_iff_left hdistinct]
    rw [validateAfter, List.append_cons, List.forall_mem_cons]
    cases hfault : faultAfter (idsSeen earlier) definition with
    | some fault =>
      refine iff_of_false nofun ?_
      rintro ⟨⟨hcomplete, -⟩, hall⟩
      rw [List.map_append] at hall
      have hfresh := hnew.mp (List.nodup_append.mp hall).1
      exact Option.some_ne_none fault
        (hfault.symm.trans (faultAfter_eq_none_iff.mpr ⟨hcomplete, hfresh⟩))
    | none =>
      obtain ⟨hcomplete, hfresh⟩ := complete_of_faultAfter hfault
      rw [and_iff_right hcomplete, ← ih (hnew.mpr hfresh), idsSeen_concat]

/-- A check that fails tells of the first definition at fault. -/
theorem exists_fault_of_validateAfter {error : SettingsError}
    (h : validateAfter (idsSeen earlier) definitions = .error error) :
    ∃ before definition after fault, definitions = before ++ definition :: after ∧
      (∀ front other back, before = front ++ other :: back →
        ∀ fault, ¬ Faulty (earlier ++ front) other fault) ∧
      Faulty (earlier ++ before) definition fault ∧
      error = .invalidConnection definition.id fault := by
  induction definitions generalizing earlier with
  | nil => cases h
  | cons definition rest ih =>
    rw [validateAfter] at h
    cases hfault : faultAfter (idsSeen earlier) definition with
    | some fault =>
      rw [hfault] at h
      refine ⟨[], definition, rest, fault, rfl, ?_, ?_, (Except.error.inj h).symm⟩
      · exact fun front other back hsplit => absurd hsplit (by simp)
      · rw [List.append_nil]
        exact faulty_of_faultAfter hfault
    | none =>
      rw [hfault, ← idsSeen_concat] at h
      obtain ⟨before, found, after, fault, rfl, hbefore, hfound, rfl⟩ := ih h
      refine ⟨definition :: before, found, after, fault, rfl, ?_, ?_, rfl⟩
      · rintro front other back hsplit
        rcases List.cons_eq_append_iff.mp hsplit with ⟨rfl, hfirst⟩ | ⟨front, rfl, hrest⟩
        · obtain ⟨rfl, rfl⟩ := List.cons_eq_cons.mp hfirst
          rw [List.append_nil]
          exact not_faulty_iff.mpr (complete_of_faultAfter hfault)
        · rw [List.append_cons]
          exact hbefore front other back hrest
      · rw [List.append_cons]
        exact hfound

/-- Complete definitions are usable when the factory refuses none. -/
theorem usable_of_complete {factory : LinkFactory}
    (hfactory : ∀ definition transport, factory definition transport ≠ none)
    (h : Complete definition) : Startup.Usable factory definition := by
  obtain ⟨hid, ⟨transport, htransport⟩, -⟩ := h
  obtain ⟨choice, hchoice⟩ := Option.ne_none_iff_exists'.mp (hfactory definition transport)
  exact ⟨hid, transport, choice, Transport.parse_eq_ok_iff.mpr htransport, hchoice⟩

theorem parse_roleName_of_complete (h : Complete definition) :
    Role.parse definition.roleName = .ok definition.role := by
  obtain ⟨-, -, role, hrole⟩ := h
  rw [ConnectionDefinition.role, Role.parse_eq_ok_iff.mpr hrole]

theorem validate_eq_ok_iff (settings : Settings) :
    settings.validate = .ok () ↔
      (∀ definition ∈ settings.connections, Complete definition) ∧
      (settings.connections.map ConnectionDefinition.id).Nodup := by
  have hnone : (([] : List ConnectionDefinition).map ConnectionDefinition.id).Nodup := .nil
  exact validateAfter_eq_ok_iff hnone

/-- The strict check accepts settings exactly if every definition has an identifier of its own and
names a transport and a role; otherwise it tells of the first one that does not. Settings that it
accepts are registered to the letter, over whatever links the factory gives: one connection for each
definition in order, in the role that the definition names. -/
theorem validate_agrees_with_startup (settings : Settings) :
    (settings.validate = .ok () ↔
      (∀ definition ∈ settings.connections, definition.id ≠ "" ∧
        (∃ transport : Transport, transport.name = definition.transportName.toLower) ∧
        ∃ role : Role, role.name = definition.roleName.toLower) ∧
      (settings.connections.map ConnectionDefinition.id).Nodup) ∧
    (∀ error, settings.validate = .error error →
      ∃ before definition after fault, settings.connections = before ++ definition :: after ∧
        (∀ front other back, before = front ++ other :: back →
          ∀ fault, ¬ Faulty front other fault) ∧
        Faulty before definition fault ∧ error = .invalidConnection definition.id fault) ∧
    (settings.validate = .ok () → ∀ (factory : LinkFactory) (links : Links),
      (∀ definition transport, factory definition transport ≠ none) →
      (Startup.registerAll factory ⟨[], links⟩ settings.connections).2 =
        settings.connections.length ∧
      List.Forall₂ (fun definition connection =>
          connection.id = definition.id ∧
          Transport.parse definition.transportName = .ok connection.transport ∧
          Role.parse definition.roleName = .ok connection.role ∧
          connection.description = definition.description ∧
          connection.autoConnect = definition.autoConnect)
        settings.connections
        (Startup.registerAll factory ⟨[], links⟩ settings.connections).1.all) := by
  refine ⟨validate_eq_ok_iff settings, fun error herror => ?_,
    fun hvalid factory links hfactory => ?_⟩
  · have hstart : validateAfter (idsSeen []) settings.connections = .error error := herror
    exact exists_fault_of_validateAfter hstart
  obtain ⟨hcomplete, hdistinct⟩ := (validate_eq_ok_iff settings).mp hvalid
  have husable : settings.connections.filter (fun definition => Startup.Usable factory definition) =
      settings.connections :=
    List.filter_eq_self.mpr fun definition hmem =>
      decide_eq_true (usable_of_complete hfactory (hcomplete definition hmem))
  have hids := Startup.map_id_built factory links.length settings.connections
  have hbuilt := Startup.forall₂_built factory links.length settings.connections
  rw [husable] at hids hbuilt
  refine ⟨(Startup.count_registerAll _).trans (congrArg List.length husable), ?_⟩
  rw [Startup.all_registerAll_of_distinct (hids ▸ hdistinct)]
  refine ((List.forall₂_and_left _ _).mpr ⟨hcomplete, hbuilt⟩).imp ?_
  rintro definition connection ⟨hcomplete, transport, choice, link, husable, rfl⟩
  obtain ⟨-, htransport, -⟩ := Startup.usable?_eq_some_iff.mp husable
  exact ⟨rfl, htransport, parse_roleName_of_complete hcomplete, rfl, rfl⟩

/-- Names in capitals pass the check and are registered as meant; a third definition under the first
identifier is at fault. -/
theorem validate_agrees_with_startup_capitals :
    let definition (id transport role : String) : ConnectionDefinition :=
      { ConnectionDefinition.empty with id := id, transportName := transport, roleName := role }
    let sound : List ConnectionDefinition :=
      [definition "a" "TCP" "Admin", definition "b" "serial" "CLIENT"]
    let settings : Settings := { Settings.default with connections := sound }
    let repeated : Settings :=
      { Settings.default with connections := sound ++ [definition "a" "tcp" "client"] }
    let factory : LinkFactory := fun _ _ => some (.created Link.plain)
    (settings.validate = .ok () ∧ (∀ definition transport, factory definition transport ≠ none) ∧
      (Startup.registerAll factory ⟨[], []⟩ sound).2 = 2 ∧
      List.Forall₂ (fun definition connection =>
          connection.id = definition.id ∧
          Role.parse definition.roleName = .ok connection.role)
        sound (Startup.registerAll factory ⟨[], []⟩ sound).1.all) ∧
    repeated.validate = .error (.invalidConnection "a" .duplicateId) ∧
    ∃ before definition after, repeated.connections = before ++ definition :: after ∧
      definition.id = "a" ∧ ∃ fault, Faulty before definition fault := by
  intro definition sound settings repeated factory
  obtain ⟨-, -, hregistered⟩ := validate_agrees_with_startup settings
  have hvalid : settings.validate = .ok () := by decide +kernel
  have hfactory : ∀ definition transport, factory definition transport ≠ none := nofun
  obtain ⟨hcount, hall⟩ := hregistered hvalid factory [] hfactory
  have herror : repeated.validate = .error (.invalidConnection "a" .duplicateId) := by
    decide +kernel
  obtain ⟨-, hfailed, -⟩ := validate_agrees_with_startup repeated
  obtain ⟨before, found, after, fault, hsplit, -, hfault, hid⟩ := hfailed _ herror
  obtain ⟨hid, -⟩ := SettingsError.invalidConnection.inj hid
  exact ⟨⟨hvalid, hfactory, hcount, hall.imp fun _ _ h => ⟨h.1, h.2.2.1⟩⟩, herror,
    before, found, after, hsplit, hid.symm, fault, hfault⟩

end Settings

end RadioAdmin
